import Corosync.Library.Tally
import Corosync.Votequorum.Config
import Corosync.Votequorum.Decision

/-!
# The guard of the tie breaker

A partition with half of the expected votes can be made quorate by the tie breaker. The guard in
front of it compares the number of members that were lost with the quorum, which is a number of
votes, as if each of them had one. The guard keeps its promise as long as the votes it overlooks
fit into the room it leaves below the quorum.
-/

namespace Corosync.Votequorum

open Library

namespace Node

variable {n : Node} {votes : NodeId → ℕ}

/-- A node of a partition of the previous members: the members it counts are those of the current
list, with the votes assigned to them, and its quorum is one that `calculate_quorum` computes. -/
structure Split (votes : NodeId → ℕ) (n : Node) : Prop where
  positive : ∀ a, 0 < votes a
  previousNodup : n.previousQuorumMembers.Nodup
  nodup : n.quorumMembers.Nodup
  subset : n.quorumMembers ⊆ n.previousQuorumMembers
  counted : (n.members.map fun node => (node.nodeId, node.votes)).Perm
    (n.quorumMembers.map fun a => (a, votes a))
  computed : ∃ (old : ℕ) (allowDecrease : Bool) (maxExpected : ℕ),
    n.quorum = { n with quorum := old }.calculateQuorum allowDecrease maxExpected % 2 ^ 8

/-- The previous members that are not in the partition of the node. -/
def lostMembers (n : Node) : List NodeId :=
  n.previousQuorumMembers.filter fun a => a ∉ n.quorumMembers

/-- The votes of the lost members. -/
def lostVotes (votes : NodeId → ℕ) (n : Node) : ℕ := tally votes n.lostMembers

/-- The votes of the lost members beyond one for each, which a number of nodes does not show. -/
def overlookedVotes (votes : NodeId → ℕ) (n : Node) : ℕ :=
  tally (fun a => votes a - 1) n.lostMembers

/-- `are_we_quorate` gets past wait for all and grants quorum in the branch of the tie breaker. -/
def TieBroken (n : Node) (totalVotes : ℕ) : Prop :=
  ¬(n.waitForAll ∧ n.waitForAllStatus ∧ totalVotes ≠ n.us.expectedVotes) ∧
    (n.rememberIds totalVotes).tieBreak totalVotes = true

instance (n : Node) (totalVotes : ℕ) : Decidable (n.TieBroken totalVotes) :=
  inferInstanceAs (Decidable (_ ∧ _))

/-- The guard of the branch: fewer members than the quorum were lost. -/
theorem TieBroken.lost_lt_quorum {totalVotes : ℕ} (h : n.TieBroken totalVotes) :
    (n.previousQuorumMembers.length : ℤ) - n.quorumMembers.length < n.quorum := by
  have hbreak := h.2
  unfold rememberIds at hbreak
  split at hbreak <;>
    simp only [tieBreak, Bool.and_eq_true, decide_eq_true_eq] at hbreak <;> exact hbreak.1.2

/-- The number of lost members is the difference the guard computes. -/
theorem Split.length_lostMembers (h : Split votes n) :
    n.previousQuorumMembers.length = n.quorumMembers.length + n.lostMembers.length := by
  have hsplit : tally (fun _ => 1) n.previousQuorumMembers = _ :=
    tally_eq_add_others h.nodup h.previousNodup h.subset
  simpa only [tally_one fun _ _ => rfl, lostMembers] using hsplit

/-- The first two of four nodes after the other two were lost. All records have the same expected
votes. -/
def firstHalf (votes : NodeId → ℕ) (expectedVotes quorum : ℕ) : Node :=
  { zero 1 none with
    autoTieBreaker := .lowest
    lowestNodeId := 1
    highestNodeId := 4
    quorumMembers := [1, 2]
    previousQuorumMembers := [1, 2, 3, 4]
    us := ⟨1, .member, votes 1, expectedVotes, {}⟩
    before := []
    after := [⟨2, .member, votes 2, expectedVotes, {}⟩, ⟨3, .dead, votes 3, expectedVotes, {}⟩,
      ⟨4, .dead, votes 4, expectedVotes, {}⟩]
    quorum := quorum }

/-- The nodes of `firstHalf` are a partition of four, with whatever votes. -/
theorem split_firstHalf (votes : NodeId → ℕ) (expectedVotes quorum : ℕ)
    (hpositive : ∀ a, 0 < votes a)
    (hquorum : quorum = (firstHalf votes expectedVotes 0).calculateQuorum true 0 % 2 ^ 8) :
    Split votes (firstHalf votes expectedVotes quorum) where
  positive := hpositive
  previousNodup := by simp [firstHalf]
  nodup := by simp [firstHalf]
  subset := by simp [firstHalf]
  counted := .refl _
  computed := ⟨0, true, 0, hquorum⟩

end Node

end Corosync.Votequorum
