import Corosync.Votequorum.Records

/-!
# The decision

What `are_we_quorate` decides without wait for all, and what the decision is based on.
-/

namespace Corosync.Votequorum

open List

/-- A bound of all values bounds their maximum. -/
theorem foldl_max_le {values : List ℕ} {start bound : ℕ} (hstart : start ≤ bound)
    (hvalues : ∀ value ∈ values, value ≤ bound) : values.foldl max start ≤ bound := by
  induction values generalizing start with
  | nil => exact hstart
  | cons value _ ih =>
    exact ih (Nat.max_le.mpr ⟨hstart, hvalues value mem_cons_self⟩)
      fun other hmem => hvalues other (mem_cons_of_mem _ hmem)

/-- The maximum is at least each value. -/
theorem le_foldl_max {values : List ℕ} {start value : ℕ}
    (hvalue : value ≤ start ∨ value ∈ values) : value ≤ values.foldl max start := by
  induction values generalizing start with
  | nil => exact hvalue.resolve_right not_mem_nil
  | cons _ _ ih =>
    refine ih ?_
    obtain hle | hmem := hvalue
    · exact .inl (Nat.le_trans hle (Nat.le_max_left _ _))
    · obtain rfl | hmem := mem_cons.mp hmem
      · exact .inl (Nat.le_max_right _ _)
      · exact .inr hmem

namespace Node

variable {n : Node} {totalVotes : ℕ}

/-- This node is a member. -/
theorem us_mem_members (hus : n.us.state = .member) : n.us ∈ n.members :=
  mem_filter.mpr ⟨by simp [clusterMembersList], decide_eq_true hus⟩

/-- The expected votes of this node count if it is a member. -/
theorem expectedVotes_le_highestExpected (hus : n.us.state = .member) :
    n.us.expectedVotes ≤ n.highestExpected :=
  le_foldl_max (.inr (mem_map_of_mem (us_mem_members hus)))

/-- A bound of what the members expect. -/
theorem highestExpected_le {bound : ℕ} (hmembers : ∀ node ∈ n.members, node.expectedVotes ≤ bound) :
    n.highestExpected ≤ bound := by
  refine foldl_max_le (Nat.zero_le _) fun value hmem => ?_
  obtain ⟨node, hnode, rfl⟩ := mem_map.mp hmem
  exact hmembers node hnode

/-- All members expect the same votes, if there is one. -/
theorem highestExpected_eq_of_members {expected : ℕ}
    (hmembers : ∀ node ∈ n.members, node.expectedVotes = expected) :
    n.highestExpected = if n.members = [] then 0 else expected := by
  split
  · rename_i hnil
    rw [highestExpected, hnil]
    rfl
  · rename_i hne
    obtain ⟨node, hnode⟩ := exists_mem_of_ne_nil _ hne
    refine Nat.le_antisymm (highestExpected_le fun node hnode => (hmembers node hnode).le) ?_
    rw [← hmembers node hnode]
    exact le_foldl_max (.inr (mem_map_of_mem hnode))

/-- Without wait for all the status is not changed by a quorate node. -/
theorem heedQuorateNode_of_not_waitForAll (hwait : n.waitForAll = false) (nodeid : NodeId) :
    n.heedQuorateNode nodeid = n := by
  unfold heedQuorateNode
  split
  · rw [hwait]
    rfl
  · rfl

/-- Votes that reach the quorum are quorate. -/
theorem isQuorate_of_le (h : n.quorum ≤ totalVotes) : n.isQuorate totalVotes = true := by
  simp [isQuorate, h]

/-- Which ids a node remembers does not matter where its votes reach the quorum. -/
theorem isQuorate_rememberIds (n : Node) (totalVotes : ℕ) :
    (n.rememberIds totalVotes).isQuorate totalVotes = n.isQuorate totalVotes := by
  unfold rememberIds
  split
  · rename_i h
    rw [isQuorate_of_le h]
    exact isQuorate_of_le (by exact h)
  · rfl

/-- Without wait for all a decision is taken in any case. -/
theorem areWeQuorate_of_not_waitForAll (hwait : n.waitForAll = false) (totalVotes : ℕ) :
    n.areWeQuorate totalVotes =
      n.decided (n.isQuorate totalVotes) n.us.flags.wfastatus (n.isQuorate totalVotes)
        n.waitForAllStatus n.assertionFailed (n.rememberIds totalVotes).lowestNodeId
        (n.rememberIds totalVotes).highestNodeId := by
  unfold areWeQuorate
  simp only [hwait, Bool.false_eq_true, false_and, if_false, isQuorate_rememberIds]
  unfold setQuorate rememberIds changeFlags decided
  split <;> simp [hwait]

/-- What a node knows about its members does not change with its decision. -/
theorem any_members_decided (n : Node) {p : ClusterNode → Bool}
    (hp : ∀ (node : ClusterNode) (flags : Flags), flags.base = node.flags.base →
      p ⟨node.nodeId, node.state, node.votes, node.expectedVotes, flags⟩ = p node)
    (quorate wfastatus clusterIsQuorate status assertionFailed : Bool) (lowest highest : Int) :
    (n.decided quorate wfastatus clusterIsQuorate status assertionFailed lowest
      highest).members.any p = n.members.any p := by
  have hus := hp n.us { n.us.flags with quorate := quorate, wfastatus := wfastatus } rfl
  unfold members clusterMembersList decided
  by_cases hstate : n.us.state = .member
  · rw [hstate] at hus
    simp [hstate, hus]
  · simp [hstate]

/-- The search through the list of tie breaking nodes depends on the member lists only. -/
theorem searchAtbNodelist_congr {n' : Node} (hmembers : n'.quorumMembers = n.quorumMembers)
    (hprevious : n'.previousQuorumMembers = n.previousQuorumMembers) (passed list : List NodeId) :
    n'.searchAtbNodelist passed list = n.searchAtbNodelist passed list := by
  induction list generalizing passed with
  | nil => rfl
  | cons _ _ ih => rw [searchAtbNodelist, searchAtbNodelist, ih, hmembers, hprevious]

/-- The tie breaker depends on the settings, the member lists and the remembered ids. -/
theorem checkAutoTieBreaker_congr {n' : Node} (hsettings : n'.toSettings = n.toSettings)
    (hmembers : n'.quorumMembers = n.quorumMembers)
    (hprevious : n'.previousQuorumMembers = n.previousQuorumMembers)
    (hlow : n'.checkLowNodeIdPartition = n.checkLowNodeIdPartition)
    (hhigh : n'.checkHighNodeIdPartition = n.checkHighNodeIdPartition) :
    n'.checkAutoTieBreaker = n.checkAutoTieBreaker := by
  unfold checkAutoTieBreaker
  rw [hsettings, hlow, hhigh, searchAtbNodelist_congr hmembers hprevious]

/-- A decision that remembers nothing new does not change what it is based on. -/
theorem isQuorate_decided (n : Node) (totalVotes : ℕ)
    (quorate wfastatus clusterIsQuorate status assertionFailed : Bool) :
    (n.decided quorate wfastatus clusterIsQuorate status assertionFailed n.lowestNodeId
      n.highestNodeId).isQuorate totalVotes = n.isQuorate totalVotes := by
  have hmaster : (n.decided quorate wfastatus clusterIsQuorate status assertionFailed
      n.lowestNodeId n.highestNodeId).checkQdeviceMaster = n.checkQdeviceMaster := by
    refine any_members_decided n (fun node flags hflags => ?_) _ _ _ _ _ _ _
    have hwins := congrArg Flags.qdeviceMasterWins hflags
    have hcast := congrArg Flags.qdeviceCastVote hflags
    simp only [Flags.base] at hwins hcast
    simp only [hwins, hcast]
  have hids : ∀ nodeid : Int, (n.decided quorate wfastatus clusterIsQuorate status assertionFailed
      n.lowestNodeId n.highestNodeId).members.any (·.nodeId = nodeid) =
        n.members.any (·.nodeId = nodeid) := fun nodeid =>
    any_members_decided n (fun _ _ _ => rfl) _ _ _ _ _ _ _
  have htie : (n.decided quorate wfastatus clusterIsQuorate status assertionFailed
      n.lowestNodeId n.highestNodeId).checkAutoTieBreaker = n.checkAutoTieBreaker :=
    checkAutoTieBreaker_congr rfl rfl rfl (hids _) (hids _)
  unfold isQuorate tieBreak
  rw [hmaster, htie]
  rfl

/-- Unless the node still waits for all nodes, it takes the decision. -/
theorem clusterIsQuorate_areWeQuorate_eq (n : Node) (totalVotes : ℕ) :
    (n.areWeQuorate totalVotes).clusterIsQuorate =
      if n.waitForAll ∧ n.waitForAllStatus ∧ totalVotes ≠ n.us.expectedVotes then n.clusterIsQuorate
      else n.isQuorate totalVotes := by
  have hset : ∀ (m : Node) (quorate : Bool), (m.setQuorate quorate).clusterIsQuorate = quorate := by
    intro m quorate
    unfold setQuorate
    dsimp only
    split <;> rfl
  unfold areWeQuorate
  split
  · rfl
  dsimp only
  rw [hset, isQuorate_rememberIds]
  split
  · -- ending the wait changes nothing that the decision depends on
    exact n.isQuorate_decided totalVotes n.us.flags.quorate false n.clusterIsQuorate false
      n.assertionFailed
  · rfl

/-- Without wait for all the decision holds of the node it leaves. -/
theorem clusterIsQuorate_areWeQuorate (hwait : n.waitForAll = false) (totalVotes : ℕ) :
    (n.areWeQuorate totalVotes).clusterIsQuorate =
      (n.areWeQuorate totalVotes).isQuorate totalVotes := by
  rw [areWeQuorate_of_not_waitForAll hwait]
  by_cases h : n.quorum ≤ totalVotes
  · exact (isQuorate_of_le h).trans (isQuorate_of_le (by exact h)).symm
  · have hsame : n.rememberIds totalVotes = n := if_neg h
    rw [hsame]
    exact (n.isQuorate_decided totalVotes _ _ _ _ _).symm

/-- Without a tie breaker and without the override of the quorum device the votes decide. -/
theorem isQuorate_of_votes (htie : n.autoTieBreaker = .none)
    (hmaster : n.qdeviceMasterWins = false) (totalVotes : ℕ) :
    n.isQuorate totalVotes = Decidable.decide (n.quorum ≤ totalVotes) := by
  simp [isQuorate, tieBreak, htie, hmaster]

/-- With wait for all either nothing is decided, since the node still waits, or the votes decide and
the node waits from now on if it is not quorate. -/
theorem areWeQuorate_of_waitForAll (hwait : n.waitForAll = true) (htie : n.autoTieBreaker = .none)
    (hmaster : n.qdeviceMasterWins = false) (totalVotes : ℕ) :
    (n.waitForAllStatus = true ∧
      (n.areWeQuorate totalVotes).waitForAllStatus = n.waitForAllStatus ∧
      (n.areWeQuorate totalVotes).clusterIsQuorate = n.clusterIsQuorate) ∨
    ((n.areWeQuorate totalVotes).clusterIsQuorate = Decidable.decide (n.quorum ≤ totalVotes) ∧
      (n.areWeQuorate totalVotes).waitForAllStatus =
        !Decidable.decide (n.quorum ≤ totalVotes)) := by
  have hset : ∀ (m : Node) (quorate : Bool), m.waitForAll = true →
      (m.setQuorate quorate).clusterIsQuorate = quorate ∧
        (m.setQuorate quorate).waitForAllStatus = !quorate := by
    intro m quorate hwait
    have hset : m.setQuorate quorate = { m.changeFlags ({ · with quorate := quorate }) with
        clusterIsQuorate := quorate }.updateWaitForAllStatus (!quorate) := if_pos hwait
    rw [hset]
    exact ⟨rfl, rfl⟩
  unfold areWeQuorate
  split
  · rename_i hwaits
    exact Or.inl ⟨hwaits.2.1, rfl, rfl⟩
  right
  have hsame : ∀ m : Node, m.toSettings = n.toSettings → m.quorum = n.quorum →
      ((m.rememberIds totalVotes).setQuorate
        ((m.rememberIds totalVotes).isQuorate totalVotes)).clusterIsQuorate =
          Decidable.decide (n.quorum ≤ totalVotes) ∧
      ((m.rememberIds totalVotes).setQuorate
        ((m.rememberIds totalVotes).isQuorate totalVotes)).waitForAllStatus =
          !Decidable.decide (n.quorum ≤ totalVotes) := by
    intro m hsettings hquorum
    have hremembered : (m.rememberIds totalVotes).waitForAll = true := by
      unfold rememberIds
      split <;> exact (congrArg Settings.waitForAll hsettings).trans hwait
    obtain ⟨hquorate, hstatus⟩ := hset (m.rememberIds totalVotes)
      ((m.rememberIds totalVotes).isQuorate totalVotes) hremembered
    rw [hquorate, hstatus, isQuorate_rememberIds, isQuorate_of_votes (by rw [hsettings, htie])
      (by rw [hsettings, hmaster]), hquorum]
    exact ⟨rfl, rfl⟩
  dsimp only
  split <;> exact hsame _ rfl rfl

/-- The decision follows from what the node knows now. -/
def Decided (n : Node) : Prop := n.clusterIsQuorate = n.isQuorate n.countVotes.1

/-- It does not matter whether the node synchronises. -/
theorem Decided.setSyncInProgress (hdecided : n.Decided) (syncInProgress : Bool) :
    { n with syncInProgress := syncInProgress }.Decided := by
  have htie : { n with syncInProgress := syncInProgress }.checkAutoTieBreaker =
      n.checkAutoTieBreaker := checkAutoTieBreaker_congr rfl rfl rfl rfl rfl
  unfold Decided isQuorate tieBreak at hdecided ⊢
  rw [htie]
  exact hdecided

end Node

/-- A recalculation leaves the votes that are counted as they are. -/
theorem Kept.countVotes {n n' : Node} (hkept : Kept n n') : n'.countVotes = n.countVotes := by
  have hcast := congrArg Flags.qdeviceCastVote hkept.flags
  have hcast : n'.us.flags.qdeviceCastVote = n.us.flags.qdeviceCastVote := hcast
  unfold Node.countVotes
  rw [hcast, hkept.qdeviceVotes, Node.memberVotes_eq, Node.memberVotes_eq, Node.length_members,
    Node.length_members, hkept.ballots]

end Corosync.Votequorum
