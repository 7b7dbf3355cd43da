import Corosync.Votequorum.Config
import Corosync.Votequorum.Records

/-!
# Requests to change votes

A client changes the expected votes or the votes of a node with `setexpected` and `setvotes`. Both
handlers compute a trial quorum and multicast a `reconfigure` message, which every member of the
cluster applies in the same order. But both write the records of this node before they multicast,
and neither takes the new value back when the multicast fails.
-/

namespace Corosync.Votequorum

open List

/-- `struct req_lib_votequorum_setexpected` and `struct req_lib_votequorum_setvotes` -/
inductive LibRequest
  | setexpected (expectedVotes : ℕ)
  | setvotes (nodeid : NodeId) (votes : ℕ)
deriving DecidableEq, Repr

namespace Node

variable {n : Node}

/-- Handles a request of a client. -/
def libRequest (n : Node) (request : LibRequest) (queued : Bool) : Response :=
  match request with
  | .setexpected expectedVotes => n.libSetexpected expectedVotes queued
  | .setvotes nodeid votes => n.libSetvotes nodeid votes queued

/-- The votes and the expected votes in a record. -/
def voteRecord (node : ClusterNode) : NodeId × ℕ × ℕ :=
  (node.nodeId, node.votes, node.expectedVotes)

/-- All records, the quorum and the decision are the same. -/
structure Unchanged (n n' : Node) : Prop where
  records : n'.clusterMembersList.map voteRecord = n.clusterMembersList.map voteRecord
  qdeviceVotes : n'.qdeviceVotes = n.qdeviceVotes
  quorum : n'.quorum = n.quorum
  clusterIsQuorate : n'.clusterIsQuorate = n.clusterIsQuorate

/-- The votes in the records that a request for a node id is about. -/
def votesOf (n : Node) (nodeid : NodeId) : List ℕ :=
  if nodeid ≠ n.us.nodeId ∧ nodeid = qdeviceNodeid then [n.qdeviceVotes]
  else (n.clusterMembersList.filter (·.nodeId = nodeid)).map (·.votes)

/-- A request that is refused by the check, or asks for what is already in the records. -/
def Idle (n : Node) : LibRequest → Prop
  | .setexpected expectedVotes =>
    n.RejectsExpected expectedVotes ∨ expectedVotes = 0 ∨
      ∀ node ∈ n.members, node.expectedVotes = expectedVotes
  | .setvotes nodeid votes =>
    (∀ changed, n.setNodeVotes nodeid votes = some changed → changed.RejectsVotes) ∨
      ∀ old ∈ n.votesOf nodeid, old = votes

/-- A node is unchanged as it is. -/
theorem Unchanged.refl (n : Node) : Unchanged n n := ⟨rfl, rfl, rfl, rfl⟩

/-- A change of records that changes none of them. -/
theorem mapNodes_eq_self {change : ClusterNode → ClusterNode}
    (h : ∀ node ∈ n.clusterMembersList, change node = node) : n.mapNodes change = n := by
  have hsame : ∀ list ⊆ n.clusterMembersList, list.map change = list := by
    intro list hsub
    calc list.map change = list.map id := map_congr_left fun node hmem => h node (hsub hmem)
      _ = list := map_id list
  have hus : change n.us = n.us := h n.us (by simp [clusterMembersList])
  unfold mapNodes
  rw [hus, hsame n.before (by simp [clusterMembersList]),
    hsame n.after (by simp [clusterMembersList])]

/-- Where the records as a whole are unchanged every single one is. -/
theorem Unchanged.voteRecord_eq {change : ClusterNode → ClusterNode} {node : ClusterNode}
    (h : Unchanged n (n.mapNodes change)) (hmem : node ∈ n.clusterMembersList) :
    voteRecord (change node) = voteRecord node := by
  have hrecords := h.records
  rw [clusterMembersList_mapNodes, map_map] at hrecords
  exact map_inj_left.mp hrecords node hmem

/-- The expected votes are written unless they are zero or what the members have already. -/
theorem updateNodeExpectedVotes_eq_self {expectedVotes : ℕ}
    (h : expectedVotes = 0 ∨ ∀ node ∈ n.members, node.expectedVotes = expectedVotes) :
    n.updateNodeExpectedVotes expectedVotes = n := by
  unfold updateNodeExpectedVotes
  split
  · rename_i hne
    refine mapNodes_eq_self fun node hmem => ite_eq_right_iff.mpr fun hstate => ?_
    have hmember : node ∈ n.members := mem_filter.mpr ⟨hmem, by simpa using hstate⟩
    rw [← h.resolve_left hne node hmember]
  · rfl

/-- Expected votes that change nothing are those the members have. -/
theorem Unchanged.expectedVotes {expectedVotes : ℕ}
    (h : Unchanged n (n.updateNodeExpectedVotes expectedVotes)) :
    expectedVotes = 0 ∨ ∀ node ∈ n.members, node.expectedVotes = expectedVotes := by
  refine or_iff_not_imp_left.mpr fun hne node hmember => ?_
  obtain ⟨hmem, hstate⟩ := mem_filter.mp hmember
  rw [updateNodeExpectedVotes, if_pos hne] at h
  have hrecord := h.voteRecord_eq hmem
  rw [if_pos (by simpa using hstate)] at hrecord
  exact (congrArg (·.2.2) hrecord).symm

section

variable {nodeid : NodeId} {votes : ℕ} {changed : Node}
  (hchanged : n.setNodeVotes nodeid votes = some changed)

include hchanged

/-- What is assigned for a node id other than that of the quorum device. -/
theorem setNodeVotes_eq_some (hnode : ¬(nodeid ≠ n.us.nodeId ∧ nodeid = qdeviceNodeid)) :
    changed = n.updateNode nodeid ({ · with votes := votes }) := by
  unfold setNodeVotes at hchanged
  split at hchanged
  · exact (Option.some.inj hchanged).symm
  · rename_i hus
    rw [if_neg fun h => hnode ⟨hus, h⟩] at hchanged
    split at hchanged
    · exact (Option.some.inj hchanged).symm
    · exact absurd hchanged nofun

/-- The votes of a record are written unless it has them already. -/
theorem setNodeVotes_eq_self (h : ∀ old ∈ n.votesOf nodeid, old = votes) : changed = n := by
  unfold votesOf at h
  split at h
  · rename_i hdevice
    rw [setNodeVotes, if_neg hdevice.1, if_pos hdevice.2] at hchanged
    rw [← Option.some.inj hchanged, ← h n.qdeviceVotes mem_cons_self]
  rename_i hnode
  rw [setNodeVotes_eq_some hchanged hnode]
  refine mapNodes_eq_self fun node hmem => ite_eq_right_iff.mpr fun hid => ?_
  have hfound : node ∈ n.clusterMembersList.filter (·.nodeId = nodeid) :=
    mem_filter.mpr ⟨hmem, by simpa using hid⟩
  rw [← h node.votes (mem_map_of_mem hfound)]

/-- Votes that change nothing are those the node has. -/
theorem Unchanged.votesOf (h : Unchanged n changed) : ∀ old ∈ n.votesOf nodeid, old = votes := by
  unfold Node.votesOf
  split
  · rename_i hdevice
    rw [setNodeVotes, if_neg hdevice.1, if_pos hdevice.2] at hchanged
    rw [← Option.some.inj hchanged] at h
    exact forall_mem_singleton.mpr h.qdeviceVotes.symm
  · rename_i hnode
    rw [setNodeVotes_eq_some hchanged hnode] at h
    intro old hold
    obtain ⟨node, hfound, rfl⟩ := mem_map.mp hold
    obtain ⟨hmem, hid⟩ := mem_filter.mp hfound
    have hrecord := h.voteRecord_eq hmem
    rw [if_pos (by simpa using hid)] at hrecord
    exact (congrArg (·.2.1) hrecord).symm

end

/-- A request that asks for what is there changes nothing. -/
theorem Idle.libRequest_node {request : LibRequest} (h : n.Idle request) (queued : Bool) :
    (n.libRequest request queued).node = n := by
  cases request with
  | setexpected _ =>
    unfold libRequest libSetexpected
    dsimp only
    split
    · rfl
    · rename_i hadmitted
      rw [sendReconfigure_node]
      exact updateNodeExpectedVotes_eq_self (Or.resolve_left h hadmitted)
  | setvotes nodeid votes =>
    unfold libRequest libSetvotes
    dsimp only
    cases hchanged : n.setNodeVotes nodeid votes with
    | none => rfl
    | some changed =>
      dsimp only
      split
      · rfl
      · rename_i hadmitted
        rw [sendReconfigure_node]
        exact setNodeVotes_eq_self hchanged
          (Or.resolve_left h fun hrejects => hadmitted (hrejects changed hchanged))

/-- Only such a request changes nothing. -/
theorem Unchanged.idle {request : LibRequest} {queued : Bool}
    (h : Unchanged n (n.libRequest request queued).node) : n.Idle request := by
  cases request with
  | setexpected _ =>
    refine or_iff_not_imp_left.mpr fun hadmitted => ?_
    rw [libRequest, libSetexpected, if_neg hadmitted, sendReconfigure_node] at h
    exact h.expectedVotes
  | setvotes nodeid votes =>
    cases hchanged : n.setNodeVotes nodeid votes with
    | none => exact .inl fun changed hsome => by simp [hchanged] at hsome
    | some changed =>
      by_cases hrejects : changed.RejectsVotes
      · refine .inl fun other hother => ?_
        rwa [← Option.some.inj (hchanged.symm.trans hother)]
      · rw [libRequest, libSetvotes, hchanged] at h
        dsimp only at h
        rw [if_neg hrejects, sendReconfigure_node] at h
        exact .inr (h.votesOf hchanged)

/-- Whether a client gets an error or not, its request leaves the votes, the expected votes, the
quorum and the decision of the node unchanged if and only if it is refused by the check or asks for
what is in the records already. The node is then the same in every respect, so that until the
message is delivered it does what it would have done without the request. -/
theorem libRequest_unchanged_iff (n : Node) (request : LibRequest) (queued : Bool) :
    (Unchanged n (n.libRequest request queued).node ↔ n.Idle request) ∧
      (Unchanged n (n.libRequest request queued).node →
        (n.libRequest request queued).node = n) := by
  refine ⟨⟨Unchanged.idle, fun hidle => ?_⟩, fun h => h.idle.libRequest_node queued⟩
  rw [hidle.libRequest_node queued]
  exact .refl n

/-- The first of three members with one vote each. -/
def quorateOfThree : Node :=
  { zero 1 none with
    us := ⟨1, .member, 1, 3, { quorate := true }⟩
    after := [⟨2, .member, 1, 3, { quorate := true }⟩, ⟨3, .member, 1, 3, { quorate := true }⟩]
    quorumMembers := [1, 2, 3]
    quorum := 2
    clusterIsQuorate := true }

/-- A client of one of three members asks for five expected votes. The multicast fails and the
client gets an error, but the members have five expected votes in the records of this node, and its
next recalculation needs all three votes. Where the multicast succeeds the node announces the five
votes before the message is delivered. -/
theorem expected_votes_kept_after_error :
    let failed := quorateOfThree.libRequest (.setexpected 5) false
    let queued := quorateOfThree.libRequest (.setexpected 5) true
    failed.answer = .noResources ∧ failed.sent = [] ∧ ¬Unchanged quorateOfThree failed.node ∧
      (quorateOfThree.recalculateQuorum false false).quorum = 2 ∧
      (failed.node.recalculateQuorum false false).quorum = 3 ∧
      queued.answer = .ok ∧ ¬Unchanged quorateOfThree queued.node ∧
      queued.node.nodeinfo.expectedVotes = 5 := by
  refine ⟨by decide, by decide, fun h => ?_, by decide, by decide, by decide, fun h => ?_,
    by decide⟩
  · exact absurd h.records (by decide)
  · exact absurd h.records (by decide)

end Node

end Corosync.Votequorum
