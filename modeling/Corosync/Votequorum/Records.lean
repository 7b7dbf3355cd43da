import Mathlib.Data.List.TakeWhile
import Corosync.Votequorum.Effects

/-!
# The records of the nodes

What the decisions are based on is which nodes have a record, in which state and with how many
votes. A `nodeinfo` message replaces the entry of one node or adds one, and takes the place of a
dead node when the array of records is used up.
-/

namespace Corosync.Votequorum

open List Option ClusterNode

/-- The id, the state and the votes of a node. -/
structure Ballot where
  nodeId : NodeId
  state : NodeState
  votes : ℕ
deriving DecidableEq, Repr

/-- The ballot of a record. -/
def ClusterNode.ballot (node : ClusterNode) : Ballot := ⟨node.nodeId, node.state, node.votes⟩

/-- The ballot a `nodeinfo` message announces. -/
def Nodeinfo.ballot (info : Nodeinfo) : Ballot :=
  ⟨info.nodeid, Node.announcedState info, info.votes⟩

/-- The ballots of all records. -/
def Node.ballots (n : Node) : List Ballot := n.clusterMembersList.map ballot

/-- The ballots of the members. -/
def memberBallots (ballots : List Ballot) : List Ballot := ballots.filter (·.state = .member)

variable {n n' : Node} {nodeid : NodeId}

/-- The members have the ballots of members. -/
theorem map_ballot_members (n : Node) :
    n.members.map ballot = memberBallots n.ballots := by
  rw [Node.members, memberBallots, Node.ballots, List.filter_map]
  rfl

/-- The votes of the members, from the ballots. -/
theorem Node.memberVotes_eq (n : Node) :
    n.memberVotes = ((memberBallots n.ballots).map (·.votes)).sum := by
  rw [← map_ballot_members, List.map_map]
  rfl

/-- The number of members, from the ballots. -/
theorem Node.length_members (n : Node) : n.members.length = (memberBallots n.ballots).length := by
  rw [← map_ballot_members, length_map]

/-- Who is a member, from the ballots. -/
theorem Node.mem_members_iff (n : Node) (nodeid : NodeId) :
    (∃ node ∈ n.members, node.nodeId = nodeid) ↔
      ∃ ballot ∈ memberBallots n.ballots, ballot.nodeId = nodeid := by
  rw [← map_ballot_members]
  simp [ballot]

/-- The ballot of a record does not depend on the expected votes. -/
theorem map_ballot_base (nodes : List ClusterNode) :
    (nodes.map base).map ballot = nodes.map ballot := by
  rw [List.map_map]
  rfl

/-- A recalculation leaves the ballots as they are. -/
theorem Kept.ballots (hkept : Kept n n') : n'.ballots = n.ballots := by
  have hus : n'.us.ballot = n.us.ballot := by
    simp [ballot, hkept.nodeId, hkept.state, hkept.votes]
  have hbefore := congrArg (List.map ballot) hkept.before
  have hafter := congrArg (List.map ballot) hkept.after
  rw [map_ballot_base, map_ballot_base] at hbefore hafter
  simp [Node.ballots, Node.clusterMembersList, hus, hbefore, hafter]

namespace Node

/-- This node has a ballot. -/
theorem ballot_us_mem (n : Node) : n.us.ballot ∈ n.ballots := by
  simp [ballots, clusterMembersList]

/-- A change of all records, on the list of the records. -/
@[simp] theorem clusterMembersList_mapNodes (n : Node) (change : ClusterNode → ClusterNode) :
    (n.mapNodes change).clusterMembersList = n.clusterMembersList.map change := by
  simp [clusterMembersList, mapNodes]

/-- A change of all records that is a change of ballots. -/
theorem ballots_mapNodes (n : Node) (change : ClusterNode → ClusterNode) (f : Ballot → Ballot)
    (hchange : ∀ node, (change node).ballot = f node.ballot) :
    (n.mapNodes change).ballots = n.ballots.map f := by
  have hcomp : ballot ∘ change = f ∘ ballot := funext hchange
  simp [ballots, clusterMembersList, mapNodes, hchange, hcomp]

/-- A change of one record that is a change of its ballot. -/
theorem ballots_updateNode (n : Node) (change : ClusterNode → ClusterNode) (f : Ballot → Ballot)
    (hchange : ∀ node, (change node).ballot = f node.ballot) :
    (n.updateNode nodeid change).ballots =
      n.ballots.map fun ballot => if ballot.nodeId = nodeid then f ballot else ballot := by
  refine ballots_mapNodes n _ _ fun node => ?_
  have hid : node.ballot.nodeId = node.nodeId := rfl
  rw [hid]
  split
  · exact hchange node
  · rfl

/-- The expected votes of this node are not part of the ballots. -/
@[simp] theorem ballots_setExpectedVotes (n : Node) (expectedVotes : ℕ) :
    (n.setExpectedVotes expectedVotes).ballots = n.ballots := by
  simp [ballots, clusterMembersList, setExpectedVotes, ballot]

/-- The flags are not part of the ballots. -/
@[simp] theorem ballots_changeFlags (n : Node) (change : Flags → Flags) :
    (n.changeFlags change).ballots = n.ballots := by
  simp [ballots, clusterMembersList, changeFlags, ballot]

/-- The expected votes of a record are not part of its ballot. -/
@[simp] theorem ballots_assignExpectedVotes (n : Node) (nodeid : NodeId) (expectedVotes : ℕ) :
    (n.assignExpectedVotes nodeid expectedVotes).ballots = n.ballots := by
  rw [assignExpectedVotes, ballots_updateNode n
    (fun node => { node with expectedVotes := expectedVotes }) id fun node => rfl]
  simp

/-- The record of a node that announces itself has the ballot it announces. -/
theorem ballots_updateAnnounced (n : Node) (info : Nodeinfo) :
    (n.updateAnnounced info).ballots =
      n.ballots.map fun ballot =>
        if ballot.nodeId = info.nodeid then info.ballot else ballot := by
  rw [updateAnnounced, ballots_updateNode n _
    (fun ballot => ⟨ballot.nodeId, announcedState info, info.votes⟩) fun node => rfl]
  refine map_congr_left fun ballot _ => ?_
  split
  · rename_i hid
    rw [hid]
    rfl
  · rfl

/-- The node with the record of a `nodeinfo` message, before anything is recalculated. -/
abbrev recorded (n : Node) (info : Nodeinfo) : Node :=
  (n.updateRecord info).checkLastManStanding info

/-- Switching off last man standing leaves the records as they are. -/
theorem checkLastManStanding_eq (n : Node) (info : Nodeinfo) :
    ∃ lastManStanding timer, n.checkLastManStanding info =
      { n with lastManStanding := lastManStanding, lastManStandingTimerSet := timer } := by
  unfold checkLastManStanding
  split <;> exact ⟨_, _, rfl⟩

/-- A `nodeinfo` message replaces the ballot of its node. -/
theorem ballots_recorded (n : Node) (info : Nodeinfo) :
    (n.recorded info).ballots = n.ballots.map fun ballot =>
      if ballot.nodeId = info.nodeid then info.ballot else ballot := by
  obtain ⟨_, _, heq⟩ := (n.updateRecord info).checkLastManStanding_eq info
  have hrecords : (n.recorded info).ballots = (n.updateRecord info).ballots := by
    rw [recorded, heq]
    rfl
  rw [hrecords]
  unfold updateRecord
  dsimp only
  rw [ballots_assignExpectedVotes]
  split
  · rw [ballots_setExpectedVotes, ballots_updateAnnounced]
  · rw [ballots_updateAnnounced]

/-- The end of the `nodeinfo` handler changes the status of wait for all only. -/
theorem heedQuorateNode_eq (n : Node) (nodeid : NodeId) :
    n.heedQuorateNode nodeid = n ∨ n.heedQuorateNode nodeid = n.updateWaitForAllStatus false := by
  unfold heedQuorateNode
  split
  · split
    · exact .inr rfl
    · exact .inl rfl
  · exact .inl rfl

/-- The status of wait for all is not kept, everything else is. -/
theorem kept_updateWaitForAllStatus (n : Node) (status : Bool) :
    Kept n (n.updateWaitForAllStatus status) :=
  { Kept.refl n with }

/-- Besides the record, a `nodeinfo` message about a node changes what a recalculation changes. -/
theorem kept_recordNodeinfo (n : Node) (old : Option ClusterNode) (info : Nodeinfo) :
    Kept (n.recorded info) (n.recordNodeinfo old info) := by
  have hheed : ∀ (n : Node) (nodeid : NodeId), Kept n (n.heedQuorateNode nodeid) := by
    intro n nodeid
    obtain heq | heq := n.heedQuorateNode_eq nodeid
    · rw [heq]
      exact Kept.refl n
    · rw [heq]
      exact n.kept_updateWaitForAllStatus false
  unfold recordNodeinfo
  refine Kept.trans ?_ (hheed _ _)
  split
  · exact kept_recalculate _ _ _
  · exact Kept.refl _

/-- A `nodeinfo` message about the quorum device changes its votes and what a recalculation
changes. -/
theorem kept_qdeviceNodeinfoHandler (n : Node) (sender : NodeId) (info : Nodeinfo) :
    ∃ votes aborted, Kept { n with qdeviceVotes := votes, aborted := aborted }
      (n.qdeviceNodeinfoHandler sender info) := by
  unfold qdeviceNodeinfoHandler
  split
  · exact ⟨n.qdeviceVotes, true, Kept.refl _⟩
  · unfold assignQdeviceVotes
    split
    · exact ⟨_, n.aborted, kept_recalculate _ _ _⟩
    · exact ⟨_, n.aborted, Kept.refl _⟩

/-- A message that announces the votes the quorum device is known to have. -/
theorem qdeviceNodeinfoHandler_of_known {info : Nodeinfo} (hvotes : info.votes = n.qdeviceVotes)
    (sender : NodeId) :
    ∃ aborted, n.qdeviceNodeinfoHandler sender info = { n with aborted := aborted } := by
  unfold qdeviceNodeinfoHandler
  split
  · exact ⟨true, rfl⟩
  rename_i senderNode _
  have hlearned : n.learnedVotes senderNode info = n.qdeviceVotes := by
    unfold learnedVotes
    rw [hvotes]
    split <;> simp
  unfold assignQdeviceVotes
  rw [hlearned, if_neg (fun hne => hne rfl)]
  exact ⟨n.aborted, rfl⟩

/-- When the timer of last man standing expires, at most a recalculation follows. -/
theorem kept_lastManStandingTimerFn (n : Node) :
    Kept { n with lastManStandingTimerSet := false } n.lastManStandingTimerFn := by
  unfold lastManStandingTimerFn
  dsimp only
  split
  · exact kept_recalculate _ true true
  · exact Kept.refl _

/-- The ballots after a `nodeinfo` message of a node with a record. -/
theorem ballots_recordNodeinfo (n : Node) (old : Option ClusterNode) (info : Nodeinfo) :
    (n.recordNodeinfo old info).ballots = n.ballots.map fun ballot =>
      if ballot.nodeId = info.nodeid then info.ballot else ballot := by
  rw [(n.kept_recordNodeinfo old info).ballots, ballots_recorded]

/-- The recalculation after a `nodeinfo` message does not change the votes. -/
theorem memberVotes_recorded (n : Node) (old : Option ClusterNode) (info : Nodeinfo) :
    (n.recorded info).memberVotes = (n.recordNodeinfo old info).memberVotes := by
  rw [memberVotes_eq, memberVotes_eq, (n.kept_recordNodeinfo old info).ballots]

/-- What a `nodeinfo` message of a node with a record changes. -/
theorem recorded_eq (n : Node) (info : Nodeinfo) :
    ∃ us before after lastManStanding timer, n.recorded info = { n with
      us := us
      before := before
      after := after
      lastManStanding := lastManStanding
      lastManStandingTimerSet := timer } := by
  obtain ⟨_, _, heq⟩ := (n.updateRecord info).checkLastManStanding_eq info
  rw [recorded, heq]
  unfold updateRecord
  dsimp only
  split <;> exact ⟨_, _, _, _, _, rfl⟩

/-- The expected votes of this node that a `nodeinfo` message leads to. -/
def adopted (n : Node) (info : Nodeinfo) : ℕ :=
  if n.adopts info then info.expectedVotes else n.us.expectedVotes

/-- The expected votes in the record of a node that announces itself. -/
def announcedExpected (n : Node) (info : Nodeinfo) : ℕ :=
  if info.flags.quorate || n.evTracking then info.expectedVotes else n.adopted info

/-- The record of a node that announces itself. -/
def announcedRecord (n : Node) (info : Nodeinfo) : ClusterNode :=
  ⟨info.nodeid, announcedState info, info.votes, n.announcedExpected info, info.flags⟩

/-- A `nodeinfo` message replaces the record of its node; it may also change the expected votes of
this node. -/
theorem clusterMembersList_recorded (n : Node) (info : Nodeinfo) :
    (n.recorded info).clusterMembersList =
      (n.setExpectedVotes (n.adopted info)).clusterMembersList.map fun node =>
        if node.nodeId = info.nodeid then n.announcedRecord info else node := by
  have hchange : ∀ (nodes : List ClusterNode) (expectedVotes : ℕ),
      (nodes.map fun node => if node.nodeId = info.nodeid then
          { node with flags := info.flags, votes := info.votes, state := announcedState info }
        else node).map (fun node => if node.nodeId = info.nodeid then
          { node with expectedVotes := expectedVotes } else node) =
      nodes.map fun node => if node.nodeId = info.nodeid then
        ⟨info.nodeid, announcedState info, info.votes, expectedVotes, info.flags⟩ else node := by
    intro nodes expectedVotes
    rw [List.map_map]
    refine List.map_congr_left fun node _ => ?_
    by_cases hid : node.nodeId = info.nodeid <;> simp [hid]
  obtain ⟨_, _, heq⟩ := (n.updateRecord info).checkLastManStanding_eq info
  rw [recorded, heq]
  unfold updateRecord updateAnnounced assignExpectedVotes updateNode mapNodes setExpectedVotes
    announcedRecord announcedExpected adopted clusterMembersList
  by_cases hid : n.us.nodeId = info.nodeid <;> by_cases hadopts : n.adopts info = true <;>
    simp [hid, hadopts, hchange]

/-- The record of this node after a `nodeinfo` message. -/
theorem us_recorded (n : Node) (info : Nodeinfo) :
    (n.recorded info).us = if n.us.nodeId = info.nodeid then n.announcedRecord info
      else { n.us with expectedVotes := n.adopted info } := by
  obtain ⟨_, _, heq⟩ := (n.updateRecord info).checkLastManStanding_eq info
  rw [recorded, heq]
  unfold updateRecord updateAnnounced assignExpectedVotes updateNode mapNodes setExpectedVotes
    announcedRecord announcedExpected adopted
  by_cases hid : n.us.nodeId = info.nodeid <;> by_cases hadopts : n.adopts info = true <;>
    simp [hid, hadopts]

/-- A `nodeinfo` message does not change the own id. -/
@[simp] theorem nodeId_recorded (n : Node) (info : Nodeinfo) :
    (n.recorded info).us.nodeId = n.us.nodeId := by
  rw [us_recorded]
  split
  · rename_i hid
    exact hid.symm
  · rfl

/-- Without a recalculation a `nodeinfo` message is not about this node. -/
theorem ne_of_not_recordChanged {old : Option ClusterNode} {info : Nodeinfo}
    (hsame : ¬n.recordChanged old info = true) : info.nodeid ≠ n.us.nodeId := by
  intro hus
  cases old with
  | none => exact hsame rfl
  | some _ => exact hsame (by simp [recordChanged, hus])

/-- What holds of all records, and of the new one of this node. -/
theorem forall_mem_of_us {p : ClusterNode → Prop} {us : ClusterNode}
    (hall : ∀ node ∈ n.clusterMembersList, p node) (hus : p us) :
    ∀ node ∈ ({ n with us := us } : Node).clusterMembersList, p node := by
  intro node hmem
  obtain hbefore | hself := mem_append.mp hmem
  · exact hall node (mem_append_left _ hbefore)
  · obtain rfl | hafter := mem_cons.mp hself
    · exact hus
    · exact hall node (mem_append_right _ (mem_cons_of_mem _ hafter))

/-- A record that is found is one of the node with the id. -/
theorem mem_of_find {node : ClusterNode} (hfind : n.findNodeByNodeid nodeid = some node) :
    node ∈ n.clusterMembersList ∧ node.nodeId = nodeid := by
  unfold findNodeByNodeid at hfind
  unfold clusterMembersList
  split at hfind
  · rename_i hid
    cases hfind
    exact ⟨mem_append_right _ mem_cons_self, hid.symm⟩
  · have hid := find?_some hfind
    refine ⟨?_, of_decide_eq_true hid⟩
    obtain hmem | hmem := mem_append.mp (mem_of_find?_eq_some hfind)
    · exact mem_append_left _ hmem
    · exact mem_append_right _ (mem_cons_of_mem _ hmem)

/-- Without a record there is no ballot with the id. -/
theorem ballot_ne_of_find (hfind : n.findNodeByNodeid nodeid = none) :
    ∀ ballot ∈ n.ballots, ballot.nodeId ≠ nodeid := by
  unfold findNodeByNodeid at hfind
  split at hfind
  · cases hfind
  rename_i hus
  intro ballot hmem hid
  obtain ⟨node, hnode, rfl⟩ := mem_map.mp hmem
  have hnone := find?_eq_none.mp hfind
  unfold clusterMembersList at hnode
  rw [mem_append, mem_cons] at hnode
  obtain hbefore | rfl | hafter := hnode
  · exact hnone node (mem_append_left _ hbefore) (decide_eq_true hid)
  · exact hus hid.symm
  · exact hnone node (mem_append_right _ hafter) (decide_eq_true hid)

/-- The first record with a property, if there is one. -/
theorem exists_takeWhile_dropWhile {larger : ClusterNode → Bool} {nodes : List ClusterNode}
    (hany : nodes.any larger = true) : ∃ node second, larger node = true ∧
      nodes.dropWhile (!larger ·) = node :: second ∧
      nodes = nodes.takeWhile (!larger ·) ++ node :: second := by
  obtain ⟨node, hfind⟩ := isSome_iff_exists.mp
    (find?_isSome.mpr (any_eq_true.mp hany))
  have hlarger := find?_some hfind
  rw [find?_eq_head?_dropWhile_not] at hfind
  obtain ⟨second, hdrop⟩ := head?_eq_some_iff.mp hfind
  refine ⟨node, second, hlarger, hdrop, ?_⟩
  rw [← hdrop, takeWhile_append_dropWhile]

/-- Where `node_add_ordered` puts a record: in front of the first one with a larger id, or in front
of the last one. -/
theorem nodeAddOrdered_split (n : Node) (new : ClusterNode) :
    ∃ first node second, n.clusterMembersList = first ++ node :: second ∧
      (n.nodeAddOrdered new).clusterMembersList = first ++ new :: node :: second ∧
      (∀ other ∈ first, other.nodeId ≤ new.nodeId) ∧
      (new.nodeId < node.nodeId ∨ second = []) := by
  have hnone : ∀ nodes : List ClusterNode,
      ¬ nodes.any (fun node => new.nodeId < node.nodeId) = true →
        ∀ other ∈ nodes, other.nodeId ≤ new.nodeId := by
    intro nodes hany other hother
    rw [Bool.not_eq_true, List.any_eq_false] at hany
    simpa using hany other hother
  have htaken : ∀ nodes : List ClusterNode,
      ∀ other ∈ nodes.takeWhile fun node => !decide (new.nodeId < node.nodeId),
        other.nodeId ≤ new.nodeId := by
    intro nodes other hother
    simpa using mem_takeWhile_imp hother
  unfold nodeAddOrdered clusterMembersList
  dsimp only
  split
  · rename_i hbefore
    obtain ⟨node, second, hlarger, hdrop, hsplit⟩ := exists_takeWhile_dropWhile hbefore
    refine ⟨_, node, second ++ n.us :: n.after, ?_, ?_, htaken n.before,
      .inl (of_decide_eq_true hlarger)⟩
    · conv_lhs => rw [hsplit]
      rw [append_assoc, cons_append]
    · rw [hdrop, append_assoc, cons_append, cons_append]
  · rename_i hbefore
    split
    · rename_i hus
      exact ⟨n.before, n.us, n.after, rfl, by simp, hnone _ hbefore,
        .inl hus⟩
    rename_i hus
    have hfirst : ∀ nodes : List ClusterNode, (∀ other ∈ nodes, other.nodeId ≤ new.nodeId) →
        ∀ other ∈ n.before ++ n.us :: nodes, other.nodeId ≤ new.nodeId := by
      intro nodes hnodes other hother
      rw [mem_append, mem_cons] at hother
      obtain hother | rfl | hother := hother
      · exact hnone _ hbefore other hother
      · simpa using hus
      · exact hnodes other hother
    split
    · rename_i hafter
      obtain ⟨node, second, hlarger, hdrop, hsplit⟩ := exists_takeWhile_dropWhile hafter
      refine ⟨_, node, second, ?_, ?_, hfirst _ (htaken n.after),
        .inl (of_decide_eq_true hlarger)⟩
      · conv_lhs => rw [hsplit]
        rw [append_assoc, cons_append]
      · rw [hdrop, append_assoc, cons_append]
    · rename_i hafter
      split
      · rename_i last hlast
        have hsplit : n.after = n.after.dropLast ++ [last] :=
          (dropLast_append_getLast? last hlast).symm
        refine ⟨n.before ++ n.us :: n.after.dropLast, last, [], ?_, by simp, hfirst _ ?_,
          .inr rfl⟩
        · conv_lhs => rw [hsplit]
          rw [append_assoc, cons_append]
        · exact fun other hother => hnone _ hafter other (dropLast_subset _ hother)
      · rename_i hlast
        rw [getLast?_eq_none_iff] at hlast
        exact ⟨n.before, n.us, [], by rw [hlast], by simp [hlast], hnone _ hbefore, .inr rfl⟩

/-- `node_add_ordered` adds one record. -/
theorem perm_nodeAddOrdered (n : Node) (new : ClusterNode) :
    (n.nodeAddOrdered new).clusterMembersList.Perm (new :: n.clusterMembersList) := by
  obtain ⟨first, node, second, hlist, hadded, -⟩ := n.nodeAddOrdered_split new
  rw [hlist, hadded]
  exact perm_middle

/-- It adds one ballot. -/
theorem ballots_nodeAddOrdered (n : Node) (new : ClusterNode) :
    (n.nodeAddOrdered new).ballots.Perm (new.ballot :: n.ballots) :=
  (n.perm_nodeAddOrdered new).map ballot

/-- The record that `allocate_node` takes when the array is used up. -/
theorem dropDead_split (hdrop : n.dropDead = some n') :
    ∃ first dead second, (n.before ++ n.after).find? (·.state = .dead) = some dead ∧
      n.clusterMembersList = first ++ dead :: second ∧
      n'.clusterMembersList = first ++ second := by
  have herase : ∀ nodes : List ClusterNode, nodes.any (·.state = .dead) = true →
      ∃ first dead second, nodes.find? (·.state = .dead) = some dead ∧
        nodes = first ++ dead :: second ∧ nodes.eraseP (·.state = .dead) = first ++ second := by
    intro nodes hany
    obtain ⟨node, hmem, hdead⟩ := any_eq_true.mp hany
    obtain ⟨found, first, second, hfirst, hfound, hnodes, herase⟩ :=
      exists_of_eraseP (p := fun node : ClusterNode => node.state = .dead) hmem hdead
    refine ⟨first, found, second, ?_, hnodes, herase⟩
    rw [hnodes, find?_append, find?_eq_none.mpr hfirst, none_or]
    exact find?_cons_of_pos (p := fun node : ClusterNode => node.state = .dead) hfound
  unfold dropDead at hdrop
  split at hdrop
  · rename_i hany
    obtain ⟨first, dead, second, hfind, hbefore, herased⟩ := herase n.before hany
    cases hdrop
    refine ⟨first, dead, second ++ n.us :: n.after, ?_, ?_, ?_⟩
    · rw [find?_append, hfind]
      rfl
    · rw [clusterMembersList, hbefore, append_assoc, cons_append]
    · rw [clusterMembersList, herased, append_assoc]
  · rename_i hnone
    obtain ⟨hany, hdrop⟩ := ite_none_right_eq_some.mp hdrop
    obtain ⟨first, dead, second, hfind, hafter, herased⟩ := herase n.after hany
    cases hdrop
    refine ⟨n.before ++ n.us :: first, dead, second, ?_, ?_, ?_⟩
    · rw [Bool.not_eq_true, List.any_eq_false] at hnone
      rw [List.find?_append, List.find?_eq_none.mpr hnone, Option.none_or, hfind]
    · rw [clusterMembersList, hafter, List.append_assoc, List.cons_append]
    · rw [clusterMembersList, herased, append_assoc, cons_append]

/-- The array gets room by the loss of one dead record. -/
theorem perm_dropDead (hdrop : n.dropDead = some n') :
    ∃ dead : ClusterNode, dead.state = .dead ∧
      n.clusterMembersList.Perm (dead :: n'.clusterMembersList) := by
  obtain ⟨first, dead, second, hfind, hlist, hdropped⟩ := dropDead_split hdrop
  refine ⟨dead, by simpa using find?_some hfind, ?_⟩
  rw [hlist, hdropped]
  exact perm_middle

/-- This is the loss of one dead ballot. -/
theorem ballots_dropDead (hdrop : n.dropDead = some n') :
    ∃ dead : Ballot, dead.state = .dead ∧ n.ballots.Perm (dead :: n'.ballots) := by
  obtain ⟨dead, hdead, hperm⟩ := perm_dropDead hdrop
  exact ⟨dead.ballot, hdead, hperm.map ballot⟩

/-- `node_add_ordered` changes the list of records only. -/
theorem nodeAddOrdered_eq (n : Node) (new : ClusterNode) :
    ∃ before after, n.nodeAddOrdered new = { n with before := before, after := after } := by
  unfold nodeAddOrdered
  dsimp only
  split
  · exact ⟨_, _, rfl⟩
  · split
    · exact ⟨_, _, rfl⟩
    · split
      · exact ⟨_, _, rfl⟩
      · split <;> exact ⟨_, _, rfl⟩

/-- Taking a dead record away changes the list of records only. -/
theorem dropDead_eq (hdrop : n.dropDead = some n') :
    ∃ before after, n' = { n with before := before, after := after } := by
  unfold dropDead at hdrop
  split at hdrop
  · exact ⟨_, _, (some.inj hdrop).symm⟩
  · split at hdrop
    · exact ⟨_, _, (some.inj hdrop).symm⟩
    · cases hdrop

/-- `allocate_node` changes the list and the number of records only. -/
theorem allocateNode_eq (halloc : n.allocateNode nodeid = some n') :
    ∃ before after entries,
      n' = { n with before := before, after := after, clusterNodesEntries := entries } := by
  unfold allocateNode at halloc
  split at halloc
  · obtain ⟨before, after, hadd⟩ := nodeAddOrdered_eq
      { n with clusterNodesEntries := n.clusterNodesEntries + 1 } (fresh nodeid)
    rw [hadd] at halloc
    exact ⟨_, _, _, (some.inj halloc).symm⟩
  · obtain ⟨dropped, hdrop, rfl⟩ := map_eq_some_iff.mp halloc
    obtain ⟨_, _, rfl⟩ := dropDead_eq hdrop
    obtain ⟨before, after, hadd⟩ := nodeAddOrdered_eq _ (fresh nodeid)
    exact ⟨_, _, _, hadd⟩

/-- A record after `allocate_node` is the new one or was there before. -/
theorem mem_allocateNode (halloc : n.allocateNode nodeid = some n') {node : ClusterNode}
    (hmem : node ∈ n'.clusterMembersList) : node = fresh nodeid ∨ node ∈ n.clusterMembersList := by
  unfold allocateNode at halloc
  split at halloc
  · cases halloc
    have hperm := perm_nodeAddOrdered { n with clusterNodesEntries := n.clusterNodesEntries + 1 }
      (fresh nodeid)
    exact mem_cons.mp (hperm.mem_iff.mp hmem)
  · obtain ⟨dropped, hdrop, rfl⟩ := map_eq_some_iff.mp halloc
    obtain ⟨dead, -, hperm⟩ := perm_dropDead hdrop
    refine (mem_cons.mp ((perm_nodeAddOrdered _ _).mem_iff.mp hmem)).imp_right fun hmem => ?_
    exact hperm.mem_iff.mpr (mem_cons_of_mem _ hmem)

/-- The ballots that a new record leaves: all of them, or all but a dead one when the array of
records is used up. -/
theorem ballots_allocateNode (halloc : n.allocateNode nodeid = some n') :
    ∃ rest, n'.ballots.Perm (⟨nodeid, .unset, 0⟩ :: rest) ∧
      (n.ballots.Perm rest ∧ n.clusterNodesEntries ≤ processorCountMax + 1 ∧
          n'.clusterNodesEntries = n.clusterNodesEntries + 1 ∨
        ∃ dead : Ballot, dead.state = .dead ∧ n.ballots.Perm (dead :: rest) ∧
          n'.clusterNodesEntries = n.clusterNodesEntries) := by
  have hentries : ∀ (n : Node) (new : ClusterNode),
      (n.nodeAddOrdered new).clusterNodesEntries = n.clusterNodesEntries := by
    intro n new
    obtain ⟨_, _, hadd⟩ := nodeAddOrdered_eq n new
    rw [hadd]
  unfold allocateNode at halloc
  split at halloc
  · rename_i hroom
    cases halloc
    exact ⟨n.ballots, ballots_nodeAddOrdered _ _, .inl ⟨List.Perm.refl _, hroom, hentries _ _⟩⟩
  obtain ⟨dropped, hdrop, rfl⟩ := map_eq_some_iff.mp halloc
  obtain ⟨dead, hdead, hperm⟩ := ballots_dropDead hdrop
  have hdropped : dropped.clusterNodesEntries = n.clusterNodesEntries := by
    obtain ⟨_, _, rfl⟩ := dropDead_eq hdrop
    rfl
  exact ⟨dropped.ballots, ballots_nodeAddOrdered _ _,
    .inr ⟨dead, hdead, hperm, (hentries _ _).trans hdropped⟩⟩

/-- There is a record for a new node unless the array of records is used up and no other node is
dead. -/
theorem allocateNode_isSome
    (hroom : processorCountMax + 1 < n.clusterNodesEntries →
      ∃ node ∈ n.before ++ n.after, node.state = .dead) :
    (n.allocateNode nodeid).isSome := by
  unfold allocateNode
  split
  · rfl
  rename_i hfull
  obtain ⟨node, hmem, hdead⟩ := hroom (by omega)
  rw [isSome_map]
  unfold dropDead
  split
  · rfl
  rename_i hbefore
  split
  · rfl
  · rename_i hafter
    rw [Bool.not_eq_true, List.any_eq_false] at hbefore hafter
    obtain hmem | hmem := List.mem_append.mp hmem
    · exact absurd (decide_eq_true hdead) (hbefore node hmem)
    · exact absurd (decide_eq_true hdead) (hafter node hmem)

/-- An assignment of votes changes the record of the node, or the votes of the quorum device. -/
theorem setNodeVotes_cases {votes : ℕ} (hchanged : n.setNodeVotes nodeid votes = some n') :
    n' = n.updateNode nodeid ({ · with votes := votes }) ∨
      nodeid = qdeviceNodeid ∧ n' = { n with qdeviceVotes := votes } := by
  unfold setNodeVotes at hchanged
  split at hchanged
  · exact .inl (some.inj hchanged).symm
  split at hchanged
  · rename_i hdevice
    exact .inr ⟨hdevice, (some.inj hchanged).symm⟩
  · exact .inl (ite_some_none_eq_some.mp hchanged).2.symm

/-- Sending a `reconfigure` message leaves the node as it is. -/
@[simp] theorem sendReconfigure_node (n : Node) (request : Reconfigure) (queued : Bool) :
    (n.sendReconfigure request queued).node = n := by
  unfold sendReconfigure
  split <;> rfl

/-- A request to change the expected votes is refused, or written and sent. -/
theorem libSetexpected_cases (n : Node) (expectedVotes : ℕ) (queued : Bool) :
    (n.RejectsExpected expectedVotes ∧
        n.libSetexpected expectedVotes queued = ⟨n, .invalidParam, []⟩) ∨
      ¬n.RejectsExpected expectedVotes ∧ n.libSetexpected expectedVotes queued =
        (n.updateNodeExpectedVotes expectedVotes).sendReconfigure (.expectedVotes expectedVotes)
          queued := by
  by_cases hrejects : n.RejectsExpected expectedVotes
  · exact .inl ⟨hrejects, if_pos hrejects⟩
  · exact .inr ⟨hrejects, if_neg hrejects⟩

/-- A request to change the votes of a node finds no record, is refused, or is written and sent. -/
theorem libSetvotes_cases (n : Node) (nodeid : NodeId) (votes : ℕ) (queued : Bool) :
    (n.setNodeVotes nodeid votes = none ∧
        n.libSetvotes nodeid votes queued = ⟨n, .nameNotFound, []⟩) ∨
      ∃ changed, n.setNodeVotes nodeid votes = some changed ∧
        (changed.RejectsVotes ∧ n.libSetvotes nodeid votes queued = ⟨n, .invalidParam, []⟩ ∨
          ¬changed.RejectsVotes ∧ n.libSetvotes nodeid votes queued =
            changed.sendReconfigure (.nodeVotes nodeid votes) queued) := by
  unfold libSetvotes
  cases hchanged : n.setNodeVotes nodeid votes with
  | none => exact .inl ⟨rfl, rfl⟩
  | some changed =>
    refine .inr ⟨changed, rfl, ?_⟩
    by_cases hrejects : changed.RejectsVotes
    · exact .inl ⟨hrejects, if_pos hrejects⟩
    · exact .inr ⟨hrejects, if_neg hrejects⟩

/-- The settings after a `nodeinfo` message: last man standing may be switched off. -/
theorem settings_recordNodeinfo (n : Node) (old : Option ClusterNode) (info : Nodeinfo) :
    ∃ lastManStanding, (n.recordNodeinfo old info).toSettings =
      { n.toSettings with lastManStanding := lastManStanding } := by
  obtain ⟨_, _, _, lastManStanding, _, heq⟩ := n.recorded_eq info
  refine ⟨lastManStanding, (n.kept_recordNodeinfo old info).settings.trans ?_⟩
  rw [heq]

/-- The flags after a `nodeinfo` message, except for those that a decision sets. -/
theorem flags_recordNodeinfo (n : Node) (old : Option ClusterNode) (info : Nodeinfo) :
    (n.recordNodeinfo old info).us.flags.base =
      if n.us.nodeId = info.nodeid then info.flags.base else n.us.flags.base := by
  rw [(n.kept_recordNodeinfo old info).flags, us_recorded]
  split <;> rfl

/-- A `nodeinfo` message may switch off last man standing and no other setting. -/
theorem settings_nodeinfoHandler (n : Node) (sender : NodeId) (info : Nodeinfo) :
    ∃ lastManStanding, (n.nodeinfoHandler sender info).toSettings =
      { n.toSettings with lastManStanding := lastManStanding } := by
  unfold nodeinfoHandler
  split
  · obtain ⟨_, _, hkept⟩ := n.kept_qdeviceNodeinfoHandler sender info
    exact ⟨_, hkept.settings⟩
  split
  · exact n.settings_recordNodeinfo _ info
  · split
    · rename_i allocated halloc
      obtain ⟨_, _, _, rfl⟩ := allocateNode_eq halloc
      exact settings_recordNodeinfo _ none info
    · exact ⟨_, rfl⟩

/-- The flags of this node after a `nodeinfo` message are its own or those of the message. -/
theorem flags_nodeinfoHandler (n : Node) (sender : NodeId) (info : Nodeinfo) :
    (n.nodeinfoHandler sender info).us.flags.base = n.us.flags.base ∨
      info.nodeid = n.us.nodeId ∧ info.nodeid ≠ qdeviceNodeid ∧
        (n.nodeinfoHandler sender info).us.flags.base = info.flags.base := by
  unfold nodeinfoHandler
  split
  · obtain ⟨_, _, hkept⟩ := n.kept_qdeviceNodeinfoHandler sender info
    exact .inl hkept.flags
  rename_i hnode
  have hrecord : ∀ (m : Node) (old : Option ClusterNode), m.us = n.us →
      (m.recordNodeinfo old info).us.flags.base = n.us.flags.base ∨
        info.nodeid = n.us.nodeId ∧ info.nodeid ≠ qdeviceNodeid ∧
          (m.recordNodeinfo old info).us.flags.base = info.flags.base := by
    intro m old hus
    rw [flags_recordNodeinfo, hus]
    split
    · rename_i hid
      exact .inr ⟨hid.symm, hnode, rfl⟩
    · exact .inl rfl
  split
  · exact hrecord n _ rfl
  split
  · rename_i allocated halloc
    refine hrecord allocated none ?_
    obtain ⟨_, _, _, rfl⟩ := allocateNode_eq halloc
    rfl
  · exact .inl rfl

end Node

end Corosync.Votequorum
