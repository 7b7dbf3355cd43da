import Corosync.Votequorum.Decision
import Corosync.Votequorum.LibRequests

/-!
# Accepted requests and the quorum

The handlers of `setexpected` and `setvotes` accept a request if a trial quorum can be reached. What
the `reconfigure` message leads to is computed in another way: the expected votes of this node are
raised to the tracked barrier, and to the votes of all members and of the quorum device, whether it
casts them or not. An accepted request takes the quorum from the node exactly if they are raised
above what the trial was made with and too high for the votes, and no other rule helps.
-/

namespace Corosync.Votequorum

open List

/-- The message that a request is multicast as. -/
def LibRequest.reconfigure : LibRequest → Reconfigure
  | .setexpected expectedVotes => .expectedVotes expectedVotes
  | .setvotes nodeid votes => .nodeVotes nodeid votes

namespace Node

variable {n n' changed : Node} {nodeid : NodeId} {votes expectedVotes : ℕ}

/-- The node with the votes that a request is about. -/
def trial (n : Node) : LibRequest → Node
  | .setexpected _ => n
  | .setvotes nodeid votes => (n.setNodeVotes nodeid votes).getD n

/-- The expected votes that the trial quorum is computed from. -/
def trialExpected (n : Node) : LibRequest → ℕ
  | .setexpected expectedVotes => if expectedVotes = 0 then n.highestExpected else expectedVotes
  | .setvotes _ _ => n.highestExpected

/-- The barrier that the message of a request raises the expected votes of this node to. -/
def trackedExpected (n : Node) : LibRequest → ℕ
  | .setexpected _ => if n.evTracking then n.evTrackingBarrier else 0
  | .setvotes _ _ => 0

/-- What the expected votes of this node are raised to at the delivery: the tracked barrier and the
votes, those of the quorum device counted whether it casts them or not. -/
def raisedExpected (n : Node) (request : LibRequest) : ℕ :=
  max (n.trackedExpected request) (n.trial request).getTotalVotes.1

/-- More than half of the expected votes, as an `unsigned int`. -/
def half (expectedVotes : ℕ) : ℕ := (expectedVotes + 2) % 2 ^ 32 / 2

/-- What keeps a node quorate after an accepted request. Either the trial had it all: this node does
not count, one vote is enough for at most two members, or nothing is raised above the expected votes
of the trial. Or the votes are enough for what is raised. Or another rule helps: the node waits for
all nodes, breaks a tie, or has the master of the quorum device. -/
def StaysQuorate (n : Node) (request : LibRequest) : Prop :=
  let votes := (n.trial request).countVotes.1
  let raised := n.raisedExpected request
  n.us.state ≠ .member ∨ (n.twoNode ∧ (n.trial request).countVotes.2 ≤ 2) ∨
    raised ≤ n.trialExpected request ∨ half raised % 2 ^ 8 ≤ votes ∨
    (n.waitForAll ∧ n.waitForAllStatus) ∨
    (n.autoTieBreaker ≠ .none ∧ votes = raised / 2 ∧
      (n.previousQuorumMembers.length : ℤ) - n.quorumMembers.length <
        (half raised % 2 ^ 8 : ℕ) ∧ n.checkAutoTieBreaker) ∨
    (n.qdeviceMasterWins ∧ n.checkQdeviceMaster)

/-- What the message of a request assigns before the quorum is recalculated. -/
def assigned (n : Node) : LibRequest → Node
  | .setexpected expectedVotes =>
    let n := { n.updateNodeExpectedVotes expectedVotes with evBarrier := expectedVotes }
    if n.evTracking then n.setExpectedVotes (max n.us.expectedVotes n.evTrackingBarrier) else n
  | .setvotes nodeid votes => n.trial (.setvotes nodeid votes)

/-- What the rules besides the votes look at is the same. -/
structure SameRules (n n' : Node) : Prop where
  settings : n'.toSettings = n.toSettings
  progress : n'.toProgress = n.toProgress
  lowestNodeId : n'.lowestNodeId = n.lowestNodeId
  highestNodeId : n'.highestNodeId = n.highestNodeId
  waitForAllStatus : n'.waitForAllStatus = n.waitForAllStatus
  clusterIsQuorate : n'.clusterIsQuorate = n.clusterIsQuorate
  state : n'.us.state = n.us.state
  records : (n'.clusterMembersList.map fun node => (node.nodeId, node.state, node.flags)) =
    n.clusterMembersList.map fun node => (node.nodeId, node.state, node.flags)

namespace SameRules

/-- A node has its own rules. -/
theorem refl (n : Node) : SameRules n n := ⟨rfl, rfl, rfl, rfl, rfl, rfl, rfl, rfl⟩

/-- Two changes that leave the rules as they are do so together. -/
theorem trans {n'' : Node} (h : SameRules n n') (h' : SameRules n' n'') : SameRules n n'' :=
  ⟨h'.settings.trans h.settings, h'.progress.trans h.progress,
    h'.lowestNodeId.trans h.lowestNodeId, h'.highestNodeId.trans h.highestNodeId,
    h'.waitForAllStatus.trans h.waitForAllStatus, h'.clusterIsQuorate.trans h.clusterIsQuorate,
    h'.state.trans h.state, h'.records.trans h.records⟩

/-- A rule that asks for a member with some id and flags. -/
theorem any_members (h : SameRules n n') (p : NodeId → Flags → Bool) :
    (n'.members.any fun node => p node.nodeId node.flags) =
      n.members.any fun node => p node.nodeId node.flags := by
  have hany := congrArg (fun records => records.any fun entry : NodeId × NodeState × Flags =>
    decide (entry.2.1 = .member) && p entry.1 entry.2.2) h.records
  simpa only [members, any_filter, any_map, Function.comp_def] using hany

/-- The same master wins. -/
theorem checkQdeviceMaster (h : SameRules n n') :
    n'.checkQdeviceMaster = n.checkQdeviceMaster :=
  h.any_members fun _ flags => flags.qdeviceMasterWins && flags.qdeviceCastVote

/-- The same tie is broken. -/
theorem checkAutoTieBreaker (h : SameRules n n') :
    n'.checkAutoTieBreaker = n.checkAutoTieBreaker := by
  refine checkAutoTieBreaker_congr h.settings (congrArg Progress.quorumMembers h.progress)
    (congrArg Progress.previousQuorumMembers h.progress) ?_ ?_
  · unfold checkLowNodeIdPartition
    rw [h.lowestNodeId]
    exact h.any_members fun nodeid _ => decide ((nodeid : ℤ) = n.lowestNodeId)
  · unfold checkHighNodeIdPartition
    rw [h.highestNodeId]
    exact h.any_members fun nodeid _ => decide ((nodeid : ℤ) = n.highestNodeId)

/-- A change of votes or expected votes in the records. -/
theorem mapNodes (n : Node) {change : ClusterNode → ClusterNode}
    (hchange : ∀ node, (change node).nodeId = node.nodeId ∧ (change node).state = node.state ∧
      (change node).flags = node.flags) : SameRules n (n.mapNodes change) where
  settings := rfl
  progress := rfl
  lowestNodeId := rfl
  highestNodeId := rfl
  waitForAllStatus := rfl
  clusterIsQuorate := rfl
  state := (hchange n.us).2.1
  records := by
    rw [clusterMembersList_mapNodes, map_map]
    exact map_congr_left fun node _ => by
      simp only [Function.comp_apply, hchange node]

/-- The own expected votes are not part of the rules. -/
theorem setExpectedVotes (n : Node) (expectedVotes : ℕ) :
    SameRules n (n.setExpectedVotes expectedVotes) :=
  ⟨rfl, rfl, rfl, rfl, rfl, rfl, rfl, by simp [clusterMembersList, Node.setExpectedVotes]⟩

/-- The expected votes of the members are not part of the rules. -/
theorem updateNodeExpectedVotes (n : Node) (expectedVotes : ℕ) :
    SameRules n (n.updateNodeExpectedVotes expectedVotes) := by
  unfold Node.updateNodeExpectedVotes
  split
  · exact mapNodes n fun node => by split <;> exact ⟨rfl, rfl, rfl⟩
  · exact refl n

/-- A trial is decided by the same rules. -/
theorem trial (n : Node) (request : LibRequest) : SameRules n (n.trial request) := by
  cases request with
  | setexpected _ => exact refl n
  | setvotes nodeid votes =>
    cases hchanged : n.setNodeVotes nodeid votes with
    | none =>
      rw [Node.trial, hchanged]
      exact refl n
    | some changed =>
      rw [Node.trial, hchanged, Option.getD_some]
      obtain rfl | ⟨-, rfl⟩ := setNodeVotes_cases hchanged
      · exact mapNodes n fun node => by split <;> exact ⟨rfl, rfl, rfl⟩
      · exact { refl n with }

/-- An accepted request is decided by the same rules. -/
theorem assigned (n : Node) (request : LibRequest) : SameRules n (n.assigned request) := by
  cases request with
  | setexpected expectedVotes =>
    have hupdate : SameRules n
        { n.updateNodeExpectedVotes expectedVotes with evBarrier := expectedVotes } :=
      (updateNodeExpectedVotes n expectedVotes).trans ⟨rfl, rfl, rfl, rfl, rfl, rfl, rfl, rfl⟩
    unfold Node.assigned
    dsimp only
    split
    · exact hupdate.trans (setExpectedVotes _ _)
    · exact hupdate
  | setvotes nodeid votes => exact trial n (.setvotes nodeid votes)

/-- What `are_we_quorate` is called with. -/
theorem prepared (n : Node) : SameRules n (n.prepared true false) := by
  have hraise : SameRules n n.raiseExpectedVotes := by
    unfold raiseExpectedVotes
    split
    · exact setExpectedVotes n _
    · exact refl n
  refine hraise.trans ?_
  unfold Node.prepared trackExpectedVotes updateEvTrackingBarrier
  split <;> exact ⟨rfl, rfl, rfl, rfl, rfl, rfl, rfl, rfl⟩

end SameRules

/-- Raising the expected votes of this node, which is a member. -/
theorem highestExpected_setExpectedVotes (hus : n.us.state = .member) {expectedVotes : ℕ}
    (hle : n.us.expectedVotes ≤ expectedVotes) :
    (n.setExpectedVotes expectedVotes).highestExpected = max n.highestExpected expectedVotes := by
  have hmax : ∀ (list : List ℕ) (a b : ℕ), list.foldl max (max a b) = max (list.foldl max a) b := by
    intro list a b
    rw [Nat.max_comm a, foldl_assoc, Nat.max_comm]
  simp only [highestExpected, members, clusterMembersList, Node.setExpectedVotes, filter_append,
    filter_cons, hus, decide_true, if_true, map_append, map_cons, foldl_append, foldl_cons, hmax,
    Nat.max_assoc, Nat.max_eq_right hle]

/-- A change of votes leaves the expected votes. -/
theorem highestExpected_trial (n : Node) (request : LibRequest) :
    (n.trial request).highestExpected = n.highestExpected ∧
      (n.trial request).us.expectedVotes = n.us.expectedVotes := by
  cases request with
  | setexpected _ => exact ⟨rfl, rfl⟩
  | setvotes nodeid votes =>
    cases hchanged : n.setNodeVotes nodeid votes with
    | none =>
      rw [trial, hchanged]
      exact ⟨rfl, rfl⟩
    | some changed =>
      rw [trial, hchanged, Option.getD_some]
      obtain rfl | ⟨-, rfl⟩ := setNodeVotes_cases hchanged
      · have hkeeps : ∀ node : ClusterNode, (if node.nodeId = nodeid then
            { node with votes := votes } else node).state = node.state ∧
            (if node.nodeId = nodeid then { node with votes := votes } else node).expectedVotes =
              node.expectedVotes := by
          intro node
          split <;> exact ⟨rfl, rfl⟩
        refine ⟨?_, (hkeeps n.us).2⟩
        simp only [highestExpected, members, updateNode, clusterMembersList_mapNodes, filter_map,
          map_map, Function.comp_def, hkeeps]
      · exact ⟨rfl, rfl⟩

/-- The expected votes after `update_node_expected_votes`. -/
theorem highestExpected_updateNodeExpectedVotes (n : Node) (expectedVotes : ℕ) :
    (n.updateNodeExpectedVotes expectedVotes).highestExpected =
      if (n.updateNodeExpectedVotes expectedVotes).members = [] then 0
      else n.trialExpected (.setexpected expectedVotes) := by
  by_cases hzero : expectedVotes = 0
  · rw [trialExpected, if_pos hzero, updateNodeExpectedVotes, if_neg (not_not.mpr hzero)]
    split
    · rename_i hnil
      rw [highestExpected, hnil]
      rfl
    · rfl
  · rw [trialExpected, if_neg hzero, updateNodeExpectedVotes, if_pos hzero]
    refine highestExpected_eq_of_members fun node hnode => ?_
    obtain ⟨hmem, hstate⟩ := mem_filter.mp hnode
    rw [clusterMembersList_mapNodes] at hmem
    obtain ⟨old, -, rfl⟩ := mem_map.mp hmem
    split at hstate
    · rw [if_pos ‹_›]
    · exact absurd (of_decide_eq_true hstate) ‹_›

/-- What `setexpected` assigns, with what the source compares. -/
theorem assigned_setexpected (n : Node) (expectedVotes : ℕ) :
    n.assigned (.setexpected expectedVotes) =
      let updated := { n.updateNodeExpectedVotes expectedVotes with evBarrier := expectedVotes }
      if n.evTracking then
        updated.setExpectedVotes (max updated.us.expectedVotes n.evTrackingBarrier)
      else updated := by
  unfold assigned updateNodeExpectedVotes
  dsimp only
  split <;> rfl

/-- The expected votes of the members, before the votes are compared with them, and those of this
node. -/
theorem expected_assigned (hus : n.us.state = .member) (request : LibRequest) :
    (n.assigned request).highestExpected =
        max (n.trialExpected request) (n.trackedExpected request) ∧
      ∃ own ≤ n.trialExpected request,
        (n.assigned request).us.expectedVotes = max own (n.trackedExpected request) := by
  cases request with
  | setexpected expectedVotes =>
    have hstate := (SameRules.updateNodeExpectedVotes n expectedVotes).state.trans hus
    have hhighest := n.highestExpected_updateNodeExpectedVotes expectedVotes
    rw [if_neg (ne_nil_of_mem (us_mem_members hstate))] at hhighest
    have hown := expectedVotes_le_highestExpected hstate
    rw [hhighest] at hown
    rw [assigned_setexpected, trackedExpected]
    dsimp only
    split
    · refine ⟨?_, _, hown, rfl⟩
      refine (highestExpected_setExpectedVotes hstate (Nat.le_max_left _ _)).trans ?_
      refine (congrArg (max · _) hhighest).trans ?_
      omega
    · exact ⟨hhighest.trans (Nat.max_zero _).symm, _, hown, (Nat.max_zero _).symm⟩
  | setvotes nodeid votes =>
    obtain ⟨hhighest, hown⟩ := n.highestExpected_trial (.setvotes nodeid votes)
    refine ⟨hhighest.trans (Nat.max_zero _).symm, n.us.expectedVotes,
      expectedVotes_le_highestExpected hus, hown.trans (Nat.max_zero _).symm⟩

/-- Where this node is no member the expected votes are those of the trial, if there are members. -/
theorem expected_assigned_of_ne (hus : n.us.state ≠ .member) (request : LibRequest) :
    (n.assigned request).highestExpected = 0 ∨
      (n.assigned request).highestExpected = n.trialExpected request := by
  cases request with
  | setexpected expectedVotes =>
    have hstate : (n.updateNodeExpectedVotes expectedVotes).us.state ≠ .member := fun h =>
      hus ((SameRules.updateNodeExpectedVotes n expectedVotes).state.symm.trans h)
    have hsame : (n.assigned (.setexpected expectedVotes)).highestExpected =
        (n.updateNodeExpectedVotes expectedVotes).highestExpected := by
      rw [assigned_setexpected]
      dsimp only
      split
      · simp [highestExpected, members, clusterMembersList, setExpectedVotes, hstate]
      · rfl
    rw [hsame, highestExpected_updateNodeExpectedVotes]
    split
    · exact .inl rfl
    · exact .inr rfl
  | setvotes nodeid votes => exact .inr (n.highestExpected_trial (.setvotes nodeid votes)).1

/-- What a recalculation computes from the expected votes. -/
theorem quorum_prepared (n : Node) :
    (n.prepared true false).quorum = (if n.twoNode ∧ n.countVotes.2 ≤ 2 then 1 else
      max (half n.raiseExpectedVotes.highestExpected) (half n.countVotes.1)) % 2 ^ 8 := by
  have hkept := n.kept_raise.trans (kept_track _)
  have htwo := congrArg Settings.twoNode hkept.settings
  obtain ⟨hus, hbefore, hafter, -⟩ := track_eq n.raiseExpectedVotes
  have hhighest : n.raiseExpectedVotes.trackExpectedVotes.highestExpected =
      n.raiseExpectedVotes.highestExpected := by
    unfold highestExpected members clusterMembersList
    rw [hus, hbefore, hafter]
  have hquorum : (n.prepared true false).quorum =
      n.raiseExpectedVotes.trackExpectedVotes.calculateQuorum true 0 % 2 ^ 8 := rfl
  rw [hquorum]
  unfold calculateQuorum half
  simp only [ne_eq, not_true_eq_false, and_false, if_false, Nat.lt_irrefl, if_true, hhighest,
    hkept.countVotes, htwo]

/-- The expected votes of this node once they are at least the votes. -/
theorem expectedVotes_prepared (n : Node) :
    (n.prepared true false).us.expectedVotes = max n.us.expectedVotes n.getTotalVotes.1 := by
  rw [← expectedVotes_raise]
  exact congrArg ClusterNode.expectedVotes (track_eq n.raiseExpectedVotes).1

/-- The expected votes of the members once they are at least the votes. -/
theorem highestExpected_raise (hus : n.us.state = .member) :
    n.raiseExpectedVotes.highestExpected = max n.highestExpected n.getTotalVotes.1 := by
  have hown := expectedVotes_le_highestExpected hus
  unfold raiseExpectedVotes
  split
  · rename_i hgt
    exact highestExpected_setExpectedVotes hus (Nat.le_of_lt hgt)
  · omega

/-- Outside the members raising does not count. -/
theorem highestExpected_raise_of_ne (hus : n.us.state ≠ .member) :
    n.raiseExpectedVotes.highestExpected = n.highestExpected := by
  unfold raiseExpectedVotes
  split
  · simp [highestExpected, members, clusterMembersList, setExpectedVotes, hus]
  · rfl

/-- What a recalculation decides: the node waits for all nodes, has the votes, breaks a tie or has
the master of the quorum device. -/
theorem clusterIsQuorate_recalculate_iff (hquorate : n.clusterIsQuorate = true) :
    (n.recalculateQuorum true false).clusterIsQuorate = true ↔
      (n.waitForAll ∧ n.waitForAllStatus ∧
          n.countVotes.1 ≠ (n.prepared true false).us.expectedVotes) ∨
        (n.prepared true false).quorum ≤ n.countVotes.1 ∨
        (n.autoTieBreaker ≠ .none ∧
          n.countVotes.1 = (n.prepared true false).us.expectedVotes / 2 ∧
          (n.previousQuorumMembers.length : ℤ) - n.quorumMembers.length <
            (n.prepared true false).quorum ∧ n.checkAutoTieBreaker) ∨
        (n.qdeviceMasterWins ∧ n.checkQdeviceMaster) := by
  have hsame := SameRules.prepared n
  have hcount : n.raiseExpectedVotes.trackExpectedVotes.countVotes = n.countVotes :=
    (n.kept_raise.trans (kept_track _)).countVotes
  rw [recalculateQuorum_eq, hcount, clusterIsQuorate_areWeQuorate_eq,
    congrArg Settings.waitForAll hsame.settings, hsame.waitForAllStatus, hsame.clusterIsQuorate,
    hquorate]
  split
  · rename_i hwaits
    exact iff_of_true rfl (.inl hwaits)
  · rename_i hwaits
    rw [or_iff_right hwaits, isQuorate, tieBreak, hsame.checkAutoTieBreaker,
      hsame.checkQdeviceMaster, hsame.settings, hsame.progress]
    simp only [Bool.or_eq_true, Bool.and_eq_true, decide_eq_true_eq, beq_iff_eq, or_assoc,
      and_assoc]

/-- Assigning the expected votes a second time changes nothing. -/
theorem updateNodeExpectedVotes_twice (n : Node) (expectedVotes : ℕ) :
    (n.updateNodeExpectedVotes expectedVotes).updateNodeExpectedVotes expectedVotes =
      n.updateNodeExpectedVotes expectedVotes := by
  refine updateNodeExpectedVotes_eq_self (or_iff_not_imp_left.mpr fun hne node hmember => ?_)
  rw [updateNodeExpectedVotes, if_pos hne] at hmember
  obtain ⟨hmem, hstate⟩ := mem_filter.mp hmember
  rw [clusterMembersList_mapNodes] at hmem
  obtain ⟨old, -, rfl⟩ := mem_map.mp hmem
  split at hstate
  · rw [if_pos ‹_›]
  · rename_i hother
    exact absurd (of_decide_eq_true hstate) hother

/-- Assigning the votes of a node a second time changes nothing. -/
theorem setNodeVotes_twice (hchanged : n.setNodeVotes nodeid votes = some changed) :
    changed.setNodeVotes nodeid votes = some changed := by
  generalize hupdate : n.updateNode nodeid ({ · with votes := votes }) = updated at hchanged
  have hlist : updated.clusterMembersList = n.clusterMembersList.map fun node =>
      if node.nodeId = nodeid then { node with votes := votes } else node := by
    rw [← hupdate]
    exact clusterMembersList_mapNodes n _
  have hid : updated.us.nodeId = n.us.nodeId := by
    rw [← hupdate]
    simp only [updateNode, mapNodes]
    split <;> rfl
  have htwice : updated.updateNode nodeid ({ · with votes := votes }) = updated := by
    refine mapNodes_eq_self fun node hmem => ite_eq_right_iff.mpr fun hid => ?_
    rw [hlist] at hmem
    obtain ⟨old, -, rfl⟩ := mem_map.mp hmem
    split at hid
    · rw [if_pos ‹_›]
    · exact absurd hid ‹_›
  unfold setNodeVotes at hchanged
  rw [hupdate] at hchanged
  split at hchanged
  · rename_i hus
    obtain rfl := Option.some.inj hchanged
    rw [setNodeVotes, hid, if_pos hus, htwice]
  rename_i hus
  split at hchanged
  · rename_i hdevice
    obtain rfl := Option.some.inj hchanged
    rw [setNodeVotes, if_neg hus, if_pos hdevice]
  rename_i hdevice
  obtain ⟨hfound, rfl⟩ := Option.ite_some_none_eq_some.mp hchanged
  rw [setNodeVotes, hid, if_neg hus, if_neg hdevice, htwice, if_pos]
  -- the record is found again, since its id is the same
  obtain ⟨node, hfind⟩ := Option.isSome_iff_exists.mp hfound
  obtain ⟨hmem, hnode⟩ := mem_of_find hfind
  refine Option.isSome_iff_ne_none.mpr fun hnone => ?_
  refine ballot_ne_of_find hnone _ (mem_map_of_mem (hlist ▸ mem_map_of_mem hmem)) ?_
  rw [if_pos hnode]
  exact hnode

/-- The votes that are counted after the message are those of the trial. -/
theorem counted_assigned (n : Node) (request : LibRequest) :
    (n.assigned request).countVotes = (n.trial request).countVotes ∧
      (n.assigned request).getTotalVotes = (n.trial request).getTotalVotes := by
  cases request with
  | setexpected expectedVotes =>
    have hkept : Kept { n with evBarrier := expectedVotes }
        (n.assigned (.setexpected expectedVotes)) := by
      have hbarrier : Kept { n with evBarrier := expectedVotes }
          { n.updateNodeExpectedVotes expectedVotes with evBarrier := expectedVotes } :=
        { n.kept_updateNodeExpectedVotes expectedVotes with evBarrier := rfl }
      rw [assigned_setexpected]
      dsimp only
      split
      · exact hbarrier.trans { Kept.refl _ with }
      · exact hbarrier
    refine ⟨hkept.countVotes, ?_⟩
    unfold getTotalVotes
    rw [hkept.qdeviceVotes, memberVotes_eq, length_members, hkept.ballots]
    rw [← memberVotes_eq, ← length_members]
    rfl
  | setvotes nodeid votes => exact ⟨rfl, rfl⟩

/-- An accepted request assigns when its message is delivered what it would assign to the node
before it, and the votes reach the trial quorum. -/
theorem reconfigureHandler_accepted (hquorate : n.clusterIsQuorate = true) {request : LibRequest}
    (haccepted : (n.libRequest request true).answer = .ok) :
    (n.libRequest request true).node.reconfigureHandler request.reconfigure =
        (n.assigned request).recalculateQuorum true false ∧
      (if n.twoNode ∧ (n.trial request).countVotes.2 ≤ 2 then 1 else
        max (half (n.trialExpected request)) (half (n.trial request).countVotes.1)) ≤
        (n.trial request).countVotes.1 := by
  cases request with
  | setexpected expectedVotes =>
    obtain ⟨-, heq⟩ | ⟨hadmits, heq⟩ := n.libSetexpected_cases expectedVotes true
    · rw [libRequest, heq] at haccepted
      cases haccepted
    rw [libRequest, heq, sendReconfigure_node]
    constructor
    · have hassigned : (n.updateNodeExpectedVotes expectedVotes).assigned
          (.setexpected expectedVotes) = n.assigned (.setexpected expectedVotes) := by
        simp only [assigned, updateNodeExpectedVotes_twice]
      rw [← hassigned]
      rfl
    · have hquorum : { n with allowDownscale := false }.calculateQuorum true expectedVotes ≤
          n.countVotes.1 := Nat.le_of_not_lt fun hgt => hadmits (.inr ⟨hquorate, hgt⟩)
      refine Nat.le_trans (Nat.le_of_eq ?_) hquorum
      unfold calculateQuorum trialExpected half
      simp only [Bool.false_eq_true, false_and, if_false, if_true, Nat.pos_iff_ne_zero, ite_not]
      rfl
  | setvotes nodeid votes =>
    obtain ⟨-, heq⟩ | ⟨changed, hchanged, ⟨-, heq⟩ | ⟨hadmits, heq⟩⟩ :=
      n.libSetvotes_cases nodeid votes true
    · rw [libRequest, heq] at haccepted
      cases haccepted
    · rw [libRequest, heq] at haccepted
      cases haccepted
    have htrial : n.trial (.setvotes nodeid votes) = changed := by
      rw [trial, hchanged]
      rfl
    have hsame := SameRules.trial n (.setvotes nodeid votes)
    have hhighest := (n.highestExpected_trial (.setvotes nodeid votes)).1
    rw [libRequest, heq, sendReconfigure_node, assigned]
    rw [htrial] at hsame hhighest ⊢
    constructor
    · rw [LibRequest.reconfigure, reconfigureHandler, setNodeVotes_twice hchanged]
    · refine Nat.le_trans (Nat.le_of_eq ?_) (Nat.le_of_not_lt fun hgt => hadmits (.inr hgt))
      unfold calculateQuorum trialExpected half
      simp only [ne_eq, not_true_eq_false, and_false, if_false, Nat.lt_irrefl, if_true, hhighest,
        hsame.settings]

/-- The decision after an accepted request where this node is a member and more than one vote is
needed. What is raised above the expected votes of the trial decides. -/
theorem raised_decides {trialExpected own tracked total votes : ℕ} (hown : own ≤ trialExpected)
    (htrial : max (half trialExpected) (half votes) ≤ votes) :
    let raised := max tracked total
    let quorum := max (half (max (max trialExpected tracked) total)) (half votes) % 2 ^ 8
    if raised ≤ trialExpected ∨ half raised % 2 ^ 8 ≤ votes then quorum ≤ votes
    else votes < quorum ∧ quorum = half raised % 2 ^ 8 ∧ max (max own tracked) total = raised ∧
      votes ≠ raised := by
  unfold half at *
  dsimp only
  split
  · omega
  · omega

/-- The first of four members with one vote each, which follows the number of members with last man
standing and tracks the expected votes. -/
def quorateOfFour : Node :=
  { zero 1 none with
    us := ⟨1, .member, 1, 4, { quorate := true }⟩
    after := [⟨2, .member, 1, 4, { quorate := true }⟩, ⟨3, .member, 1, 4, { quorate := true }⟩,
      ⟨4, .member, 1, 4, { quorate := true }⟩]
    quorumMembers := [1, 2, 3, 4]
    lastManStanding := true
    evTracking := true
    evTrackingBarrier := 4
    quorum := 3
    clusterIsQuorate := true }

/-- The node after the fourth and then the third member have left, each time with the timer of last
man standing. -/
def lastTwo : Node :=
  let three := (quorateOfFour.syncInit [1, 2, 3]).syncActivate.lastManStandingTimerFn
  (three.syncInit [1, 2]).syncActivate.lastManStandingTimerFn

end Node

end Corosync.Votequorum
