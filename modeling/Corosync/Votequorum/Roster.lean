import Mathlib.Data.List.Perm.Subperm
import Corosync.Votequorum.Records
import Corosync.Votequorum.Startup
import Corosync.Votequorum.Steps

/-!
# Which nodes have a record

Every node has one record, and the nodes whose record is not dead are members of the current ring:
`votequorum_sync_init` declares those dead that the last ring had and the new one has not, and only
members of the ring are heard of. So there is a dead record to take when the array of records is
used up.
-/

namespace Corosync.Votequorum

open Function List Node

/-- The ids and the states of the records. -/
def Node.roll (n : Node) : List (NodeId × NodeState) :=
  n.clusterMembersList.map fun node => (node.nodeId, node.state)

/-- The progress of the synchronisation is the same. -/
structure SameSync (n n' : Node) : Prop where
  nodeId : n'.us.nodeId = n.us.nodeId
  quorumMembers : n'.quorumMembers = n.quorumMembers
  previousQuorumMembers : n'.previousQuorumMembers = n.previousQuorumMembers
  syncNodeinfoSent : n'.syncNodeinfoSent = n.syncNodeinfoSent
  syncInProgress : n'.syncInProgress = n.syncInProgress

/-- The records are the same, up to votes and flags. -/
structure SameRoll (n n' : Node) : Prop extends SameSync n n' where
  roll : n'.roll = n.roll
  clusterNodesEntries : n'.clusterNodesEntries = n.clusterNodesEntries

variable {n n' n'' : Node} {a : NodeId} {ring : List NodeId}

/-- The roll is part of the ballots. -/
theorem Node.roll_eq (n : Node) :
    n.roll = n.ballots.map fun ballot => (ballot.nodeId, ballot.state) := by
  rw [roll, ballots, map_map]
  rfl

namespace SameSync

/-- Two changes with the same progress have it together. -/
theorem trans (h : SameSync n n') (h' : SameSync n' n'') : SameSync n n'' :=
  ⟨h'.nodeId.trans h.nodeId, h'.quorumMembers.trans h.quorumMembers,
    h'.previousQuorumMembers.trans h.previousQuorumMembers,
    h'.syncNodeinfoSent.trans h.syncNodeinfoSent, h'.syncInProgress.trans h.syncInProgress⟩

end SameSync

variable {nodeid : NodeId} {config : Icmap} {file : Option ℕ}

namespace SameRoll

/-- A node has its own roll. -/
theorem refl (n : Node) : SameRoll n n := ⟨⟨rfl, rfl, rfl, rfl, rfl⟩, rfl, rfl⟩

/-- Two steps that keep the roll keep it together. -/
theorem trans (h : SameRoll n n') (h' : SameRoll n' n'') : SameRoll n n'' :=
  ⟨h.toSameSync.trans h'.toSameSync, h'.roll.trans h.roll,
    h'.clusterNodesEntries.trans h.clusterNodesEntries⟩

/-- A recalculation leaves the roll as it is. -/
theorem of_kept (hkept : Kept n n') : SameRoll n n' where
  nodeId := hkept.nodeId
  quorumMembers := congrArg Progress.quorumMembers hkept.progress
  previousQuorumMembers := congrArg Progress.previousQuorumMembers hkept.progress
  syncNodeinfoSent := congrArg Progress.syncNodeinfoSent hkept.progress
  syncInProgress := congrArg Progress.syncInProgress hkept.progress
  roll := by
    rw [roll_eq, roll_eq, hkept.ballots]
  clusterNodesEntries := hkept.clusterNodesEntries

/-- `recalculate_quorum` leaves the roll as it is. -/
theorem recalculate (n : Node) (allowDecrease byCurrentNodes : Bool) :
    SameRoll n (n.recalculateQuorum allowDecrease byCurrentNodes) :=
  of_kept (n.kept_recalculate allowDecrease byCurrentNodes)

/-- A change of all records that leaves ids and states as they are. -/
theorem mapNodes (n : Node) (change : ClusterNode → ClusterNode)
    (hchange : ∀ node, (change node).nodeId = node.nodeId ∧ (change node).state = node.state) :
    SameRoll n (n.mapNodes change) where
  nodeId := (hchange n.us).1
  quorumMembers := rfl
  previousQuorumMembers := rfl
  syncNodeinfoSent := rfl
  syncInProgress := rfl
  roll := by
    simp [Node.roll, Node.clusterMembersList, Node.mapNodes, hchange, comp_def]
  clusterNodesEntries := rfl

/-- A change of one record that leaves id and state as they are. -/
theorem updateNode (n : Node) (nodeid : NodeId) (change : ClusterNode → ClusterNode)
    (hchange : ∀ node, (change node).nodeId = node.nodeId ∧ (change node).state = node.state) :
    SameRoll n (n.updateNode nodeid change) := by
  refine mapNodes n _ fun node => ?_
  split
  · exact hchange node
  · exact ⟨rfl, rfl⟩

/-- Flags are not part of the roll. -/
theorem changeFlags (n : Node) (change : Flags → Flags) : SameRoll n (n.changeFlags change) :=
  ⟨⟨rfl, rfl, rfl, rfl, rfl⟩, by simp [Node.roll, Node.clusterMembersList, Node.changeFlags], rfl⟩

/-- The status of wait for all is not part of the roll. -/
theorem updateWaitForAllStatus (n : Node) (status : Bool) :
    SameRoll n (n.updateWaitForAllStatus status) :=
  of_kept (n.kept_updateWaitForAllStatus status)

/-- Expected votes of the members are not part of the roll. -/
theorem updateNodeExpectedVotes (n : Node) (expectedVotes : ℕ) :
    SameRoll n (n.updateNodeExpectedVotes expectedVotes) :=
  of_kept (n.kept_updateNodeExpectedVotes expectedVotes)

/-- The own expected votes are not part of the roll. -/
theorem setExpectedVotes (n : Node) (expectedVotes : ℕ) :
    SameRoll n (n.setExpectedVotes expectedVotes) :=
  ⟨⟨rfl, rfl, rfl, rfl, rfl⟩, by simp [Node.roll, Node.clusterMembersList, Node.setExpectedVotes],
    rfl⟩

/-- A change of the votes of the quorum device. -/
theorem setQdeviceVotes (n : Node) (votes : ℕ) : SameRoll n { n with qdeviceVotes := votes } :=
  ⟨⟨rfl, rfl, rfl, rfl, rfl⟩, rfl, rfl⟩

/-- An assignment of votes keeps the records. -/
theorem setNodeVotes {votes : ℕ}
    (hchanged : n.setNodeVotes nodeid votes = some n') : SameRoll n n' := by
  obtain rfl | ⟨-, rfl⟩ := setNodeVotes_cases hchanged
  · exact updateNode n nodeid _ fun node => ⟨rfl, rfl⟩
  · exact setQdeviceVotes n votes

/-- Reading wait for all again leaves the roll as it is. -/
theorem resetWaitForAllStatus (n : Node) (runtime : Bool) :
    SameRoll n (n.resetWaitForAllStatus runtime) := by
  obtain ⟨_, _, heq⟩ := n.resetWaitForAllStatus_eq runtime
  rw [heq]
  exact of_kept { Kept.refl n with }

/-- The configured votes are not part of the roll. -/
theorem assignVotes (n : Node) (config : Icmap) : SameRoll n (n.assignVotes config) :=
  ⟨⟨rfl, rfl, rfl, rfl, rfl⟩, by simp [Node.roll, Node.clusterMembersList, Node.assignVotes], rfl⟩

/-- What follows from `two_node` leaves the roll as it is. -/
theorem followTwoNode (n : Node) : SameRoll n n.followTwoNode := by
  rw [n.followTwoNode_eq]
  exact ⟨⟨rfl, rfl, rfl, rfl, rfl⟩, rfl, rfl⟩

/-- Reading the configuration again leaves the roll as it is. -/
theorem readconfigRuntime (n : Node) (config : Icmap) :
    SameRoll n (n.readconfigRuntime config) := by
  have hread : SameRoll n (n.readAgain config) := ⟨⟨rfl, rfl, rfl, rfl, rfl⟩, rfl, rfl⟩
  have hchoose : ∀ n : Node, SameRoll n (n.chooseTwoNode config) := by
    intro n
    unfold chooseTwoNode
    split
    · split <;> exact ⟨⟨rfl, rfl, rfl, rfl, rfl⟩, rfl, rfl⟩
    · exact refl n
  have hdrop : ∀ n : Node, SameRoll n (n.dropOddTieBreaker config) := by
    intro n
    unfold dropOddTieBreaker
    split <;> exact ⟨⟨rfl, rfl, rfl, rfl, rfl⟩, rfl, rfl⟩
  have hdisable : ∀ n : Node, SameRoll n (n.disableQdevice config) := by
    intro n
    unfold disableQdevice
    split <;> exact ⟨⟨rfl, rfl, rfl, rfl, rfl⟩, rfl, rfl⟩
  unfold Node.readconfigRuntime
  dsimp only
  split
  · exact hread
  · have hfollow := hread.trans ((hchoose _).trans (followTwoNode _))
    split
    · exact hfollow
    · exact hfollow.trans ((hdrop _).trans ((hdisable _).trans
        ((assignVotes _ config).trans (resetWaitForAllStatus _ true))))

/-- At the start a node has its own record only. -/
theorem execInitFn (hinit : execInitFn config nodeid file = .ok n) :
    SameRoll (.zero nodeid file) n := by
  obtain ⟨_, _, _, _, -, rfl⟩ := execInitFn_eq hinit
  refine SameRoll.trans ?_ ((resetWaitForAllStatus _ false).trans (recalculate _ false false))
  exact ⟨⟨rfl, rfl, rfl, rfl, rfl⟩, rfl, rfl⟩

/-- Everything that happens on a node besides synchronisation and messages keeps the records. -/
theorem act (n : Node) (action : Action) : SameRoll n (n.act action).1 := by
  by_cases hquiet : action.quiet = true
  · obtain ⟨-, heq⟩ | ⟨flags, _, _, _, _, heq, -⟩ := n.act_adjusted hquiet
    · rw [heq]
      refine SameRoll.trans ?_ (of_kept n.kept_lastManStandingTimerFn)
      exact ⟨⟨rfl, rfl, rfl, rfl, rfl⟩, rfl, rfl⟩
    · rw [heq]
      refine (changeFlags n fun _ => flags).trans ?_
      exact ⟨⟨rfl, rfl, rfl, rfl, rfl⟩, rfl, rfl⟩
  · cases action with
    | reload config => exact readconfigRuntime n config
    | setexpected expectedVotes =>
      obtain ⟨-, heq⟩ | ⟨-, heq⟩ := n.libSetexpected_cases expectedVotes true
      · rw [Node.act, heq]
        exact refl n
      · rw [Node.act, heq]
        exact updateNodeExpectedVotes n expectedVotes
    | setvotes nodeid votes =>
      obtain ⟨-, heq⟩ | ⟨_, hchanged, ⟨-, heq⟩ | ⟨-, heq⟩⟩ := n.libSetvotes_cases nodeid votes true
      · rw [Node.act, heq]
        exact refl n
      · rw [Node.act, heq]
        exact refl n
      · rw [Node.act, heq]
        exact setNodeVotes hchanged
    | cancelWaitForAll => exact refl n
    | _ => exact absurd rfl hquiet

/-- A `reconfigure` message leaves the roll as it is. -/
theorem reconfigureHandler (n : Node) (request : Reconfigure) :
    SameRoll n (n.reconfigureHandler request) := by
  cases request with
  | expectedVotes value =>
    have hassigned : SameRoll n { n.updateNodeExpectedVotes value with evBarrier := value } :=
      (updateNodeExpectedVotes n value).trans ⟨⟨rfl, rfl, rfl, rfl, rfl⟩, rfl, rfl⟩
    unfold Node.reconfigureHandler
    refine SameRoll.trans ?_ (recalculate _ true false)
    split
    · exact hassigned.trans (setExpectedVotes _ _)
    · exact hassigned
  | nodeVotes nodeid value =>
    unfold Node.reconfigureHandler
    dsimp only
    split
    · rename_i hchanged
      exact (setNodeVotes hchanged).trans (recalculate _ true false)
    · exact refl n
  | cancelWfa => exact (updateWaitForAllStatus n false).trans (recalculate _ false false)

/-- A `nodeinfo` message about the quorum device keeps the records. -/
theorem qdeviceNodeinfoHandler (n : Node) (sender : NodeId) (info : Nodeinfo) :
    SameRoll n (n.qdeviceNodeinfoHandler sender info) := by
  obtain ⟨_, _, hkept⟩ := n.kept_qdeviceNodeinfoHandler sender info
  refine SameRoll.trans ?_ (of_kept hkept)
  exact ⟨⟨rfl, rfl, rfl, rfl, rfl⟩, rfl, rfl⟩

end SameRoll

/-- The roll after a `nodeinfo` message for a record that is there. -/
theorem Node.roll_recordNodeinfo (n : Node) (old : Option ClusterNode) (info : Nodeinfo) :
    (n.recordNodeinfo old info).roll = n.roll.map fun entry =>
      if entry.1 = info.nodeid then (info.nodeid, announcedState info) else entry := by
  rw [roll_eq, roll_eq, ballots_recordNodeinfo, map_map, map_map]
  refine map_congr_left fun ballot _ => ?_
  simp only [comp_apply]
  split <;> rfl

/-- The synchronisation after a `nodeinfo` message for a record that is there. -/
theorem SameSync.recordNodeinfo (n : Node) (old : Option ClusterNode) (info : Nodeinfo) :
    SameSync n (n.recordNodeinfo old info) := by
  have hid := n.nodeId_recorded info
  have hrecord : SameSync n (n.recorded info) := by
    obtain ⟨_, _, _, _, _, heq⟩ := n.recorded_eq info
    rw [heq] at hid ⊢
    exact ⟨hid, rfl, rfl, rfl, rfl⟩
  exact hrecord.trans (SameRoll.of_kept (n.kept_recordNodeinfo old info)).toSameSync

/-- The number of records after a `nodeinfo` message for a record that is there. -/
theorem Node.clusterNodesEntries_recordNodeinfo (n : Node) (old : Option ClusterNode)
    (info : Nodeinfo) :
    (n.recordNodeinfo old info).clusterNodesEntries = n.clusterNodesEntries := by
  obtain ⟨_, _, _, _, _, heq⟩ := n.recorded_eq info
  rw [(n.kept_recordNodeinfo old info).clusterNodesEntries, heq]

/-- A `nodeinfo` message does not concern the synchronisation. -/
theorem SameSync.nodeinfoHandler (n : Node) (sender : NodeId) (info : Nodeinfo) :
    SameSync n (n.nodeinfoHandler sender info) := by
  unfold Node.nodeinfoHandler
  split
  · exact (SameRoll.qdeviceNodeinfoHandler n sender info).toSameSync
  split
  · exact recordNodeinfo n _ info
  split
  · rename_i allocated halloc
    refine SameSync.trans ?_ (recordNodeinfo allocated _ info)
    obtain ⟨_, _, _, rfl⟩ := allocateNode_eq halloc
    exact ⟨rfl, rfl, rfl, rfl, rfl⟩
  · exact ⟨rfl, rfl, rfl, rfl, rfl⟩

/-- A message does not concern the synchronisation. -/
theorem SameSync.deliver (n : Node) (sender : NodeId) (message : Message) :
    SameSync n (n.deliver sender message) := by
  cases message with
  | nodeinfo info => exact nodeinfoHandler n sender info
  | reconfigure request => exact (SameRoll.reconfigureHandler n request).toSameSync

/-- `votequorum_sync_init` clears a flag, declares nodes dead and starts a synchronisation. -/
theorem Node.syncInit_eq (n : Node) (memberList : List NodeId) :
    ∃ (first : Bool) (progress : Progress),
      n.syncInit memberList = { (n.changeFlags ({ · with first := first })).markDead memberList with
        toProgress := progress } ∧
      progress.quorumMembers = memberList ∧ progress.previousQuorumMembers = n.quorumMembers ∧
      progress.syncNodeinfoSent = false ∧ progress.syncInProgress = true := by
  unfold syncInit armLastManStanding waitForQdevice
  dsimp only
  split <;> split <;> split
  all_goals first
    | exact ⟨false, _, rfl, rfl, rfl, rfl, rfl⟩
    | exact ⟨n.us.flags.first, _, rfl, rfl, rfl, rfl, rfl⟩

/-- The record of this node after `votequorum_sync_init`. -/
theorem Node.us_syncInit (n : Node) (memberList : List NodeId) :
    ∃ first state, (n.syncInit memberList).us =
        { n.us with state := state, flags := { n.us.flags with first := first } } ∧
      (n.us.nodeId ∈ memberList → state = n.us.state) := by
  obtain ⟨first, _, heq, -⟩ := n.syncInit_eq memberList
  rw [heq]
  simp only [markDead, mapNodes]
  split
  · rename_i hdead
    exact ⟨first, .dead, rfl, fun hmem => absurd hmem hdead.2⟩
  · exact ⟨first, n.us.state, rfl, fun _ => rfl⟩

/-- A record after `votequorum_sync_init`. -/
theorem Node.mem_syncInit {memberList : List NodeId} {node : ClusterNode}
    (hmem : node ∈ (n.syncInit memberList).clusterMembersList) :
    ∃ old ∈ n.clusterMembersList, ∃ first state, (state = old.state ∨ state = .dead) ∧
      node = { old with state := state, flags := { old.flags with first := first } } := by
  obtain ⟨first, _, heq, -⟩ := n.syncInit_eq memberList
  have hflags : ∀ node ∈ (n.changeFlags ({ · with first := first })).clusterMembersList,
      ∃ old ∈ n.clusterMembersList, ∃ first,
        node = { old with flags := { old.flags with first := first } } := by
    refine forall_mem_of_us (fun node hnode => ⟨node, hnode, node.flags.first, rfl⟩) ?_
    exact ⟨n.us, by simp [clusterMembersList], first, rfl⟩
  have hlist : (n.syncInit memberList).clusterMembersList =
      ((n.changeFlags ({ · with first := first })).markDead memberList).clusterMembersList := by
    rw [heq]
    rfl
  rw [hlist, markDead, clusterMembersList_mapNodes] at hmem
  obtain ⟨node', hnode', rfl⟩ := mem_map.mp hmem
  obtain ⟨old, hold, first, rfl⟩ := hflags node' hnode'
  refine ⟨old, hold, first, ?_⟩
  split
  · exact ⟨.dead, .inr rfl, rfl⟩
  · exact ⟨old.state, .inl rfl, rfl⟩

/-- The progress of the synchronisation after `votequorum_sync_init`. -/
structure Entering (n : Node) (memberList : List NodeId) (n' : Node) : Prop where
  nodeId : n'.us.nodeId = n.us.nodeId
  quorumMembers : n'.quorumMembers = memberList
  previousQuorumMembers : n'.previousQuorumMembers = n.quorumMembers
  syncNodeinfoSent : n'.syncNodeinfoSent = false
  syncInProgress : n'.syncInProgress = true
  clusterNodesEntries : n'.clusterNodesEntries = n.clusterNodesEntries

/-- `votequorum_sync_init` begins a synchronisation. -/
theorem Entering.syncInit (n : Node) (memberList : List NodeId) :
    Entering n memberList (n.syncInit memberList) := by
  obtain ⟨first, progress, heq, hmembers, hprevious, hsent, hsync⟩ := n.syncInit_eq memberList
  rw [heq]
  refine ⟨?_, hmembers, hprevious, hsent, hsync, rfl⟩
  simp only [markDead, mapNodes]
  split <;> rfl

/-- The node synchronises then. -/
@[simp] theorem Node.syncInProgress_syncInit (n : Node) (memberList : List NodeId) :
    (n.syncInit memberList).syncInProgress = true :=
  (Entering.syncInit n memberList).syncInProgress

/-- The ballots after `votequorum_sync_init`: members that have left are dead. -/
theorem Node.ballots_syncInit (n : Node) (memberList : List NodeId) :
    (n.syncInit memberList).ballots = n.ballots.map fun ballot =>
      if ballot.nodeId ∈ n.quorumMembers ∧ ballot.nodeId ∉ memberList then
        { ballot with state := .dead }
      else ballot := by
  obtain ⟨first, progress, heq, -⟩ := n.syncInit_eq memberList
  have hmark : ∀ n : Node, (n.markDead memberList).ballots = n.ballots.map fun ballot =>
      if ballot.nodeId ∈ n.quorumMembers ∧ ballot.nodeId ∉ memberList then
        { ballot with state := .dead }
      else ballot := by
    intro n
    refine ballots_mapNodes n _ _ fun node => ?_
    have hid : node.ballot.nodeId = node.nodeId := rfl
    rw [hid]
    split <;> rfl
  rw [heq]
  refine (hmark _).trans ?_
  rw [ballots_changeFlags]
  rfl

/-- A node in a ring: one record for each node, and only members are not dead. -/
structure Roster (a : NodeId) (ring : List NodeId) (n : Node) : Prop where
  nodeId : n.us.nodeId = a
  nodup : (n.roll.map (·.1)).Nodup
  alive : ∀ entry ∈ n.roll, entry.2 ≠ .dead → entry.1 ∈ ring
  quorumMembers : n.quorumMembers = ring
  entries : n.clusterNodesEntries = n.roll.length + 1
  bound : n.clusterNodesEntries ≤ processorCountMax + 2

/-- What the member list of a ring is like. -/
structure IsRing (a : NodeId) (ring : List NodeId) : Prop where
  mem : a ∈ ring
  nodup : ring.Nodup
  length : ring.length ≤ processorCountMax
  qdevice : qdeviceNodeid ∉ ring

namespace Roster

/-- A change that keeps the records. -/
theorem of_sameRoll (hroster : Roster a ring n) (hsame : SameRoll n n') : Roster a ring n' where
  nodeId := hsame.nodeId.trans hroster.nodeId
  nodup := hsame.roll ▸ hroster.nodup
  alive := hsame.roll ▸ hroster.alive
  quorumMembers := hsame.quorumMembers.trans hroster.quorumMembers
  entries := by
    rw [hsame.clusterNodesEntries, hsame.roll]
    exact hroster.entries
  bound := hsame.clusterNodesEntries ▸ hroster.bound

variable {info : Nodeinfo}

/-- A record of a member of the ring. -/
theorem recordNodeinfo (hroster : Roster a ring n) (old : Option ClusterNode)
    (hmember : info.nodeid ∈ ring) : Roster a ring (n.recordNodeinfo old info) := by
  have hsync := SameSync.recordNodeinfo n old info
  have hids : ((n.recordNodeinfo old info).roll.map (·.1)) = n.roll.map (·.1) := by
    rw [roll_recordNodeinfo, map_map]
    refine map_congr_left fun entry _ => ?_
    simp only [comp_apply]
    split
    · rename_i hid
      exact hid.symm
    · rfl
  exact
    { nodeId := hsync.nodeId.trans hroster.nodeId
      nodup := hids ▸ hroster.nodup
      alive := by
        intro entry hmem hstate
        rw [roll_recordNodeinfo] at hmem
        obtain ⟨before, hbefore, rfl⟩ := mem_map.mp hmem
        by_cases hid : before.1 = info.nodeid
        · rw [if_pos hid]
          exact hmember
        · rw [if_neg hid] at hstate ⊢
          exact hroster.alive before hbefore hstate
      quorumMembers := hsync.quorumMembers.trans hroster.quorumMembers
      entries := by
        rw [clusterNodesEntries_recordNodeinfo, roll_recordNodeinfo, length_map]
        exact hroster.entries
      bound := by
        rw [clusterNodesEntries_recordNodeinfo]
        exact hroster.bound }

/-- A member that has no record gets one. -/
theorem allocate (hroster : Roster a ring n) (hmember : nodeid ∈ ring)
    (hnew : ∀ ballot ∈ n.ballots, ballot.nodeId ≠ nodeid)
    (halloc : n.allocateNode nodeid = some n') : Roster a ring n' := by
  obtain ⟨rest, hperm, hcases⟩ := ballots_allocateNode halloc
  have hsub : ∀ ballot ∈ rest, ballot ∈ n.ballots := by
    intro ballot hmem
    obtain ⟨hrest, -⟩ | ⟨dead, -, hrest, -⟩ := hcases
    · exact hrest.mem_iff.mpr hmem
    · exact hrest.mem_iff.mpr (mem_cons_of_mem _ hmem)
  have hids : (rest.map (·.nodeId)).Nodup := by
    have hnodup := hroster.nodup
    rw [roll_eq, map_map] at hnodup
    obtain ⟨hrest, -⟩ | ⟨dead, -, hrest, -⟩ := hcases
    · exact ((hrest.map _).nodup_iff).mp hnodup
    · exact (nodup_cons.mp (((hrest.map _).nodup_iff).mp hnodup)).2
  have hlength : n'.ballots.length = rest.length + 1 := by
    rw [hperm.length_eq, length_cons]
  have hentries := hroster.entries
  have hbound := hroster.bound
  rw [roll_eq, length_map] at hentries
  have hcount : n'.clusterNodesEntries = n'.ballots.length + 1 ∧
      n'.clusterNodesEntries ≤ processorCountMax + 2 := by
    obtain ⟨hrest, hroom, hn'⟩ | ⟨dead, -, hrest, hn'⟩ := hcases
    · rw [hrest.length_eq] at hentries
      omega
    · rw [hrest.length_eq, length_cons] at hentries
      omega
  obtain ⟨before, after, entries, rfl⟩ := allocateNode_eq halloc
  exact
    { nodeId := hroster.nodeId
      nodup := by
        rw [roll_eq, map_map]
        refine ((hperm.map _).nodup_iff).mpr (nodup_cons.mpr ⟨fun hmem => ?_, hids⟩)
        obtain ⟨ballot, hballot, hid⟩ := mem_map.mp hmem
        exact hnew ballot (hsub ballot hballot) hid
      alive := by
        intro entry hmem hstate
        rw [roll_eq] at hmem
        obtain ⟨ballot, hballot, rfl⟩ := mem_map.mp hmem
        obtain rfl | hballot := mem_cons.mp (hperm.mem_iff.mp hballot)
        · exact hmember
        · refine hroster.alive _ ?_ hstate
          rw [roll_eq]
          exact mem_map.mpr ⟨ballot, hsub ballot hballot, rfl⟩
      quorumMembers := hroster.quorumMembers
      entries := by
        rw [roll_eq, length_map]
        exact hcount.1
      bound := hcount.2 }

section

variable (hroster : Roster a ring n) (hring : IsRing a ring)

include hroster hring

/-- There is always a record for a member of the ring. -/
theorem allocateNode_isSome (nodeid : NodeId) : (n.allocateNode nodeid).isSome := by
  refine Node.allocateNode_isSome fun hfull => ?_
  by_contra hnone
  -- the records are more than the members of the ring, so one of them is dead
  have hsub : n.roll.map (·.1) ⊆ ring := by
    intro id hmem
    obtain ⟨entry, hentry, rfl⟩ := mem_map.mp hmem
    obtain ⟨node, hnode, rfl⟩ := mem_map.mp hentry
    unfold clusterMembersList at hnode
    rw [mem_append, mem_cons] at hnode
    have hother : node ∈ n.before ++ n.after → node.nodeId ∈ ring := by
      intro hmem
      refine hroster.alive _ hentry fun hdead => ?_
      exact hnone ⟨node, hmem, hdead⟩
    obtain hbefore | rfl | hafter := hnode
    · exact hother (mem_append_left _ hbefore)
    · exact hroster.nodeId.symm ▸ hring.mem
    · exact hother (mem_append_right _ hafter)
  have hle := (subperm_of_subset hroster.nodup hsub).length_le
  rw [length_map] at hle
  have hentries := hroster.entries
  have hlength := hring.length
  omega

/-- The handler of a `nodeinfo` message about a node finds a record or allocates one. -/
theorem nodeinfoHandler_eq (sender : NodeId)
    (hnode : info.nodeid ≠ qdeviceNodeid) :
    ∃ (base : Node) (old : Option ClusterNode),
      n.nodeinfoHandler sender info = base.recordNodeinfo old info ∧
        (base = n ∧ (∃ node, old = some node ∧ n.findNodeByNodeid info.nodeid = some node) ∨
          old = none ∧ n.findNodeByNodeid info.nodeid = none ∧
            n.allocateNode info.nodeid = some base) := by
  unfold nodeinfoHandler
  rw [if_neg hnode]
  split
  · rename_i node hfind
    exact ⟨n, some node, rfl, .inl ⟨rfl, node, rfl, hfind⟩⟩
  rename_i hfind
  split
  · rename_i base halloc
    exact ⟨base, none, rfl, .inr ⟨rfl, hfind, halloc⟩⟩
  · rename_i hnone
    have hsome := hroster.allocateNode_isSome hring info.nodeid
    rw [hnone] at hsome
    cases hsome

/-- A `nodeinfo` message about a member of the ring or about the quorum device. -/
theorem nodeinfoHandler (sender : NodeId)
    (hmember : info.nodeid ∈ ring ∨ info.nodeid = qdeviceNodeid) :
    Roster a ring (n.nodeinfoHandler sender info) := by
  by_cases hnode : info.nodeid = qdeviceNodeid
  · unfold Node.nodeinfoHandler
    rw [if_pos hnode]
    exact hroster.of_sameRoll (SameRoll.qdeviceNodeinfoHandler n sender info)
  have hmember := hmember.resolve_right hnode
  obtain ⟨base, old, heq, ⟨rfl, -⟩ | ⟨-, hfind, halloc⟩⟩ :=
    hroster.nodeinfoHandler_eq hring sender hnode
  · rw [heq]
    exact hroster.recordNodeinfo old hmember
  · rw [heq]
    exact (hroster.allocate hmember (ballot_ne_of_find hfind) halloc).recordNodeinfo old hmember

/-- A message of the ring. -/
theorem deliver {sender : NodeId}
    {message : Message} (hmember : ∀ info, message = .nodeinfo info →
      info.nodeid ∈ ring ∨ info.nodeid = qdeviceNodeid) :
    Roster a ring (n.deliver sender message) := by
  cases message with
  | nodeinfo info => exact hroster.nodeinfoHandler hring sender (hmember info rfl)
  | reconfigure request => exact hroster.of_sameRoll (SameRoll.reconfigureHandler n request)

end

/-- The members of the old ring that are not in the new one are dead. -/
theorem syncInit {next : List NodeId} (hroster : Roster a ring n) :
    Roster a next (n.syncInit next) := by
  have hentering := Entering.syncInit n next
  have hroll : (n.syncInit next).roll = n.roll.map fun entry =>
      if entry.1 ∈ n.quorumMembers ∧ entry.1 ∉ next then (entry.1, .dead) else entry := by
    rw [roll_eq, roll_eq, ballots_syncInit, map_map, map_map]
    refine map_congr_left fun ballot _ => ?_
    simp only [comp_apply]
    split <;> rfl
  exact
    { nodeId := hentering.nodeId.trans hroster.nodeId
      nodup := by
        rw [hroll, map_map]
        have hids : ((fun entry : NodeId × NodeState => entry.1) ∘ fun entry =>
            if entry.1 ∈ n.quorumMembers ∧ entry.1 ∉ next then (entry.1, .dead) else entry) =
            (·.1) := by
          funext entry
          simp only [comp_apply]
          split <;> rfl
        rw [hids]
        exact hroster.nodup
      alive := by
        intro entry hmem hstate
        rw [hroll] at hmem
        obtain ⟨before, hbefore, rfl⟩ := mem_map.mp hmem
        split at hstate
        · exact absurd rfl hstate
        rename_i hkept
        rw [if_neg hkept]
        by_contra hleft
        refine hkept ⟨?_, hleft⟩
        rw [hroster.quorumMembers]
        exact hroster.alive before hbefore hstate
      quorumMembers := hentering.quorumMembers
      entries := by
        rw [hentering.clusterNodesEntries, hroll, length_map]
        exact hroster.entries
      bound := hentering.clusterNodesEntries ▸ hroster.bound }

/-- A node starts in its ring with its own record. -/
theorem start (hring : IsRing a ring)
    (hinit : execInitFn config a file = .ok n) : Roster a ring (n.syncInit ring) := by
  have hsame := SameRoll.execInitFn hinit
  have hroll : n.roll = [(a, .member)] := hsame.roll
  have hmembers : n.quorumMembers = [] := hsame.quorumMembers
  have hentries : n.clusterNodesEntries = 2 := hsame.clusterNodesEntries
  have hentering := Entering.syncInit n ring
  have hafter : (n.syncInit ring).roll = [(a, .member)] := by
    rw [← hroll, roll_eq, roll_eq, ballots_syncInit, map_map]
    refine map_congr_left fun ballot _ => ?_
    simp [hmembers]
  exact
    { nodeId := hentering.nodeId.trans hsame.nodeId
      nodup := by simp [hafter]
      alive := by
        intro entry hmem _
        rw [hafter, mem_singleton] at hmem
        rw [hmem]
        exact hring.mem
      quorumMembers := hentering.quorumMembers
      entries := by
        rw [hentering.clusterNodesEntries, hentries, hafter]
        rfl
      bound := by
        rw [hentering.clusterNodesEntries, hentries]
        exact Nat.le_add_left 2 _ }

end Roster

end Corosync.Votequorum
