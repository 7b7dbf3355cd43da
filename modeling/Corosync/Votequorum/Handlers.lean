import Corosync.Votequorum.Node

/-!
# Messages and synchronisation of votequorum

The handlers of the messages that votequorum multicasts, the functions the synchronisation calls
when a ring is formed, the timers, and the requests of a quorum device. What a function multicasts
is returned in its order.
-/

namespace Corosync.Votequorum

/-- `struct req_exec_quorum_nodeinfo` -/
structure Nodeinfo where
  nodeid : NodeId
  votes : ℕ
  expectedVotes : ℕ
  flags : Flags
deriving DecidableEq, Repr

/-- `struct req_exec_quorum_reconfigure`, by its `param`. -/
inductive Reconfigure
  | expectedVotes (value : ℕ)
  | nodeVotes (nodeid : NodeId) (value : ℕ)
  | cancelWfa
deriving DecidableEq, Repr

/-- The messages of votequorum. Those about the name and the extra information of the quorum device
are left out. -/
inductive Message
  | nodeinfo (info : Nodeinfo)
  | reconfigure (request : Reconfigure)
deriving DecidableEq, Repr

/-- `header.error` in the answers to `setexpected` and `setvotes`. -/
inductive Answer
  | ok
  | invalidParam
  | noResources
  | nameNotFound
deriving DecidableEq, Repr

/-- The outcome of a request. -/
structure Response where
  node : Node
  answer : Answer
  sent : List Message
deriving DecidableEq, Repr

namespace Node

variable (n : Node)

/-- The `nodeinfo` message of `votequorum_exec_send_nodeinfo (us->node_id)`. -/
def nodeinfo : Nodeinfo :=
  ⟨n.us.nodeId, n.us.votes, n.us.expectedVotes, n.us.flags⟩

/-- The `nodeinfo` message of `votequorum_exec_send_nodeinfo (VOTEQUORUM_QDEVICE_NODEID)`. -/
def qdeviceNodeinfo : Nodeinfo := ⟨qdeviceNodeid, n.qdeviceVotes, 0, {}⟩

/-- The votes of the quorum device after a `nodeinfo` message about it. -/
def learnedVotes (senderNode : ClusterNode) (info : Nodeinfo) : ℕ :=
  if !n.clusterIsQuorate && senderNode.flags.quorate then info.votes
  else max n.qdeviceVotes info.votes

/-- Assigns the votes of the quorum device, with a recalculation if they change. -/
def assignQdeviceVotes (votes : ℕ) : Node :=
  if n.qdeviceVotes ≠ votes then { n with qdeviceVotes := votes }.recalculateQuorum false false
  else { n with qdeviceVotes := votes }

/-- The branch of the `nodeinfo` handler for the quorum device. -/
def qdeviceNodeinfoHandler (sender : NodeId) (info : Nodeinfo) : Node :=
  match n.findNodeByNodeid sender with
  | none => { n with aborted := true }
  | some senderNode => n.assignQdeviceVotes (n.learnedVotes senderNode info)

/-- The new state of the record of a node that announces itself. -/
def announcedState (info : Nodeinfo) : NodeState :=
  if info.flags.leaving then .leaving else .member

/-- A node that is not quorate takes over the expected votes a quorate node announces. -/
def adopts (info : Nodeinfo) : Bool := !n.clusterIsQuorate && info.flags.quorate

/-- The flags, the votes and the state of the record of a node that announces itself. -/
def updateAnnounced (info : Nodeinfo) : Node :=
  n.updateNode info.nodeid fun node =>
    { node with flags := info.flags, votes := info.votes, state := announcedState info }

/-- The expected votes of the record of a node. -/
def assignExpectedVotes (nodeid : NodeId) (expectedVotes : ℕ) : Node :=
  n.updateNode nodeid fun node => { node with expectedVotes := expectedVotes }

/-- The part of the `nodeinfo` handler that updates the record of the node. -/
def updateRecord (info : Nodeinfo) : Node :=
  let updated := n.updateAnnounced info
  let updated := if n.adopts info then updated.setExpectedVotes info.expectedVotes else updated
  updated.assignExpectedVotes info.nodeid
    (if info.flags.quorate || n.evTracking then info.expectedVotes else updated.us.expectedVotes)

/-- Last man standing is switched off when a node has more than one vote. -/
def checkLastManStanding (info : Nodeinfo) : Node :=
  if n.lastManStanding ∧ info.votes > 1 then
    { n with lastManStanding := false, lastManStandingTimerSet := false }
  else n

/-- The end of the `nodeinfo` handler: the wait for all nodes ends with a quorate node. -/
def heedQuorateNode (nodeid : NodeId) : Node :=
  match n.findNodeByNodeid nodeid with
  | some node =>
    if n.waitForAll && !node.flags.wfastatus && node.flags.quorate then
      n.updateWaitForAllStatus false
    else n
  | none => n

/-- The condition for a recalculation in the `nodeinfo` handler; `old` is the record before, if it
is not new. -/
def recordChanged (old : Option ClusterNode) (info : Nodeinfo) : Bool :=
  match old with
  | none => true
  | some old => info.nodeid = n.us.nodeId || info.flags.first ||
      n.findNodeByNodeid info.nodeid ≠ some old

/-- The `nodeinfo` handler for a node whose record exists; `old` is the record before, if it is not
new. -/
def recordNodeinfo (old : Option ClusterNode) (info : Nodeinfo) : Node :=
  let updated := (n.updateRecord info).checkLastManStanding info
  let recalculated :=
    if updated.recordChanged old info then
      updated.recalculateQuorum (info.flags.leaving || n.adopts info) info.flags.leaving
    else updated
  recalculated.heedQuorateNode info.nodeid

/-- `message_handler_req_exec_votequorum_nodeinfo` -/
def nodeinfoHandler (sender : NodeId) (info : Nodeinfo) : Node :=
  if info.nodeid = qdeviceNodeid then n.qdeviceNodeinfoHandler sender info
  else match n.findNodeByNodeid info.nodeid with
    | some old => n.recordNodeinfo (some old) info
    | none =>
      match n.allocateNode info.nodeid with
      | some n => n.recordNodeinfo none info
      | none => { n with aborted := true }

/-- `find_node_by_nodeid` and the assignment to `votes` of the record it finds. -/
def setNodeVotes (nodeid : NodeId) (votes : ℕ) : Option Node :=
  if nodeid = n.us.nodeId then some (n.updateNode nodeid ({ · with votes := votes }))
  else if nodeid = qdeviceNodeid then some { n with qdeviceVotes := votes }
  else if (n.findNodeByNodeid nodeid).isSome then
    some (n.updateNode nodeid ({ · with votes := votes }))
  else none

/-- `message_handler_req_exec_votequorum_reconfigure` -/
def reconfigureHandler : Reconfigure → Node
  | .expectedVotes value =>
    let n := { n.updateNodeExpectedVotes value with evBarrier := value }
    let n :=
      if n.evTracking then n.setExpectedVotes (max n.us.expectedVotes n.evTrackingBarrier) else n
    n.recalculateQuorum true false
  | .nodeVotes nodeid value =>
    match n.setNodeVotes nodeid value with
    | some n => n.recalculateQuorum true false
    | none => n
  | .cancelWfa => (n.updateWaitForAllStatus false).recalculateQuorum false false

/-- Delivers a message. -/
def deliver (sender : NodeId) : Message → Node
  | .nodeinfo info => n.nodeinfoHandler sender info
  | .reconfigure request => n.reconfigureHandler request

/-- The nodes of the old member list that are not in the new one are dead. -/
def markDead (memberList : List NodeId) : Node :=
  n.mapNodes fun node =>
    if node.nodeId ∈ n.quorumMembers ∧ node.nodeId ∉ memberList then { node with state := .dead }
    else node

/-- The part of `votequorum_sync_init` that arms the timer of last man standing. -/
def armLastManStanding (memberList : List NodeId) : Node :=
  let leftNodes := n.quorumMembers.any (· ∉ memberList)
  if n.lastManStanding ∧
      ((n.quorum ≤ memberList.length ∧ leftNodes) ∨
        (memberList.length ≤ n.quorum ∧ n.autoTieBreaker ≠ .none ∧
          n.checkLowNodeIdPartition)) then
    { n with lastManStandingTimerSet := true }
  else n

/-- The part of `votequorum_sync_init` that waits for the quorum device. -/
def waitForQdevice : Node :=
  if n.us.flags.qdeviceRegistered && n.us.flags.qdeviceAlive then
    { n with qdeviceTimerSet := true, syncWaitForPollOrTimeout := true }
  else n

/-- `votequorum_sync_init` -/
def syncInit (memberList : List NodeId) : Node :=
  let n := { n with
    syncInProgress := true, syncNodeinfoSent := false, syncWaitForPollOrTimeout := false }
  let n := if memberList.length > 1 then n.changeFlags ({ · with first := false }) else n
  let n := (n.markDead memberList).armLastManStanding memberList
  { n with
    previousQuorumMembers := n.quorumMembers
    quorumMembers := memberList }.waitForQdevice

/-- `votequorum_sync_process`, without its result. -/
def syncProcess : Node × List Message :=
  if n.syncNodeinfoSent then (n, [])
  else ({ n with syncNodeinfoSent := true }, [.nodeinfo n.nodeinfo, .nodeinfo n.qdeviceNodeinfo])

/-- The result of `votequorum_sync_process`: it is called again while this is false. -/
def syncProcessed : Bool :=
  n.syncNodeinfoSent && !(n.us.flags.qdeviceRegistered && n.syncWaitForPollOrTimeout)

/-- `votequorum_sync_activate` -/
def syncActivate : Node :=
  { n.recalculateQuorum false false with syncInProgress := false }

/-- `votequorum_last_man_standing_timer_fn` -/
def lastManStandingTimerFn : Node :=
  let n := { n with lastManStandingTimerSet := false }
  if n.clusterIsQuorate then n.recalculateQuorum true true else n

/-- `votequorum_exec_exit_fn`: the process ends. -/
def execExitFn : Node × List Message :=
  if n.allowDownscale then
    let n := n.changeFlags ({ · with leaving := true })
    ({ n with evTrackingFdOpen := false }, [.nodeinfo n.nodeinfo])
  else ({ n with evTrackingFdOpen := false }, [])

/-- What follows from the registration of a quorum device on this node, when its message is
delivered. -/
def qdeviceRegister : Node × List Message :=
  if n.qdeviceCanOperate && !n.us.flags.qdeviceRegistered then
    let n := n.changeFlags ({ · with qdeviceRegistered := true })
    (n, [.nodeinfo n.qdeviceNodeinfo, .nodeinfo n.nodeinfo])
  else (n, [])

/-- `message_handler_req_lib_votequorum_qdevice_unregister` -/
def qdeviceUnregister : Node × List Message :=
  if n.us.flags.qdeviceRegistered then
    let n := n.changeFlags fun flags =>
      { flags with
        qdeviceRegistered := false, qdeviceAlive := false, qdeviceCastVote := false
        qdeviceMasterWins := false }
    let n :=
      if n.qdeviceTimerSet then
        { n with qdeviceTimerSet := false, syncWaitForPollOrTimeout := false }
      else n
    (n, [.nodeinfo n.nodeinfo])
  else (n, [])

/-- `message_handler_req_lib_votequorum_qdevice_poll` with the id of the current ring. -/
def qdevicePoll (castVote : Bool) : Node × List Message :=
  if n.qdeviceCanOperate && n.us.flags.qdeviceRegistered then
    let polled := {
      n.changeFlags ({ · with qdeviceAlive := true, qdeviceCastVote := castVote }) with
      qdeviceTimerSet := true, syncWaitForPollOrTimeout := false }
    (polled, if polled.us.flags ≠ n.us.flags then [.nodeinfo polled.nodeinfo] else [])
  else (n, [])

/-- `message_handler_req_lib_votequorum_qdevice_master_wins` -/
def qdeviceAllowMasterWins (allow : Bool) : Node × List Message :=
  if n.qdeviceCanOperate && n.us.flags.qdeviceRegistered then
    let changed := { n.changeFlags ({ · with qdeviceMasterWins := allow }) with
      qdeviceMasterWins := allow }
    (changed, if changed.us.flags ≠ n.us.flags then [.nodeinfo changed.nodeinfo] else [])
  else (n, [])

/-- `qdevice_timer_fn` -/
def qdeviceTimerFn : Node × List Message :=
  if n.us.flags.qdeviceAlive && n.qdeviceTimerSet then
    let n := { n.changeFlags ({ · with qdeviceAlive := false, qdeviceCastVote := false }) with
      qdeviceTimerSet := false, syncWaitForPollOrTimeout := false }
    (n, [.nodeinfo n.nodeinfo])
  else (n, [])

/-- `votequorum_exec_send_reconfigure` at the end of the next two handlers; `queued` is whether
`totem_mcast` accepts the message. -/
def sendReconfigure (request : Reconfigure) (queued : Bool) : Response :=
  if queued then ⟨n, .ok, [.reconfigure request]⟩ else ⟨n, .noResources, []⟩

/-- The new expected votes make no sense, or they would take the quorum from the cluster. -/
def RejectsExpected (expectedVotes : ℕ) : Prop :=
  expectedVotes < n.countVotes.1 ∨
    (n.clusterIsQuorate ∧
      { n with allowDownscale := false }.calculateQuorum true expectedVotes > n.countVotes.1)

instance (expectedVotes : ℕ) : Decidable (n.RejectsExpected expectedVotes) :=
  inferInstanceAs (Decidable (_ ∨ _))

/-- `message_handler_req_lib_votequorum_setexpected` -/
def libSetexpected (expectedVotes : ℕ) (queued : Bool) : Response :=
  if n.RejectsExpected expectedVotes then ⟨n, .invalidParam, []⟩
  else
    (n.updateNodeExpectedVotes expectedVotes).sendReconfigure (.expectedVotes expectedVotes) queued

/-- The trial quorum is out of range. -/
def RejectsVotes (changed : Node) : Prop :=
  changed.calculateQuorum true 0 < changed.countVotes.1 / 2 ∨
    changed.calculateQuorum true 0 > changed.countVotes.1

instance (changed : Node) : Decidable changed.RejectsVotes :=
  inferInstanceAs (Decidable (_ ∨ _))

/-- `message_handler_req_lib_votequorum_setvotes`. Where the trial quorum is out of range the saved
votes are assigned again. -/
def libSetvotes (nodeid : NodeId) (votes : ℕ) (queued : Bool) : Response :=
  match n.setNodeVotes nodeid votes with
  | none => ⟨n, .nameNotFound, []⟩
  | some changed =>
    if changed.RejectsVotes then ⟨n, .invalidParam, []⟩
    else changed.sendReconfigure (.nodeVotes nodeid votes) queued

end Node

end Corosync.Votequorum
