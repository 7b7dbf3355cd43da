import Mathlib.Data.List.Basic

/-!
# Closed process groups: the executive of one node

The service keeps a list of all processes in all groups of the cluster and a record per local
connection. Both change only when ordered messages are delivered, apart from the state of a
connection, which library requests change as well. This is `exec/cpg.c` for one node.

Callbacks with the totem membership, iteration over groups, `cpg_membership_get` and
`cpg_local_get` only read the lists and are left out.
-/

namespace Corosync.Cpg

/-- `CPG_MAX_NAME_LENGTH`. -/
def cpgMaxNameLength : ℕ := 128

/-- `CPG_MEMBERS_MAX`. -/
def cpgMembersMax : ℕ := 128

/-- `mar_cpg_name_t`: the first `length` bytes of `value`, and what `value` has after them. Names
are compared by `mar_name_compare`, which is equality of `bytes`. -/
structure CpgName where
  bytes : List UInt8
  rest : List UInt8
  deriving DecidableEq, Repr

/-- A name that is all zeros, as `memset` leaves it. -/
def CpgName.zero : CpgName := ⟨[], List.replicate cpgMaxNameLength 0⟩

/-- `confchg_cpg_reason`; `undefined` is `CPG_REASON_UNDEFINED`. -/
inductive Reason where
  | undefined
  | join
  | leave
  | nodedown
  | nodeup
  | procdown
  deriving DecidableEq, Repr

/-- `mar_cpg_address_t`. -/
structure CpgAddress where
  nodeid : ℕ
  pid : ℕ
  reason : Reason
  deriving DecidableEq, Repr

/-- `struct process_info`. -/
structure ProcessInfo where
  nodeid : ℕ
  pid : ℕ
  group : CpgName
  deriving DecidableEq, Repr

/-- `enum cpd_state`. -/
inductive CpdState where
  | unjoined
  | leaveStarted
  | joinStarted
  | joinCompleted
  deriving DecidableEq, Repr

/-- `struct cpg_pd`, the record of a connection. -/
structure CpgPd where
  conn : ℕ
  groupName : CpgName
  pid : ℕ
  cpdState : CpdState
  transitionCounter : ℕ
  initialTransitionCounter : ℕ
  deriving DecidableEq, Repr

/-- `struct joinlist_msg`. -/
structure JoinlistMsg where
  senderNodeid : ℕ
  pid : ℕ
  groupName : CpgName
  deriving DecidableEq, Repr

/-- `lib_cpg_partial_types`. -/
inductive PartialType where
  | first
  | continued
  | last
  deriving DecidableEq, Repr

/-- Messages between the executives. Joins and leaves share a structure with a reason. -/
inductive CpgMessage where
  | procjoin (group : CpgName) (pid : ℕ)
  | procleave (group : CpgName) (pid : ℕ) (reason : Reason)
  /-- `MESSAGE_REQ_EXEC_CPG_JOINLIST`: the processes of the sender. -/
  | joinlist (entries : List (ℕ × CpgName))
  /-- `MESSAGE_REQ_EXEC_CPG_DOWNLIST`, which receivers only log. -/
  | downlist
  | mcast (group : CpgName) (pid : ℕ) (message : List UInt8)
  | partialMcast (group : CpgName) (pid : ℕ) (type : PartialType) (msglen : ℕ)
    (message : List UInt8)
  deriving DecidableEq, Repr

/-- What is sent to a connection. -/
inductive Dispatch where
  /-- `MESSAGE_RES_CPG_CONFCHG_CALLBACK`. -/
  | confchg (group : CpgName) (memberList leftList joinedList : List CpgAddress)
  /-- `MESSAGE_RES_CPG_DELIVER_CALLBACK`. -/
  | deliver (group : CpgName) (nodeid pid : ℕ) (message : List UInt8)
  /-- `MESSAGE_RES_CPG_PARTIAL_DELIVER_CALLBACK`. -/
  | partialDeliver (group : CpgName) (nodeid pid : ℕ) (type : PartialType) (msglen : ℕ)
    (message : List UInt8)
  deriving DecidableEq, Repr

/-- The results of library requests. -/
inductive CsError where
  | ok
  | tryAgain
  | busy
  | exist
  | notExist
  | nameTooLong
  | interrupt
  deriving DecidableEq, Repr

/-- `enum cpg_sync_state`. -/
inductive CpgSyncState where
  | downlist
  | joinlist
  deriving DecidableEq, Repr

/-- The queues of `totemsrp_mcast`. -/
structure Totem where
  /-- `waiting_trans_ack`, from a configuration change to the end of the synchronisation. -/
  waitingTransAck : Bool
  newMessageQueue : List CpgMessage
  newMessageQueueTrans : List CpgMessage
  room : Bool
  deriving DecidableEq, Repr

/-- The variables of `cpg.c`. -/
structure CpgNode where
  /-- `totem_nodeid_get`. -/
  nodeid : ℕ
  /-- `process_info_list_head`. -/
  processInfoList : List ProcessInfo
  /-- `cpg_pd_list_head`. -/
  cpgPdList : List CpgPd
  finalized : List CpgPd
  /-- `joinlist_messages_head`. -/
  joinlistMessages : List JoinlistMsg
  /-- The node ids of `g_req_exec_cpg_downlist`. -/
  downlist : List ℕ
  myMemberList : List ℕ
  myOldMemberList : List ℕ
  mySyncState : CpgSyncState
  totem : Totem
  dispatched : List (ℕ × Dispatch)
  deriving DecidableEq, Repr

namespace Totem

variable (totem : Totem)

/-- `totem_mcast`: the queue depends on whether a configuration change is going on. -/
def mcast (message : CpgMessage) : Totem × Bool :=
  if totem.room then
    if totem.waitingTransAck then
      ({ totem with newMessageQueueTrans := totem.newMessageQueueTrans ++ [message] }, true)
    else
      ({ totem with newMessageQueue := totem.newMessageQueue ++ [message] }, true)
  else
    (totem, false)

/-- The message that `orf_token_mcast` takes next. -/
def transmit : Option (CpgMessage × Totem) :=
  if totem.waitingTransAck then
    match totem.newMessageQueueTrans with
    | [] => none
    | message :: rest => some (message, { totem with newMessageQueueTrans := rest })
  else
    match totem.newMessageQueue with
    | [] => none
    | message :: rest => some (message, { totem with newMessageQueue := rest })

end Totem

namespace CpgPd

variable (cpd : CpgPd)

/-- A connection that is told of what happens in a group. -/
def receives (group : CpgName) : Bool :=
  cpd.groupName.bytes == group.bytes &&
    (cpd.cpdState == .joinCompleted || cpd.cpdState == .leaveStarted)

/-- The counter of a connection that is told of a configuration change. -/
def told (group : CpgName) : CpgPd :=
  if cpd.receives group then { cpd with transitionCounter := cpd.transitionCounter + 1 } else cpd

/-- The counter is remembered at the first fragment of a message. -/
def startFragments (type : PartialType) : CpgPd :=
  if type = .first then { cpd with initialTransitionCounter := cpd.transitionCounter } else cpd

/-- A record that `lib_init_fn` has cleared. -/
def init (conn : ℕ) : CpgPd := ⟨conn, .zero, 0, .unjoined, 0, 0⟩

end CpgPd

namespace ProcessInfo

variable (pi : ProcessInfo)

/-- The comparison of `process_info_find`. -/
def is (group : CpgName) (pid nodeid : ℕ) : Bool :=
  pi.pid == pid && pi.nodeid == nodeid && pi.group.bytes == group.bytes

/-- The entry comes after a new one. -/
def after (nodeid pid : ℕ) : Bool :=
  nodeid < pi.nodeid || (pi.nodeid == nodeid && pid < pi.pid)

end ProcessInfo

/-- A map from C strings to the group and the list of an event. The iteration order of
`qb_skiplist` only matters between groups; here it is the order of insertion. -/
abbrev GroupMap := List (List UInt8 × CpgName × List CpgAddress)

/-- An address is stored at the end of the list of an event and counted. The number of entries is
the word behind the `CPG_MEMBERS_MAX` places: the node id of one address too many is written over
it before the address is counted, and the event has as many addresses as it then says. -/
def storeAddress (list : List CpgAddress) (address : CpgAddress) : Option (List CpgAddress) :=
  if list.length < cpgMembersMax then some (list ++ [address])
  -- the process id and the reason go behind the number, where nothing is read
  else if address.nodeid < cpgMembersMax then some (list.take (address.nodeid + 1))
  -- the event would be read from behind the places
  else none

/-- An address is added for a key. -/
def GroupMap.add (map : GroupMap) (key : List UInt8) (group : CpgName) (address : CpgAddress) :
    Option GroupMap :=
  match map with
  | [] => some [(key, group, [address])]
  | (key', group', list) :: rest =>
    if key' = key then
      (storeAddress list address).map fun list => (key', group', list) :: rest
    else
      (GroupMap.add rest key group address).map fun rest => (key', group', list) :: rest

/-- The string in an array: up to the first zero, which must be there. -/
def cString (value : List UInt8) : Option (List UInt8) :=
  if 0 ∈ value then some (value.takeWhile (· ≠ 0)) else none

namespace CpgName

variable (group : CpgName)

/-- `cpg_group.value[cpg_group.length] = 0`, which a name of full length has no place for. -/
def terminated : Option CpgName :=
  if group.bytes.length < cpgMaxNameLength then some ⟨group.bytes, 0 :: group.rest.tail⟩ else none

/-- The array. -/
def value : List UInt8 := group.bytes ++ group.rest

end CpgName

namespace CpgNode

variable (node : CpgNode)

/-- `totem_mcast` with the result. -/
def totemMcast (message : CpgMessage) : CpgNode × Bool :=
  ({ node with totem := (node.totem.mcast message).1 }, (node.totem.mcast message).2)

/-- `cpg_node_joinleave_send`, whose callers ignore the result. -/
def cpgNodeJoinleaveSend (message : CpgMessage) : CpgNode :=
  (node.totemMcast message).1

/-- `notify_lib_joinlist_fill_member_list`. -/
def fillMemberList (group : CpgName) (leftList : List CpgAddress) : List CpgAddress :=
  (node.processInfoList.filter fun pi =>
    pi.group.bytes == group.bytes &&
      !leftList.any fun left => left.nodeid == pi.nodeid && left.pid == pi.pid).map
    fun pi => ⟨pi.nodeid, pi.pid, .undefined⟩

/-- A list names the process of a connection of this node. -/
def names (list : List CpgAddress) (group : CpgName) (cpd : CpgPd) : Bool :=
  (list.any fun address => address.nodeid == node.nodeid && address.pid == cpd.pid) &&
    cpd.groupName.bytes == group.bytes

/-- A connection whose process is on the joined list has completed its join. -/
def completeJoin (joinedList : List CpgAddress) (group : CpgName) (cpd : CpgPd) : CpgPd :=
  if node.names joinedList group cpd then { cpd with cpdState := .joinCompleted } else cpd

/-- A connection whose process has left by itself is reset. -/
def resetLeft (leftList : List CpgAddress) (group : CpgName) (cpd : CpgPd) : CpgPd :=
  if node.names (leftList.filter fun left => left.reason == .leave) group cpd then
    { cpd with pid := 0, groupName := .zero, cpdState := .unjoined }
  else
    cpd

/-- `notify_lib_joinlist`. The loop that resets connections on the left list runs over
`joined_list_entries`, as in the source. -/
def notifyLibJoinlist (group : CpgName) (joinedList leftList : List CpgAddress) : CpgNode :=
  let members := node.fillMemberList group leftList
  let joined := node.cpgPdList.map (node.completeJoin joinedList group)
  let told := joined.map fun cpd => cpd.told group
  { node with
    cpgPdList := told.map (node.resetLeft (leftList.take joinedList.length) group)
    dispatched := node.dispatched ++
      (joined.filter fun cpd => cpd.receives group).map fun cpd =>
        (cpd.conn, .confchg group members leftList joinedList) }

/-- `process_info_find`. -/
def processInfoFind (group : CpgName) (pid nodeid : ℕ) : Bool :=
  node.processInfoList.any fun pi => pi.is group pid nodeid

/-- A new entry in its place. -/
def insertProcess (pi : ProcessInfo) : CpgNode :=
  { node with
    processInfoList :=
      (node.processInfoList.takeWhile fun other => !other.after pi.nodeid pi.pid) ++
        pi :: node.processInfoList.dropWhile fun other => !other.after pi.nodeid pi.pid }

/-- `do_proc_join` without a map: the event is sent at once. -/
def doProcJoin (group : CpgName) (pid nodeid : ℕ) (reason : Reason) : CpgNode :=
  if node.processInfoFind group pid nodeid then node
  else (node.insertProcess ⟨nodeid, pid, group⟩).notifyLibJoinlist group [⟨nodeid, pid, reason⟩] []

/-- `do_proc_join` with a map, whose keys are the arrays of the names as C strings. -/
def doProcJoinMap (group : CpgName) (pid nodeid : ℕ) (reason : Reason) (map : GroupMap) :
    Option (CpgNode × GroupMap) :=
  if node.processInfoFind group pid nodeid then some (node, map)
  else
    (cString group.value).bind fun key =>
      (map.add key group ⟨nodeid, pid, reason⟩).map fun map =>
        (node.insertProcess ⟨nodeid, pid, group⟩, map)

/-- `do_proc_leave`: the event is sent before the entry is removed. -/
def doProcLeave (group : CpgName) (pid nodeid : ℕ) (reason : Reason) : CpgNode :=
  let notified := node.notifyLibJoinlist group [] [⟨nodeid, pid, reason⟩]
  { notified with
    processInfoList := notified.processInfoList.filter fun pi => !pi.is group pid nodeid }

/-- The events of a map are sent. -/
def notifyMap (map : GroupMap) (event : CpgNode → CpgName → List CpgAddress → CpgNode) : CpgNode :=
  map.foldl (fun node entry => event node entry.2.1 entry.2.2) node

/-- The map of the processes on nodes that are gone. The keys are C strings. -/
def downlistMap (left : List ProcessInfo) : Option GroupMap :=
  left.foldlM (fun map pi =>
    pi.group.terminated.bind fun group =>
      (cString group.value).bind fun key =>
        GroupMap.add map key group ⟨pi.nodeid, pi.pid, .nodedown⟩) []

/-- `downlist_inform_clients`. -/
def downlistInformClients : Option CpgNode :=
  (downlistMap (node.processInfoList.filter fun pi => pi.nodeid ∈ node.downlist)).map fun map =>
    notifyMap
      { node with
        processInfoList := node.processInfoList.filter fun pi => pi.nodeid ∉ node.downlist }
      map fun node group left => node.notifyLibJoinlist group [] left

/-- Whether a process is in the joinlist of its node. -/
def inJoinlist (pi : ProcessInfo) : Bool :=
  node.joinlistMessages.any fun stored =>
    stored.senderNodeid != node.nodeid && stored.senderNodeid == pi.nodeid &&
      stored.pid == pi.pid && pi.group.bytes == stored.groupName.bytes

/-- `joinlist_remove_zombie_pi_entries`. -/
def joinlistRemoveZombiePiEntries : CpgNode :=
  node.processInfoList.foldl (fun current pi =>
    if pi.nodeid == node.nodeid || node.inJoinlist pi then current
    else current.doProcLeave pi.group pi.pid pi.nodeid .procdown) node

/-- The processes of the stored joinlists of other nodes are added. -/
def joinStored : Option (CpgNode × GroupMap) :=
  node.joinlistMessages.foldlM (fun current stored =>
    if stored.senderNodeid = node.nodeid then some current
    else current.1.doProcJoinMap stored.groupName stored.pid stored.senderNodeid .nodeup current.2)
    (node, [])

/-- `joinlist_inform_clients`. -/
def joinlistInformClients : Option CpgNode :=
  node.joinStored.map fun joined =>
    (notifyMap joined.1 joined.2
      fun node group joined => node.notifyLibJoinlist group joined []).joinlistRemoveZombiePiEntries

/-- `cpg_sync_init`. -/
def cpgSyncInit (transList memberList : List ℕ) : CpgNode :=
  { node with
    mySyncState := .downlist
    myMemberList := memberList
    downlist := node.myOldMemberList.filter fun nodeid => nodeid ∉ transList }

/-- The processes of this node, as `cpg_exec_send_joinlist` sends them. -/
def ownProcesses : List (ℕ × CpgName) :=
  (node.processInfoList.filter fun pi => pi.nodeid == node.nodeid).map fun pi => (pi.pid, pi.group)

/-- `cpg_exec_send_joinlist`. Without processes nothing is sent. -/
def cpgExecSendJoinlist : CpgNode × Bool :=
  if node.ownProcesses = [] then (node, true) else node.totemMcast (.joinlist node.ownProcesses)

/-- `cpg_exec_send_downlist`, in the first of the two states. -/
def cpgExecSendDownlist : CpgNode × Bool :=
  if node.mySyncState = .downlist then node.totemMcast .downlist else (node, true)

/-- `cpg_sync_process`; true when it is done. -/
def cpgSyncProcess : CpgNode × Bool :=
  if node.cpgExecSendDownlist.2 then
    { node.cpgExecSendDownlist.1 with mySyncState := .joinlist : CpgNode }.cpgExecSendJoinlist
  else
    (node.cpgExecSendDownlist.1, false)

/-- `cpg_sync_activate`. -/
def cpgSyncActivate : Option CpgNode :=
  ({ node with myOldMemberList := node.myMemberList : CpgNode }.downlistInformClients).bind
    fun node => node.joinlistInformClients.map fun node => { node with joinlistMessages := [] }

/-- `cpg_sync_abort`. -/
def cpgSyncAbort : CpgNode := { node with joinlistMessages := [] }

/-- `message_handler_req_exec_cpg_joinlist`. -/
def storeJoinlist (entries : List (ℕ × CpgName)) (nodeid : ℕ) : CpgNode :=
  { node with
    joinlistMessages := entries.foldl (fun list entry => ⟨nodeid, entry.1, entry.2⟩ :: list)
      node.joinlistMessages }

/-- The group has a process on the node. -/
def knownNode (group : CpgName) (nodeid : ℕ) : Bool :=
  node.processInfoList.any fun pi => pi.nodeid == nodeid && pi.group.bytes == group.bytes

/-- A message is sent to the connections of a group, unless it comes from an unknown node. -/
def sendToGroup (group : CpgName) (nodeid : ℕ) (dispatch : Dispatch) : CpgNode :=
  if node.knownNode group nodeid then
    { node with
      dispatched := node.dispatched ++
        (node.cpgPdList.filter fun cpd => cpd.receives group).map fun cpd => (cpd.conn, dispatch) }
  else
    node

/-- The handlers of messages from the executive of a node. -/
def execHandler (nodeid : ℕ) : CpgMessage → CpgNode
  | .procjoin group pid => node.doProcJoin group pid nodeid .join
  | .procleave group pid reason => node.doProcLeave group pid nodeid reason
  | .joinlist entries => node.storeJoinlist entries nodeid
  | .downlist => node
  | .mcast group pid message => node.sendToGroup group nodeid (.deliver group nodeid pid message)
  | .partialMcast group pid type msglen message =>
    node.sendToGroup group nodeid (.partialDeliver group nodeid pid type msglen message)

/-- The record of a connection is changed. -/
def updatePd (conn : ℕ) (f : CpgPd → CpgPd) : CpgNode :=
  { node with cpgPdList := node.cpgPdList.map fun cpd => if cpd.conn = conn then f cpd else cpd }

/-- `cpg_lib_init_fn`. -/
def cpgLibInitFn (conn : ℕ) : CpgNode :=
  { node with cpgPdList := .init conn :: node.cpgPdList }

/-- `cpg_lib_exit_fn`. -/
def cpgLibExitFn (cpd : CpgPd) : CpgNode :=
  let left :=
    if cpd.groupName.bytes ≠ [] ∧ cpd.cpdState ≠ .leaveStarted then
      node.cpgNodeJoinleaveSend (.procleave cpd.groupName cpd.pid .procdown)
    else
      node
  { left with
    cpgPdList := left.cpgPdList.filter fun other => other.conn != cpd.conn
    finalized := left.finalized.filter fun other => other.conn != cpd.conn }

/-- `message_handler_req_lib_cpg_join`. -/
def libCpgJoin (cpd : CpgPd) (pid : ℕ) (group : CpgName) : CpgNode × CsError :=
  if node.cpgPdList.any fun item => item.pid == pid && group.bytes == item.groupName.bytes then
    (node, .exist)
  else if node.processInfoList.any fun pi =>
      pi.nodeid == node.nodeid && pi.pid == pid && group.bytes == pi.group.bytes then
    (node, .tryAgain)
  else if cpgMaxNameLength < group.bytes.length then
    (node, .nameTooLong)
  else
    match cpd.cpdState with
    | .unjoined =>
      ((node.updatePd cpd.conn fun cpd =>
        { cpd with cpdState := .joinStarted, pid := pid, groupName := group }).cpgNodeJoinleaveSend
          (.procjoin group pid), .ok)
    | .leaveStarted => (node, .busy)
    | .joinStarted => (node, .exist)
    | .joinCompleted => (node, .exist)

/-- `message_handler_req_lib_cpg_leave`. The process and the group are those of the request. -/
def libCpgLeave (cpd : CpgPd) (pid : ℕ) (group : CpgName) : CpgNode × CsError :=
  match cpd.cpdState with
  | .unjoined => (node, .notExist)
  | .leaveStarted => (node, .notExist)
  | .joinStarted => (node, .busy)
  | .joinCompleted =>
    ((node.updatePd cpd.conn fun cpd => { cpd with cpdState := .leaveStarted }).cpgNodeJoinleaveSend
      (.procleave group pid .leave), .ok)

/-- `message_handler_req_lib_cpg_finalize`. -/
def libCpgFinalize (cpd : CpgPd) : CpgNode :=
  { node with
    cpgPdList := node.cpgPdList.filter fun other => other.conn != cpd.conn
    finalized := cpd :: node.finalized }

/-- Whether a connection may multicast. -/
def mcastError (cpd : CpgPd) : CsError :=
  match cpd.cpdState with
  | .unjoined => .notExist
  | .leaveStarted => .notExist
  | .joinStarted => .ok
  | .joinCompleted => .ok

/-- `message_handler_req_lib_cpg_mcast`, with `assert (result == 0)`. -/
def libCpgMcast (cpd : CpgPd) (message : List UInt8) : Option CpgNode :=
  if mcastError cpd = .ok then
    let sent := node.totemMcast (.mcast cpd.groupName cpd.pid message)
    if sent.2 then some sent.1 else none
  else
    some node

/-- Whether a connection may multicast a fragment: not after a configuration change since the
first one. -/
def partialMcastError (cpd : CpgPd) (type : PartialType) : CsError :=
  if (cpd.startFragments type).transitionCounter ≠
      (cpd.startFragments type).initialTransitionCounter then .interrupt
  else mcastError cpd

/-- `message_handler_req_lib_cpg_partial_mcast`. -/
def libCpgPartialMcast (cpd : CpgPd) (type : PartialType) (msglen : ℕ) (message : List UInt8) :
    Option (CpgNode × CsError) :=
  let node := node.updatePd cpd.conn fun cpd => cpd.startFragments type
  if partialMcastError cpd type = .ok then
    let sent := node.totemMcast (.partialMcast cpd.groupName cpd.pid type msglen message)
    if sent.2 then some (sent.1, .ok) else none
  else
    some (node, partialMcastError cpd type)

end CpgNode

end Corosync.Cpg
