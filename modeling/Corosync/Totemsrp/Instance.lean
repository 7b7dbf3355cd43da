import Corosync.Totemsrp.Types

/-!
# The instance and its sort queues

The state of one node and the functions that move messages through it: reception
(`message_handler_mcast`), release (`messages_free`), the received-up-to counter (`update_aru`)
and delivery (`messages_deliver_to_app`). Two fields record calls that leave the node: the
packets given to the network and the messages handed to the application.

A function returns `none` when one of its assertions fails.
-/

namespace Corosync.Totemsrp

/-- The queues and counters that order, deliver and recover messages. -/
structure MessageState where
  regularSortQueue : Sq Mcast
  recoverySortQueue : Sq Mcast
  /-- `my_aru`, received up to and including. -/
  myAru : ℕ
  myHighSeqReceived : ℕ
  myHighDelivered : ℕ
  lastReleased : ℕ

/-- The queues of messages that wait for the token. -/
structure SendState where
  newMessageQueue : CsQueue Mcast
  newMessageQueueTrans : CsQueue Mcast
  retransMessageQueue : CsQueue Mcast
  waitingTransAck : Bool

/-- The flow control counters. -/
structure FlowState where
  myTrc : ℕ
  myPbl : ℕ
  myCbl : ℕ

/-- What the node knows of the token. -/
structure TokenState where
  myTokenSeq : ℕ
  orfTokenRetransmit : Option TokenBuffer
  orfTokenDiscard : Bool
  originatedOrfToken : Bool

/-- How the token's aru developed. -/
structure AruState where
  myLastAru : ℕ
  myAruCount : ℕ

/-- The membership part of an instance. -/
structure MembershipState where
  membState : MembState
  myRingId : RingId
  myOldRingId : RingId
  myProcList : List ℕ
  myFailedList : List ℕ
  myNewMembList : List ℕ
  myTransMembList : List ℕ
  myMembList : List ℕ
  myDeliverMembList : List ℕ
  myLeftMembList : List ℕ
  failedToRecv : Bool
  commitToken : Option CommitToken

/-- The recovery counters and the saved state of the old ring. -/
structure RecoveryState where
  myReceivedFlg : Bool
  myInstallSeq : ℕ
  myRotationCounter : ℕ
  mySetRetransFlg : Bool
  myRetransFlgCount : ℕ
  myHighRingDelivered : ℕ
  oldRingStateSaved : Bool
  oldRingStateAru : ℕ
  oldRingStateHighSeqReceived : ℕ

/-- Calls that leave the node. -/
structure CallLog where
  /-- Packets given to `totemnet_mcast_noflush_send`, oldest first. -/
  mcastSent : List Mcast
  /-- Messages given to `totemsrp_deliver_fn`, oldest first. -/
  delivered : List Mcast

/-- `struct totemsrp_instance`, in the groups that the functions write together. -/
structure Instance extends MessageState, SendState, FlowState, TokenState, AruState,
    MembershipState, RecoveryState, CallLog where
  config : TotemConfig
  myId : ℕ

/-- A sort queue has slots. -/
theorem queueRtrItemsSizeMax_pos : 0 < queueRtrItemsSizeMax := by decide

/-- `MESSAGE_QUEUE_MAX` in the examples. -/
abbrev exampleQueueMax : ℕ := 16

/-- The message queues of the examples have slots. -/
theorem exampleQueueMax_pos : 0 < exampleQueueMax := by decide

/-- `totemsrp_instance_initialize` and the allocations of `totemsrp_initialize`, for message queues
of `queueMax` slots. -/
def Instance.totemsrpInitialize (config : TotemConfig) (myId queueMax : ℕ) (hpos : 0 < queueMax) :
    Instance where
  regularSortQueue := .init queueRtrItemsSizeMax 0 queueRtrItemsSizeMax_pos
  recoverySortQueue := .init queueRtrItemsSizeMax 0 queueRtrItemsSizeMax_pos
  myAru := seqnoStartMsg
  myHighSeqReceived := seqnoStartMsg
  myHighDelivered := seqnoStartMsg
  lastReleased := 0
  newMessageQueue := .init queueMax hpos
  newMessageQueueTrans := .init queueMax hpos
  retransMessageQueue := .init retransMessageQueueSizeMax (by decide)
  waitingTransAck := true
  myTrc := 0
  myPbl := 0
  myCbl := 0
  myTokenSeq := usub seqnoStartToken 1
  orfTokenRetransmit := none
  orfTokenDiscard := false
  originatedOrfToken := false
  myLastAru := 0
  myAruCount := 0
  membState := .operational
  myRingId := ⟨0, 0⟩
  myOldRingId := ⟨0, 0⟩
  myProcList := []
  myFailedList := []
  myNewMembList := []
  myTransMembList := []
  myMembList := []
  myDeliverMembList := []
  myLeftMembList := []
  failedToRecv := false
  commitToken := none
  myReceivedFlg := true
  myInstallSeq := 0
  myRotationCounter := 0
  mySetRetransFlg := false
  myRetransFlgCount := 0
  myHighRingDelivered := 0
  oldRingStateSaved := false
  oldRingStateAru := 0
  oldRingStateHighSeqReceived := 0
  mcastSent := []
  delivered := []
  config := config
  myId := myId

/-- `memb_set_merge` of one node into a list. -/
def membSetMerge (node : ℕ) (list : List ℕ) : List ℕ :=
  if list.contains node then list else list ++ [node]

namespace Instance

variable (inst : Instance)

/-- The sort queue the token functions work on. -/
def sortQueue : Sq Mcast :=
  if inst.membState = .recovery then inst.recoverySortQueue else inst.regularSortQueue

/-- Replaces the sort queue the token functions work on. -/
def withSortQueue (q : Sq Mcast) : Instance :=
  { inst with
    recoverySortQueue := if inst.membState = .recovery then q else inst.recoverySortQueue
    regularSortQueue := if inst.membState = .recovery then inst.regularSortQueue else q }

/-- The queue `orf_token_mcast` sends from. -/
def mcastQueue : CsQueue Mcast :=
  if inst.membState = .recovery then inst.retransMessageQueue
  else if inst.waitingTransAck then inst.newMessageQueueTrans
  else inst.newMessageQueue

/-- Replaces the queue `orf_token_mcast` sends from. -/
def withMcastQueue (q : CsQueue Mcast) : Instance :=
  { inst with
    retransMessageQueue := if inst.membState = .recovery then q else inst.retransMessageQueue
    newMessageQueueTrans :=
      if inst.membState ≠ .recovery ∧ inst.waitingTransAck then q else inst.newMessageQueueTrans
    newMessageQueue :=
      if inst.membState ≠ .recovery ∧ !inst.waitingTransAck then q else inst.newMessageQueue }

/-- `memb_state_gather_enter`. Timers, the join message and the consensus list are left out. -/
def membStateGatherEnter : Instance :=
  { inst with
    orfTokenDiscard := true
    originatedOrfToken := false
    myProcList := membSetMerge inst.myId inst.myProcList
    membState := .gather }

/-- `totemsrp_mcast`: a message of the application is queued, or refused when the queue is full. -/
def totemsrpMcast (data : List UInt8) : Option Instance := do
  let message : Mcast := .plain
    { nodeid := inst.myId, systemFrom := inst.myId, seq := 0, ringId := ⟨0, 0⟩ } data
  if inst.waitingTransAck then
    if inst.newMessageQueueTrans.isFull then return inst
    let queue ← inst.newMessageQueueTrans.itemAdd message
    return { inst with newMessageQueueTrans := queue }
  else
    if inst.newMessageQueue.isFull then return inst
    let queue ← inst.newMessageQueue.itemAdd message
    return { inst with newMessageQueue := queue }

/-- The queue `totemsrp_mcast` adds to. -/
def applicationQueue : CsQueue Mcast :=
  if inst.waitingTransAck then inst.newMessageQueueTrans else inst.newMessageQueue

/-- `totemsrp_avail`. -/
def totemsrpAvail : Option ℕ :=
  inst.applicationQueue.avail

/-- `totemsrp_trans_ack`. -/
def totemsrpTransAck : Instance :=
  { inst with waitingTransAck := false }

end Instance

/-- The loop of `messages_free` over `count` sequence numbers from `seq` on. -/
def releaseItems : ℕ → ℕ → Sq Mcast → Option (Sq Mcast)
  | 0, _, q => some q
  | count + 1, seq, q => do
    let _ ← q.itemGet seq
    releaseItems count (uadd seq 1) (q.itemsRelease seq)

/-- How far `messages_free` would release for a given token aru. -/
def releaseTo (inst : Instance) (tokenAru : ℕ) : ℕ :=
  let first := if sqLtCompare inst.myLastAru tokenAru then inst.myLastAru else tokenAru
  if sqLtCompare inst.myHighDelivered first then inst.myHighDelivered else first

/-- `messages_free`. -/
def messagesFree (inst : Instance) (tokenAru : ℕ) : Option Instance :=
  if sqLtCompare (releaseTo inst tokenAru) inst.lastReleased then
    some inst
  else do
    let range := usub (releaseTo inst tokenAru) inst.lastReleased
    assertThat (range < queueRtrItemsSizeMax)
    let queue ← releaseItems range (uadd inst.lastReleased 1) inst.regularSortQueue
    return { inst with
      regularSortQueue := queue
      lastReleased := uadd inst.lastReleased range }

/-- The loop of `update_aru`: how many items follow without a hole, from `seq` on. -/
def countReceived (q : Sq Mcast) : ℕ → ℕ → Option ℕ
  | 0, _ => some 0
  | count + 1, seq => do
    match ← q.itemGet seq with
    | none => return 0
    | some _ => return (← countReceived q count (uadd seq 1)) + 1

/-- `update_aru`. -/
def updateAru (inst : Instance) : Option Instance := do
  let range := usub inst.myHighSeqReceived inst.myAru
  let received ← countReceived inst.sortQueue range (uadd inst.myAru 1)
  return { inst with myAru := uadd inst.myAru received }

/-- The loop of `messages_deliver_to_app` over `count` sequence numbers from `seq` on. -/
def deliverItems (skip : Bool) : ℕ → ℕ → Instance → Option Instance
  | 0, _, inst => some inst
  | count + 1, seq, inst =>
    if inst.regularSortQueue.inRange seq then do
      match ← inst.regularSortQueue.itemGet seq with
      | none =>
        -- a hole ends the delivery unless holes are skipped
        if skip then deliverItems skip count (uadd seq 1) { inst with myHighDelivered := seq }
        else return inst
      | some message =>
        if skip && !inst.myDeliverMembList.contains message.header.systemFrom then
          deliverItems skip count (uadd seq 1) { inst with myHighDelivered := seq }
        else
          deliverItems skip count (uadd seq 1)
            { inst with myHighDelivered := seq, delivered := inst.delivered ++ [message] }
    else
      some inst

/-- `messages_deliver_to_app`. -/
def messagesDeliverToApp (inst : Instance) (skip : Bool) (endPoint : ℕ) : Option Instance := do
  let range := usub endPoint inst.myHighDelivered
  assertThat (range < queueRtrItemsSizeMax)
  deliverItems skip range (uadd inst.myHighDelivered 1) inst

/-- The foreign-message part of `message_handler_mcast`. -/
def mcastForeign (inst : Instance) (message : Mcast) : Instance :=
  let merged := { inst with
    myProcList := membSetMerge message.header.systemFrom inst.myProcList }
  match inst.membState with
  | .operational => merged.membStateGatherEnter
  | .gather =>
    if inst.myProcList.contains message.header.systemFrom then inst
    else merged.membStateGatherEnter
  | .commit => inst
  | .recovery => inst

/-- The part of `message_handler_mcast` that stores a message of this ring. -/
def mcastStore (inst : Instance) (message : Mcast) : Option Instance :=
  let seq := message.header.seq
  let high :=
    if sqLtCompare inst.myHighSeqReceived seq then seq else inst.myHighSeqReceived
  if message.isEncapsulated then
    if inst.recoverySortQueue.inRange seq && !inst.recoverySortQueue.itemInuse seq then do
      let queue ← inst.recoverySortQueue.itemAdd message seq
      return { inst with recoverySortQueue := queue, myHighSeqReceived := high }
    else
      some inst
  else
    if inst.regularSortQueue.inRange seq && !inst.regularSortQueue.itemInuse seq then do
      let queue ← inst.regularSortQueue.itemAdd message seq
      return { inst with regularSortQueue := queue, myHighSeqReceived := high }
    else
      some inst

/-- Delivery at the end of a handler, which only an operational node does. -/
def deliverReceived (inst : Instance) : Option Instance :=
  if inst.membState = .operational then
    messagesDeliverToApp inst false inst.myHighSeqReceived
  else
    some inst

/-- `message_handler_mcast`, with its assertion on the length. -/
def messageHandlerMcast (inst : Instance) (message : Mcast) : Option Instance :=
  if frameSizeMax < message.msgLen then none
  else if inst.myRingId = message.header.ringId then do
    let stored ← mcastStore inst message
    let updated ← updateAru stored
    deliverReceived updated
  else
    some (mcastForeign inst message)

end Corosync.Totemsrp
