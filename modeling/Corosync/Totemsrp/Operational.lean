import Corosync.Totemsrp.Token

/-!
# Entering the operational state

`memb_state_operational_enter` ends a recovery: recovered messages go to the regular sort queue,
what can be delivered of the old ring is delivered, and the recovery sort queue becomes the
regular one. The configuration-change callbacks are left out; messages they queue are separate
steps of a run.
-/

namespace Corosync.Totemsrp

/-- One round of `deliver_messages_from_recovery_to_regular`: the message that a recovery message
carries goes to the regular sort queue when it belongs to the old ring and is not there yet. -/
def recoverMessage (inst : Instance) : Mcast → Option Instance
  | .plain _ _ => some inst
  | .encapsulated _ message =>
    let seq := message.header.seq
    if inst.myOldRingId = message.header.ringId then
      if inst.regularSortQueue.itemInuse seq then
        some inst
      else do
        let queue ← inst.regularSortQueue.itemAdd message seq
        return { inst with
          regularSortQueue := queue
          oldRingStateHighSeqReceived :=
            if sqLtCompare inst.oldRingStateHighSeqReceived seq then seq
            else inst.oldRingStateHighSeqReceived }
    else
      some inst

/-- The loop of `deliver_messages_from_recovery_to_regular` over `count` sequence numbers from
`seq` on. -/
def recoverItems : ℕ → ℕ → Instance → Option Instance
  | 0, _, inst => some inst
  | count + 1, seq, inst => do
    match ← inst.recoverySortQueue.itemGet seq with
    | none => recoverItems count (uadd seq 1) inst
    | some message =>
      let recovered ← recoverMessage inst message
      recoverItems count (uadd seq 1) recovered

/-- `deliver_messages_from_recovery_to_regular`. -/
def deliverMessagesFromRecoveryToRegular (inst : Instance) : Option Instance :=
  recoverItems (usub inst.myAru seqnoStartMsg) (uadd seqnoStartMsg 1) inst

/-- The loop of `memb_state_operational_enter` that looks for the last message received, from a
sequence number downwards. -/
def lastReceived (q : Sq Mcast) : ℕ → Option ℕ
  | 0 => do
    let _ ← q.itemGet 0
    return 0
  | seq + 1 => do
    match ← q.itemGet (seq + 1) with
    | none => lastReceived q seq
    | some _ => return seq + 1

/-- The loop of `memb_state_operational_enter` that frees the messages of the first `count`
sequence numbers; only its assertions are visible here. -/
def freeItems (q : Sq Mcast) : ℕ → Option Unit
  | 0 => some ()
  | count + 1 => do
    freeItems q count
    let _ ← q.itemGet count
    return ()

/-- `memb_set_subtract`: the members of `list` that are not in `less`. -/
def membSetSubtract (list less : List ℕ) : List ℕ :=
  list.filter fun node => !less.contains node

/-- The second half of `memb_state_operational_enter`, from `sq_copy` on. -/
def installRing (inst : Instance) : Option Instance := do
  let queue := inst.recoverySortQueue
  let highDelivered ← lastReceived queue inst.myHighSeqReceived
  freeItems queue (highDelivered + 1)
  return { inst with
    regularSortQueue := queue.itemsRelease highDelivered
    myLastAru := seqnoStartMsg
    myProcList := inst.myNewMembList
    myFailedList := []
    myHighDelivered := highDelivered
    lastReleased := highDelivered
    membState := .operational
    myReceivedFlg := true
    myOldRingId := inst.myRingId }

/-- `memb_state_operational_enter`. -/
def membStateOperationalEnter (inst : Instance) : Option Instance := do
  let started := { inst with originatedOrfToken := false, oldRingStateSaved := false }
  let recovered ← deliverMessagesFromRecoveryToRegular started
  let aruSave := recovered.myAru
  let first ← messagesDeliverToApp { recovered with myAru := recovered.oldRingStateAru } false
    recovered.oldRingStateHighSeqReceived
  let changed := { first with
    myLeftMembList := membSetSubtract first.myMembList first.myTransMembList
    myMembList := first.myNewMembList
    lastReleased := 0
    mySetRetransFlg := false
    waitingTransAck := true }
  let second ← messagesDeliverToApp changed true changed.oldRingStateHighSeqReceived
  installRing { second with myAru := aruSave }

end Corosync.Totemsrp
