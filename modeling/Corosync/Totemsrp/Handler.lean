import Corosync.Totemsrp.Operational

/-!
# The token handler

`message_handler_orf_token`, cut where the code changes its subject: release of old messages, the
tests that discard a token, transmission, the token's aru, the recovery counters. The hold logic
only decides when the token is sent on and is left out: the token a node passes on is the one in
its retransmit buffer.
-/

namespace Corosync.Totemsrp

/-- A visit starts by noting the token's aru; `fcc_calculate` refreshes `my_cbl`. -/
def tokenNoted (inst : Instance) (token : OrfToken) : Instance :=
  { inst with myLastAru := token.aru, myCbl := backlogGet inst }

/-- Transmission during a visit: `fcc_calculate`, `orf_token_rtr`, `fcc_rtr_limit`,
`orf_token_mcast` and `fcc_token_update`. -/
def tokenTransmit (inst : Instance) (token : OrfToken) : Option (Instance × OrfToken) := do
  let noted := tokenNoted inst token
  let rtr ← orfTokenRtr noted token (fccCalculate noted token)
  let limited ← fccRtrLimit rtr.inst rtr.token rtr.allowed
  let (sent, token', regular) ← orfTokenMcast rtr.inst rtr.token limited
  return fccTokenUpdate sent token' (uadd rtr.remcast regular)

/-- The token's aru is lowered to this node's, or raised by the node that lowered it. -/
def tokenAruUpdate (inst : Instance) (token : OrfToken) : OrfToken :=
  if sqLtCompare inst.myAru token.aru ∨ inst.myId = token.aruAddr ∨ token.aruAddr = 0 then
    { token with
      aru := inst.myAru
      aruAddr := if inst.myAru = token.seq then 0 else inst.myId }
  else
    token

/-- The number of visits that found the token's aru unchanged. -/
def aruCountUpdate (inst : Instance) (token : OrfToken) (lastAru : ℕ) : Instance :=
  { inst with
    myAruCount :=
      if token.aru = lastAru ∧ token.aruAddr ≠ 0 then inst.myAruCount + 1 else 0 }

/-- The retransmit flag of the token during recovery. -/
def retransFlgUpdate (inst : Instance) (token : OrfToken) : Instance × OrfToken :=
  if !inst.retransMessageQueue.isEmpty then
    if token.retransFlg then (inst, token)
    else ({ inst with mySetRetransFlg := true }, { token with retransFlg := true })
  else if token.retransFlg && inst.mySetRetransFlg then
    ({ inst with mySetRetransFlg := false }, { token with retransFlg := false })
  else
    (inst, token)

/-- The recovery counters of a visit, once the token's retransmit flag is settled. -/
def recoveryCount (inst : Instance) (token : OrfToken) : Instance :=
  let flgCount := if token.retransFlg then 0 else inst.myRetransFlgCount + 1
  let installSeq := if flgCount = 2 then token.seq else inst.myInstallSeq
  let received := 2 ≤ flgCount ∧ inst.myReceivedFlg = false ∧
    sqLteCompare installSeq inst.myAru = true
  { inst with
    myRetransFlgCount := flgCount
    myInstallSeq := installSeq
    myReceivedFlg := if received then true else inst.myReceivedFlg
    myDeliverMembList := if received then inst.myTransMembList else inst.myDeliverMembList
    myRotationCounter :=
      if 3 ≤ flgCount ∧ sqLteCompare installSeq token.aru = true then inst.myRotationCounter + 1
      else 0 }

/-- The recovery part of a visit; it may end the recovery. -/
def recoveryVisit (inst : Instance) (token : OrfToken) : Option (Instance × OrfToken) := do
  let (flagged, token') := retransFlgUpdate inst token
  let counted := recoveryCount flagged token'
  if counted.myRotationCounter = 2 then
    let entered ← membStateOperationalEnter counted
    return ({ entered with myRotationCounter := 0, myRetransFlgCount := 0 }, token')
  else
    return (counted, token')

/-- `token_send`. -/
def tokenSend (inst : Instance) (token : OrfToken) : Instance :=
  { inst with orfTokenRetransmit := some (.orf token) }

/-- The recovery part of a visit, which only a node in recovery has. -/
def tokenRecovery (inst : Instance) (token : OrfToken) : Option (Instance × OrfToken) :=
  if inst.membState = .recovery then recoveryVisit inst token else some (inst, token)

/-- The end of a visit: the token is numbered and passed on, and messages are delivered. -/
def tokenForward (inst : Instance) (token : OrfToken) : Option Instance := do
  let (visited, token') ← tokenRecovery { inst with myTokenSeq := token.tokenSeq }
    { token with tokenSeq := uadd token.tokenSeq 1 }
  deliverReceived (tokenSend visited token')

/-- A member that made no progress for too long leaves the ring. -/
def failedToReceive (inst : Instance) : Instance :=
  Instance.membStateGatherEnter { inst with
    failedToRecv := true
    myFailedList := membSetMerge inst.myId inst.myFailedList }

/-- What a node does with a token that no test has discarded. -/
def tokenVisit (inst : Instance) (token : OrfToken) : Option Instance := do
  let (sent, token') ← tokenTransmit inst token
  let lowered := tokenAruUpdate sent token'
  let counted := aruCountUpdate sent lowered inst.myLastAru
  if counted.config.failToRecvConst < counted.myAruCount ∧ lowered.aruAddr = counted.myId then
    return failedToReceive counted
  else
    tokenForward counted lowered

/-- Tokens dropped before the node does anything with them. -/
def tokenIgnored (inst : Instance) (token : OrfToken) : Bool :=
  decide (retransmitEntriesMax < token.rtrList.length) || inst.orfTokenDiscard ||
    inst.membState == .commit

/-- Tokens of another configuration and retransmitted tokens. -/
def tokenDiscarded (inst : Instance) (token : OrfToken) : Bool :=
  token.ringId != inst.myRingId || sqLteCompare token.tokenSeq inst.myTokenSeq

/-- An operational node releases messages. -/
def tokenFree (inst : Instance) (token : OrfToken) : Option Instance :=
  if inst.membState = .operational then messagesFree inst token.aru else some inst

/-- `message_handler_orf_token`. The release comes before the token's ring and number are looked
at. -/
def messageHandlerOrfToken (inst : Instance) (token : OrfToken) : Option Instance :=
  if tokenIgnored inst token then
    some inst
  else do
    let freed ← tokenFree inst token
    if tokenDiscarded freed token then
      return freed
    else
      tokenVisit freed token

end Corosync.Totemsrp
