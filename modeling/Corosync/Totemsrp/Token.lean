import Corosync.Totemsrp.Instance

/-!
# What a node does with the token

Flow control (`fcc_calculate`, `fcc_rtr_limit`, `fcc_token_update`), retransmission
(`orf_token_rtr`) and transmission of queued messages (`orf_token_mcast`). The next module puts
them together in the token handler.
-/

namespace Corosync.Totemsrp

/-- `totemnet_mcast_noflush_send`. -/
def mcastSend (inst : Instance) (message : Mcast) : Instance :=
  { inst with mcastSent := inst.mcastSent ++ [message] }

/-- `backlog_get`. -/
def backlogGet (inst : Instance) : ℕ :=
  match inst.membState with
  | .operational =>
    if inst.waitingTransAck then inst.newMessageQueueTrans.used else inst.newMessageQueue.used
  | .recovery => inst.retransMessageQueue.used
  | .gather => 0
  | .commit => 0

/-- The unsigned sum `token->backlog + my_cbl - my_pbl`. -/
def totalBacklog (token : OrfToken) (cbl pbl : ℕ) : ℕ :=
  usub (uadd token.backlog cbl) pbl

/-- `fcc_calculate`: the number of messages this visit may send, once `my_cbl` is refreshed. -/
def fccCalculate (inst : Instance) (token : OrfToken) : ℕ :=
  let window := inst.config.windowSize
  let allowed := min inst.config.maxMessages (usub window token.fcc)
  let total := totalBacklog token inst.myCbl inst.myPbl
  let share := window * inst.myPbl % 2 ^ 32 / total
  if total ≠ 0 ∧ 0 < share ∧ share < allowed then share else allowed

/-- `fcc_rtr_limit`: nothing is sent when the sort queue could overflow. -/
def fccRtrLimit (inst : Instance) (token : OrfToken) (allowed : ℕ) : Option ℕ := do
  let room := usub queueRtrItemsSizeMax (uadd allowed inst.config.windowSize)
  -- the difference is kept in a signed variable
  assertThat (room < 2 ^ 31)
  let limit := usub (usub (uadd inst.lastReleased queueRtrItemsSizeMax) allowed)
    inst.config.windowSize
  return if sqLtCompare limit token.seq then 0 else allowed

/-- `fcc_token_update`. -/
def fccTokenUpdate (inst : Instance) (token : OrfToken) (msgsTransmitted : ℕ) :
    Instance × OrfToken :=
  ({ inst with myTrc := msgsTransmitted, myPbl := inst.myCbl },
    { token with
      fcc := uadd token.fcc (usub msgsTransmitted inst.myTrc)
      backlog := uadd token.backlog (usub inst.myCbl inst.myPbl) })

/-- `orf_token_remcast`: the message to send again, when this node has it. -/
def orfTokenRemcast (inst : Instance) (seq : ℕ) : Option (Option Mcast) :=
  if inst.sortQueue.inRange seq then inst.sortQueue.itemGet seq else some none

/-- The first loop of `orf_token_rtr`: entries this node can serve are sent and dropped from the
list until the budget is used up. Returns the remaining list and the number of messages sent. -/
def rtrRemcast (allowed : ℕ) : List RtrItem → ℕ → Instance → Option (Instance × List RtrItem × ℕ)
  | [], current, inst => some (inst, [], current)
  | item :: rest, current, inst =>
    if current < allowed then
      if item.ringId = inst.myRingId then do
        match ← orfTokenRemcast inst item.seq with
        | some message => rtrRemcast allowed rest (current + 1) (mcastSend inst message)
        | none =>
          let (inst', list, sent) ← rtrRemcast allowed rest current inst
          return (inst', item :: list, sent)
      else do
        let (inst', list, sent) ← rtrRemcast allowed rest current inst
        return (inst', item :: list, sent)
    else
      some (inst, item :: rest, current)

/-- The second loop of `orf_token_rtr`, over `count` sequence numbers from `seq` on: messages that
were missed often enough are added to the retransmit list while it has room. -/
def rtrRequest (ringId : RingId) (missCountConst : ℕ) :
    ℕ → ℕ → Sq Mcast → List RtrItem → Sq Mcast × List RtrItem
  | 0, _, q, list => (q, list)
  | count + 1, seq, q, list =>
    if list.length < retransmitEntriesMax then
      if q.inRange seq then
        if q.itemInuse seq then
          rtrRequest ringId missCountConst count (uadd seq 1) q list
        else if (q.itemMissCount seq).2 < missCountConst then
          rtrRequest ringId missCountConst count (uadd seq 1) (q.itemMissCount seq).1 list
        else if list.any (fun item => item.seq == seq) then
          rtrRequest ringId missCountConst count (uadd seq 1) (q.itemMissCount seq).1 list
        else
          rtrRequest ringId missCountConst count (uadd seq 1) (q.itemMissCount seq).1
            (list ++ [⟨ringId, seq⟩])
      else
        (q, list)
    else
      (q, list)

/-- What `orf_token_rtr` leaves behind. -/
structure RtrResult where
  inst : Instance
  token : OrfToken
  allowed : ℕ
  remcast : ℕ

/-- `orf_token_rtr`. -/
def orfTokenRtr (inst : Instance) (token : OrfToken) (allowed : ℕ) : Option RtrResult := do
  let (inst', list, sent) ← rtrRemcast allowed token.rtrList 0 inst
  let range := usub token.seq inst'.myAru
  assertThat (range < queueRtrItemsSizeMax)
  let (queue, requests) := rtrRequest inst'.myRingId inst'.config.missCountConst range
    (uadd inst'.myAru 1) inst'.sortQueue list
  return {
    inst := inst'.withSortQueue queue
    token := { token with rtrList := requests }
    allowed := usub allowed sent
    remcast := sent }

/-- A queued message as it is put on the ring. -/
def stamp (inst : Instance) (message : Mcast) (seq : ℕ) : Mcast :=
  message.withHeader { message.header with seq := seq, ringId := inst.myRingId }

/-- One round of the loop of `orf_token_mcast`: the stamped message was stored in `queue`, is
multicast and leaves the message queue, of which `rest` remains. -/
def mcastItem (inst : Instance) (message : Mcast) (queue : Sq Mcast) (rest : CsQueue Mcast) :
    Instance :=
  { (mcastSend (inst.withSortQueue queue) message).withMcastQueue rest with
    myHighSeqReceived := message.header.seq }

/-- The loop of `orf_token_mcast`: up to `allowed` queued messages are numbered, stored and
multicast. Returns the number of messages sent. -/
def mcastQueued : ℕ → Instance → OrfToken → Option (Instance × OrfToken × ℕ)
  | 0, inst, token => some (inst, token, 0)
  | allowed + 1, inst, token =>
    match inst.mcastQueue.itemTake with
    | none => some (inst, token, 0)
    | some (message, rest) => do
      let seq := uadd token.seq 1
      let queue ← inst.sortQueue.itemAdd (stamp inst message seq) seq
      let (inst', token', sent) ← mcastQueued allowed
        (mcastItem inst (stamp inst message seq) queue rest) { token with seq := seq }
      return (inst', token', sent + 1)

/-- `orf_token_mcast`. -/
def orfTokenMcast (inst : Instance) (token : OrfToken) (allowed : ℕ) :
    Option (Instance × OrfToken × ℕ) := do
  let (inst', token', sent) ← mcastQueued allowed inst token
  let updated ← updateAru inst'
  return (updated, token', sent)

end Corosync.Totemsrp
