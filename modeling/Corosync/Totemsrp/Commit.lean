import Mathlib.Data.List.Sort
import Corosync.Library.Best
import Corosync.Totemsrp.Operational

/-!
# The commit token and the start of a recovery

A commit token collects from every member of the ring to be formed what the member knows of its
old ring (`memb_state_commit_token_update`). On its second rotation every member derives from it
who came along from the old ring and which messages to recover (`memb_state_recovery_enter`).

A write outside the list of entries is undefined and ends in `none`, like a failed assertion.
-/

namespace Corosync.Totemsrp

/-- `memb_set_equal`. -/
def membSetEqual (set1 set2 : List ℕ) : Bool :=
  set1.length == set2.length && set2.all set1.contains

/-- `memb_set_subset`. -/
def membSetSubset (subset fullset : List ℕ) : Bool :=
  decide (subset.length ≤ fullset.length) && subset.all fullset.contains

/-- `memb_set_merge` of a list. -/
def membSetMergeList (subset fullset : List ℕ) : List ℕ :=
  subset.foldl (fun list node => membSetMerge node list) fullset

/-- `memb_set_and_with_ring_id`: the nodes of `set2` whose first entry in `set1` comes with the old
ring id. -/
def membSetAndWithRingId (set1 : List ℕ) (ringIds : List RingId) (set2 : List ℕ)
    (oldRingId : RingId) : List ℕ :=
  set2.filter fun node =>
    ((set1.zip ringIds).find? fun entry => entry.1 == node).any fun entry =>
      entry.2 == oldRingId

/-- `old_ring_state_save`. -/
def oldRingStateSave (inst : Instance) : Instance :=
  if inst.oldRingStateSaved then inst
  else { inst with
    oldRingStateSaved := true
    myOldRingId := inst.myRingId
    oldRingStateAru := inst.myAru
    oldRingStateHighSeqReceived := inst.myHighSeqReceived }

/-- `old_ring_state_restore`. -/
def oldRingStateRestore (inst : Instance) : Instance :=
  { inst with
    myAru := inst.oldRingStateAru
    myHighSeqReceived := inst.oldRingStateHighSeqReceived }

/-- `memb_state_commit_token_create`, for a node whose ring sequence number is known to be at least
`tokenRingIdSeq`. The members are sorted by node id; their entries are still zero. -/
def membStateCommitTokenCreate (inst : Instance) (tokenRingIdSeq : ℕ) : CommitToken :=
  let tokenMemb := (membSetSubtract inst.myProcList inst.myFailedList).insertionSort (· ≤ ·)
  { tokenSeq := 0
    ringId := ⟨inst.myId, (tokenRingIdSeq + 4) % 2 ^ 64⟩
    membIndex := 0
    addr := tokenMemb
    membList := tokenMemb.map fun _ => ⟨⟨0, 0⟩, 0, 0, false⟩ }

/-- The entry a node writes into the commit token. -/
def ownEntry (inst : Instance) : MembEntry where
  ringId := inst.myOldRingId
  aru := inst.oldRingStateAru
  highDelivered := inst.myHighDelivered
  receivedFlg := inst.myAru == inst.myHighSeqReceived

/-- `high_aru`: the highest aru among the entries of the old ring of `own`. -/
def highAru (own : MembEntry) (entries : List MembEntry) : ℕ :=
  Library.keepBest (fun aru high => sqLtCompare high aru) own.aru
    ((entries.filter fun entry => entry.ringId == own.ringId).map MembEntry.aru)

/-- The received flag of an entry of the old ring of `own` is cleared when its aru is too low. -/
def reviseFlag (own : MembEntry) (high : ℕ) (entry : MembEntry) : MembEntry :=
  if entry.ringId = own.ringId ∧ sqLtCompare entry.aru high then
    { entry with receivedFlg := false }
  else
    entry

/-- `memb_state_commit_token_update`. -/
def membStateCommitTokenUpdate (inst : Instance) (token : CommitToken) : Option Instance := do
  let index := token.membIndex.toNat
  let own := ownEntry inst
  assertThat (0 ≤ token.membIndex ∧ index < token.membList.length)
  let written := token.membList.set index own
  let high := highAru own (written.take (index + 1))
  let revised := (written.take (index + 1)).map (reviseFlag own high) ++ written.drop (index + 1)
  assertThat (token.membIndex + 1 ≤ token.addr.length)
  assertThat (inst.myId ≠ 0)
  return { inst with
    myNewMembList := token.addr
    myReceivedFlg := (reviseFlag own high own).receivedFlg
    commitToken := some { token with membIndex := token.membIndex + 1, membList := revised } }

/-- The commit token as `memb_state_commit_token_send` and `memb_state_commit_token_send_recovery`
send it. -/
def CommitToken.numbered (token : CommitToken) : CommitToken :=
  { token with tokenSeq := uadd token.tokenSeq 1 }

/-- `memb_state_commit_enter`: the node writes its entry, sends the token on and takes the ring id
of the token. -/
def membStateCommitEnter (inst : Instance) (token : CommitToken) : Option Instance := do
  let updated ← membStateCommitTokenUpdate (oldRingStateSave inst) token
  let written ← updated.commitToken
  return { updated with
    commitToken := some written.numbered
    orfTokenRetransmit := some (.commit written.numbered)
    myRingId := token.ringId
    membState := .commit
    myTrc := 0
    myPbl := 0
    myCbl := 0 }

/-- What `memb_state_recovery_enter` derives from the commit token. -/
structure RecoveryParameters where
  /-- `my_trans_memb_list`: the members that come from the same old ring. -/
  transMembList : List ℕ
  /-- `local_received_flg`: none of them misses a message. -/
  localReceivedFlg : Bool
  /-- `low_ring_aru`: messages up to here need not be sent again. -/
  lowRingAru : ℕ
  highRingDelivered : ℕ
  deriving DecidableEq

/-- The entries of the members that a recovery looks at: listed in `list` and of the old ring. -/
def recoveryEntries (inst : Instance) (token : CommitToken) (list : List ℕ) : List MembEntry :=
  ((inst.myNewMembList.zip token.membList).filter fun entry =>
    list.contains entry.1 && entry.2.ringId == inst.myOldRingId).map Prod.snd

/-- The decisions of `memb_state_recovery_enter`. The two bounds are only computed when a received
flag is false. -/
def recoveryParameters (inst : Instance) (token : CommitToken) : RecoveryParameters :=
  let trans := membSetAndWithRingId inst.myNewMembList (token.membList.map MembEntry.ringId)
    inst.myMembList inst.myOldRingId
  let received := (inst.myNewMembList.zip token.membList).all fun entry =>
    !trans.contains entry.1 || entry.2.receivedFlg
  let entries := if received then [] else recoveryEntries inst token trans
  { transMembList := trans
    localReceivedFlg := received
    lowRingAru := Library.keepBest sqLtCompare inst.oldRingStateHighSeqReceived
      (entries.map MembEntry.aru)
    highRingDelivered := Library.keepBest (fun delivered high => sqLtCompare high delivered) 0
      (entries.map MembEntry.highDelivered) }

/-- The loop of `memb_state_recovery_enter` that queues the messages of the old ring, over `count`
sequence numbers from `seq` on. -/
def originateItems : ℕ → ℕ → Instance → Option Instance
  | 0, _, inst => some inst
  | count + 1, seq, inst => do
    match ← inst.regularSortQueue.itemGet seq with
    | none => originateItems count (uadd seq 1) inst
    | some message =>
      let queue ← inst.retransMessageQueue.itemAdd (.encapsulated
        { nodeid := inst.myId, systemFrom := inst.myId, seq := 0, ringId := inst.myRingId } message)
      originateItems count (uadd seq 1) { inst with retransMessageQueue := queue }

/-- Messages of the old ring are sent again when some member misses one. -/
def originate (inst : Instance) (parameters : RecoveryParameters) : Option Instance := do
  let range := usub inst.oldRingStateHighSeqReceived parameters.lowRingAru
  if parameters.localReceivedFlg ∨ range = 0 then
    return inst
  else
    assertThat (range < queueRtrItemsSizeMax)
    originateItems range (uadd parameters.lowRingAru 1) inst

/-- The first half of `memb_state_recovery_enter`: the recovery queues are cleared, the token is
passed on and the transitional members are noted. -/
def recoveryStart (inst : Instance) (token : CommitToken) (parameters : RecoveryParameters) :
    Instance :=
  { inst with
    orfTokenDiscard := false
    myHighRingDelivered := parameters.highRingDelivered
    recoverySortQueue := inst.recoverySortQueue.reinit seqnoStartMsg
    retransMessageQueue := inst.retransMessageQueue.reinit
    orfTokenRetransmit := some (.commit token.numbered)
    myTokenSeq := usub seqnoStartToken 1
    myTransMembList := parameters.transMembList
    myDeliverMembList :=
      if parameters.localReceivedFlg then inst.myDeliverMembList
      else parameters.transMembList }

/-- `memb_state_recovery_enter`. -/
def membStateRecoveryEnter (inst : Instance) (token : CommitToken) : Option Instance := do
  let parameters := recoveryParameters inst token
  let originated ← originate (recoveryStart inst token parameters) parameters
  return { originated with
    myAru := seqnoStartMsg
    myAruCount := 0
    myHighSeqReceived := seqnoStartMsg
    myInstallSeq := seqnoStartMsg
    lastReleased := seqnoStartMsg
    membState := .recovery }

/-- `memb_recovery_state_token_loss`. -/
def membRecoveryStateTokenLoss (inst : Instance) : Instance :=
  (oldRingStateRestore inst).membStateGatherEnter

end Corosync.Totemsrp
