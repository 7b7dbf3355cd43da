import Corosync.Totemsrp.Handler
import Corosync.Totemsrp.Commit

/-!
# The membership protocol of one node

The handlers and timers that move a node between the states GATHER, COMMIT, RECOVERY and
OPERATIONAL. A node agrees with others on a set of members by join messages, the lowest of them
creates a commit token, and a commit token that comes round twice starts the recovery.

Join messages that a node sends, the timers themselves and the flush of received joins are left
out: a step receives whatever join or timeout comes next.
-/

namespace Corosync.Totemsrp

/-- `LEAVE_DUMMY_NODEID`. -/
def leaveDummyNodeid : ℕ := 0

/-- `struct memb_join`. -/
structure MembJoin where
  /-- Sender in the header; `LEAVE_DUMMY_NODEID` for a node that leaves. -/
  nodeid : ℕ
  systemFrom : ℕ
  procList : List ℕ
  failedList : List ℕ
  ringSeq : ℕ
  deriving DecidableEq, Repr

/-- What a node does that others, its storage or an observer of its state transitions can see. -/
inductive Effect where
  /-- `memb_state_commit_enter` replaces one ring id by another. -/
  | commitEnter (old new : RingId)
  /-- A commit token is sent to a node; `created` when this node has just created it. -/
  | commitToken (created : Bool) (target : ℕ) (token : CommitToken)
  | ringIdStore (ringId : RingId)
  /-- `memb_state_recovery_enter` runs with a token at a node with a ring id. -/
  | recoveryEnter (token own : RingId)
  deriving DecidableEq

/-- An instance with the state that only the membership protocol uses. -/
structure MembNode extends Instance where
  tokenRingIdSeq : ℕ
  /-- `consensus_list`: the nodes whose consensus is set. -/
  consensusList : List ℕ
  /-- The node that `totemnet_token_send` sends to. -/
  tokenTarget : Option ℕ
  effects : List Effect

namespace MembNode

variable (node : MembNode)

/-- The members a new ring would have. -/
def tokenMemb : List ℕ :=
  membSetSubtract node.myProcList node.myFailedList

/-- `memb_state_gather_enter`. -/
def gatherEnter : MembNode :=
  { node with
    toInstance := node.toInstance.membStateGatherEnter
    consensusList := [node.myId] }

/-- `memb_consensus_set`. -/
def consensusSet (addr : ℕ) : MembNode :=
  { node with consensusList := membSetMerge addr node.consensusList }

/-- `memb_consensus_agreed`. -/
def consensusAgreed : Option Bool := do
  let agreed := node.tokenMemb.all node.consensusList.contains
  if agreed && node.failedToRecv then return agreed
  assertThat (1 ≤ node.tokenMemb.length)
  return agreed

/-- `memb_consensus_notset`. -/
def consensusNotset : List ℕ :=
  node.myProcList.filter fun addr => !node.consensusList.contains addr

/-- `memb_lowest_in_config`, which asserts that there is a member. -/
def lowestInConfig : Option Bool :=
  match node.tokenMemb with
  | [] => none
  | first :: rest =>
    some (Library.keepBest (fun addr lowest => decide (addr < lowest)) first rest == node.myId)

/-- `memb_state_commit_enter` with its effects: the token is sent before the ring id is stored. -/
def commitEnter (created : Bool) (token : CommitToken) : Option MembNode := do
  let entered ← membStateCommitEnter node.toInstance token
  let sent ← entered.commitToken
  let target ← sent.addr[(sent.membIndex % sent.addr.length).toNat]?
  return { node with
    toInstance := entered
    tokenTarget := some target
    tokenRingIdSeq := token.ringId.seq
    effects := node.effects ++ [.commitEnter node.myRingId token.ringId,
      .commitToken created target sent, .ringIdStore token.ringId] }

/-- A node creates a commit token and commits to it. -/
def commitCreate : Option MembNode :=
  node.commitEnter true (membStateCommitTokenCreate node.toInstance node.tokenRingIdSeq)

/-- The end of `memb_join_process`: an operational node that has not entered GATHER does. -/
def joinProcessOut : MembNode :=
  if node.membState = .operational then node.gatherEnter else node

/-- The part of `memb_join_process` for a join with the lists this node has. -/
def joinAgreed (join : MembJoin) : Option MembNode := do
  let noted := if join.nodeid = leaveDummyNodeid then node else node.consensusSet join.systemFrom
  let agreed ← noted.consensusAgreed
  if agreed && noted.failedToRecv then
    commitCreate
      { noted with failedToRecv := false, myProcList := [noted.myId], myFailedList := [] }
  else if agreed then
    noted.lowestInConfig.bind fun lowest =>
      if lowest then noted.commitCreate else some noted.joinProcessOut
  else
    some noted.joinProcessOut

/-- The failed list after a join that this node did not know everything of. -/
def joinFailed (join : MembJoin) : List ℕ :=
  if join.failedList.contains node.myId then
    membSetMerge join.systemFrom node.myFailedList
  else if node.myMembList.contains join.systemFrom then
    if node.myFailedList.contains join.systemFrom then
      membSetMergeList (membSetSubtract join.failedList node.myMembList) node.myFailedList
    else
      membSetMergeList join.failedList node.myFailedList
  else
    node.myFailedList

/-- `memb_join_process`. -/
def joinProcess (join : MembJoin) : Option MembNode :=
  if membSetEqual join.procList node.myProcList &&
      membSetEqual join.failedList node.myFailedList then
    node.joinAgreed join
  else if membSetSubset join.procList node.myProcList &&
      membSetSubset join.failedList node.myFailedList then
    some node.joinProcessOut
  else if node.myFailedList.contains join.systemFrom then
    some node.joinProcessOut
  else
    some (gatherEnter { node with
      myProcList := membSetMergeList join.procList node.myProcList
      myFailedList := node.joinFailed join })

/-- `ignore_join_under_operational`. -/
def ignoreJoinUnderOperational (join : MembJoin) : Bool :=
  join.failedList.contains node.myId ||
    (node.myMembList.contains join.systemFrom && decide (join.ringSeq < node.myRingId.seq))

/-- A join that a node in COMMIT or RECOVERY reacts to. -/
def joinConcerns (join : MembJoin) : Bool :=
  node.myNewMembList.contains join.systemFrom && decide (node.myRingId.seq ≤ join.ringSeq)

/-- `message_handler_memb_join`. -/
def messageHandlerMembJoin (join : MembJoin) : Option MembNode :=
  let raised : MembNode := { node with tokenRingIdSeq := max node.tokenRingIdSeq join.ringSeq }
  match node.membState with
  | .operational =>
    if node.ignoreJoinUnderOperational join then some raised else raised.joinProcess join
  | .gather => raised.joinProcess join
  | .commit =>
    if node.joinConcerns join then (raised.joinProcess join).map gatherEnter else some raised
  | .recovery =>
    if node.joinConcerns join then
      (raised.joinProcess join).map fun processed =>
        gatherEnter (gatherEnter { processed with
          toInstance := oldRingStateRestore processed.toInstance })
    else
      some raised

/-- `memb_state_recovery_enter` with its effects. -/
def recoveryEnter (token : CommitToken) : Option MembNode := do
  let entered ← membStateRecoveryEnter node.toInstance token
  let target ← node.tokenTarget
  return { node with
    toInstance := entered
    effects := node.effects ++ [.recoveryEnter token.ringId node.myRingId,
      .commitToken false target token.numbered] }

/-- `orf_token_send_initial`. -/
def orfTokenSendInitial : MembNode :=
  let retrans := !node.retransMessageQueue.isEmpty
  { node with
    mySetRetransFlg := retrans
    orfTokenRetransmit := some (.orf
      { seq := seqnoStartMsg
        tokenSeq := seqnoStartToken
        aru := usub seqnoStartMsg 1
        aruAddr := node.myId
        ringId := node.myRingId
        backlog := 0
        fcc := 0
        retransFlg := retrans
        rtrList := [] }) }

/-- `message_handler_memb_commit_token`. In GATHER only the sequence number is compared with the
own ring id, in COMMIT too. -/
def messageHandlerMembCommitToken (token : CommitToken) : Option MembNode :=
  match node.membState with
  | .operational => some node
  | .gather =>
    if membSetEqual token.addr node.tokenMemb && decide (node.myRingId.seq < token.ringId.seq) then
      node.commitEnter false token
    else
      some node
  | .commit =>
    if token.ringId.seq == node.myRingId.seq && token.membIndex == token.addr.length then
      node.recoveryEnter token
    else
      some node
  | .recovery =>
    if node.myId == node.myRingId.rep && !node.originatedOrfToken then
      some (orfTokenSendInitial { node with originatedOrfToken := true })
    else
      some node

/-- A handler of messages has run on the instance. When it has entered GATHER, the consensus list
starts again. -/
def handled (inst : Instance) : MembNode :=
  { node with
    toInstance := inst
    consensusList :=
      if inst.membState = .gather ∧
          (node.membState ≠ .gather ∨ inst.myProcList ≠ node.myProcList) then [node.myId]
      else node.consensusList }

/-- `message_handler_memb_merge_detect`. -/
def messageHandlerMembMergeDetect (ringId : RingId) (systemFrom : ℕ) : MembNode :=
  if node.myRingId = ringId then node
  else
    let merged := { node with myProcList := membSetMerge systemFrom node.myProcList }
    match node.membState with
    | .operational => merged.gatherEnter
    | .gather => if node.myProcList.contains systemFrom then node else merged.gatherEnter
    | .commit => node
    | .recovery => node

/-- `memb_state_consensus_timeout_expired`. -/
def consensusTimeoutExpired : Option MembNode := do
  if ← node.consensusAgreed then
    return { node with consensusList := [node.myId] }
  else
    return gatherEnter { node with
      myFailedList := membSetMergeList node.consensusNotset node.myFailedList }

/-- `timer_function_orf_token_timeout`. -/
def tokenTimeout : Option MembNode :=
  match node.membState with
  | .operational => some node.gatherEnter
  | .gather => node.consensusTimeoutExpired.map gatherEnter
  | .commit => some node.gatherEnter
  | .recovery =>
    some (gatherEnter { node with toInstance := oldRingStateRestore node.toInstance })

/-- `timer_function_token_retransmit_timeout`: the buffer is sent again to the current target. -/
def tokenRetransmit : MembNode :=
  match node.membState, node.orfTokenRetransmit, node.tokenTarget with
  | .gather, _, _ => node
  | _, some (.commit token), some target =>
    { node with effects := node.effects ++ [.commitToken false target token] }
  | _, _, _ => node

end MembNode

/-- What can happen to a node. -/
inductive MembEvent where
  | join (join : MembJoin)
  | commitToken (token : CommitToken)
  | orfToken (token : OrfToken)
  | mcast (message : Mcast)
  | mergeDetect (ringId : RingId) (systemFrom : ℕ)
  | tokenTimeout
  | consensusTimeout
  | tokenRetransmit
  deriving DecidableEq

/-- One step of a node; `none` when an assertion fails. -/
def MembNode.step (node : MembNode) : MembEvent → Option MembNode
  | .join join => node.messageHandlerMembJoin join
  | .commitToken token => node.messageHandlerMembCommitToken token
  | .orfToken token => (messageHandlerOrfToken node.toInstance token).map node.handled
  | .mcast message => (messageHandlerMcast node.toInstance message).map node.handled
  | .mergeDetect ringId systemFrom => some (node.messageHandlerMembMergeDetect ringId systemFrom)
  | .tokenTimeout => node.tokenTimeout
  | .consensusTimeout =>
    if node.membState = .gather then node.consensusTimeoutExpired else some node
  | .tokenRetransmit => some node.tokenRetransmit

/-- `main_iface_change_fn` at start-up, with the sequence number that
`corosync_ring_id_create_or_load` has read: the ring id is one above it. -/
def MembNode.start (config : TotemConfig) (myId queueMax stored : ℕ) (hpos : 0 < queueMax) :
    MembNode :=
  let ringId : RingId := ⟨myId, (stored + 1) % 2 ^ 64⟩
  gatherEnter
    { Instance.totemsrpInitialize config myId queueMax hpos with
      myRingId := ringId
      tokenRingIdSeq := ringId.seq
      consensusList := []
      tokenTarget := none
      effects := [] }

end Corosync.Totemsrp
