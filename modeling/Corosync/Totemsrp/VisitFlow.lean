import Corosync.Totemsrp.Frame

/-!
# Flow control during one visit

A token visit replaces the node's old contribution to `fcc` and `backlog` by the new one and sends
at most what the window has left. Nothing else a node does touches its flow control counters, the
number of the last token or the token it passed on.
-/

namespace Corosync.Totemsrp

open Option

variable {inst inst' : Instance} {token token' : OrfToken}

/-- What the handlers keep unless they accept a token. -/
structure Keeps (inst inst' : Instance) : Prop where
  config : inst'.config = inst.config
  ringId : inst'.myRingId = inst.myRingId
  flow : inst'.toFlowState = inst.toFlowState
  tokenSeq : inst'.myTokenSeq = inst.myTokenSeq
  buffer : inst'.orfTokenRetransmit = inst.orfTokenRetransmit
  discard : inst.orfTokenDiscard = true → inst'.orfTokenDiscard = true
  mcastSent : inst'.mcastSent = inst.mcastSent
  newSize : inst'.newMessageQueue.size = inst.newMessageQueue.size
  transSize : inst'.newMessageQueueTrans.size = inst.newMessageQueueTrans.size
  retransSize : inst'.retransMessageQueue.size = inst.retransMessageQueue.size
  myId : inst'.myId = inst.myId
  commit : inst'.membState = .commit → inst.membState = .commit

/-- Nothing happens. -/
theorem Keeps.refl (inst : Instance) : Keeps inst inst :=
  ⟨rfl, rfl, rfl, rfl, rfl, id, rfl, rfl, rfl, rfl, rfl, id⟩

/-- Two steps that keep the token. -/
theorem Keeps.trans {inst'' : Instance} (hfirst : Keeps inst inst') (hsecond : Keeps inst' inst'') :
    Keeps inst inst'' where
  config := hsecond.config.trans hfirst.config
  ringId := hsecond.ringId.trans hfirst.ringId
  flow := hsecond.flow.trans hfirst.flow
  tokenSeq := hsecond.tokenSeq.trans hfirst.tokenSeq
  buffer := hsecond.buffer.trans hfirst.buffer
  discard := fun hdiscard => hsecond.discard (hfirst.discard hdiscard)
  mcastSent := hsecond.mcastSent.trans hfirst.mcastSent
  newSize := hsecond.newSize.trans hfirst.newSize
  transSize := hsecond.transSize.trans hfirst.transSize
  retransSize := hsecond.retransSize.trans hfirst.retransSize
  myId := hsecond.myId.trans hfirst.myId
  commit := fun hcommit => hfirst.commit (hsecond.commit hcommit)

/-- `messages_free` keeps the token. -/
theorem messagesFree_keeps {aru : ℕ} (hfree : messagesFree inst aru = some inst') :
    Keeps inst inst' := by
  obtain ⟨queue, released, rfl⟩ := messagesFree_shape hfree
  exact { Keeps.refl inst with }

/-- Delivery keeps the token. -/
theorem deliverReceived_keeps (hdeliver : deliverReceived inst = some inst') :
    Keeps inst inst' := by
  obtain ⟨high, messages, rfl⟩ := deliverReceived_shape hdeliver
  exact { Keeps.refl inst with }

/-- The end of a recovery leaves flow control and the token alone. -/
theorem membStateOperationalEnter_keeps (henter : membStateOperationalEnter inst = some inst') :
    Keeps inst inst' := by
  obtain ⟨queue, high, messages, oldHigh, rfl⟩ := membStateOperationalEnter_shape henter
  exact { Keeps.refl inst with commit := nofun }

/-- The recovery part of a visit only decides the retransmit flag of the token. -/
theorem recoveryVisit_keeps (hvisit : recoveryVisit inst token = some (inst', token')) :
    Keeps inst inst' ∧ ∃ flg, token' = { token with retransFlg := flg } := by
  have hflagged : Keeps inst (retransFlgUpdate inst token).1 ∧
      ∃ flg, (retransFlgUpdate inst token).2 = { token with retransFlg := flg } := by
    unfold retransFlgUpdate
    split
    · split
      · exact ⟨Keeps.refl inst, token.retransFlg, rfl⟩
      · exact ⟨{ Keeps.refl inst with }, true, rfl⟩
    · split
      · exact ⟨{ Keeps.refl inst with }, false, rfl⟩
      · exact ⟨Keeps.refl inst, token.retransFlg, rfl⟩
  obtain ⟨hkeeps, htoken⟩ := hflagged
  have hcounted : Keeps inst (recoveryCount (retransFlgUpdate inst token).1
      (retransFlgUpdate inst token).2) :=
    hkeeps.trans { Keeps.refl _ with }
  simp only [recoveryVisit] at hvisit
  split at hvisit
  · obtain ⟨entered, henter, heq⟩ := bind_eq_some_iff.mp hvisit
    cases heq
    refine ⟨?_, htoken⟩
    have hentered := hcounted.trans (membStateOperationalEnter_keeps henter)
    exact hentered.trans { Keeps.refl _ with }
  · cases hvisit
    exact ⟨hcounted, htoken⟩

/-- Storing a message changes the sort queues. -/
theorem mcastStore_shape {message : Mcast} (hstore : mcastStore inst message = some inst') :
    ∃ regular recovery high, inst' = { inst with
      regularSortQueue := regular
      recoverySortQueue := recovery
      myHighSeqReceived := high } := by
  simp only [mcastStore] at hstore
  split at hstore
  · split at hstore
    · obtain ⟨queue, -, heq⟩ := bind_eq_some_iff.mp hstore
      exact ⟨_, queue, _, (some.inj heq).symm⟩
    · exact ⟨_, _, _, (some.inj hstore).symm⟩
  · split at hstore
    · obtain ⟨queue, -, heq⟩ := bind_eq_some_iff.mp hstore
      exact ⟨queue, _, _, (some.inj heq).symm⟩
    · exact ⟨_, _, _, (some.inj hstore).symm⟩

/-- The assertion of `message_handler_mcast` on the length. -/
theorem messageHandlerMcast_msgLen {message : Mcast}
    (hhandle : messageHandlerMcast inst message = some inst') : message.msgLen ≤ frameSizeMax := by
  by_contra hlen
  rw [messageHandlerMcast, if_pos (Nat.lt_of_not_le hlen)] at hhandle
  cases hhandle

/-- A received packet leaves flow control and the token alone. -/
theorem messageHandlerMcast_keeps {message : Mcast}
    (hhandle : messageHandlerMcast inst message = some inst') : Keeps inst inst' := by
  unfold messageHandlerMcast at hhandle
  rw [if_neg (Nat.not_lt.mpr (messageHandlerMcast_msgLen hhandle))] at hhandle
  split at hhandle
  · obtain ⟨stored, hstore, hrest⟩ := bind_eq_some_iff.mp hhandle
    obtain ⟨updated, hupdate, hdeliver⟩ := bind_eq_some_iff.mp hrest
    obtain ⟨regular, recovery, high, rfl⟩ := mcastStore_shape hstore
    obtain ⟨aru, rfl⟩ := updateAru_shape hupdate
    refine Keeps.trans ?_ (deliverReceived_keeps hdeliver)
    exact { Keeps.refl inst with }
  · cases hhandle
    unfold mcastForeign
    split
    · exact { Keeps.refl inst with discard := fun _ => rfl, commit := nofun }
    · split
      · exact Keeps.refl inst
      · exact { Keeps.refl inst with discard := fun _ => rfl, commit := nofun }
    · exact Keeps.refl inst
    · exact Keeps.refl inst

/-- Queueing a message leaves flow control and the token alone. -/
theorem totemsrpMcast_keeps {data : List UInt8} (hqueue : inst.totemsrpMcast data = some inst') :
    Keeps inst inst' := by
  simp only [Instance.totemsrpMcast] at hqueue
  split at hqueue
  · split at hqueue
    · cases hqueue
      exact Keeps.refl inst
    · obtain ⟨queue, hadd, heq⟩ := bind_eq_some_iff.mp hqueue
      cases heq
      exact { Keeps.refl inst with transSize := (CsQueue.itemAdd_eq_some hadd).2 }
  · split at hqueue
    · cases hqueue
      exact Keeps.refl inst
    · obtain ⟨queue, hadd, heq⟩ := bind_eq_some_iff.mp hqueue
      cases heq
      exact { Keeps.refl inst with newSize := (CsQueue.itemAdd_eq_some hadd).2 }

/-- `fcc_calculate` never allows more than the window has left. -/
theorem fccCalculate_le (inst : Instance) (token : OrfToken) :
    fccCalculate inst token ≤ usub inst.config.windowSize token.fcc := by
  unfold fccCalculate
  dsimp only
  split
  · rename_i hshare
    exact le_trans hshare.2.2.le (min_le_right _ _)
  · exact min_le_right _ _

/-- Flow control allows at most `max_messages`. -/
theorem fccCalculate_le_maxMessages (inst : Instance) (token : OrfToken) :
    fccCalculate inst token ≤ inst.config.maxMessages := by
  unfold fccCalculate
  dsimp only
  split
  · rename_i hshare
    exact le_trans hshare.2.2.le (min_le_left _ _)
  · exact min_le_left _ _

/-- The limit of retransmissions is within what is allowed. -/
theorem fccRtrLimit_le {allowed limited : ℕ}
    (hlimit : fccRtrLimit inst token allowed = some limited) : limited ≤ allowed := by
  unfold fccRtrLimit at hlimit
  rw [assertThat_bind_eq_some] at hlimit
  obtain rfl := some.inj hlimit.2
  split <;> omega

/-- What the transmission part of a visit leaves behind, `messages` being the packets sent. -/
structure Transmits (inst : Instance) (token : OrfToken) (messages : List Mcast) (inst' : Instance)
    (token' : OrfToken) : Prop where
  sends : ∃ sent, Sends (tokenNoted inst token) sent messages ∧
    inst' = { sent with myTrc := messages.length, myPbl := backlogGet inst }
  budget : messages.length ≤ usub inst.config.windowSize token.fcc
  token_eq : ∃ seq list, token' = { token with
    seq := seq
    rtrList := list
    fcc := uadd token.fcc (usub messages.length inst.myTrc)
    backlog := uadd token.backlog (usub (backlogGet inst) inst.myPbl) }

/-- Two parts of a budget. -/
private theorem budget_add {allowed left first second limited : ℕ} (hfirst : first ≤ allowed)
    (hallowed : allowed ≤ left) (hleft : left < 2 ^ 32) (hlimited : limited ≤ usub allowed first)
    (hsecond : second ≤ limited) : first + second ≤ left := by
  rw [usub_of_le hfirst (by omega)] at hlimited
  omega

/-- What the token lets a member send. -/
theorem tokenTransmit_transmits (htransmit : tokenTransmit inst token = some (inst', token')) :
    ∃ messages, Transmits inst token messages inst' token' := by
  obtain ⟨rtr, hrtr, hrest⟩ := bind_eq_some_iff.mp htransmit
  obtain ⟨limited, hlimit, hrest⟩ := bind_eq_some_iff.mp hrest
  obtain ⟨⟨sent, token'', regular⟩, hmcast, heq⟩ := bind_eq_some_iff.mp hrest
  cases heq
  obtain ⟨first, -, list, hfirst, -, htoken, hremcast, hle, hallowed, -, -⟩ :=
    orfTokenRtr_sends hrtr
  obtain ⟨second, seq, hsecond, rfl, rfl, hsecondle⟩ := orfTokenMcast_sends hmcast
  have hsends := hfirst.trans hsecond
  have hleft := fccCalculate_le (tokenNoted inst token) token
  have hleftlt := usub_lt inst.config.windowSize token.fcc
  have hlimited := fccRtrLimit_le hlimit
  -- both parts together stay within the budget, so their sum does not wrap
  have hsum : (first ++ second).length ≤ usub inst.config.windowSize token.fcc := by
    rw [hallowed] at hlimited
    rw [List.length_append]
    exact budget_add hle hleft hleftlt hlimited hsecondle
  have htotal : uadd rtr.remcast second.length = (first ++ second).length := by
    rw [hremcast, uadd_of_lt, List.length_append]
    rw [← List.length_append]
    exact lt_of_le_of_lt hsum hleftlt
  have htrc : sent.myTrc = inst.myTrc := by rw [hsends.flow]; rfl
  have hpbl : sent.myPbl = inst.myPbl := by rw [hsends.flow]; rfl
  have hcbl : sent.myCbl = backlogGet inst := by rw [hsends.flow]; rfl
  refine ⟨first ++ second, ⟨sent, hsends, ?_⟩, hsum, seq, list, ?_⟩
  · rw [htotal, hcbl]
  · rw [htotal, htoken, hcbl, hpbl, htrc]

/-- The token a node passes on after sending `messages`, as far as flow control is concerned. -/
structure NextToken (inst : Instance) (token : OrfToken) (messages : List Mcast)
    (next : OrfToken) : Prop where
  tokenSeq : next.tokenSeq = uadd token.tokenSeq 1
  ringId : next.ringId = token.ringId
  fcc : next.fcc = uadd token.fcc (usub messages.length inst.myTrc)
  /-- The node's old contribution to `backlog` is replaced. -/
  backlog : next.backlog = uadd token.backlog (usub (backlogGet inst) inst.myPbl)

/-- What a visit does to flow control, `messages` being the packets sent. -/
structure Visits (inst : Instance) (token : OrfToken) (messages : List Mcast)
    (inst' : Instance) : Prop where
  config : inst'.config = inst.config
  ringId : inst'.myRingId = inst.myRingId
  mcastSent : inst'.mcastSent = inst.mcastSent ++ messages
  trc : inst'.myTrc = messages.length
  pbl : inst'.myPbl = backlogGet inst
  budget : messages.length ≤ usub inst.config.windowSize token.fcc
  newSize : inst'.newMessageQueue.size = inst.newMessageQueue.size
  transSize : inst'.newMessageQueueTrans.size = inst.newMessageQueueTrans.size
  retransSize : inst'.retransMessageQueue.size = inst.retransMessageQueue.size
  myId : inst'.myId = inst.myId
  commit : inst'.membState = .commit → inst.membState = .commit
  outcome :
    (inst'.orfTokenDiscard = true ∧ inst'.myTokenSeq = inst.myTokenSeq ∧
      inst'.orfTokenRetransmit = inst.orfTokenRetransmit) ∨
    (inst'.myTokenSeq = token.tokenSeq ∧ ∃ next, inst'.orfTokenRetransmit = some (.orf next) ∧
      NextToken inst token messages next)

/-- The aru of the token and its author are written. -/
theorem tokenAruUpdate_eq (inst : Instance) (token : OrfToken) :
    ∃ aru addr, tokenAruUpdate inst token = { token with aru := aru, aruAddr := addr } := by
  unfold tokenAruUpdate
  split
  · exact ⟨_, _, rfl⟩
  · exact ⟨token.aru, token.aruAddr, rfl⟩

/-- The token is passed on. -/
theorem tokenForward_keeps (hforward : tokenForward inst token = some inst') :
    ∃ flg, Keeps { inst with
      myTokenSeq := token.tokenSeq
      orfTokenRetransmit := some (.orf
        { token with tokenSeq := uadd token.tokenSeq 1, retransFlg := flg }) } inst' := by
  obtain ⟨⟨visited, token'⟩, hvisit, hdeliver⟩ := bind_eq_some_iff.mp hforward
  have hdelivered := deliverReceived_keeps hdeliver
  unfold tokenRecovery at hvisit
  split at hvisit
  · obtain ⟨hkeeps, flg, rfl⟩ := recoveryVisit_keeps hvisit
    refine ⟨flg, Keeps.trans ?_ hdelivered⟩
    exact { hkeeps with buffer := rfl }
  · cases hvisit
    exact ⟨token.retransFlg, hdelivered⟩

/-- A visit replaces the node's contribution to the flow control fields of the token. -/
theorem tokenVisit_visits (hvisit : tokenVisit inst token = some inst') :
    ∃ messages, Visits inst token messages inst' := by
  obtain ⟨⟨sent, token'⟩, htransmit, hrest⟩ := bind_eq_some_iff.mp hvisit
  obtain ⟨messages, htransmits⟩ := tokenTransmit_transmits htransmit
  obtain ⟨sent', hsends, rfl⟩ := htransmits.sends
  obtain ⟨seq, list, rfl⟩ := htransmits.token_eq
  have hringId : sent'.myRingId = inst.myRingId := by rw [hsends.memb]; rfl
  have htokenSeq : sent'.myTokenSeq = inst.myTokenSeq := by rw [hsends.tokens]; rfl
  have hbuffer : sent'.orfTokenRetransmit = inst.orfTokenRetransmit := by rw [hsends.tokens]; rfl
  have hstate : sent'.membState = inst.membState := by rw [hsends.memb]; rfl
  refine ⟨messages, ?_⟩
  dsimp only at hrest
  split at hrest
  · cases hrest
    exact {
      config := hsends.config
      ringId := hringId
      mcastSent := hsends.mcastSent
      trc := rfl
      pbl := rfl
      budget := htransmits.budget
      newSize := hsends.newSize
      transSize := hsends.transSize
      retransSize := hsends.retransSize
      myId := hsends.myId
      commit := nofun
      outcome := .inl ⟨rfl, htokenSeq, hbuffer⟩ }
  · obtain ⟨aru, addr, haru⟩ := tokenAruUpdate_eq
      { sent' with myTrc := messages.length, myPbl := backlogGet inst }
      { token with
        seq := seq
        rtrList := list
        fcc := uadd token.fcc (usub messages.length inst.myTrc)
        backlog := uadd token.backlog (usub (backlogGet inst) inst.myPbl) }
    rw [haru] at hrest
    obtain ⟨flg, hkeeps⟩ := tokenForward_keeps hrest
    exact {
      config := hkeeps.config.trans hsends.config
      ringId := hkeeps.ringId.trans hringId
      mcastSent := hkeeps.mcastSent.trans hsends.mcastSent
      trc := by rw [hkeeps.flow]; rfl
      pbl := by rw [hkeeps.flow]; rfl
      budget := htransmits.budget
      newSize := hkeeps.newSize.trans hsends.newSize
      transSize := hkeeps.transSize.trans hsends.transSize
      retransSize := hkeeps.retransSize.trans hsends.retransSize
      myId := hkeeps.myId.trans hsends.myId
      commit := fun hcommit => hstate ▸ hkeeps.commit hcommit
      outcome := .inr ⟨hkeeps.tokenSeq, _, hkeeps.buffer, ⟨rfl, rfl, rfl, rfl⟩⟩ }

/-- Tokens a node does not accept. -/
def tokenRejected (inst : Instance) (token : OrfToken) : Bool :=
  tokenIgnored inst token || tokenDiscarded inst token

/-- Releasing messages does not change which tokens are rejected. -/
theorem tokenFree_keeps (hfree : tokenFree inst token = some inst') :
    Keeps inst inst' ∧ inst'.toSendState = inst.toSendState ∧
      inst'.toMembershipState = inst.toMembershipState := by
  unfold tokenFree at hfree
  split at hfree
  · obtain ⟨queue, released, rfl⟩ := messagesFree_shape hfree
    exact ⟨messagesFree_keeps hfree, rfl, rfl⟩
  · cases hfree
    exact ⟨Keeps.refl inst, rfl, rfl⟩

/-- The token handler: a rejected token changes nothing flow control sees, an accepted one is a
visit. -/
theorem messageHandlerOrfToken_cases (hhandle : messageHandlerOrfToken inst token = some inst') :
    (tokenRejected inst token = true ∧ Keeps inst inst') ∨
    (tokenRejected inst token = false ∧ ∃ messages, Visits inst token messages inst') := by
  unfold messageHandlerOrfToken at hhandle
  unfold tokenRejected
  split at hhandle
  · rename_i hignored
    cases hhandle
    exact .inl ⟨by rw [hignored, Bool.true_or], Keeps.refl inst⟩
  rename_i hignored
  obtain ⟨freed, hfreed, hrest⟩ := bind_eq_some_iff.mp hhandle
  obtain ⟨hkeeps, hsend, hmemb⟩ := tokenFree_keeps hfreed
  have hsame : tokenDiscarded freed token = tokenDiscarded inst token := by
    unfold tokenDiscarded
    rw [hkeeps.ringId, hkeeps.tokenSeq]
  have hbacklog : backlogGet freed = backlogGet inst := by
    unfold backlogGet
    rw [hsend, hmemb]
  rw [Bool.not_eq_true] at hignored
  rw [hsame] at hrest
  rw [hignored, Bool.false_or]
  split at hrest
  · rename_i hdiscarded
    cases hrest
    exact .inl ⟨hdiscarded, hkeeps⟩
  rename_i hdiscarded
  obtain ⟨messages, hvisits⟩ := tokenVisit_visits hrest
  refine .inr ⟨by simpa using hdiscarded, messages, ?_⟩
  exact {
    config := hvisits.config.trans hkeeps.config
    ringId := hvisits.ringId.trans hkeeps.ringId
    mcastSent := by rw [hvisits.mcastSent, hkeeps.mcastSent]
    trc := hvisits.trc
    pbl := hvisits.pbl.trans hbacklog
    budget := by rw [← hkeeps.config]; exact hvisits.budget
    newSize := hvisits.newSize.trans hkeeps.newSize
    transSize := hvisits.transSize.trans hkeeps.transSize
    retransSize := hvisits.retransSize.trans hkeeps.retransSize
    myId := hvisits.myId.trans hkeeps.myId
    commit := fun hcommit => hkeeps.commit (hvisits.commit hcommit)
    outcome := by
      rcases hvisits.outcome with ⟨hdrop, hseq, hbuffer⟩ | ⟨hseq, next, hbuffer, hnext⟩
      · exact .inl ⟨hdrop, hseq.trans hkeeps.tokenSeq, hbuffer.trans hkeeps.buffer⟩
      · refine .inr ⟨hseq, next, hbuffer, hnext.tokenSeq, hnext.ringId, ?_, ?_⟩
        · rw [hnext.fcc, hkeeps.flow]
        · rw [hnext.backlog, hkeeps.flow, hbacklog] }

end Corosync.Totemsrp
