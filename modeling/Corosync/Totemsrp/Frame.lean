import Corosync.Totemsrp.Handler

/-!
# What each function can change

For every function that works on an instance, the fields it may write. Whatever else is stated
about a field elsewhere survives the function because of these shapes.
-/

namespace Corosync.Totemsrp

open List Option

variable {inst inst' : Instance} {token token' : OrfToken}

/-- `messages_free` changes the sort queue and what is released. -/
theorem messagesFree_shape {aru : ℕ} (hfree : messagesFree inst aru = some inst') :
    ∃ queue released, inst' =
      { inst with regularSortQueue := queue, lastReleased := released } := by
  unfold messagesFree at hfree
  split at hfree
  · cases hfree
    exact ⟨inst.regularSortQueue, inst.lastReleased, rfl⟩
  · rw [assertThat_bind_eq_some] at hfree
    obtain ⟨queue, -, heq⟩ := bind_eq_some_iff.mp hfree.2
    exact ⟨queue, _, (some.inj heq).symm⟩

/-- `update_aru` changes `my_aru`. -/
theorem updateAru_shape (hupdate : updateAru inst = some inst') :
    ∃ aru, inst' = { inst with myAru := aru } := by
  obtain ⟨received, -, heq⟩ := bind_eq_some_iff.mp hupdate
  exact ⟨_, (some.inj heq).symm⟩

/-- Delivery changes what is delivered. -/
theorem deliverItems_shape {skip : Bool} {count seq : ℕ}
    (hdeliver : deliverItems skip count seq inst = some inst') :
    ∃ high messages, inst' =
      { inst with myHighDelivered := high, delivered := inst.delivered ++ messages } := by
  induction count generalizing seq inst with
  | zero =>
    obtain rfl := some.inj hdeliver
    exact ⟨inst.myHighDelivered, [], by rw [append_nil]⟩
  | succ _ ih =>
    simp only [deliverItems] at hdeliver
    split at hdeliver
    · obtain ⟨item, -, hitem⟩ := bind_eq_some_iff.mp hdeliver
      cases item with
      | none =>
        simp only at hitem
        split at hitem
        · obtain ⟨high, messages, rfl⟩ := ih hitem
          exact ⟨high, messages, rfl⟩
        · obtain rfl := some.inj hitem
          exact ⟨inst.myHighDelivered, [], by rw [append_nil]⟩
      | some message =>
        simp only at hitem
        split at hitem
        · obtain ⟨high, messages, rfl⟩ := ih hitem
          exact ⟨high, messages, rfl⟩
        · obtain ⟨high, messages, rfl⟩ := ih hitem
          exact ⟨high, message :: messages, by rw [append_assoc, singleton_append]⟩
    · obtain rfl := some.inj hdeliver
      exact ⟨inst.myHighDelivered, [], by rw [append_nil]⟩

/-- The shape of `messages_deliver_to_app`. -/
theorem messagesDeliverToApp_shape {skip : Bool} {endPoint : ℕ}
    (hdeliver : messagesDeliverToApp inst skip endPoint = some inst') :
    ∃ high messages, inst' =
      { inst with myHighDelivered := high, delivered := inst.delivered ++ messages } := by
  unfold messagesDeliverToApp at hdeliver
  rw [assertThat_bind_eq_some] at hdeliver
  exact deliverItems_shape hdeliver.2

/-- The shape of the delivery at the end of a handler. -/
theorem deliverReceived_shape (hdeliver : deliverReceived inst = some inst') :
    ∃ high messages, inst' =
      { inst with myHighDelivered := high, delivered := inst.delivered ++ messages } := by
  unfold deliverReceived at hdeliver
  split at hdeliver
  · exact messagesDeliverToApp_shape hdeliver
  · cases hdeliver
    exact ⟨inst.myHighDelivered, [], by rw [append_nil]⟩

/-- The shape of one round of the recovery loop. -/
theorem recoverMessage_shape {message : Mcast}
    (hrecover : recoverMessage inst message = some inst') :
    ∃ queue high, inst' =
      { inst with regularSortQueue := queue, oldRingStateHighSeqReceived := high } := by
  cases message with
  | plain _ _ =>
    cases hrecover
    exact ⟨inst.regularSortQueue, inst.oldRingStateHighSeqReceived, rfl⟩
  | encapsulated _ _ =>
    simp only [recoverMessage] at hrecover
    split at hrecover
    · split at hrecover
      · cases hrecover
        exact ⟨inst.regularSortQueue, inst.oldRingStateHighSeqReceived, rfl⟩
      · obtain ⟨queue, -, heq⟩ := bind_eq_some_iff.mp hrecover
        exact ⟨queue, _, (some.inj heq).symm⟩
    · cases hrecover
      exact ⟨inst.regularSortQueue, inst.oldRingStateHighSeqReceived, rfl⟩

/-- Recovery changes the sort queue of the regular ring. -/
theorem recoverItems_shape {count seq : ℕ} (hrecover : recoverItems count seq inst = some inst') :
    ∃ queue high, inst' =
      { inst with regularSortQueue := queue, oldRingStateHighSeqReceived := high } := by
  induction count generalizing seq inst with
  | zero =>
    obtain rfl := some.inj hrecover
    exact ⟨inst.regularSortQueue, inst.oldRingStateHighSeqReceived, rfl⟩
  | succ _ ih =>
    obtain ⟨item, -, hitem⟩ := bind_eq_some_iff.mp hrecover
    cases item with
    | none => exact ih hitem
    | some _ =>
      obtain ⟨recovered, hmessage, hrest⟩ := bind_eq_some_iff.mp hitem
      obtain ⟨queue, high, rfl⟩ := recoverMessage_shape hmessage
      obtain ⟨queue', high', rfl⟩ := ih hrest
      exact ⟨queue', high', rfl⟩

/-- The shape of `memb_state_operational_enter`. -/
theorem membStateOperationalEnter_shape (henter : membStateOperationalEnter inst = some inst') :
    ∃ queue high messages oldHigh, inst' = { inst with
      originatedOrfToken := false
      oldRingStateSaved := false
      oldRingStateHighSeqReceived := oldHigh
      myLeftMembList := membSetSubtract inst.myMembList inst.myTransMembList
      myMembList := inst.myNewMembList
      mySetRetransFlg := false
      waitingTransAck := true
      delivered := inst.delivered ++ messages
      regularSortQueue := queue
      myLastAru := seqnoStartMsg
      myProcList := inst.myNewMembList
      myFailedList := []
      myHighDelivered := high
      lastReleased := high
      membState := .operational
      myReceivedFlg := true
      myOldRingId := inst.myRingId } := by
  simp only [membStateOperationalEnter, bind_eq_bind, bind_eq_some_iff] at henter
  obtain ⟨recovered, hrecover, first, hfirst, second, hsecond, hinstall⟩ := henter
  obtain ⟨queue, oldHigh, rfl⟩ := recoverItems_shape hrecover
  obtain ⟨high, messages, rfl⟩ := messagesDeliverToApp_shape hfirst
  obtain ⟨high', messages', rfl⟩ := messagesDeliverToApp_shape hsecond
  simp only [installRing, bind_eq_bind, bind_eq_some_iff] at hinstall
  obtain ⟨last, -, -, -, heq⟩ := hinstall
  cases heq
  exact ⟨_, last, messages ++ messages', oldHigh, by rw [← append_assoc]⟩

/-- What `inst'` keeps of `inst` when the node has only stored, counted and multicast messages.
The packets it sent are `messages`. -/
structure Sends (inst inst' : Instance) (messages : List Mcast) : Prop where
  flow : inst'.toFlowState = inst.toFlowState
  tokens : inst'.toTokenState = inst.toTokenState
  arus : inst'.toAruState = inst.toAruState
  memb : inst'.toMembershipState = inst.toMembershipState
  recov : inst'.toRecoveryState = inst.toRecoveryState
  config : inst'.config = inst.config
  myId : inst'.myId = inst.myId
  released : inst'.lastReleased = inst.lastReleased
  delivered : inst'.delivered = inst.delivered
  highDelivered : inst'.myHighDelivered = inst.myHighDelivered
  waiting : inst'.waitingTransAck = inst.waitingTransAck
  newSize : inst'.newMessageQueue.size = inst.newMessageQueue.size
  transSize : inst'.newMessageQueueTrans.size = inst.newMessageQueueTrans.size
  retransSize : inst'.retransMessageQueue.size = inst.retransMessageQueue.size
  mcastSent : inst'.mcastSent = inst.mcastSent ++ messages

/-- Nothing is sent. -/
theorem Sends.refl (inst : Instance) : Sends inst inst [] :=
  ⟨rfl, rfl, rfl, rfl, rfl, rfl, rfl, rfl, rfl, rfl, rfl, rfl, rfl, rfl, by rw [append_nil]⟩

/-- What is sent one after the other. -/
theorem Sends.trans {inst'' : Instance} {first second : List Mcast}
    (hfirst : Sends inst inst' first)
    (hsecond : Sends inst' inst'' second) : Sends inst inst'' (first ++ second) where
  flow := hsecond.flow.trans hfirst.flow
  tokens := hsecond.tokens.trans hfirst.tokens
  arus := hsecond.arus.trans hfirst.arus
  memb := hsecond.memb.trans hfirst.memb
  recov := hsecond.recov.trans hfirst.recov
  config := hsecond.config.trans hfirst.config
  myId := hsecond.myId.trans hfirst.myId
  released := hsecond.released.trans hfirst.released
  delivered := hsecond.delivered.trans hfirst.delivered
  highDelivered := hsecond.highDelivered.trans hfirst.highDelivered
  waiting := hsecond.waiting.trans hfirst.waiting
  newSize := hsecond.newSize.trans hfirst.newSize
  transSize := hsecond.transSize.trans hfirst.transSize
  retransSize := hsecond.retransSize.trans hfirst.retransSize
  mcastSent := by rw [hsecond.mcastSent, hfirst.mcastSent, append_assoc]

/-- `update_aru` sends nothing. -/
theorem updateAru_sends (hupdate : updateAru inst = some inst') : Sends inst inst' [] := by
  obtain ⟨aru, rfl⟩ := updateAru_shape hupdate
  exact ⟨rfl, rfl, rfl, rfl, rfl, rfl, rfl, rfl, rfl, rfl, rfl, rfl, rfl, rfl,
    by rw [append_nil]⟩

/-- One message is sent. -/
theorem mcastItem_sends (message : Mcast) (queue : Sq Mcast) {rest : CsQueue Mcast}
    (hsize : rest.size = inst.mcastQueue.size) :
    Sends inst (mcastItem inst message queue rest) [message] := by
  unfold Instance.mcastQueue at hsize
  refine ⟨rfl, rfl, rfl, rfl, rfl, rfl, rfl, rfl, rfl, rfl, rfl, ?_, ?_, ?_, rfl⟩ <;>
  · simp only [mcastItem, Instance.withMcastQueue, mcastSend, Instance.withSortQueue]
    by_cases hstate : inst.membState = .recovery <;>
      by_cases hwait : inst.waitingTransAck = true <;>
      simp_all

/-- The loop that sends messages again: what is sent comes from the sort queue, and the budget is
kept. -/
theorem rtrRemcast_sends {allowed current sent : ℕ} {list list' : List RtrItem}
    (hrtr : rtrRemcast allowed list current inst = some (inst', list', sent))
    (hcurrent : current ≤ allowed) :
    ∃ messages, inst' = { inst with mcastSent := inst.mcastSent ++ messages } ∧
      sent = current + messages.length ∧ sent ≤ allowed ∧
      ∀ message ∈ messages, ∃ seq, inst.sortQueue.itemGet seq = some (some message) := by
  induction list generalizing current inst list' with
  | nil =>
    obtain ⟨rfl, -, rfl⟩ : inst = inst' ∧ [] = list' ∧ current = sent := by
      simpa [rtrRemcast] using hrtr
    exact ⟨[], by rw [append_nil], rfl, hcurrent, by simp⟩
  | cons item rest ih =>
    -- entries that are kept in the list leave the instance alone
    have hkept : ∀ {first : Option (Instance × List RtrItem × ℕ)},
        (first.bind fun r => some (r.1, item :: r.2.1, r.2.2)) = some (inst', list', sent) →
        ∃ tail, first = some (inst', tail, sent) := by
      rintro first hfirst
      obtain ⟨⟨inst'', tail, sent'⟩, hvalue, heq⟩ := bind_eq_some_iff.mp hfirst
      obtain ⟨rfl, -, rfl⟩ : inst'' = inst' ∧ item :: tail = list' ∧ sent' = sent := by
        simpa using heq
      exact ⟨tail, hvalue⟩
    simp only [rtrRemcast] at hrtr
    split at hrtr
    · rename_i hlt
      split at hrtr
      · obtain ⟨found, hfound, hrest⟩ := bind_eq_some_iff.mp hrtr
        cases found with
        | none =>
          obtain ⟨tail, htail⟩ := hkept hrest
          exact ih htail hcurrent
        | some message =>
          obtain ⟨messages, rfl, rfl, hle, hmem⟩ := ih hrest hlt
          refine ⟨message :: messages, ?_, ?_, hle, ?_⟩
          · simp [mcastSend]
          · rw [length_cons]
            omega
          · intro m hm
            rcases mem_cons.mp hm with rfl | hm
            · unfold orfTokenRemcast at hfound
              split at hfound
              · exact ⟨item.seq, hfound⟩
              · simp at hfound
            · exact hmem m hm
      · obtain ⟨tail, htail⟩ := hkept hrtr
        exact ih htail hcurrent
    · obtain ⟨rfl, -, rfl⟩ : inst = inst' ∧ item :: rest = list' ∧ current = sent := by
        simpa using hrtr
      exact ⟨[], by rw [append_nil], rfl, hcurrent, by simp⟩

/-- The loop that asks for retransmissions: only miss counts change in the queue. -/
theorem rtrRequest_shape (ringId : RingId) (miss count seq : ℕ) (q : Sq Mcast)
    (list : List RtrItem) : ∃ counts,
      (rtrRequest ringId miss count seq q list).1 = { q with itemsMissCount := counts } := by
  induction count generalizing seq q list with
  | zero => exact ⟨q.itemsMissCount, rfl⟩
  | succ count ih =>
    have hmissed : ∀ list, ∃ counts,
        (rtrRequest ringId miss count (uadd seq 1) (q.itemMissCount seq).1 list).1 =
          { q with itemsMissCount := counts } := by
      intro list
      obtain ⟨counts, hcounts⟩ := ih (uadd seq 1) (q.itemMissCount seq).1 list
      exact ⟨counts, hcounts⟩
    simp only [rtrRequest]
    split
    · split
      · split
        · exact ih _ _ _
        · split
          · exact hmissed _
          · split <;> exact hmissed _
      · exact ⟨q.itemsMissCount, rfl⟩
    · exact ⟨q.itemsMissCount, rfl⟩

/-- `orf_token_rtr`: packets are sent again within the budget, and miss counts change. -/
theorem orfTokenRtr_sends {allowed : ℕ} {result : RtrResult}
    (hrtr : orfTokenRtr inst token allowed = some result) :
    ∃ messages counts list, Sends inst result.inst messages ∧
      result.inst = Instance.withSortQueue { inst with mcastSent := inst.mcastSent ++ messages }
        { inst.sortQueue with itemsMissCount := counts } ∧
      result.token = { token with rtrList := list } ∧
      result.remcast = messages.length ∧ messages.length ≤ allowed ∧
      result.allowed = usub allowed messages.length ∧
      usub token.seq inst.myAru < queueRtrItemsSizeMax ∧
      ∀ message ∈ messages, ∃ seq, inst.sortQueue.itemGet seq = some (some message) := by
  obtain ⟨⟨inst'', list, sent⟩, hremcast, hrest⟩ := bind_eq_some_iff.mp hrtr
  obtain ⟨messages, rfl, rfl, hle, hmem⟩ := rtrRemcast_sends hremcast (Nat.zero_le _)
  rw [assertThat_bind_eq_some] at hrest
  obtain ⟨hrange, heq⟩ := hrest
  obtain ⟨counts, hcounts⟩ := rtrRequest_shape inst.myRingId
    inst.config.missCountConst (usub token.seq inst.myAru) (uadd inst.myAru 1) inst.sortQueue list
  cases heq
  have hinst := congrArg
    (Instance.withSortQueue { inst with mcastSent := inst.mcastSent ++ messages }) hcounts
  refine ⟨messages, counts, _, ?_, hinst, rfl, Nat.zero_add _, by simpa using hle,
    congrArg (usub allowed) (Nat.zero_add _), hrange, hmem⟩
  exact ⟨rfl, rfl, rfl, rfl, rfl, rfl, rfl, rfl, rfl, rfl, rfl, rfl, rfl, rfl, rfl⟩

/-- The loop of `orf_token_mcast` sends within the budget and numbers the token. -/
theorem mcastQueued_sends {allowed sent : ℕ}
    (hmcast : mcastQueued allowed inst token = some (inst', token', sent)) :
    ∃ messages seq, Sends inst inst' messages ∧ token' = { token with seq := seq } ∧
      sent = messages.length ∧ sent ≤ allowed := by
  induction allowed generalizing inst token sent with
  | zero =>
    obtain ⟨rfl, rfl, rfl⟩ : inst = inst' ∧ token = token' ∧ 0 = sent := by
      simpa [mcastQueued] using hmcast
    exact ⟨[], token.seq, Sends.refl inst, rfl, rfl, le_rfl⟩
  | succ _ ih =>
    simp only [mcastQueued] at hmcast
    split at hmcast
    · obtain ⟨rfl, rfl, rfl⟩ : inst = inst' ∧ token = token' ∧ 0 = sent := by
        simpa using hmcast
      exact ⟨[], token.seq, Sends.refl inst, rfl, rfl, Nat.zero_le _⟩
    rename_i message rest htake
    obtain ⟨queue, -, hrest⟩ := bind_eq_some_iff.mp hmcast
    obtain ⟨⟨inst'', token'', sent'⟩, hloop, heq⟩ := bind_eq_some_iff.mp hrest
    obtain ⟨rfl, rfl, rfl⟩ : inst'' = inst' ∧ token'' = token' ∧ sent' + 1 = sent := by
      simpa using heq
    obtain ⟨messages, seq, hsends, rfl, rfl, hle⟩ := ih hloop
    have hitem := mcastItem_sends (stamp inst message (uadd token.seq 1)) queue
      (CsQueue.itemTake_eq_some htake).2
    exact ⟨_, seq, hitem.trans hsends, rfl, by simp, by omega⟩

/-- `orf_token_mcast` sends at most the allowed messages. -/
theorem orfTokenMcast_sends {allowed sent : ℕ}
    (hmcast : orfTokenMcast inst token allowed = some (inst', token', sent)) :
    ∃ messages seq, Sends inst inst' messages ∧ token' = { token with seq := seq } ∧
      sent = messages.length ∧ sent ≤ allowed := by
  obtain ⟨⟨queued, token'', sent'⟩, hqueued, hrest⟩ := bind_eq_some_iff.mp hmcast
  obtain ⟨updated, hupdate, heq⟩ := bind_eq_some_iff.mp hrest
  obtain ⟨rfl, rfl, rfl⟩ : updated = inst' ∧ token'' = token' ∧ sent' = sent := by
    simpa using heq
  obtain ⟨messages, seq, hsends, rfl, rfl, hle⟩ := mcastQueued_sends hqueued
  refine ⟨messages, seq, ?_, rfl, rfl, hle⟩
  simpa using hsends.trans (updateAru_sends hupdate)

end Corosync.Totemsrp
