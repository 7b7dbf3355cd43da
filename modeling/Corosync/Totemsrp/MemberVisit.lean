import Corosync.Totemsrp.Member

/-!
# A member visited by the token

The release at the start of a visit, the messages numbered during the visit and what they leave of
the member's state.
-/

namespace Corosync.Totemsrp

open Option Instance Comparable

variable {inst inst' : Instance} {token token' : OrfToken} {ring : RingId} {base seq : ℕ}

/-- Two sequence numbers that are close enough for every comparison with numbers in between. -/
def Near (a b : ℕ) : Prop := a ≤ b + 2 ^ 29 ∧ b ≤ a + 2 ^ 29

/-- `messages_free` would release up to the smallest of the three numbers it looks at. -/
theorem releaseTo_eq {aru low : ℕ} (hlow : low + 2 ^ 14 < 2 ^ 32) (haru : aru < 2 ^ 32)
    (hlast : inst.myLastAru < 2 ^ 32) (hnearAru : Near aru low)
    (hnearLast : Near inst.myLastAru low)
    (hle : low ≤ inst.myHighDelivered) (hge : inst.myHighDelivered ≤ low + 2 ^ 14) :
    releaseTo inst aru = min aru (min inst.myLastAru inst.myHighDelivered) := by
  unfold Near at hnearAru hnearLast
  have hfirst : (if sqLtCompare inst.myLastAru aru = true then inst.myLastAru else aru) =
      min inst.myLastAru aru := by
    simp only [sqLtCompare_iff (of_near hlast haru (by omega) (by omega))]
    split <;> omega
  have hsecond : (if sqLtCompare inst.myHighDelivered (min inst.myLastAru aru) = true
      then inst.myHighDelivered else min inst.myLastAru aru) =
      min inst.myHighDelivered (min inst.myLastAru aru) := by
    simp only [@sqLtCompare_iff inst.myHighDelivered (min inst.myLastAru aru)
      (of_near (by omega) (by omega) (by omega) (by omega))]
    split <;> omega
  unfold releaseTo
  dsimp only
  rw [hfirst, hsecond]
  omega

/-- `messages_free` releases what the token's aru, the one noted at the last visit and the
delivered messages all cover. -/
theorem Member.messagesFree (hmember : Member ring base seq inst) {aru : ℕ}
    (hend : inst.myHighDelivered + 1 + queueRtrItemsSizeMax < 2 ^ 32)
    (haru : aru < 2 ^ 32) (hlast : inst.myLastAru < 2 ^ 32) (hnearAru : Near aru inst.lastReleased)
    (hnearLast : Near inst.myLastAru inst.lastReleased)
    (hrange : min aru (min inst.myLastAru inst.myHighDelivered) <
      inst.lastReleased + queueRtrItemsSizeMax) :
    ∃ queue inst', messagesFree inst aru = some inst' ∧
      inst' = { inst with
        regularSortQueue := queue
        lastReleased := max inst.lastReleased
          (min aru (min inst.myLastAru inst.myHighDelivered)) } ∧
      Member ring base seq inst' := by
  have hholds := hmember.holds
  have hhead := hmember.head
  have hsize := hmember.size
  have hreleased := hmember.released_le
  have hdelivered := hmember.delivered_le
  have haruhigh := hholds.aru_le
  have hhigh := hholds.high_lt
  have hbase := hmember.base_le
  have hmax : queueRtrItemsSizeMax = 2 ^ 14 := rfl
  have hto : releaseTo inst aru = min aru (min inst.myLastAru inst.myHighDelivered) :=
    releaseTo_eq (by omega) haru hlast hnearAru hnearLast hreleased (by omega)
  generalize hlimit : min aru (min inst.myLastAru inst.myHighDelivered) = limit at *
  unfold Near at hnearAru hnearLast
  have hcompare := @sqLtCompare_iff limit inst.lastReleased
    (of_near (by omega) (by omega) (by omega) (by omega))
  unfold Totemsrp.messagesFree
  rw [hto]
  simp only [hcompare]
  split
  · refine ⟨inst.regularSortQueue, inst, rfl, ?_, hmember⟩
    rw [max_eq_left (by omega)]
  rename_i hge
  rw [max_eq_right (by omega)]
  obtain ⟨queue, hloop, hhead', hsize', hhas, hholds'⟩ :=
    hholds.release hhead (show inst.lastReleased ≤ limit by omega) (by omega) (by omega)
  have hsub : usub limit inst.lastReleased = limit - inst.lastReleased :=
    usub_of_le (by omega) (by omega)
  have hassert : assertThat (usub limit inst.lastReleased < queueRtrItemsSizeMax) = some () :=
    assertThat_eq_some.mpr (by omega)
  refine ⟨queue, _, ?_, rfl, { hmember with
    holds := hholds'
    head := hhead'
    size := hsize'.trans hsize
    hole := fun hhas' => hmember.hole (hhas _ hhas')
    base_le := by dsimp only; omega
    released_le := by dsimp only; omega }⟩
  simp only [hassert, bind_eq_bind, bind_some]
  rw [hsub, uadd_of_lt (show inst.lastReleased + 1 < 2 ^ 32 by omega), hloop,
    uadd_of_lt (by omega), Nat.add_sub_cancel' (by omega)]
  rfl

/-- `fcc_rtr_limit` lets new messages through only while a whole window fits behind them. -/
theorem fccRtrLimit_room {allowed limited : ℕ} (hwindow : inst.config.windowSize ≤ 2 ^ 30)
    (hallowed : allowed ≤ inst.config.windowSize) (hlow : inst.lastReleased ≤ token.seq)
    (hseq : token.seq ≤ inst.lastReleased + queueRtrItemsSizeMax)
    (hend : inst.lastReleased + queueRtrItemsSizeMax < 2 ^ 32)
    (hlimit : fccRtrLimit inst token allowed = some limited) :
    allowed + inst.config.windowSize ≤ queueRtrItemsSizeMax ∧
      (limited = 0 ∨ limited = allowed ∧ token.seq + allowed + inst.config.windowSize ≤
        inst.lastReleased + queueRtrItemsSizeMax) := by
  have hmax : queueRtrItemsSizeMax = 2 ^ 14 := rfl
  unfold fccRtrLimit at hlimit
  rw [assertThat_bind_eq_some, uadd_of_lt (show allowed + inst.config.windowSize < 2 ^ 32 by omega)]
    at hlimit
  obtain ⟨hroom, heq⟩ := hlimit
  have hle : allowed + inst.config.windowSize ≤ queueRtrItemsSizeMax := by
    by_contra hgt
    rw [usub_of_lt (by omega) (by omega)] at hroom
    omega
  refine ⟨hle, ?_⟩
  rw [uadd_of_lt hend, usub_of_le (show allowed ≤ _ by omega) hend,
    usub_of_le (show inst.config.windowSize ≤ _ by omega) (by omega)] at heq
  cases heq
  split
  · exact .inl rfl
  · rename_i hnot
    rw [sqLtCompare_iff (of_near (by omega) (by omega) (by omega) (by omega))] at hnot
    exact .inr ⟨rfl, by omega⟩

/-! ### Transmission -/

section

variable (hstore : Store ring base seq inst)

include hstore

/-- What is read from the queue of a member is a numbered message. -/
theorem Store.itemGet {s : ℕ} {m : Mcast}
    (hget : inst.sortQueue.itemGet s = some (some m)) : OnRing ring base seq m := by
  rw [hstore.sortQueue_eq, Sq.itemGet_def, assertThat_bind_eq_some] at hget
  obtain ⟨t, hhas, hitem⟩ := Sq.exists_has_of_item? hstore.holds.fits (some.inj hget.2)
  obtain ⟨m', hitem', hm⟩ := hstore.holds.item t hhas
  obtain rfl : m' = m := some.inj (hitem'.symm.trans hitem)
  have hlow := hhas.1.1
  have hhigh := hstore.holds.le_high t hhas
  have hhead := hstore.head
  have hbase := hstore.base_le
  have hseq := hstore.high_le
  obtain rfl := hm.number
  exact .inl ⟨by omega, by omega, hm⟩

/-- Stored messages are sent again. -/
theorem Store.remcast {messages : List Mcast} {counts : ℕ → ℕ}
    (hmessages : ∀ m ∈ messages, ∃ s, inst.sortQueue.itemGet s = some (some m)) :
    Store ring base seq
      (withSortQueue { inst with mcastSent := inst.mcastSent ++ messages }
        { inst.sortQueue with itemsMissCount := counts }) := by
  rw [withSortQueue_eq (by exact hstore.notRecovery), hstore.sortQueue_eq]
  have hfits := hstore.holds.fits
  exact { hstore with
    holds := { hstore.holds with fits := ⟨hfits.size_le, hfits.end_lt⟩ }
    sent := by
      intro m hm
      rcases List.mem_append.mp hm with hm | hm
      · exact hstore.sent m hm
      · obtain ⟨s, hget⟩ := hmessages m hm
        exact hstore.itemGet hget }

/-- Queued messages are plain. -/
theorem Store.plain_of_mem_mcastQueue {m : Mcast}
    (hm : m ∈ inst.mcastQueue.items) : m.isEncapsulated = false := by
  refine hstore.queued m (List.mem_append.mpr ?_)
  unfold mcastQueue at hm
  rw [if_neg hstore.notRecovery] at hm
  exact (CsQueue.mem_of_mem_ite hm).symm

/-- `orf_token_mcast` numbers the first messages of the queue while they fit in the window. -/
theorem Store.orfTokenMcast (hseq : token.seq = seq) {limited : ℕ} (hlow : inst.lastReleased ≤ seq)
    (hroom : seq + limited ≤ inst.lastReleased + queueRtrItemsSizeMax) :
    ∃ messages queue rest high aru, orfTokenMcast inst token limited = some
        ({ inst.numbered queue rest messages high with myAru := aru },
          { token with seq := seq + messages.length }, messages.length) ∧
      messages.length ≤ limited ∧ inst.myAru ≤ aru ∧
      (messages = [] ∧ high = inst.myHighSeqReceived ∨ high = seq + messages.length) ∧
      Store ring base (seq + messages.length)
        { inst.numbered queue rest messages high with myAru := aru } := by
  subst hseq
  have hqueue := hstore.sortQueue_eq
  have hholds := hstore.holds
  have hhead := hstore.head
  have hsize := hstore.size
  have hhighle := hstore.high_le
  have hbase := hstore.base_le
  rw [← hqueue] at hholds hhead hsize
  obtain ⟨messages, queue, rest, high, hloop, hcount, hrest, hhead', hsize', hnumbered, hhigh,
    hmessages⟩ := @Holds.mcastQueued inst ring inst.lastReleased limited token hholds hstore.ringId
      (fun m => hstore.plain_of_mem_mcastQueue) hhighle (by omega) (by omega)
  -- `my_aru` moves over the messages without a hole
  obtain ⟨aru, hupdate, haru, hholds', hhole⟩ := @Holds.updateAru
    (inst.numbered queue rest messages high) ring inst.lastReleased
    (by rw [numbered_sortQueue]; exact hnumbered)
  rw [numbered_sortQueue] at hholds' hhole
  refine ⟨messages, queue, rest, high, aru, ?_, hcount, haru, hhigh, ?_⟩
  · simp only [Totemsrp.orfTokenMcast, hloop, bind_eq_bind, bind_some, hupdate]
    rfl
  rw [numbered_eq hstore.notRecovery]
  exact { hstore with
    holds := hholds'
    head := hhead'.trans hhead
    size := hsize'.trans hsize
    hole := hhole
    delivered_le := le_trans hstore.delivered_le haru
    high_le := by
      dsimp only
      rcases hhigh with ⟨-, rfl⟩ | rfl <;> omega
    sent := by
      intro m hm
      rcases List.mem_append.mp hm with hm | hm
      · exact (hstore.sent m hm).mono (Nat.le_add_right ..)
      · obtain ⟨hlt, hle, hm⟩ := hmessages m hm
        exact .inl ⟨by omega, hle, hm⟩
    queued := by
      intro m hm
      rcases List.mem_append.mp hm with hm | hm <;> rcases CsQueue.mem_of_mem_ite hm with hm | hm
      · exact hstore.plain_of_mem_mcastQueue (hrest m hm)
      · exact hstore.queued m (List.mem_append_left _ hm)
      · exact hstore.plain_of_mem_mcastQueue (hrest m hm)
      · exact hstore.queued m (List.mem_append_right _ hm) }

end

/-- What the transmission part of a visit settles: `resent` messages were sent again and `count`
got the numbers behind `seq`. -/
structure Transmitted (seq : ℕ) (inst : Instance) (token : OrfToken) (resent count : ℕ)
    (inst' : Instance) : Prop where
  window : inst.config.windowSize ≤ queueRtrItemsSizeMax
  room : count = 0 ∨ seq + count + inst.config.windowSize ≤ inst.lastReleased + queueRtrItemsSizeMax
  trc : inst'.myTrc = resent + count
  aru_le : inst.myAru ≤ inst'.myAru
  released : inst'.lastReleased = inst.lastReleased
  lastAru : inst'.myLastAru = token.aru
  myId : inst'.myId = inst.myId
  high : count = 0 ∧ inst'.myHighSeqReceived = inst.myHighSeqReceived ∨
    inst'.myHighSeqReceived = seq + count

/-- What the transmission part of a visit leaves of a member and of the token. -/
structure Advances (ring : RingId) (base seq : ℕ) (inst : Instance) (token : OrfToken)
    (resent count : ℕ) (inst' : Instance) (token' : OrfToken) : Prop
    extends Transmitted seq inst token resent count inst' where
  store : Store ring base (seq + count) inst'
  budget : resent + count ≤ inst.config.windowSize
  highDelivered : inst'.myHighDelivered = inst.myHighDelivered
  memb : inst'.toMembershipState = inst.toMembershipState
  tokens : inst'.toTokenState = inst.toTokenState
  tokenSeq : token'.seq = seq + count
  tokenAru : token'.aru = token.aru
  tokenAddr : token'.aruAddr = token.aruAddr
  tokenNumber : token'.tokenSeq = token.tokenSeq
  rtr : ∀ item ∈ token'.rtrList, item.seq < 2 ^ 32

/-- The newest token of the ring, at a member that is not too far behind. -/
structure Receivable (seq : ℕ) (inst : Instance) (token : OrfToken) : Prop where
  tokenSeq : token.seq = seq
  room : seq ≤ inst.lastReleased + queueRtrItemsSizeMax
  near : seq < inst.myAru + queueRtrItemsSizeMax
  window : inst.config.windowSize ≤ 2 ^ 30
  fcc : token.fcc ≤ inst.config.windowSize
  rtr : ∀ item ∈ token.rtrList, item.seq < 2 ^ 32

/-- The transmission part of a visit, unless the window does not fit in the sort queue. -/
theorem Store.tokenTransmit (hstore : Store ring base seq inst)
    (hreceivable : Receivable seq inst token) :
    (tokenTransmit inst token = none ∧ queueRtrItemsSizeMax <
      inst.config.windowSize + min inst.config.windowSize inst.config.maxMessages) ∨
    ∃ resent count inst' token', tokenTransmit inst token = some (inst', token') ∧
      Advances ring base seq inst token resent count inst' token' := by
  obtain ⟨hseq, hroom, hnear, hwindow, hfcc, hlist⟩ := hreceivable
  have hmax : queueRtrItemsSizeMax = 2 ^ 14 := rfl
  have hholds := hstore.holds
  have hend := hholds.fits.end_lt
  have hhead := hstore.head
  have hsize := hstore.size
  have haruhigh := hholds.aru_le
  have hlow := hholds.low_le
  have hhighle := hstore.high_le
  -- the budget
  set noted := tokenNoted inst token with hnoted
  have hnotedStore : Store ring base seq noted := { hstore with }
  set allowed := fccCalculate noted token with hallowedDef
  have hallowed : allowed ≤ inst.config.windowSize := by
    have hle := fccCalculate_le noted token
    rw [show noted.config = inst.config from rfl, usub_of_le hfcc (by omega)] at hle
    omega
  have hallowedMax : allowed ≤ inst.config.maxMessages := fccCalculate_le_maxMessages noted token
  -- retransmission
  obtain ⟨⟨rtr, rtrToken, left, remcast⟩, hrtr, hrtrList⟩ := @orfTokenRtr_isSome noted
    (by rw [hnotedStore.sortQueue_eq]; exact hholds.fits) token allowed hlist
    (by
      change usub token.seq inst.myAru < _
      rw [usub_of_le (by omega) (by omega)]
      omega)
  obtain ⟨first, counts, list, -, hinst, htoken, hremcast, hfirst, hleft, -, hmem⟩ :=
    orfTokenRtr_sends hrtr
  dsimp only at hinst htoken hremcast hleft hrtrList
  have hrtrStore : Store ring base seq rtr := by
    rw [hinst]
    exact hnotedStore.remcast hmem
  have hconfig : rtr.config = inst.config := by rw [hinst]; rfl
  have hreleased : rtr.lastReleased = inst.lastReleased := by rw [hinst]; rfl
  have hrtrSeq : rtrToken.seq = seq := by rw [htoken, ← hseq]
  have hrtrAru : rtrToken.aru = token.aru := by rw [htoken]
  have hrtrAddr : rtrToken.aruAddr = token.aruAddr := by rw [htoken]
  have hrtrNumber : rtrToken.tokenSeq = token.tokenSeq := by rw [htoken]
  rw [usub_of_le hfirst (by omega)] at hleft
  cases hlimit : fccRtrLimit rtr rtrToken left with
  | none =>
    refine .inl ⟨?_, ?_⟩
    · simp only [Totemsrp.tokenTransmit, ← hnoted, ← hallowedDef, hrtr, hlimit, bind_eq_bind,
        bind_some, bind_none]
    by_contra hfits
    have hlt : usub queueRtrItemsSizeMax (uadd left rtr.config.windowSize) < 2 ^ 31 := by
      rw [hconfig, uadd_of_lt (by omega), usub_of_le (by omega) (by omega)]
      omega
    rw [fccRtrLimit, assertThat_bind_of_true hlt] at hlimit
    simp at hlimit
  | some limited =>
    obtain ⟨hfits, hlimited⟩ := @fccRtrLimit_room rtr rtrToken left limited
      (by rw [hconfig]; exact hwindow) (by rw [hconfig]; omega) (by omega)
      (by rw [hreleased, hrtrSeq]; exact hroom) (by omega) hlimit
    rw [hconfig] at hfits hlimited
    rw [hreleased, hrtrSeq] at hlimited
    obtain ⟨items, queue, rest, high, aru, hmcast, hcount, haru, hhigh, hstore'⟩ :=
      @Store.orfTokenMcast rtr rtrToken ring base seq hrtrStore hrtrSeq limited
        (by omega) (by omega)
    have htotal : uadd remcast items.length = first.length + items.length := by
      rw [hremcast, uadd_of_lt (by omega)]
    set sent : Instance :=
      { rtr.numbered queue rest items high with myAru := aru }
    set next : OrfToken := { rtrToken with seq := seq + items.length }
    refine .inr ⟨first.length, items.length,
      (fccTokenUpdate sent next (uadd remcast items.length)).1,
      (fccTokenUpdate sent next (uadd remcast items.length)).2, ?_, {
      store := { hstore' with }
      window := by omega
      room := by rcases hlimited with rfl | ⟨rfl, hroom'⟩ <;> omega
      budget := by omega
      trc := htotal
      aru_le := by rw [hinst] at haru; exact haru
      released := hreleased
      highDelivered := congrArg (·.myHighDelivered) hinst
      lastAru := congrArg (·.myLastAru) hinst
      memb := congrArg (·.toMembershipState) hinst
      tokens := congrArg (·.toTokenState) hinst
      myId := congrArg (·.myId) hinst
      high := by
        rcases hhigh with ⟨hnil, hhigh⟩ | hhigh
        · rw [hinst] at hhigh
          exact .inl ⟨by rw [hnil]; rfl, hhigh⟩
        · exact .inr hhigh
      tokenSeq := rfl
      tokenAru := hrtrAru
      tokenAddr := hrtrAddr
      tokenNumber := hrtrNumber
      rtr := hrtrList }⟩
    simp only [Totemsrp.tokenTransmit, ← hnoted, ← hallowedDef, hrtr, hlimit, hmcast,
      bind_eq_bind, bind_some]
    rfl

/-! ### The whole visit -/

/-- Whether a member that has received up to `aru` writes the token's aru. -/
def WritesAru (inst : Instance) (token : OrfToken) (aru : ℕ) : Prop :=
  aru < token.aru ∨ inst.myId = token.aruAddr ∨ token.aruAddr = 0

instance (inst : Instance) (token : OrfToken) (aru : ℕ) : Decidable (WritesAru inst token aru) :=
  inferInstanceAs (Decidable (_ ∨ _))

/-- What a token visit leaves of a member. -/
structure Visited (ring : RingId) (base seq : ℕ) (inst : Instance) (token : OrfToken)
    (resent count : ℕ) (inst' : Instance) : Prop
    extends Transmitted seq inst token resent count inst' where
  member : Member ring base (seq + count) inst'
  outcome : (inst'.orfTokenDiscard = true ∧ inst'.myTokenSeq = inst.myTokenSeq) ∨
    inst'.myTokenSeq = token.tokenSeq ∧ ∃ next,
      inst'.orfTokenRetransmit = some (.orf next) ∧ next.seq = seq + count ∧
      next.aru = (if WritesAru inst token inst'.myAru then inst'.myAru else token.aru) ∧
      next.aruAddr = (if WritesAru inst token inst'.myAru then
        if inst'.myAru = seq + count then 0 else inst.myId else token.aruAddr) ∧
      ∀ item ∈ next.rtrList, item.seq < 2 ^ 32

/-- What a member writes into the aru of the token. -/
theorem tokenAruUpdate_fields (haru : token.aru < 2 ^ 32) (hmyAru : inst.myAru < 2 ^ 32)
    (hnear : token.aru ≤ inst.myAru + 2 ^ 30) (hnear' : inst.myAru ≤ token.aru + 2 ^ 30) :
    (tokenAruUpdate inst token).aru =
        (if WritesAru inst token inst.myAru then inst.myAru else token.aru) ∧
      (tokenAruUpdate inst token).aruAddr = (if WritesAru inst token inst.myAru then
        if inst.myAru = token.seq then 0 else inst.myId else token.aruAddr) ∧
      (tokenAruUpdate inst token).seq = token.seq ∧
      (tokenAruUpdate inst token).tokenSeq = token.tokenSeq ∧
      (tokenAruUpdate inst token).rtrList = token.rtrList := by
  have hcompare := sqLtCompare_iff (of_near hmyAru haru hnear' hnear)
  unfold tokenAruUpdate WritesAru
  simp only [hcompare]
  by_cases hwrites : inst.myAru < token.aru ∨ inst.myId = token.aruAddr ∨ token.aruAddr = 0
  · rw [if_pos hwrites]
    exact ⟨(if_pos hwrites).symm, (if_pos hwrites).symm, rfl, rfl, rfl⟩
  · rw [if_neg hwrites]
    exact ⟨(if_neg hwrites).symm, (if_neg hwrites).symm, rfl, rfl, rfl⟩

/-- A token visit keeps a member, unless the window does not fit in the sort queue. -/
theorem Member.tokenVisit (hmember : Member ring base seq inst)
    (hstate : inst.membState = .operational) (hreceivable : Receivable seq inst token)
    (haruLow : inst.lastReleased ≤ token.aru) (haruHigh : token.aru ≤ seq) :
    (tokenVisit inst token = none ∧ queueRtrItemsSizeMax <
      inst.config.windowSize + min inst.config.windowSize inst.config.maxMessages) ∨
    ∃ resent count inst', tokenVisit inst token = some inst' ∧
      Visited ring base seq inst token resent count inst' := by
  have hmax : queueRtrItemsSizeMax = 2 ^ 14 := rfl
  have hend := hmember.holds.fits.end_lt
  have hhead := hmember.head
  have hsize := hmember.size
  have hnear := hreceivable.near
  have hroom := hreceivable.room
  rcases hmember.toStore.tokenTransmit hreceivable with
    ⟨hnone, hwide⟩ | ⟨resent, count, sent, token', htransmit, hadv⟩
  · refine .inl ⟨?_, hwide⟩
    simp only [Totemsrp.tokenVisit, hnone, bind_eq_bind, bind_none]
  have hstore := hadv.store
  have hsentAru := hstore.holds.aru_le
  have hsentHigh := hstore.high_le
  have hsentLow := hadv.aru_le
  have hsentEnd := hstore.holds.high_lt
  have hlowle := hmember.holds.low_le
  rw [hstore.head, hstore.size, hadv.released] at hsentEnd
  have hseqRoom : seq + count < inst.myAru + queueRtrItemsSizeMax := by
    have := hadv.budget
    rcases hadv.room with hzero | hroom' <;> omega
  obtain ⟨haru, haddr, hnextSeq, hnextNumber, hnextList⟩ := @tokenAruUpdate_fields sent token'
    (by rw [hadv.tokenAru]; omega) (by omega) (by rw [hadv.tokenAru]; omega)
    (by rw [hadv.tokenAru]; omega)
  set lowered := tokenAruUpdate sent token' with hlowered
  set counted := aruCountUpdate sent lowered inst.myLastAru with hcounted
  have hmembState : counted.membState = .operational := by
    change sent.membState = _
    rw [hadv.memb, hstate]
  have htokenSeq : sent.myTokenSeq = inst.myTokenSeq := by rw [hadv.tokens]
  have hwrites : WritesAru sent token' sent.myAru ↔ WritesAru inst token sent.myAru := by
    unfold WritesAru
    rw [hadv.myId, hadv.tokenAru, hadv.tokenAddr]
  by_cases hfail : counted.config.failToRecvConst < counted.myAruCount ∧
      lowered.aruAddr = counted.myId
  · refine .inr ⟨resent, count, failedToReceive counted, ?_, {
      hadv.toTransmitted with
      member := { hstore with
        notRecovery := by simp [failedToReceive, membStateGatherEnter]
        leaves := fun _ => rfl
        current := by simp [failedToReceive, membStateGatherEnter] }
      outcome := .inl ⟨rfl, htokenSeq⟩ }⟩
    simp only [Totemsrp.tokenVisit, htransmit, bind_eq_bind, bind_some,
      ← hlowered, ← hcounted, if_pos hfail]
    rfl
  · obtain ⟨inst', delivered, messages, hdeliver, rfl, hmember'⟩ :=
      @Store.deliverReceived (tokenSend { counted with myTokenSeq := lowered.tokenSeq }
        { lowered with tokenSeq := uadd lowered.tokenSeq 1 }) ring base (seq + count)
        { hstore with }
        (fun _ => by
          change sent.myHighSeqReceived < sent.myHighDelivered + _
          rw [hadv.highDelivered, hmember.current hstate]
          omega)
    refine .inr ⟨resent, count, { tokenSend { counted with
        myTokenSeq := lowered.tokenSeq } { lowered with tokenSeq := uadd lowered.tokenSeq 1 } with
        myHighDelivered := delivered, delivered := messages }, ?_, { hadv.toTransmitted with
      member := hmember'
      outcome := .inr ⟨hnextNumber.trans hadv.tokenNumber, _, rfl,
        hnextSeq.trans hadv.tokenSeq, ?_, ?_, by rw [hnextList]; exact hadv.rtr⟩ }⟩
    · simp only [Totemsrp.tokenVisit, htransmit, bind_eq_bind, bind_some,
        ← hlowered, ← hcounted, if_neg hfail, tokenForward, tokenRecovery, hmembState]
      exact hdeliver
    · rw [hadv.tokenAru] at haru
      simp only [hwrites] at haru
      exact haru
    · rw [hadv.tokenSeq, hadv.myId, hadv.tokenAddr] at haddr
      simp only [hwrites] at haddr
      exact haddr

/-- An accepted token: the release comes first, the rest is a visit, unless the window does not fit
in the sort queue. -/
theorem Member.handleToken (hmember : Member ring base seq inst)
    (hstate : inst.membState = .operational) (haccept : tokenRejected inst token = false)
    (hreceivable : Receivable seq inst token) (hbelow : seq + queueRtrItemsSizeMax + 1 < 2 ^ 32)
    (haruLow : inst.lastReleased ≤ token.aru) (haruHigh : token.aru ≤ seq)
    (hlast : inst.myLastAru ≤ seq) (hnearLast : Near inst.myLastAru inst.lastReleased)
    (hnoted : min token.aru (min inst.myLastAru inst.myHighDelivered) <
      inst.lastReleased + queueRtrItemsSizeMax) :
    (messageHandlerOrfToken inst token = none ∧ queueRtrItemsSizeMax <
      inst.config.windowSize + min inst.config.windowSize inst.config.maxMessages) ∨
    ∃ queue resent count inst', messageHandlerOrfToken inst token = some inst' ∧
      Visited ring base seq { inst with
          regularSortQueue := queue
          lastReleased := max inst.lastReleased
            (min token.aru (min inst.myLastAru inst.myHighDelivered)) }
        token resent count inst' := by
  have hmax : queueRtrItemsSizeMax = 2 ^ 14 := rfl
  have haru := hmember.holds.aru_le
  have hhigh := hmember.high_le
  have hdelivered := hmember.delivered_le
  have hroom := hreceivable.room
  obtain ⟨queue, freed, hfree, hfreed, hmember'⟩ := @Member.messagesFree inst ring
    base seq hmember token.aru (by omega) (by omega) (by omega)
    (by unfold Near; omega) hnearLast hnoted
  -- nothing the tests look at has changed
  unfold tokenRejected at haccept
  obtain ⟨hignored, hdiscarded⟩ := Bool.or_eq_false_iff.mp haccept
  have hhandler : messageHandlerOrfToken inst token = Totemsrp.tokenVisit freed token := by
    have hsame : tokenDiscarded freed token = false := by rw [hfreed]; exact hdiscarded
    unfold messageHandlerOrfToken tokenFree
    simp only [hignored, hstate, hfree, hsame, if_true, bind_eq_bind, bind_some,
      Bool.false_eq_true, if_false]
  subst hfreed
  rcases hmember'.tokenVisit hstate { hreceivable with room := by dsimp only; omega }
      (by dsimp only; omega) haruHigh with
    ⟨hnone, hwide⟩ | ⟨resent, count, inst', hsome, hvisited⟩
  · exact .inl ⟨hhandler.trans hnone, hwide⟩
  · exact .inr ⟨queue, resent, count, inst', hhandler.trans hsome, hvisited⟩

end Corosync.Totemsrp
