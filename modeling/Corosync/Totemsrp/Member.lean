import Corosync.Totemsrp.Loops
import Corosync.Totemsrp.VisitFlow

/-!
# A member of an operational ring

What a member keeps between two events: its sort queue holds the messages above `last_released`, of
which `my_aru` counts those without a hole, and everything up to `my_aru` is delivered. The handlers
keep this and never fail an assertion while the ring stays within the window.
-/

namespace Corosync.Totemsrp

open Option Instance

variable {inst inst' : Instance} {q q' : Sq Mcast} {ring : RingId} {low aru high base seq : ℕ}
  {m : Mcast}

/-- A message of the application that has number `s` on the ring. -/
structure Numbered (ring : RingId) (s : ℕ) (m : Mcast) : Prop where
  number : m.header.seq = s
  ringId : m.header.ringId = ring
  plain : m.isEncapsulated = false

/-- A sort queue holds all messages from `low + 1` to `aru` and some up to `high`. -/
structure Holds (ring : RingId) (q : Sq Mcast) (low aru high : ℕ) : Prop where
  fits : q.Fits
  head_le : q.headSeqid ≤ low + 1
  low_le : low ≤ aru
  aru_le : aru ≤ high
  high_lt : high < q.headSeqid + q.size
  held : ∀ s, low < s → s ≤ aru → q.Has s
  le_high : ∀ s, q.Has s → s ≤ high
  item : ∀ s, q.Has s → ∃ m, q.item? s = some m ∧ Numbered ring s m

namespace Holds

/-- A message of the ring is stored. -/
theorem fill (hholds : Holds ring q low aru high) {s : ℕ} (hwin : q.InWindow s)
    (hm : Numbered ring s m) : Holds ring (q.fill (q.position s) s m) low aru (max high s) where
  fits := hholds.fits.fill ..
  head_le := hholds.head_le
  low_le := hholds.low_le
  aru_le := le_trans hholds.aru_le (le_max_left ..)
  high_lt := max_lt hholds.high_lt hwin.2
  held := fun t hlow haru => (Sq.has_fill hholds.fits hwin _).mpr (.inr (hholds.held t hlow haru))
  le_high := fun t ht => by
    rcases (Sq.has_fill hholds.fits hwin _).mp ht with rfl | ht
    · exact le_max_right ..
    · exact le_trans (hholds.le_high t ht) (le_max_left ..)
  item := fun t ht => by
    by_cases hts : t = s
    · subst hts
      exact ⟨m, Sq.item?_fill_self _, hm⟩
    · have hold := ((Sq.has_fill hholds.fits hwin _).mp ht).resolve_left hts
      rw [Sq.item?_fill_of_ne hholds.fits hwin hold.1 hts]
      exact hholds.item t hold

/-- Messages up to `my_aru` are released. -/
theorem release (hholds : Holds ring q low aru high) (hhead : q.headSeqid = low + 1)
    {low' : ℕ} (hlow : low ≤ low') (haru : low' ≤ aru) (hend : low' + 1 + q.size < 2 ^ 32) :
    ∃ q', releaseItems (low' - low) (low + 1) q = some q' ∧ q'.headSeqid = low' + 1 ∧
      q'.size = q.size ∧ (∀ s, q'.Has s → q.Has s) ∧ Holds ring q' low' aru high := by
  have haruhigh := hholds.aru_le
  have hhigh := hholds.high_lt
  have hsizele := hholds.fits.size_le
  obtain ⟨q', hloop, hhead', hsize, hhas, hitem⟩ :=
    @releaseItems_eq q hholds.fits (low' - low) (by omega) (by omega)
  rw [hhead] at hloop hhead'
  have hhead'' : q'.headSeqid = low' + 1 := by omega
  refine ⟨q', hloop, hhead'', hsize, fun s hs => ((hhas s).mp hs).2, ?_⟩
  exact {
    fits := ⟨hsize ▸ hsizele, by rw [hhead'', hsize]; exact hend⟩
    head_le := hhead''.le
    low_le := haru
    aru_le := haruhigh
    high_lt := by rw [hhead'', hsize]; omega
    held := fun s hs hsaru => (hhas s).mpr ⟨by omega, hholds.held s (by omega) hsaru⟩
    le_high := fun s hs => hholds.le_high s ((hhas s).mp hs).2
    item := fun s hs => by
      rw [hitem s hs]
      exact hholds.item s ((hhas s).mp hs).2 }

end Holds

/-- `my_aru` goes up over the messages that are held. -/
theorem Holds.updateAru
    (hholds : Holds ring inst.sortQueue low inst.myAru inst.myHighSeqReceived) :
    ∃ aru, updateAru inst = some { inst with myAru := aru } ∧ inst.myAru ≤ aru ∧
      Holds ring inst.sortQueue low aru inst.myHighSeqReceived ∧ ¬inst.sortQueue.Has (aru + 1) := by
  have hlow := hholds.low_le
  have hhead := hholds.head_le
  obtain ⟨aru, hupdate, hgrows, hle, hheld, hhole⟩ :=
    updateAru_eq hholds.fits (by omega) hholds.aru_le hholds.high_lt
  refine ⟨aru, hupdate, hgrows, ?_, ?_⟩
  · exact { hholds with
      low_le := by omega
      aru_le := hle
      held := fun s hs hsaru => by
        by_cases hold : s ≤ inst.myAru
        · exact hholds.held s hs hold
        · exact hheld s (by omega) hsaru }
  · intro hhas
    have := hholds.le_high _ hhas
    exact hhole (by omega) hhas

/-- What a stamp writes. -/
theorem stamp_numbered (hring : inst.myRingId = ring) (hm : m.isEncapsulated = false)
    (s : ℕ) : Numbered ring s (stamp inst m s) := by
  subst hring
  cases m with
  | plain _ _ => exact ⟨rfl, rfl, rfl⟩
  | encapsulated _ _ => cases hm

/-- The loop of `orf_token_mcast` numbers the first messages of the queue. -/
theorem Holds.mcastQueued {allowed : ℕ} {token : OrfToken}
    (hholds : Holds ring inst.sortQueue low inst.myAru inst.myHighSeqReceived)
    (hring : inst.myRingId = ring) (hplain : ∀ m ∈ inst.mcastQueue.items, m.isEncapsulated = false)
    (hhigh : inst.myHighSeqReceived ≤ token.seq) (hlow : inst.sortQueue.headSeqid ≤ token.seq + 1)
    (hroom : token.seq + allowed < inst.sortQueue.headSeqid + inst.sortQueue.size) :
    ∃ messages q rest high, mcastQueued allowed inst token = some
        (inst.numbered q rest messages high,
          { token with seq := token.seq + messages.length }, messages.length) ∧
      messages.length ≤ allowed ∧ (∀ m ∈ rest.items, m ∈ inst.mcastQueue.items) ∧
      q.headSeqid = inst.sortQueue.headSeqid ∧ q.size = inst.sortQueue.size ∧
      Holds ring q low inst.myAru high ∧
      (messages = [] ∧ high = inst.myHighSeqReceived ∨ high = token.seq + messages.length) ∧
      ∀ m ∈ messages, token.seq < m.header.seq ∧ m.header.seq ≤ token.seq + messages.length ∧
        Numbered ring m.header.seq m := by
  induction allowed generalizing inst token with
  | zero =>
    refine ⟨[], inst.sortQueue, inst.mcastQueue, _, ?_, le_rfl, fun _ => id, rfl, rfl, hholds,
      .inl ⟨rfl, rfl⟩, nofun⟩
    rw [numbered_nil]
    rfl
  | succ _ ih =>
    cases htake : inst.mcastQueue.itemTake with
    | none =>
      refine ⟨[], inst.sortQueue, inst.mcastQueue, _, ?_, Nat.zero_le _, fun _ => id, rfl, rfl,
        hholds, .inl ⟨rfl, rfl⟩, nofun⟩
      rw [numbered_nil]
      simp only [Totemsrp.mcastQueued, htake]
      rfl
    | some taken =>
      obtain ⟨message, rest⟩ := taken
      obtain ⟨hitems, -⟩ := CsQueue.itemTake_eq_some htake
      rw [hitems] at hplain ⊢
      have hend := hholds.fits.end_lt
      have hseq : uadd token.seq 1 = token.seq + 1 := uadd_of_lt (by omega)
      have hwin : inst.sortQueue.InWindow (token.seq + 1) := ⟨hlow, by omega⟩
      have hfree : ¬inst.sortQueue.Has (token.seq + 1) := fun hhas => by
        have := hholds.le_high _ hhas
        omega
      set stamped := stamp inst message (token.seq + 1)
      have hstamped : Numbered ring (token.seq + 1) stamped :=
        stamp_numbered hring (hplain message List.mem_cons_self) _
      set queue := inst.sortQueue.fill (inst.sortQueue.position (token.seq + 1)) (token.seq + 1)
        stamped
      have hadd : inst.sortQueue.itemAdd stamped (token.seq + 1) = some queue :=
        Sq.itemAdd_eq hwin hfree stamped
      have hitem : mcastItem inst stamped queue rest =
          inst.numbered queue rest [stamped] (token.seq + 1) := by
        unfold mcastItem numbered
        rw [hstamped.number]
        rfl
      have hfilled := hholds.fill hwin hstamped
      rw [max_eq_right (by omega)] at hfilled
      obtain ⟨messages, q', rest', high, hloop, hcount, hrest, hhead, hsize, hholds', hhigh',
          hnumbered⟩ := @ih (inst.numbered queue rest [stamped] (token.seq + 1))
        { token with seq := token.seq + 1 } (by rw [numbered_sortQueue]; exact hfilled)
        hring (by
          rw [numbered_mcastQueue]
          exact fun m hm => hplain m (List.mem_cons_of_mem _ hm)) le_rfl
        (by rw [numbered_sortQueue, Sq.fill_headSeqid]; dsimp only; omega)
        (by rw [numbered_sortQueue, Sq.fill_headSeqid, Sq.fill_size]; dsimp only; omega)
      rw [numbered_sortQueue] at hhead hsize
      rw [numbered_mcastQueue] at hrest
      rw [numbered_numbered] at hloop
      dsimp only at hloop hnumbered
      refine ⟨stamped :: messages, q', rest', high, ?_, Nat.succ_le_succ hcount,
        fun m hm => List.mem_cons_of_mem _ (hrest m hm), hhead, hsize, hholds', .inr ?_, ?_⟩
      · simp only [Totemsrp.mcastQueued, htake, hseq, hadd, bind_eq_bind, bind_some,
          stamped] at hloop hitem ⊢
        rw [hitem, hloop, List.length_cons, Nat.add_assoc, Nat.add_comm 1]
        rfl
      · rw [List.length_cons]
        rcases hhigh' with ⟨rfl, rfl⟩ | rfl
        · rfl
        · dsimp only
          omega
      · intro m hm
        rw [List.length_cons]
        rcases List.mem_cons.mp hm with rfl | hm
        · rw [hstamped.number]
          exact ⟨by omega, by omega, hstamped⟩
        · obtain ⟨hlt, hle, hm⟩ := hnumbered m hm
          exact ⟨by omega, by omega, hm⟩

/-- A packet of the recovery that preceded the installation of the ring at number `base`. -/
structure Late (ring : RingId) (base : ℕ) (m : Mcast) : Prop where
  encapsulated : m.isEncapsulated = true
  ringId : m.header.ringId = ring
  pos : 0 < m.header.seq
  le_base : m.header.seq ≤ base

/-- A packet that was multicast on the ring. -/
def OnRing (ring : RingId) (base seq : ℕ) (m : Mcast) : Prop :=
  (base < m.header.seq ∧ m.header.seq ≤ seq ∧ Numbered ring m.header.seq m) ∨ Late ring base m

/-- A message stays on the ring. -/
theorem OnRing.mono (hm : OnRing ring base seq m) {seq' : ℕ} (hle : seq ≤ seq') :
    OnRing ring base seq' m :=
  hm.imp_left fun ⟨hbase, hs, hm⟩ => ⟨hbase, le_trans hs hle, hm⟩

/-- A message of the ring has its id. -/
theorem OnRing.ringId (hm : OnRing ring base seq m) : m.header.ringId = ring := by
  rcases hm with ⟨-, -, hm⟩ | hlate
  · exact hm.ringId
  · exact hlate.ringId

/-- The messages a member of ring `ring` keeps, when the ring was installed at number `base` and
has numbered up to `seq`. -/
structure Store (ring : RingId) (base seq : ℕ) (inst : Instance) : Prop where
  ringId : inst.myRingId = ring
  notRecovery : inst.membState ≠ .recovery
  leaves : inst.membState ≠ .operational → inst.orfTokenDiscard = true
  holds : Holds ring inst.regularSortQueue inst.lastReleased inst.myAru inst.myHighSeqReceived
  head : inst.regularSortQueue.headSeqid = inst.lastReleased + 1
  size : inst.regularSortQueue.size = queueRtrItemsSizeMax
  hole : ¬inst.regularSortQueue.Has (inst.myAru + 1)
  base_le : base ≤ inst.lastReleased
  released_le : inst.lastReleased ≤ inst.myHighDelivered
  delivered_le : inst.myHighDelivered ≤ inst.myAru
  high_le : inst.myHighSeqReceived ≤ seq
  recovered : ∀ s, 0 < s → s ≤ base → inst.recoverySortQueue.itemInuse s = true
  sent : ∀ m ∈ inst.mcastSent, OnRing ring base seq m
  queued : ∀ m ∈ inst.newMessageQueue.items ++ inst.newMessageQueueTrans.items,
    m.isEncapsulated = false

/-- A member between two events. -/
structure Member (ring : RingId) (base seq : ℕ) (inst : Instance) : Prop
    extends Store ring base seq inst where
  current : inst.membState = .operational → inst.myHighDelivered = inst.myAru

/-- A member sorts in the regular queue. -/
theorem Store.sortQueue_eq (hstore : Store ring base seq inst) :
    inst.sortQueue = inst.regularSortQueue :=
  if_neg hstore.notRecovery

/-- A member stays one when numbers are given out. -/
theorem Member.mono (hmember : Member ring base seq inst) {seq' : ℕ} (hle : seq ≤ seq') :
    Member ring base seq' inst :=
  { hmember with
    high_le := le_trans hmember.high_le hle
    sent := fun m hm => (hmember.sent m hm).mono hle }

/-- Delivery at the end of a handler hands over what has no hole before it. -/
theorem Store.deliverReceived (hstore : Store ring base seq inst)
    (hnear : inst.membState = .operational →
      inst.myHighSeqReceived < inst.myHighDelivered + queueRtrItemsSizeMax) :
    ∃ inst' delivered messages, deliverReceived inst = some inst' ∧
      inst' = { inst with myHighDelivered := delivered, delivered := messages } ∧
      Member ring base seq inst' := by
  have hholds := hstore.holds
  have hhigh := hholds.high_lt
  have haru := hholds.aru_le
  have hend := hholds.fits.end_lt
  have hreleased := hstore.released_le
  have hdelivered := hstore.delivered_le
  have hbase := hstore.base_le
  have hhead := hstore.head
  unfold Totemsrp.deliverReceived
  split
  · rename_i hstate
    have hrange : usub inst.myHighSeqReceived inst.myHighDelivered =
        inst.myHighSeqReceived - inst.myHighDelivered := usub_of_le (by omega) (by omega)
    have hassert : assertThat (usub inst.myHighSeqReceived inst.myHighDelivered <
        queueRtrItemsSizeMax) = some () := by
      have := hnear hstate
      exact assertThat_eq_some.mpr (by omega)
    obtain ⟨k, hk, ⟨messages, hloop⟩, hheld, hhole⟩ := @deliverItems_eq inst hholds.fits
      (inst.myHighSeqReceived - inst.myHighDelivered) (by omega) (by omega)
    -- the delivery stops exactly at `my_aru`
    have hstop : inst.myHighDelivered + k = inst.myAru := by
      by_contra hne
      rcases Nat.lt_or_gt_of_ne hne with hlt | hgt
      · exact hhole (by omega) (hholds.held _ (by omega) (by omega))
      · exact hstore.hole (hheld _ (by omega) (by omega))
    rw [hstop] at hloop
    refine ⟨_, inst.myAru, messages, ?_, rfl, { hstore with
      released_le := by dsimp only; omega
      delivered_le := le_rfl
      current := fun _ => rfl }⟩
    simp only [messagesDeliverToApp, hassert, bind_eq_bind, bind_some]
    rw [hrange, uadd_of_lt (by omega)]
    exact hloop
  · rename_i hstate
    exact ⟨inst, inst.myHighDelivered, inst.delivered, rfl, rfl,
      { hstore with current := fun hoperational => absurd hoperational hstate }⟩

/-- A received packet is stored unless it was released or is a duplicate. -/
theorem Store.mcastStore (hstore : Store ring base seq inst)
    (hseq : seq ≤ inst.lastReleased + queueRtrItemsSizeMax)
    (hm : OnRing ring base seq m) : ∃ queue high,
      mcastStore inst m = some
        { inst with regularSortQueue := queue, myHighSeqReceived := high } ∧
      inst.myHighSeqReceived ≤ high ∧ high ≤ seq ∧
      queue.headSeqid = inst.regularSortQueue.headSeqid ∧ queue.size = inst.regularSortQueue.size ∧
      Holds ring queue inst.lastReleased inst.myAru high := by
  have hholds := hstore.holds
  have hend := hholds.fits.end_lt
  have hhigh := hstore.high_le
  have hlow := hholds.low_le
  have haru := hholds.aru_le
  have hhead := hstore.head
  have hsize := hstore.size
  have hmax : queueRtrItemsSizeMax = 2 ^ 14 := rfl
  unfold Totemsrp.mcastStore
  dsimp only
  rcases hm with ⟨hbase, hs, hm⟩ | hlate
  · have hrange := @Sq.inRange_iff _ inst.regularSortQueue m.header.seq hholds.fits (by omega)
    rw [if_neg (by rw [hm.plain]; simp)]
    split
    · rename_i hstored
      rw [Bool.and_eq_true, hrange, Bool.not_eq_true'] at hstored
      obtain ⟨hwin, hfree⟩ := hstored
      have hnot : ¬inst.regularSortQueue.Has m.header.seq := fun hhas => by
        rw [(Sq.itemInuse_iff hwin).mpr hhas] at hfree
        simp at hfree
      have hwinLow := hwin.1
      have hcompare := @sqLtCompare_iff inst.myHighSeqReceived m.header.seq
        (Comparable.of_near (by omega) (by omega) (by omega) (by omega))
      have hmaxHigh : (if sqLtCompare inst.myHighSeqReceived m.header.seq = true
          then m.header.seq else inst.myHighSeqReceived) =
          max inst.myHighSeqReceived m.header.seq := by
        simp only [hcompare]
        split <;> omega
      refine ⟨inst.regularSortQueue.fill _ m.header.seq m,
        max inst.myHighSeqReceived m.header.seq, ?_, le_max_left .., by omega, rfl, rfl,
        hholds.fill hwin hm⟩
      rw [Sq.itemAdd_eq hwin hnot, hmaxHigh]
      rfl
    · exact ⟨_, _, rfl, le_rfl, hhigh, rfl, rfl, hholds⟩
  · rw [if_pos hlate.encapsulated, hstore.recovered _ hlate.pos hlate.le_base,
      Bool.not_true, Bool.and_false, if_neg Bool.false_ne_true]
    exact ⟨_, _, rfl, le_rfl, hhigh, rfl, rfl, hholds⟩

/-- A member stores a packet of its ring, moves `my_aru` and delivers. -/
theorem Member.mcast (hmember : Member ring base seq inst)
    (hseq : seq ≤ inst.lastReleased + queueRtrItemsSizeMax)
    (hnear : seq < inst.myAru + queueRtrItemsSizeMax) (hm : OnRing ring base seq m)
    (hlen : m.msgLen ≤ frameSizeMax) :
    ∃ inst' queue high aru delivered messages, messageHandlerMcast inst m = some inst' ∧
      inst' = { inst with
        regularSortQueue := queue
        myHighSeqReceived := high
        myAru := aru
        myHighDelivered := delivered
        delivered := messages } ∧
      inst.myAru ≤ aru ∧ inst.myHighSeqReceived ≤ high ∧ Member ring base seq inst' := by
  have hstore := hmember.toStore
  obtain ⟨queue, high, hstored, hgrows, hhigh, hhead, hsize, hholds⟩ :=
    hstore.mcastStore hseq hm
  set stored : Instance := { inst with regularSortQueue := queue, myHighSeqReceived := high }
    with hstoredDef
  have hqueue : stored.sortQueue = queue := if_neg hstore.notRecovery
  obtain ⟨aru, hupdate, haru, hholds', hhole⟩ := @Holds.updateAru stored ring
    inst.lastReleased (by rw [hqueue]; exact hholds)
  rw [hqueue] at hholds' hhole
  have hstore' : Store ring base seq { stored with myAru := aru } := { hstore with
    holds := hholds'
    head := hhead.trans hstore.head
    size := hsize.trans hstore.size
    hole := hhole
    delivered_le := le_trans hstore.delivered_le haru
    high_le := hhigh }
  obtain ⟨inst', delivered, messages, hdeliver, heq, hmember'⟩ := hstore'.deliverReceived
    (fun hstate => by
      have := hmember.current hstate
      change high < inst.myHighDelivered + queueRtrItemsSizeMax
      omega)
  refine ⟨inst', queue, high, aru, delivered, messages, ?_, heq, haru, hgrows, hmember'⟩
  unfold messageHandlerMcast
  rw [if_neg (Nat.not_lt.mpr hlen), if_pos (by rw [hstore.ringId, hm.ringId]), hstored]
  simp only [bind_eq_bind, bind_some]
  rw [hupdate]
  exact hdeliver

end Corosync.Totemsrp
