import Corosync.SqWindow
import Corosync.Totemsrp.Frame

/-!
# The loops over sequence numbers

What the loops of the code compute while the window of the sort queue stays below the wrap: how far
`update_aru` and `messages_deliver_to_app` get, what `messages_free` leaves, and what is asked for
and sent again.
-/

namespace Corosync.Totemsrp

open List Option

variable {inst inst' : Instance} {q : Sq Mcast}

/-- The loop of `update_aru` counts up to the first missing message. -/
theorem countReceived_eq (hfit : q.Fits) {count seq : ℕ} (hlow : q.headSeqid ≤ seq)
    (hhigh : seq + count ≤ q.headSeqid + q.size) :
    ∃ k ≤ count, countReceived q count seq = some k ∧
      (∀ s, seq ≤ s → s < seq + k → q.Has s) ∧ (k < count → ¬q.Has (seq + k)) := by
  induction count generalizing seq with
  | zero => exact ⟨0, le_rfl, rfl, fun s _ _ => by omega, fun h => by omega⟩
  | succ _ ih =>
    have hend := hfit.end_lt
    have hwin : q.InWindow seq := ⟨hlow, by omega⟩
    have hget := Sq.itemGet_eq hfit hwin.2
    by_cases hhas : q.Has seq
    · obtain ⟨x, hx⟩ := hhas.item?_eq
      obtain ⟨k, hk, heq, hheld, hhole⟩ := @ih (seq + 1) (by omega) (by omega)
      refine ⟨k + 1, by omega, ?_, ?_, ?_⟩
      · simp only [countReceived, hget, hx, uadd_of_lt (show seq + 1 < 2 ^ 32 by omega), heq,
          bind_eq_bind, bind_some]
        rfl
      · intro s hlow hhigh
        rcases Nat.eq_or_lt_of_le hlow with rfl | hlt
        · exact hhas
        · exact hheld s (by omega) (by omega)
      · intro hlt
        have := hhole (by omega)
        rwa [show seq + 1 + k = seq + (k + 1) by omega] at this
    · refine ⟨0, Nat.zero_le _, ?_, fun s _ _ => by omega, fun _ => hhas⟩
      simp only [countReceived, hget, Sq.item?_eq_none hwin hhas, bind_eq_bind,
        bind_some]
      rfl

/-- `my_aru` goes up to the first missing message. -/
theorem updateAru_eq (hfit : inst.sortQueue.Fits) (hlow : inst.sortQueue.headSeqid ≤ inst.myAru + 1)
    (haru : inst.myAru ≤ inst.myHighSeqReceived)
    (hhigh : inst.myHighSeqReceived < inst.sortQueue.headSeqid + inst.sortQueue.size) :
    ∃ aru, updateAru inst = some { inst with myAru := aru } ∧ inst.myAru ≤ aru ∧
      aru ≤ inst.myHighSeqReceived ∧ (∀ s, inst.myAru < s → s ≤ aru → inst.sortQueue.Has s) ∧
      (aru < inst.myHighSeqReceived → ¬inst.sortQueue.Has (aru + 1)) := by
  have hend := hfit.end_lt
  have hrange : usub inst.myHighSeqReceived inst.myAru = inst.myHighSeqReceived - inst.myAru :=
    usub_of_le haru (by omega)
  have hnext : uadd inst.myAru 1 = inst.myAru + 1 := uadd_of_lt (by omega)
  obtain ⟨k, hk, hcount, hheld, hhole⟩ := @countReceived_eq _ hfit
    (inst.myHighSeqReceived - inst.myAru) _ hlow (by omega)
  refine ⟨inst.myAru + k, ?_, by omega, by omega, fun s hs hsk => hheld s (by omega) (by omega), ?_⟩
  · have hsum : uadd inst.myAru k = inst.myAru + k := uadd_of_lt (by omega)
    simp only [updateAru, hrange, hnext, hcount, bind_eq_bind, bind_some, hsum]
    rfl
  · intro hlt
    have := hhole (by omega)
    rwa [show inst.myAru + 1 + k = inst.myAru + k + 1 by omega] at this

/-- Delivery without skipping hands over what is held, up to the first hole. -/
theorem deliverItems_eq (hfit : inst.regularSortQueue.Fits) {count : ℕ}
    (hlow : inst.regularSortQueue.headSeqid ≤ inst.myHighDelivered + 1)
    (hhigh : inst.myHighDelivered + 1 + count ≤
      inst.regularSortQueue.headSeqid + inst.regularSortQueue.size) :
    ∃ k ≤ count, (∃ messages, deliverItems false count (inst.myHighDelivered + 1) inst = some
        { inst with myHighDelivered := inst.myHighDelivered + k, delivered := messages }) ∧
      (∀ s, inst.myHighDelivered < s → s ≤ inst.myHighDelivered + k → inst.regularSortQueue.Has s) ∧
      (k < count → ¬inst.regularSortQueue.Has (inst.myHighDelivered + k + 1)) := by
  induction count generalizing inst with
  | zero => exact ⟨0, le_rfl, ⟨_, rfl⟩, fun s _ _ => by omega, fun h => by omega⟩
  | succ _ ih =>
    have hend := hfit.end_lt
    have hwin : inst.regularSortQueue.InWindow (inst.myHighDelivered + 1) := ⟨hlow, by omega⟩
    have hrange := (Sq.inRange_iff hfit (by omega)).mpr hwin
    have hget := Sq.itemGet_eq hfit hwin.2
    by_cases hhas : inst.regularSortQueue.Has (inst.myHighDelivered + 1)
    · obtain ⟨m, hitem⟩ := hhas.item?_eq
      obtain ⟨k, hk, ⟨messages, heq⟩, hheld, hhole⟩ := @ih { inst with
        myHighDelivered := inst.myHighDelivered + 1, delivered := inst.delivered ++ [m] }
        hfit (by dsimp only; omega) (by dsimp only; omega)
      refine ⟨k + 1, by omega, ⟨messages, ?_⟩, ?_, ?_⟩
      · simp only [deliverItems, hrange, if_true, hget, hitem, bind_eq_bind,
          bind_some, Bool.false_and, Bool.false_eq_true, if_false,
          uadd_of_lt (show inst.myHighDelivered + 1 + 1 < 2 ^ 32 by omega), heq]
        rw [Nat.add_assoc, Nat.add_comm 1 k]
      · intro s hs hsk
        rcases Nat.eq_or_lt_of_le hs with rfl | hlt
        · exact hhas
        · exact hheld s hlt (by dsimp only; omega)
      · intro hlt
        have := hhole (by omega)
        dsimp only at this
        rwa [show inst.myHighDelivered + 1 + k + 1 = inst.myHighDelivered + (k + 1) + 1 by omega]
          at this
    · refine ⟨0, Nat.zero_le _, ⟨inst.delivered, ?_⟩, fun s _ _ => by omega, fun _ => hhas⟩
      simp only [deliverItems, hrange, if_true, hget, Sq.item?_eq_none hwin hhas,
        bind_eq_bind, bind_some, Bool.false_eq_true, if_false, Nat.add_zero]
      rfl

/-- The loop of `messages_free` drops the first `count` numbers of the window. -/
theorem releaseItems_eq (hfit : q.Fits) {count : ℕ} (hcount : count ≤ q.size)
    (hend : q.headSeqid + count + q.size < 2 ^ 32) :
    ∃ q', releaseItems count q.headSeqid q = some q' ∧ q'.headSeqid = q.headSeqid + count ∧
      q'.size = q.size ∧ (∀ s, q'.Has s ↔ q.headSeqid + count ≤ s ∧ q.Has s) ∧
      ∀ s, q'.Has s → q'.item? s = q.item? s := by
  induction count generalizing q with
  | zero =>
    exact ⟨q, rfl, rfl, rfl, fun s => ⟨fun h => ⟨h.1.1, h⟩, And.right⟩, fun s _ => rfl⟩
  | succ _ ih =>
    have hpos := q.sizePos
    have hhead := Sq.itemsRelease_headSeqid (q := q) (r := q.headSeqid) (by omega)
    have hfit' : (q.itemsRelease q.headSeqid).Fits := hfit.itemsRelease (by omega)
    have hhas : ∀ s, (q.itemsRelease q.headSeqid).Has s ↔ q.headSeqid < s ∧ q.Has s :=
      fun s => Sq.has_itemsRelease hfit (by omega) (by omega) (by omega)
    obtain ⟨q', hloop, hhead', hsize', hhas', hitem'⟩ := ih (q := q.itemsRelease q.headSeqid) hfit'
      (by rw [Sq.itemsRelease_size]; omega) (by rw [Sq.itemsRelease_size, hhead]; omega)
    rw [hhead] at hloop hhead' hhas'
    refine ⟨q', ?_, by omega, hsize', ?_, ?_⟩
    · simp only [releaseItems,
        Sq.itemGet_eq hfit (show q.headSeqid < q.headSeqid + q.size by omega),
        bind_eq_bind, bind_some,
        uadd_of_lt (show q.headSeqid + 1 < 2 ^ 32 by omega), hloop]
    · intro s
      rw [hhas', hhas]
      constructor
      · rintro ⟨hle, -, hs⟩
        exact ⟨by omega, hs⟩
      · rintro ⟨hle, hs⟩
        exact ⟨by omega, by omega, hs⟩
    · intro s hs
      have hold := (hhas s).mp ((hhas' s).mp hs).2
      rw [hitem' s hs]
      exact Sq.item?_itemsRelease hfit (by omega) (by omega) (by omega) hold.1 hold.2.1

/-! ### Retransmission -/

/-- The loop that sends messages again never fails: it looks up numbers of the window only. -/
theorem rtrRemcast_isSome (hfit : inst.sortQueue.Fits) {allowed current : ℕ} {list : List RtrItem}
    (hlist : ∀ item ∈ list, item.seq < 2 ^ 32) : ∃ inst' list' sent,
      rtrRemcast allowed list current inst = some (inst', list', sent) ∧
        ∀ item ∈ list', item ∈ list := by
  induction list generalizing current inst with
  | nil => exact ⟨inst, [], current, rfl, by simp⟩
  | cons item rest ih =>
    have hrest : ∀ item ∈ rest, item.seq < 2 ^ 32 := fun x hx => hlist x (mem_cons_of_mem _ hx)
    obtain ⟨kept, list', sent, hkept, hmem⟩ := @ih inst hfit current hrest
    have hkeep : ∀ x ∈ item :: list', x ∈ item :: rest := by
      intro x hx
      rcases mem_cons.mp hx with rfl | hx
      · exact mem_cons_self
      · exact mem_cons_of_mem _ (hmem x hx)
    have hfound : ∃ found, orfTokenRemcast inst item.seq = some found := by
      unfold orfTokenRemcast
      split
      · rename_i hrange
        have hwin := (Sq.inRange_iff hfit (hlist item mem_cons_self)).mp hrange
        exact ⟨_, Sq.itemGet_eq hfit hwin.2⟩
      · exact ⟨none, rfl⟩
    simp only [rtrRemcast]
    split
    · split
      · obtain ⟨found, hfound⟩ := hfound
        cases found with
        | none =>
          refine ⟨kept, item :: list', sent, ?_, hkeep⟩
          simp only [hfound, bind_eq_bind, bind_some, hkept]
          rfl
        | some message =>
          obtain ⟨inst'', list'', sent'', hsome, hmem''⟩ :=
            @ih (mcastSend inst message) hfit (current + 1) hrest
          refine ⟨inst'', list'', sent'', ?_, fun x hx => mem_cons_of_mem _ (hmem'' x hx)⟩
          simp only [hfound, bind_eq_bind, bind_some, hsome]
      · refine ⟨kept, item :: list', sent, ?_, hkeep⟩
        simp only [hkept, bind_eq_bind, bind_some]
        rfl
    · exact ⟨inst, item :: rest, current, rfl, fun x hx => hx⟩

/-- The requested numbers have 32 bits. -/
theorem rtrRequest_seq_lt {ringId : RingId} {miss count seq : ℕ} {list : List RtrItem}
    (hlist : ∀ item ∈ list, item.seq < 2 ^ 32) (hseq : seq < 2 ^ 32) :
    ∀ item ∈ (rtrRequest ringId miss count seq q list).2, item.seq < 2 ^ 32 := by
  induction count generalizing seq q list with
  | zero => exact hlist
  | succ _ ih =>
    simp only [rtrRequest]
    split
    · split
      · split
        · exact ih hlist (uadd_lt ..)
        split
        · exact ih hlist (uadd_lt ..)
        split
        · exact ih hlist (uadd_lt ..)
        · refine ih (fun item hitem => ?_) (uadd_lt ..)
          rcases mem_append.mp hitem with hitem | hitem
          · exact hlist item hitem
          · rw [mem_singleton.mp hitem]
            exact hseq
      · exact hlist
    · exact hlist

/-- `orf_token_rtr` fails only when the token is a whole queue ahead of `my_aru`. -/
theorem orfTokenRtr_isSome (hfit : inst.sortQueue.Fits) {token : OrfToken} {allowed : ℕ}
    (hlist : ∀ item ∈ token.rtrList, item.seq < 2 ^ 32)
    (hrange : usub token.seq inst.myAru < queueRtrItemsSizeMax) :
    ∃ result, orfTokenRtr inst token allowed = some result ∧
      ∀ item ∈ result.token.rtrList, item.seq < 2 ^ 32 := by
  obtain ⟨inst', list, sent, hremcast, hmem⟩ :=
    @rtrRemcast_isSome _ hfit allowed 0 _ hlist
  obtain ⟨messages, rfl, -, -, -⟩ := rtrRemcast_sends hremcast (Nat.zero_le _)
  have hassert : assertThat (usub token.seq inst.myAru < queueRtrItemsSizeMax) = some () :=
    assertThat_eq_some.mpr hrange
  simp only [orfTokenRtr, hremcast, bind_eq_bind, bind_some, hassert]
  refine ⟨_, rfl, ?_⟩
  exact rtrRequest_seq_lt (fun item hitem => hlist item (hmem item hitem)) (uadd_lt ..)

/-! ### Numbering queued messages -/

namespace Instance

/-- The sort queue that was put in. -/
@[simp] theorem withSortQueue_sortQueue (inst : Instance) (q : Sq Mcast) :
    (inst.withSortQueue q).sortQueue = q := by
  unfold sortQueue withSortQueue
  dsimp only
  split <;> rfl

/-- Outside recovery it is the regular one. -/
theorem withSortQueue_eq {inst : Instance} (hstate : inst.membState ≠ .recovery) (q : Sq Mcast) :
    inst.withSortQueue q = { inst with regularSortQueue := q } := by
  unfold withSortQueue
  rw [if_neg hstate, if_neg hstate]

/-- The node after it numbered and sent `messages`. -/
def numbered (inst : Instance) (q : Sq Mcast) (rest : CsQueue Mcast) (messages : List Mcast)
    (high : ℕ) : Instance :=
  { (inst.withSortQueue q).withMcastQueue rest with
    mcastSent := inst.mcastSent ++ messages
    myHighSeqReceived := high }

/-- Numbered messages outside recovery. -/
theorem numbered_eq {inst : Instance} (hstate : inst.membState ≠ .recovery) (q : Sq Mcast)
    (rest : CsQueue Mcast) (messages : List Mcast) (high : ℕ) :
    inst.numbered q rest messages high = { inst.withMcastQueue rest with
      regularSortQueue := q
      mcastSent := inst.mcastSent ++ messages
      myHighSeqReceived := high } := by
  unfold numbered
  rw [withSortQueue_eq hstate]
  rfl

/-- The sort queue with the numbered messages. -/
@[simp] theorem numbered_sortQueue (inst : Instance) (q : Sq Mcast) (rest : CsQueue Mcast)
    (messages : List Mcast) (high : ℕ) : (inst.numbered q rest messages high).sortQueue = q :=
  withSortQueue_sortQueue inst q

/-- The queue without the numbered messages. -/
@[simp] theorem numbered_mcastQueue (inst : Instance) (q : Sq Mcast) (rest : CsQueue Mcast)
    (messages : List Mcast) (high : ℕ) :
    (inst.numbered q rest messages high).mcastQueue = rest := by
  unfold mcastQueue numbered withMcastQueue withSortQueue
  dsimp only
  split
  · rfl
  · rename_i hstate
    split <;> simp_all

/-- No message is numbered. -/
theorem numbered_nil (inst : Instance) :
    inst.numbered inst.sortQueue inst.mcastQueue [] inst.myHighSeqReceived = inst := by
  obtain ⟨messages, ⟨new, trans, retrans, waiting⟩, flow, token, arus, memb⟩ := inst
  unfold numbered withMcastQueue withSortQueue sortQueue mcastQueue
  by_cases hstate : memb.membState = .recovery <;> cases waiting <;> simp [hstate]

/-- Messages are numbered one after the other. -/
theorem numbered_numbered (inst : Instance) (q q' : Sq Mcast) (rest rest' : CsQueue Mcast)
    (first second : List Mcast) (high high' : ℕ) :
    (inst.numbered q rest first high).numbered q' rest' second high' =
      inst.numbered q' rest' (first ++ second) high' := by
  unfold numbered withMcastQueue withSortQueue
  dsimp only
  rw [append_assoc]
  by_cases hstate : inst.membState = .recovery <;> by_cases hwait : inst.waitingTransAck = true <;>
    simp [hstate, hwait]

end Instance

end Corosync.Totemsrp
