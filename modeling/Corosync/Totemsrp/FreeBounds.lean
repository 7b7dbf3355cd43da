import Corosync.SqSerial
import Corosync.Totemsrp.Instance

/-!
# What an arbitrary token lets `messages_free` release

`messages_free` runs before the ring of a token is looked at, so the aru of the token may be any
number. The three comparisons that look for the earliest of the aru, `my_last_aru` and
`my_high_delivered` are made against that number, and `sq_lt_compare` is not an order on numbers
that are far apart. Here every case is followed, across `0x80000000` and the wrap.
-/

namespace Corosync.Totemsrp

variable {inst inst' : Instance} {tokenAru : ℕ}

/-- The three numbers lie in one window of the sort queue, `last_released` first, and the queue
starts behind `last_released`. -/
structure ReleaseWindow (inst : Instance) : Prop where
  lastReleased_lt : inst.lastReleased < 2 ^ 32
  myLastAru_lt : inst.myLastAru < 2 ^ 32
  myHighDelivered_lt : inst.myHighDelivered < 2 ^ 32
  myLastAru_near : usub inst.myLastAru inst.lastReleased < queueRtrItemsSizeMax
  myHighDelivered_near : usub inst.myHighDelivered inst.lastReleased < queueRtrItemsSizeMax
  size : inst.regularSortQueue.size = queueRtrItemsSizeMax
  head : inst.regularSortQueue.headSeqid = uadd inst.lastReleased 1

/-- `last_released` moved forward, by no more than to `my_last_aru` and to `my_high_delivered`, and
the sort queue followed it. -/
structure FreedWithin (inst inst' : Instance) : Prop where
  myLastAru_le : usub inst'.lastReleased inst.lastReleased ≤
    usub inst.myLastAru inst.lastReleased
  myHighDelivered_le : usub inst'.lastReleased inst.lastReleased ≤
    usub inst.myHighDelivered inst.lastReleased
  head : inst'.regularSortQueue.headSeqid = uadd inst'.lastReleased 1

/-- The aru of a token that is found before `my_last_aru` and behind `my_high_delivered`, although
`my_last_aru` comes first: the comparison is made with the adjusted numbers for one of the two and
not for the other, or the adjustment wraps for one of the two. -/
def Misplaced (myLastAru myHighDelivered tokenAru : ℕ) : Prop :=
  (myLastAru < 2 ^ 16 ∧ 2 ^ 16 ≤ myHighDelivered ∧ 2 ^ 31 < tokenAru) ∨
    (myLastAru ≤ 2 ^ 31 ∧ 2 ^ 31 < myHighDelivered ∧ tokenAru < 2 ^ 16) ∨
    (2 ^ 31 < myLastAru ∧ myHighDelivered < 2 ^ 16 ∧ 2 ^ 16 ≤ tokenAru ∧ tokenAru ≤ 2 ^ 31)

/-- `sq_lt_compare` is the order of the natural numbers but for a number of the lowest `0x10000` and
one past the rollover point: the high one is taken to come first. -/
theorem sqLtCompare_eq_true_iff {a b : ℕ} (ha : a < 2 ^ 32) (hb : b < 2 ^ 32) :
    sqLtCompare a b = true ↔ (a < b ∧ ¬(a < 2 ^ 16 ∧ 2 ^ 31 < b)) ∨ (2 ^ 31 < a ∧ b < 2 ^ 16) := by
  unfold sqLtCompare adjustRolloverPoint adjustRolloverValue usub
  split <;> rw [decide_eq_true_iff] <;> omega

/-- A distance is an ordinary one, or the wrap lies between the two numbers. -/
theorem usub_cases {a b : ℕ} (ha : a < 2 ^ 32) (hb : b < 2 ^ 32) :
    a = b + usub a b ∨ a + 2 ^ 32 = b + usub a b := by
  unfold usub
  omega

/-- The number that is released to, when it is not before `last_released`, lies in the window and
is not past `my_high_delivered`. It is past `my_last_aru` exactly for a misplaced aru. -/
theorem releaseTo_cases (hwindow : ReleaseWindow inst) (haru : tokenAru < 2 ^ 32)
    (hforward : ¬sqLtCompare (releaseTo inst tokenAru) inst.lastReleased = true) :
    usub (releaseTo inst tokenAru) inst.lastReleased ≤ usub inst.myHighDelivered inst.lastReleased ∧
      (usub inst.myLastAru inst.lastReleased <
          usub (releaseTo inst tokenAru) inst.lastReleased ↔
        usub inst.myLastAru inst.lastReleased < usub inst.myHighDelivered inst.lastReleased ∧
          Misplaced inst.myLastAru inst.myHighDelivered tokenAru) := by
  obtain ⟨hreleased, hlast, hdelivered, hlastNear, hdeliveredNear, -, -⟩ := hwindow
  have hmax : queueRtrItemsSizeMax = 2 ^ 14 := rfl
  have hlastCases := usub_cases hlast hreleased
  have hdeliveredCases := usub_cases hdelivered hreleased
  have haruCases := usub_cases haru hreleased
  have haruLt := usub_lt tokenAru inst.lastReleased
  unfold releaseTo at *
  unfold Misplaced
  by_cases hltAru : sqLtCompare inst.myLastAru tokenAru = true
  · simp only [if_pos hltAru] at hforward ⊢
    rw [sqLtCompare_eq_true_iff hlast haru] at hltAru
    by_cases hltLast : sqLtCompare inst.myHighDelivered inst.myLastAru = true
    · simp only [if_pos hltLast] at hforward ⊢
      rw [sqLtCompare_eq_true_iff hdelivered hlast] at hltLast
      omega
    · simp only [if_neg hltLast] at hforward ⊢
      rw [sqLtCompare_eq_true_iff hdelivered hlast] at hltLast
      omega
  · simp only [if_neg hltAru] at hforward ⊢
    rw [sqLtCompare_eq_true_iff hlast haru] at hltAru
    by_cases hltDelivered : sqLtCompare inst.myHighDelivered tokenAru = true
    · simp only [if_pos hltDelivered] at hforward ⊢
      rw [sqLtCompare_eq_true_iff hdelivered haru] at hltDelivered
      omega
    · simp only [if_neg hltDelivered] at hforward ⊢
      rw [sqLtCompare_eq_true_iff hdelivered haru] at hltDelivered
      rw [sqLtCompare_eq_true_iff haru hreleased] at hforward
      omega

/-- A misplaced aru does not stop the release before it starts. -/
theorem not_releaseTo_before (hwindow : ReleaseWindow inst) (haru : tokenAru < 2 ^ 32)
    (hbefore : usub inst.myLastAru inst.lastReleased < usub inst.myHighDelivered inst.lastReleased)
    (hmisplaced : Misplaced inst.myLastAru inst.myHighDelivered tokenAru) :
    ¬sqLtCompare (releaseTo inst tokenAru) inst.lastReleased = true := by
  obtain ⟨hreleased, hlast, hdelivered, hlastNear, hdeliveredNear, -, -⟩ := hwindow
  have hmax : queueRtrItemsSizeMax = 2 ^ 14 := rfl
  have hlastCases := usub_cases hlast hreleased
  have hdeliveredCases := usub_cases hdelivered hreleased
  unfold Misplaced at hmisplaced
  have hltAru : ¬sqLtCompare inst.myLastAru tokenAru = true := by
    rw [sqLtCompare_eq_true_iff hlast haru]
    omega
  have hltDelivered : sqLtCompare inst.myHighDelivered tokenAru = true := by
    rw [sqLtCompare_eq_true_iff hdelivered haru]
    omega
  simp only [releaseTo, if_neg hltAru, if_pos hltDelivered]
  rw [sqLtCompare_eq_true_iff hdelivered hreleased]
  omega

/-- The loop of `messages_free` moves the head of the sort queue, whatever the queue holds. -/
theorem releaseItems_serial (count : ℕ) {q : Sq Mcast} (hsize : q.size ≤ 2 ^ 16)
    (hhead : q.headSeqid < 2 ^ 32) :
    ∃ q', releaseItems count q.headSeqid q = some q' ∧ q'.headSeqid = uadd q.headSeqid count := by
  induction count generalizing q with
  | zero => exact ⟨q, rfl, (Nat.mod_eq_of_lt hhead).symm⟩
  | succ count ih =>
    have hwin : usub q.headSeqid q.headSeqid < q.size := by
      have hpos := q.sizePos
      unfold usub
      omega
    obtain ⟨q', hloop, hhead'⟩ := @ih (q.itemsRelease q.headSeqid) hsize (uadd_lt _ _)
    refine ⟨q', ?_, ?_⟩
    · rw [releaseItems, Sq.itemGet_serial hsize hhead hwin]
      exact hloop
    · rw [hhead']
      change uadd (uadd q.headSeqid 1) count = uadd q.headSeqid (count + 1)
      unfold uadd
      omega

/-- `messages_free` returns: its assertion holds for the aru of any token. -/
theorem messagesFree_serial (hwindow : ReleaseWindow inst) (haru : tokenAru < 2 ^ 32) :
    ∃ inst', messagesFree inst tokenAru = some inst' ∧
      inst'.regularSortQueue.headSeqid = uadd inst'.lastReleased 1 ∧
      inst'.lastReleased =
        if sqLtCompare (releaseTo inst tokenAru) inst.lastReleased then inst.lastReleased
        else uadd inst.lastReleased (usub (releaseTo inst tokenAru) inst.lastReleased) := by
  unfold messagesFree
  by_cases hback : sqLtCompare (releaseTo inst tokenAru) inst.lastReleased = true
  · simp only [if_pos hback]
    exact ⟨inst, rfl, hwindow.head, rfl⟩
  simp only [if_neg hback]
  have hle := (releaseTo_cases hwindow haru hback).1
  have hrange : usub (releaseTo inst tokenAru) inst.lastReleased < queueRtrItemsSizeMax :=
    Nat.lt_of_le_of_lt hle hwindow.myHighDelivered_near
  have hsize : inst.regularSortQueue.size ≤ 2 ^ 16 := by
    rw [hwindow.size]
    decide
  obtain ⟨queue, hloop, hhead⟩ := releaseItems_serial
    (usub (releaseTo inst tokenAru) inst.lastReleased) hsize
    (hwindow.head ▸ uadd_lt inst.lastReleased 1)
  rw [hwindow.head] at hloop hhead
  refine ⟨{ inst with
    regularSortQueue := queue
    lastReleased := uadd inst.lastReleased (usub (releaseTo inst tokenAru) inst.lastReleased) },
    ?_, ?_, rfl⟩
  · rw [assertThat_bind_of_true hrange, hloop]
    rfl
  · rw [hhead]
    change uadd (uadd inst.lastReleased 1) _ = uadd (uadd inst.lastReleased _) 1
    unfold uadd
    omega

/-- For the aru of any token `messages_free` returns and releases forward, not past
`my_high_delivered` and with the sort queue behind it. It stays within `my_last_aru` exactly when
the aru is not misplaced. -/
theorem messages_free_bounded_iff (inst : Instance) (tokenAru : ℕ) (hwindow : ReleaseWindow inst)
    (haru : tokenAru < 2 ^ 32) :
    (∃ inst', messagesFree inst tokenAru = some inst' ∧ FreedWithin inst inst') ↔
      ¬(usub inst.myLastAru inst.lastReleased < usub inst.myHighDelivered inst.lastReleased ∧
        Misplaced inst.myLastAru inst.myHighDelivered tokenAru) := by
  obtain ⟨inst', hfree, hhead, hreleased⟩ := messagesFree_serial hwindow haru
  have hself : usub inst.lastReleased inst.lastReleased = 0 := by
    unfold usub
    omega
  have hmoved : usub (uadd inst.lastReleased (usub (releaseTo inst tokenAru) inst.lastReleased))
      inst.lastReleased = usub (releaseTo inst tokenAru) inst.lastReleased := by
    have hlt := usub_lt (releaseTo inst tokenAru) inst.lastReleased
    generalize usub (releaseTo inst tokenAru) inst.lastReleased = distance at *
    unfold usub uadd
    omega
  by_cases hback : sqLtCompare (releaseTo inst tokenAru) inst.lastReleased = true
  · -- nothing is released
    rw [if_pos hback] at hreleased
    constructor
    · rintro - ⟨hbefore, hmisplaced⟩
      exact not_releaseTo_before hwindow haru hbefore hmisplaced hback
    · intro _
      refine ⟨inst', hfree, ?_, ?_, hhead⟩ <;> rw [hreleased, hself] <;> exact Nat.zero_le _
  · rw [if_neg hback] at hreleased
    obtain ⟨hdelivered, hlast⟩ := releaseTo_cases hwindow haru hback
    rw [← hlast, Nat.not_lt]
    constructor
    · rintro ⟨other, hother, hwithin⟩
      obtain rfl := Option.some.inj (hother.symm.trans hfree)
      have hle := hwithin.myLastAru_le
      rwa [hreleased, hmoved] at hle
    · intro hle
      refine ⟨inst', hfree, ?_, ?_, hhead⟩ <;> rw [hreleased, hmoved]
      · exact hle
      · exact hdelivered

/-- A node that was started with the given numbers. -/
def releasing (lastReleased myLastAru myHighDelivered : ℕ) : Instance :=
  { Instance.totemsrpInitialize ⟨17, 50, 5, 2500⟩ 1 exampleQueueMax exampleQueueMax_pos with
    regularSortQueue := .init queueRtrItemsSizeMax (uadd lastReleased 1) queueRtrItemsSizeMax_pos
    lastReleased := lastReleased
    myLastAru := myLastAru
    myHighDelivered := myHighDelivered }

/-- A window across the wrap. -/
theorem messages_free_bounded_iff_wrap :
    (∃ inst', messagesFree (releasing 0xFFFFFFFE 3 2) 1 = some inst' ∧
        FreedWithin (releasing 0xFFFFFFFE 3 2) inst') ↔
      ¬(usub 3 0xFFFFFFFE < usub 2 0xFFFFFFFE ∧ Misplaced 3 2 1) :=
  messages_free_bounded_iff (releasing 0xFFFFFFFE 3 2) 1
    ⟨by decide, by decide, by decide, by decide, by decide, rfl, rfl⟩ (by decide)

/-- With `my_last_aru` below `0x10000` and `my_high_delivered` above it, the aru of an old token
past the rollover point releases a message that `my_last_aru` does not cover. -/
theorem old_aru_released_past_last_aru :
    ReleaseWindow (releasing 0xFFFE 0xFFFF 0x10000) ∧
      ∃ inst', messagesFree (releasing 0xFFFE 0xFFFF 0x10000) 0x90000000 = some inst' ∧
        ¬FreedWithin (releasing 0xFFFE 0xFFFF 0x10000) inst' := by
  refine ⟨⟨by decide, by decide, by decide, by decide, by decide, rfl, rfl⟩, _, rfl, ?_⟩
  intro hwithin
  exact absurd hwithin.myLastAru_le (by decide)

end Corosync.Totemsrp
