import Corosync.Sq

/-!
# The window of a sort queue

While the window of a sort queue ends below the `2 ^ 32` wrap, the queue is a partial map from the
sequence numbers of its window to items. This module gives each operation its effect on that map.
-/

namespace Corosync

namespace Sq

variable {α : Type} {q : Sq α} {s t : ℕ}

/-- Sequence numbers the queue has a slot for. -/
def InWindow (q : Sq α) (s : ℕ) : Prop :=
  q.headSeqid ≤ s ∧ s < q.headSeqid + q.size

/-- The queue holds an item for a sequence number of its window. -/
def Has (q : Sq α) (s : ℕ) : Prop :=
  q.InWindow s ∧ q.itemsInuse (q.position s) ≠ 0

/-- The window ends below the wrap and is short enough for the comparisons. -/
structure Fits (q : Sq α) : Prop where
  size_le : q.size ≤ 2 ^ 16
  end_lt : q.headSeqid + q.size < 2 ^ 32

/-- A number that is there has an item. -/
theorem Has.item?_eq (hhas : q.Has s) : ∃ x, q.item? s = some x := by
  have hsome := q.inuseItem _ hhas.2
  obtain ⟨x, hx⟩ := Option.isSome_iff_exists.mp hsome
  exact ⟨x, by simp [item?, hhas.2, hx]⟩

/-- Nothing is read for a number of the window that is not held. -/
theorem item?_eq_none (hwin : q.InWindow s) (hhas : ¬q.Has s) : q.item? s = none := by
  have hzero : q.itemsInuse (q.position s) = 0 := by
    by_contra hne
    exact hhas ⟨hwin, hne⟩
  simp [item?, hzero]

/-- The slot of a number in the window. -/
theorem position_eq (hfit : q.Fits) (hwin : q.InWindow s) :
    q.position s = (q.head + (s - q.headSeqid)) % q.size := by
  have hhead := q.headLt
  have hsize := hfit.size_le
  have hend := hfit.end_lt
  obtain ⟨hlow, hhigh⟩ := hwin
  have hsum : usub (q.head + s) q.headSeqid = q.head + (s - q.headSeqid) := by
    unfold usub
    omega
  rw [position, hsum]

/-- Two offsets below the size that reach one slot are equal. -/
theorem offset_inj {head size i j : ℕ} (hi : i < size) (hj : j < size)
    (heq : (head + i) % size = (head + j) % size) : i = j := by
  have hmod : i ≡ j [MOD size] := Nat.ModEq.add_left_cancel' head heq
  rwa [Nat.ModEq, Nat.mod_eq_of_lt hi, Nat.mod_eq_of_lt hj] at hmod

/-- Different numbers of the window have different slots. -/
theorem position_inj (hfit : q.Fits) (hs : q.InWindow s) (ht : q.InWindow t)
    (heq : q.position s = q.position t) : s = t := by
  rw [position_eq hfit hs, position_eq hfit ht] at heq
  obtain ⟨hslow, hshigh⟩ := hs
  obtain ⟨htlow, hthigh⟩ := ht
  have hoff : s - q.headSeqid = t - q.headSeqid := offset_inj (by omega) (by omega) heq
  omega

/-- Every slot belongs to a number of the window. -/
theorem exists_position (hfit : q.Fits) {pos : ℕ} (hpos : pos < q.size) :
    ∃ t, q.InWindow t ∧ q.position t = pos := by
  have hhead := q.headLt
  have hoff : (pos + q.size - q.head) % q.size < q.size := Nat.mod_lt _ q.sizePos
  have hwin : q.InWindow (q.headSeqid + (pos + q.size - q.head) % q.size) :=
    ⟨Nat.le_add_right .., by omega⟩
  refine ⟨_, hwin, ?_⟩
  rw [position_eq hfit hwin, Nat.add_sub_cancel_left, Nat.add_mod_mod,
    Nat.add_sub_cancel' (by omega), Nat.add_mod_right, Nat.mod_eq_of_lt hpos]

/-- Whatever is read is held under some number of the window. -/
theorem exists_has_of_item? (hfit : q.Fits) {x : α} (hitem : q.item? s = some x) :
    ∃ t, q.Has t ∧ q.item? t = some x := by
  obtain ⟨t, hwin, hpos⟩ := exists_position hfit (Nat.mod_lt (usub (q.head + s) q.headSeqid)
    q.sizePos)
  have hsame : q.item? t = q.item? s := by
    unfold item?
    rw [hpos]
    rfl
  rw [hitem] at hsame
  refine ⟨t, ⟨hwin, fun hzero => ?_⟩, hsame⟩
  simp [item?, hzero] at hsame

/-- `sq_in_range` accepts exactly the numbers of the window. -/
theorem inRange_iff (hfit : q.Fits) (hs : s < 2 ^ 32) : q.inRange s = true ↔ q.InWindow s := by
  have hsize := hfit.size_le
  have hend := hfit.end_lt
  unfold inRange InWindow adjustRolloverPoint adjustRolloverValue
  split
  · simp only [Bool.and_eq_true, Bool.not_eq_true', decide_eq_false_iff_not]
    unfold uadd usub
    omega
  · simp only [Bool.and_eq_true, Bool.not_eq_true', decide_eq_false_iff_not]
    unfold uadd
    omega

/-- Reading below the end of the window passes the assertion of `sq_item_get`. -/
theorem itemGet_eq (hfit : q.Fits) (hs : s < q.headSeqid + q.size) :
    q.itemGet s = some (q.item? s) := by
  have hsize := hfit.size_le
  have hend := hfit.end_lt
  have hassert : q.getAsserted s = true := by
    unfold getAsserted adjustRolloverPoint
    split
    · rw [decide_eq_true_iff]
      unfold uadd usub
      omega
    · rw [decide_eq_true_iff]
      unfold uadd
      omega
  rw [itemGet_def, assertThat_bind_of_true hassert]
  rfl

/-- What `sq_item_inuse` answers inside the window. -/
theorem itemInuse_iff (hwin : q.InWindow s) : q.itemInuse s = true ↔ q.Has s := by
  simp [itemInuse, Has, hwin]

/-- `sq_item_add` succeeds on a number of the window that is not held. -/
theorem itemAdd_eq (hwin : q.InWindow s) (hfree : ¬q.Has s) (x : α) :
    q.itemAdd x s = some (q.fill (q.position s) s x) := by
  have hzero : q.itemsInuse (q.position s) = 0 := by
    by_contra hne
    exact hfree ⟨hwin, hne⟩
  rw [itemAdd, assertThat_bind_of_true hzero]
  rfl

/-- Filling a slot leaves the window where it is. -/
@[simp] theorem fill_headSeqid (pos seqid : ℕ) (x : α) :
    (q.fill pos seqid x).headSeqid = q.headSeqid := rfl

/-- Filling a slot leaves the size as it is. -/
@[simp] theorem fill_size (pos seqid : ℕ) (x : α) : (q.fill pos seqid x).size = q.size := rfl

/-- Filling a slot leaves the slots where they are. -/
@[simp] theorem fill_position (pos seqid : ℕ) (x : α) (t : ℕ) :
    (q.fill pos seqid x).position t = q.position t := rfl

/-- Filling a slot leaves the window as it is. -/
@[simp] theorem fill_inWindow (pos seqid : ℕ) (x : α) (t : ℕ) :
    (q.fill pos seqid x).InWindow t ↔ q.InWindow t := Iff.rfl

/-- A queue that fits stays so. -/
theorem Fits.fill (hfit : q.Fits) (pos seqid : ℕ) (x : α) : (q.fill pos seqid x).Fits :=
  ⟨hfit.size_le, hfit.end_lt⟩

/-- A filled slot has its number. -/
theorem has_fill (hfit : q.Fits) (hwin : q.InWindow s) (x : α) :
    (q.fill (q.position s) s x).Has t ↔ t = s ∨ q.Has t := by
  unfold Has
  rw [fill_inWindow, fill_position]
  by_cases hts : t = s
  · subst hts
    have hne : (if t = 0 then 1 else t) ≠ 0 := by
      split <;> omega
    simp [hwin, fill, hne]
  · refine ⟨fun ⟨hwin', hinuse⟩ => Or.inr ⟨hwin', ?_⟩, ?_⟩
    · have hpos : q.position t ≠ q.position s := fun heq => hts (position_inj hfit hwin' hwin heq)
      simpa only [fill, Function.update_of_ne hpos] using hinuse
    · rintro (heq | ⟨hwin', hinuse⟩)
      · exact absurd heq hts
      · have hpos : q.position t ≠ q.position s :=
          fun heq => hts (position_inj hfit hwin' hwin heq)
        exact ⟨hwin', by simpa only [fill, Function.update_of_ne hpos] using hinuse⟩

/-- A filled slot has its item. -/
theorem item?_fill_self (x : α) : (q.fill (q.position s) s x).item? s = some x := by
  have hne : (if s = 0 then 1 else s) ≠ 0 := by
    split <;> omega
  unfold item?
  rw [fill_position]
  simp [fill, hne]

/-- Adding an item leaves what is read under the other numbers of the window. -/
theorem item?_fill_of_ne (hfit : q.Fits) (hs : q.InWindow s) (ht : q.InWindow t) (hne : t ≠ s)
    (x : α) : (q.fill (q.position s) s x).item? t = q.item? t := by
  have hpos : q.position t ≠ q.position s := fun heq => hne (position_inj hfit ht hs heq)
  unfold item?
  rw [fill_position]
  simp only [fill, Function.update_of_ne hpos]

/-- The offset of `seqid` behind the head, as `sq_items_release` computes it. -/
theorem releaseCount_eq {r : ℕ} (hlow : q.headSeqid ≤ r + 1) (hr : r + 1 < 2 ^ 32) :
    uadd (usub r q.headSeqid) 1 = r + 1 - q.headSeqid := by
  unfold uadd usub
  omega

/-- The slots that `sq_items_release` clears are those of the first `n` offsets. -/
theorem releasedInuse_count_iff {r n pos : ℕ} (hsize : q.size ≤ 2 ^ 16)
    (hcount : uadd (usub r q.headSeqid) 1 = n) (hn : n ≤ q.size) (hpos : pos < q.size) :
    q.releasedInuse r pos ≠ 0 ↔ q.itemsInuse pos ≠ 0 ∧ ∀ k < n, pos ≠ (q.head + k) % q.size := by
  have hhead := q.headLt
  have hsum : uadd q.head n = q.head + n := uadd_of_lt (by omega)
  unfold releasedInuse
  simp only [hcount, hsum]
  split
  · rename_i hwrap
    have hmod : (q.head + n) % q.size = q.head + n - q.size := by
      rw [Nat.mod_eq_sub_mod (by omega), Nat.mod_eq_of_lt (by omega)]
    rw [clear_ne_zero, clear_ne_zero, and_assoc, hmod]
    refine and_congr_right fun _ => ⟨?_, ?_⟩
    · rintro ⟨hfirst, hsecond⟩ k hk heq
      by_cases hlt : q.head + k < q.size
      · rw [Nat.mod_eq_of_lt hlt] at heq
        omega
      · rw [Nat.mod_eq_sub_mod (by omega), Nat.mod_eq_of_lt (by omega)] at heq
        omega
    · intro hnot
      constructor
      · intro hin
        refine hnot (pos - q.head) (by omega) ?_
        rw [Nat.add_sub_cancel' hin.1, Nat.mod_eq_of_lt hpos]
      · intro hin
        refine hnot (pos + q.size - q.head) (by omega) ?_
        rw [Nat.add_sub_cancel' (by omega), Nat.add_mod_right, Nat.mod_eq_of_lt hpos]
  · rename_i hnowrap
    rw [clear_ne_zero]
    refine and_congr_right fun _ => ⟨?_, ?_⟩
    · intro hout k hk heq
      rw [Nat.mod_eq_of_lt (by omega)] at heq
      omega
    · intro hnot hin
      refine hnot (pos - q.head) (by omega) ?_
      rw [Nat.add_sub_cancel' hin.1, Nat.mod_eq_of_lt hpos]

/-- Below the wrap the released offsets are those up to `r`. -/
theorem releasedInuse_iff (hfit : q.Fits) {r pos : ℕ} (hlow : q.headSeqid ≤ r + 1)
    (hhigh : r + 1 ≤ q.headSeqid + q.size) (hpos : pos < q.size) :
    q.releasedInuse r pos ≠ 0 ↔
      q.itemsInuse pos ≠ 0 ∧ ∀ k < r + 1 - q.headSeqid, pos ≠ (q.head + k) % q.size := by
  have hend := hfit.end_lt
  exact releasedInuse_count_iff hfit.size_le (releaseCount_eq hlow (by omega)) (by omega) hpos

section Release

variable {r : ℕ}

/-- A release moves the window. -/
theorem itemsRelease_headSeqid (hr : r + 1 < 2 ^ 32) : (q.itemsRelease r).headSeqid = r + 1 :=
  uadd_of_lt hr

/-- A release leaves the size as it is. -/
@[simp] theorem itemsRelease_size : (q.itemsRelease r).size = q.size := rfl

/-- A queue that fits stays so after a release. -/
theorem Fits.itemsRelease (hfit : q.Fits) (hr : r + 1 + q.size < 2 ^ 32) :
    (q.itemsRelease r).Fits :=
  ⟨hfit.size_le, by rw [itemsRelease_headSeqid (by omega), itemsRelease_size]; exact hr⟩

section

variable (hfit : q.Fits) (hlow : q.headSeqid ≤ r + 1) (hhigh : r + 1 ≤ q.headSeqid + q.size)
  (hend : r + 1 + q.size < 2 ^ 32)

include hfit hlow hhigh hend

/-- A release keeps the slots of the numbers of the window, counted from the old head. -/
theorem itemsRelease_position (hs : (q.itemsRelease r).InWindow s) :
    (q.itemsRelease r).position s = (q.head + (s - q.headSeqid)) % q.size := by
  have hseqid := itemsRelease_headSeqid (q := q) (r := r) (by omega)
  have hhead : (q.itemsRelease r).head = (q.head + (r + 1 - q.headSeqid)) % q.size := by
    have hlt := q.headLt
    have hsize := hfit.size_le
    have hcount := releaseCount_eq hlow (by omega)
    have hsum : uadd q.head (r + 1 - q.headSeqid) = q.head + (r + 1 - q.headSeqid) :=
      uadd_of_lt (by omega)
    simp only [itemsRelease, hcount, hsum]
  rw [position_eq (hfit.itemsRelease hend) hs, hseqid, itemsRelease_size, hhead, Nat.mod_add_mod]
  obtain ⟨hslow, -⟩ := hs
  rw [hseqid] at hslow
  congr 1
  omega

/-- After a release up to `r` the queue holds what it held behind `r`. -/
theorem has_itemsRelease : (q.itemsRelease r).Has s ↔ r < s ∧ q.Has s := by
  have hseqid := itemsRelease_headSeqid (q := q) (r := r) (by omega)
  constructor
  · rintro ⟨hwin, hinuse⟩
    have hpos := itemsRelease_position hfit hlow hhigh hend hwin
    obtain ⟨hslow, hshigh⟩ := hwin
    rw [hseqid] at hslow hshigh
    rw [itemsRelease_size] at hshigh
    have hslot : (q.head + (s - q.headSeqid)) % q.size < q.size := Nat.mod_lt _ q.sizePos
    rw [hpos] at hinuse
    obtain ⟨hold, hkept⟩ := (releasedInuse_iff hfit hlow hhigh hslot).mp hinuse
    have hswin : q.InWindow s := by
      refine ⟨by omega, ?_⟩
      by_contra hout
      -- a number past the old window shares its slot with the one `size` before it
      refine hkept (s - q.headSeqid - q.size) (by omega) ?_
      conv_lhs => rw [show s - q.headSeqid = s - q.headSeqid - q.size + q.size by omega]
      rw [← Nat.add_assoc, Nat.add_mod_right]
    refine ⟨by omega, hswin, ?_⟩
    rwa [position_eq hfit hswin]
  · rintro ⟨hrs, hswin, hinuse⟩
    have hwin : (q.itemsRelease r).InWindow s := by
      rw [InWindow, hseqid, itemsRelease_size]
      exact ⟨by omega, by have := hswin.2; omega⟩
    refine ⟨hwin, ?_⟩
    rw [itemsRelease_position hfit hlow hhigh hend hwin]
    rw [position_eq hfit hswin] at hinuse
    refine (releasedInuse_iff hfit hlow hhigh (Nat.mod_lt _ q.sizePos)).mpr ⟨hinuse, ?_⟩
    intro k hk heq
    obtain ⟨hslow, hshigh⟩ := hswin
    have hoff : s - q.headSeqid = k := offset_inj (by omega) (by omega) heq
    omega

/-- A release does not change what is read under the numbers it keeps. -/
theorem item?_itemsRelease (hrs : r < s) (hswin : q.InWindow s) :
    (q.itemsRelease r).item? s = q.item? s := by
  have hseqid := itemsRelease_headSeqid (q := q) (r := r) (by omega)
  have hwin : (q.itemsRelease r).InWindow s := by
    rw [InWindow, hseqid, itemsRelease_size]
    exact ⟨by omega, by have := hswin.2; omega⟩
  have hpos : (q.itemsRelease r).position s = q.position s := by
    rw [itemsRelease_position hfit hlow hhigh hend hwin, position_eq hfit hswin]
  have hsame : (q.itemsRelease r).Has s ↔ q.Has s := by
    rw [has_itemsRelease hfit hlow hhigh hend]
    exact and_iff_right hrs
  by_cases hhas : q.Has s
  · have hnew := (hsame.mpr hhas).2
    have hold := hhas.2
    rw [hpos] at hnew
    simp only [item?, hpos, hnew, hold, if_false]
    rfl
  · rw [item?_eq_none hswin hhas, item?_eq_none hwin (fun h => hhas (hsame.mp h))]

end

end Release

end Sq

end Corosync
