import Mathlib.Algebra.Order.BigOperators.Group.List
import Mathlib.Algebra.Order.Group.Nat
import Mathlib.Algebra.Ring.Nat

/-!
# Items on pages

Items are put one behind the other on pages of one size. An item goes on over the end of a page. It
ends its page if it would fill a page alone, or if hardly anything would be left of the page.
-/

namespace Corosync.Library

variable {size margin place len stop : ℕ}

/-- The next end of a page. -/
def pageEnd (size stop : ℕ) : ℕ := (stop + size - 1) / size * size

/-- Where an item of some length ends that reaches up to `stop`. -/
def itemEnd (size margin len stop : ℕ) : ℕ :=
  if len + margin < size ∧ stop % size + margin < size then stop else pageEnd size stop

/-- Where the last of some items ends. -/
def itemsEnd (size margin place : ℕ) (lens : List ℕ) : ℕ :=
  lens.foldl (fun place len => itemEnd size margin len (place + len)) place

/-- The ends of the pages repeat with their size. -/
theorem pageEnd_add_size (hsize : 0 < size) (stop : ℕ) :
    pageEnd size (stop + size) = pageEnd size stop + size := by
  unfold pageEnd
  rw [show stop + size + size - 1 = stop + size - 1 + size by omega, Nat.add_div_right _ hsize,
    Nat.succ_mul]

/-- Everything on the first page ends there. -/
theorem pageEnd_of_le (hpos : 0 < stop) (hle : stop ≤ size) : pageEnd size stop = size := by
  have hone : (stop + size - 1) / size = 1 := by
    rw [Nat.div_eq_iff (by omega)]
    omega
  rw [pageEnd, hone, Nat.one_mul]

/-- One page later an item ends one page later. -/
theorem itemEnd_add_size (hsize : 0 < size) (margin len stop : ℕ) :
    itemEnd size margin len (stop + size) = itemEnd size margin len stop + size := by
  unfold itemEnd
  rw [Nat.add_mod_right, pageEnd_add_size hsize]
  split <;> rfl

/-- Items behind a page do not depend on it. -/
theorem itemsEnd_add_size (hsize : 0 < size) (margin place : ℕ) (lens : List ℕ) :
    itemsEnd size margin (place + size) lens = itemsEnd size margin place lens + size := by
  induction lens generalizing place with
  | nil => rfl
  | cons len _ ih =>
    simp only [itemsEnd, List.foldl_cons] at ih ⊢
    rw [Nat.add_right_comm, itemEnd_add_size hsize, ih]

/-- A short item leaves less than `margin` bytes free, and only at the end of a page. -/
theorem itemEnd_le_of_short (hlen : len + margin < size) (place : ℕ) :
    itemEnd size margin len (place + len) + margin * (place / size) ≤
      place + len + margin * (itemEnd size margin len (place + len) / size) := by
  have hdiv : place / size ≤ (place + len) / size := Nat.div_le_div_right (Nat.le_add_right _ _)
  have hmul := Nat.mul_le_mul_left margin hdiv
  unfold itemEnd
  split
  · omega
  · rename_i hround
    have hmod : size ≤ (place + len) % size + margin := by
      by_contra hroom
      exact hround ⟨hlen, by omega⟩
    have hlt := Nat.mod_lt (place + len) (show 0 < size by omega)
    have hsplit := Nat.div_add_mod (place + len) size
    have hnext : (place + len + size - 1) / size = (place + len) / size + 1 := by
      rw [Nat.div_eq_iff (by omega)]
      constructor
      · rw [Nat.add_mul, Nat.mul_comm]
        omega
      · rw [Nat.add_mul, Nat.mul_comm]
        omega
    have hpage : pageEnd size (place + len) ≤ place + len + margin := by
      rw [pageEnd, hnext, Nat.add_mul, Nat.mul_comm]
      omega
    have hquot : pageEnd size (place + len) / size = (place + len) / size + 1 := by
      rw [pageEnd, hnext, Nat.mul_div_cancel _ (by omega)]
    rw [hquot, Nat.mul_add]
    omega

/-- Short items fill their pages up to the margin. -/
theorem itemsEnd_le_of_short {lens : List ℕ} (hshort : ∀ len ∈ lens, len + margin < size)
    (place : ℕ) :
    itemsEnd size margin place lens + margin * (place / size) ≤
      place + lens.sum + margin * (itemsEnd size margin place lens / size) := by
  induction lens generalizing place with
  | nil => simp [itemsEnd]
  | cons len _ ih =>
    have hfirst := itemEnd_le_of_short (hshort len List.mem_cons_self) place
    have hrest := ih (fun other hmem => hshort other (List.mem_cons_of_mem _ hmem))
      (itemEnd size margin len (place + len))
    simp only [itemsEnd, List.foldl_cons, List.sum_cons] at hrest ⊢
    omega

/-- Short items that begin on the first page complete as many pages as their bytes fill. -/
theorem mul_div_le_of_short {lens : List ℕ} (hshort : ∀ len ∈ lens, len + margin < size)
    (hplace : place < size) :
    (size - margin) * (itemsEnd size margin place lens / size) ≤ place + lens.sum := by
  have hle := itemsEnd_le_of_short hshort place
  rw [Nat.div_eq_of_lt hplace, Nat.mul_zero, Nat.add_zero] at hle
  have hpages := Nat.mul_div_le (itemsEnd size margin place lens) size
  rw [Nat.sub_mul]
  omega

end Corosync.Library
