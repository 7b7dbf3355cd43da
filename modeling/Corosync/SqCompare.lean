import Corosync.Uint

/-!
# Rollover-safe comparisons

`sq_lt_compare` and `sq_lte_compare` order two sequence numbers. Once either of them is past
`ADJUST_ROLLOVER_POINT` both are shifted down by `ADJUST_ROLLOVER_VALUE`, so that numbers just
before and just after the `2 ^ 32` wrap compare in the order in which they were handed out.
-/

namespace Corosync

/-- `ADJUST_ROLLOVER_POINT`. -/
def adjustRolloverPoint : ℕ := 0x80000000

/-- `ADJUST_ROLLOVER_VALUE`. -/
def adjustRolloverValue : ℕ := 0x10000

/-- `sq_lt_compare`. -/
def sqLtCompare (a b : ℕ) : Bool :=
  if adjustRolloverPoint < a ∨ adjustRolloverPoint < b then
    decide (usub a adjustRolloverValue < usub b adjustRolloverValue)
  else
    decide (a < b)

/-- `sq_lte_compare`. -/
def sqLteCompare (a b : ℕ) : Bool :=
  if adjustRolloverPoint < a ∨ adjustRolloverPoint < b then
    decide (usub a adjustRolloverValue ≤ usub b adjustRolloverValue)
  else
    decide (a ≤ b)

/-- Two unsigned values that the comparisons order as natural numbers: both on the low side of
the rollover point, or both clear of the part that is moved to the top. -/
def Comparable (a b : ℕ) : Prop :=
  (a ≤ 2 ^ 31 ∧ b ≤ 2 ^ 31) ∨ (2 ^ 16 ≤ a ∧ 2 ^ 16 ≤ b ∧ a < 2 ^ 32 ∧ b < 2 ^ 32)

/-- Values at most `2 ^ 30` apart and below the wrap are comparable. -/
theorem Comparable.of_near {a b : ℕ} (ha : a < 2 ^ 32) (hb : b < 2 ^ 32)
    (hab : a ≤ b + 2 ^ 30) (hba : b ≤ a + 2 ^ 30) : Comparable a b := by
  unfold Comparable
  omega

section

variable {a b : ℕ} (hab : Comparable a b)

include hab

/-- On comparable values the strict comparison is the order of the natural numbers. -/
theorem sqLtCompare_eq : sqLtCompare a b = decide (a < b) := by
  unfold sqLtCompare adjustRolloverPoint adjustRolloverValue usub
  unfold Comparable at hab
  split
  · exact decide_eq_decide.mpr (by omega)
  · rfl

/-- The strict comparison of comparable values, as a proposition. -/
theorem sqLtCompare_iff : sqLtCompare a b = true ↔ a < b := by
  rw [sqLtCompare_eq hab, decide_eq_true_iff]

end

/-- The strict comparison of two values that are at most `2 ^ 16` steps apart, across the wrap as
well. Values around the wrap are shifted, or are both far below the rollover point. -/
theorem sqLtCompare_mod {k i j : ℕ} (hij : i ≤ j + 2 ^ 16) (hji : j ≤ i + 2 ^ 16) :
    sqLtCompare (uadd k i) (uadd k j) = decide (i < j) := by
  unfold sqLtCompare adjustRolloverPoint adjustRolloverValue uadd usub
  split <;> exact decide_eq_decide.mpr (by omega)

/-- Numbers less than the half apart are compared as they are. -/
theorem sqLteCompare_mod {k i j : ℕ} (hij : i ≤ j + 2 ^ 16) (hji : j ≤ i + 2 ^ 16) :
    sqLteCompare (uadd k i) (uadd k j) = decide (i ≤ j) := by
  unfold sqLteCompare adjustRolloverPoint adjustRolloverValue uadd usub
  split <;> exact decide_eq_decide.mpr (by omega)

/-- A number is at most itself. -/
theorem sqLteCompare_self (a : ℕ) : sqLteCompare a a = true := by
  unfold sqLteCompare
  split <;> simp

/-- For every number and every distance of at most `0x10000` the comparisons say which of the two
numbers comes first, and on every window of `0x10000` consecutive numbers they are its orders. -/
theorem sqCompare_orders_window {a : ℕ} (ha : a < 2 ^ 32) :
    (∀ d, 0 < d → d ≤ 0x10000 →
      sqLtCompare a (uadd a d) = true ∧ sqLteCompare a (uadd a d) = true ∧
        sqLtCompare (uadd a d) a = false ∧ sqLteCompare (uadd a d) a = false) ∧
      sqLtCompare a a = false ∧ sqLteCompare a a = true ∧
      ∀ i j, i < 0x10000 → j < 0x10000 →
        (sqLtCompare (uadd a i) (uadd a j) = true ↔ i < j) ∧
          (sqLteCompare (uadd a i) (uadd a j) = true ↔ i ≤ j) := by
  have hzero : uadd a 0 = a := Nat.mod_eq_of_lt ha
  refine ⟨fun d hpos hle => ?_, ?_, sqLteCompare_self a, fun i j hi hj => ?_⟩
  · have hahead := @sqLtCompare_mod a 0 d (by omega) (by omega)
    have haheadEq := @sqLteCompare_mod a 0 d (by omega) (by omega)
    have hbehind := @sqLtCompare_mod a d 0 (by omega) (by omega)
    have hbehindEq := @sqLteCompare_mod a d 0 (by omega) (by omega)
    rw [hzero] at hahead haheadEq hbehind hbehindEq
    rw [hahead, haheadEq, hbehind, hbehindEq]
    exact ⟨decide_eq_true hpos, decide_eq_true (Nat.zero_le d), decide_eq_false (by omega),
      decide_eq_false (by omega)⟩
  · have hsame := @sqLtCompare_mod a 0 0 (by omega) (by omega)
    rwa [hzero] at hsame
  · rw [sqLtCompare_mod (by omega) (by omega), sqLteCompare_mod (by omega) (by omega)]
    exact ⟨decide_eq_true_iff, decide_eq_true_iff⟩

/-- The window that starts with the last number goes on with zero. -/
theorem sqCompare_orders_window_last :
    sqLtCompare (2 ^ 32 - 1) 0 = true ∧ sqLteCompare 0 (2 ^ 32 - 1) = false := by
  obtain ⟨hahead, -, hbehind⟩ :=
    (sqCompare_orders_window (a := 2 ^ 32 - 1) (by decide)).1 1 (by decide) (by decide)
  exact ⟨hahead, hbehind.2⟩

end Corosync
