import Mathlib.Data.Nat.ModEq
import Mathlib.Tactic.Ring

/-!
# Unsigned 32-bit arithmetic and run-time assertions

The protocol code counts in `unsigned int`. A value is modelled by the natural number it holds,
and each operation that can leave the range is reduced modulo `2 ^ 32` where the code performs it.
A failed `assert` aborts the process; a handler that can abort returns an `Option`.
-/

namespace Corosync

/-- Unsigned 32-bit addition. -/
def uadd (a b : ℕ) : ℕ := (a + b) % 2 ^ 32

/-- Unsigned 32-bit subtraction, which wraps below zero. -/
def usub (a b : ℕ) : ℕ := (a + (2 ^ 32 - b % 2 ^ 32)) % 2 ^ 32

/-- The `assert` macro: execution continues only when the condition holds. -/
def assertThat (p : Prop) [Decidable p] : Option Unit :=
  if p then some () else none

/-- A sum that does not wrap. -/
theorem uadd_of_lt {a b : ℕ} (hlt : a + b < 2 ^ 32) : uadd a b = a + b :=
  Nat.mod_eq_of_lt hlt

/-- A sum has 32 bits. -/
theorem uadd_lt (a b : ℕ) : uadd a b < 2 ^ 32 :=
  Nat.mod_lt _ (by decide)

/-- A difference has 32 bits. -/
theorem usub_lt (a b : ℕ) : usub a b < 2 ^ 32 :=
  Nat.mod_lt _ (by decide)

/-- A difference that does not wrap. -/
theorem usub_of_le {a b : ℕ} (hle : b ≤ a) (hlt : a < 2 ^ 32) : usub a b = a - b := by
  unfold usub
  omega

/-- A difference that wraps. -/
theorem usub_of_lt {a b : ℕ} (hlt : a < b) (hb : b < 2 ^ 32) : usub a b = a + 2 ^ 32 - b := by
  unfold usub
  omega

/-- An assertion that holds. -/
@[simp] theorem assertThat_eq_some {p : Prop} [Decidable p] {u : Unit} :
    assertThat p = some u ↔ p := by
  unfold assertThat
  split <;> simp_all

/-- Code behind a true assertion is executed. -/
theorem assertThat_bind_of_true {α : Type} {p : Prop} [Decidable p] (hp : p)
    (f : Unit → Option α) : (assertThat p >>= f) = f () := by
  simp [assertThat, hp]

/-- Code behind an assertion returns exactly when the condition holds and the code returns. -/
theorem assertThat_bind_eq_some {α : Type} {p : Prop} [Decidable p] {f : Unit → Option α} {x : α} :
    (assertThat p >>= f) = some x ↔ p ∧ f () = some x := by
  unfold assertThat
  split <;> simp_all

end Corosync
