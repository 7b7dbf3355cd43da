import Mathlib.Data.List.GetD

/-!
# Tables of 16-bit numbers

A table of 16-bit numbers in memory, in either byte order, and what it becomes when the bytes of its
numbers are exchanged one number after the other.
-/

namespace Corosync.Library

open List

/-- The order of the bytes of a number in memory. -/
inductive ByteOrder
  | little
  | big
deriving DecidableEq, Repr

namespace ByteOrder

/-- The other order. -/
def other : ByteOrder → ByteOrder
  | .little => .big
  | .big => .little

/-- A 16-bit number in memory. -/
def bytes : ByteOrder → ℕ → List UInt8
  | .little, n => [UInt8.ofNat n, UInt8.ofNat (n / 256)]
  | .big, n => [UInt8.ofNat (n / 256), UInt8.ofNat n]

/-- The 16-bit number of two bytes. -/
def short : ByteOrder → UInt8 → UInt8 → ℕ
  | .little, first, second => first.toNat + 256 * second.toNat
  | .big, first, second => 256 * first.toNat + second.toNat

/-- There are two orders. -/
theorem eq_other_of_ne {order order' : ByteOrder} (h : order ≠ order') : order = order'.other := by
  cases order <;> cases order' <;> first | rfl | exact absurd rfl h

end ByteOrder

variable {order : ByteOrder} {n : ℕ} {numbers : List ℕ} {rest memory : List UInt8}

/-- The number with a given index. -/
def shortAt (order : ByteOrder) (memory : List UInt8) (i : ℕ) : ℕ :=
  order.short (memory.getD (2 * i) 0) (memory.getD (2 * i + 1) 0)

/-- Exchanges the bytes of the number with a given index. -/
def swapAt (memory : List UInt8) (i : ℕ) : List UInt8 :=
  (memory.set (2 * i) (memory.getD (2 * i + 1) 0)).set (2 * i + 1) (memory.getD (2 * i) 0)

/-- A table in memory. -/
def table (order : ByteOrder) (numbers : List ℕ) : List UInt8 := numbers.flatMap order.bytes

/-- A table of one more number. -/
theorem table_cons : table order (n :: numbers) = order.bytes n ++ table order numbers := rfl

/-- A table in two parts. -/
theorem table_append {numbers' : List ℕ} :
    table order (numbers ++ numbers') = table order numbers ++ table order numbers' :=
  flatMap_append

/-- A number has two bytes. -/
@[simp] theorem length_bytes : (order.bytes n).length = 2 := by
  cases order <;> rfl

/-- The length of a table. -/
@[simp] theorem length_table : (table order numbers).length = 2 * numbers.length := by
  induction numbers with
  | nil => rfl
  | cons _ _ ih =>
    rw [table_cons, length_append, length_bytes, ih, length_cons]
    omega

/-- A number is read as it was written. -/
theorem shortAt_bytes (hlt : n < 65536) : shortAt order (order.bytes n ++ rest) 0 = n := by
  cases order <;>
    simp only [shortAt, ByteOrder.bytes, ByteOrder.short, cons_append, nil_append,
      Nat.mul_zero, Nat.zero_add, getD_cons_zero, getD_cons_succ, UInt8.toNat_ofNat'] <;>
    omega

section Behind

variable {front : List UInt8} {skipped i : ℕ}

/-- Reading behind other bytes. -/
theorem shortAt_append (hfront : front.length = 2 * skipped) :
    shortAt order (front ++ memory) (skipped + i) = shortAt order memory i := by
  unfold shortAt
  rw [getD_append_right _ _ _ _ (by omega), getD_append_right _ _ _ _ (by omega)]
  congr 2 <;> omega

/-- Swapping behind other bytes. -/
theorem swapAt_append (hfront : front.length = 2 * skipped) :
    swapAt (front ++ memory) (skipped + i) = front ++ swapAt memory i := by
  unfold swapAt
  rw [getD_append_right _ _ _ _ (by omega), getD_append_right _ _ _ _ (by omega),
    set_append_right _ _ (by omega), set_append_right _ _ (by omega)]
  have hfirst : 2 * (skipped + i) - front.length = 2 * i := by omega
  have hsecond : 2 * (skipped + i) + 1 - front.length = 2 * i + 1 := by omega
  rw [hfirst, hsecond]

end Behind

/-- The numbers of a table. -/
theorem shortAt_table (hlt : ∀ n ∈ numbers, n < 65536) {i : ℕ} (hi : i < numbers.length) :
    shortAt order (table order numbers ++ rest) i = numbers[i] := by
  induction numbers generalizing i with
  | nil => exact absurd hi (Nat.not_lt_zero i)
  | cons n numbers ih =>
    rw [table_cons, append_assoc]
    cases i with
    | zero => exact shortAt_bytes (hlt n mem_cons_self)
    | succ i =>
      have hbehind : shortAt order (order.bytes n ++ (table order numbers ++ rest)) (1 + i) =
          shortAt order (table order numbers ++ rest) i := shortAt_append length_bytes
      rw [Nat.add_comm] at hbehind
      rw [hbehind, getElem_cons_succ]
      exact ih (fun m hmem => hlt m (mem_cons_of_mem _ hmem)) (Nat.lt_of_succ_lt_succ hi)

/-- Swapping changes the order of the bytes. -/
theorem swapAt_bytes : swapAt (order.other.bytes n ++ rest) 0 = order.bytes n ++ rest := by
  cases order <;> rfl

/-- The first number in the other order is brought into order. -/
theorem swapAt_table {done todo : List ℕ} :
    swapAt (table order done ++ (table order.other (n :: todo) ++ rest)) done.length =
      table order (done ++ [n]) ++ (table order.other todo ++ rest) := by
  have hfront : swapAt (table order done ++ (table order.other (n :: todo) ++ rest))
      (done.length + 0) = table order done ++ swapAt (table order.other (n :: todo) ++ rest) 0 :=
    swapAt_append length_table
  rw [Nat.add_zero] at hfront
  rw [hfront, table_cons, append_assoc, swapAt_bytes, table_append, append_assoc]
  simp [table]

end Corosync.Library
