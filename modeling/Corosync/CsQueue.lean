import Corosync.Uint

/-!
# The message queues

A `cs_queue` of `size` slots is a first-in first-out queue of at most `size - 1` items. The head
and tail indices of the code only say where its items lie in memory, so the model keeps the items
in order.
-/

namespace Corosync

/-- The `cs_queue` structure with the items oldest first. -/
structure CsQueue (α : Type) where
  size : ℕ
  items : List α
  bounded : items.length < size

namespace CsQueue

variable {α : Type} {q q' : CsQueue α}

/-- `cs_queue_init`, for memory that can be allocated. -/
def init (size : ℕ) (hpos : 0 < size) : CsQueue α where
  size := size
  items := []
  bounded := hpos

/-- `cs_queue_reinit`. -/
def reinit (q : CsQueue α) : CsQueue α where
  size := q.size
  items := []
  bounded := Nat.zero_lt_of_lt q.bounded

/-- `cs_queue_used`. -/
def used (q : CsQueue α) : ℕ := q.items.length

/-- `cs_queue_is_full`. -/
def isFull (q : CsQueue α) : Bool := q.size - 1 == q.used

/-- `cs_queue_is_empty`. -/
def isEmpty (q : CsQueue α) : Bool := q.used == 0

/-- `cs_queue_item_add`, which asserts that a slot is free. -/
def itemAdd (q : CsQueue α) (item : α) : Option (CsQueue α) :=
  if hfree : q.items.length + 1 < q.size then
    some { size := q.size, items := q.items ++ [item], bounded := by simpa using hfree }
  else
    none

/-- `cs_queue_item_get` and `cs_queue_item_remove`, which the callers use together on a queue that
is not empty. -/
def itemTake (q : CsQueue α) : Option (α × CsQueue α) :=
  match hitems : q.items with
  | [] => none
  | item :: rest =>
    some (item,
      { size := q.size
        items := rest
        bounded := by
          have hlt := q.bounded
          rw [hitems, List.length_cons] at hlt
          omega })

/-- `cs_queue_avail`, which asserts that the difference is not negative. -/
def avail (q : CsQueue α) : Option ℕ := do
  assertThat (q.used + 2 ≤ q.size)
  return q.size - q.used - 2

/-- An added item is the last one. -/
theorem itemAdd_eq_some {item : α} (hadd : q.itemAdd item = some q') :
    q'.items = q.items ++ [item] ∧ q'.size = q.size := by
  unfold itemAdd at hadd
  split at hadd
  · cases hadd
    exact ⟨rfl, rfl⟩
  · simp at hadd

/-- A queue that is not full takes an item. -/
theorem itemAdd_isSome {q : CsQueue α} (hfull : ¬q.isFull = true) (item : α) :
    ∃ q', q.itemAdd item = some q' := by
  have hbounded := q.bounded
  have hne : q.size - 1 ≠ q.items.length := by simpa [isFull, used] using hfull
  unfold itemAdd
  rw [dif_pos (by omega)]
  exact ⟨_, rfl⟩

/-- A taken item was the first one. -/
theorem itemTake_eq_some {item : α} (htake : q.itemTake = some (item, q')) :
    q.items = item :: q'.items ∧ q'.size = q.size := by
  unfold itemTake at htake
  split at htake
  · simp at htake
  · rename_i hitems
    simp only [Option.some.injEq, Prod.mk.injEq] at htake
    obtain ⟨rfl, rfl⟩ := htake
    exact ⟨hitems, rfl⟩

/-- An item of one of two queues is in one of them. -/
theorem mem_of_mem_ite {p : Prop} [Decidable p] {item : α}
    (hitem : item ∈ (if p then q else q').items) : item ∈ q.items ∨ item ∈ q'.items := by
  by_cases hp : p
  · exact Or.inl (by rwa [if_pos hp] at hitem)
  · exact Or.inr (by rwa [if_neg hp] at hitem)

end CsQueue

end Corosync
