import Corosync.CsQueue
import Corosync.Library.Run

/-!
# The slots of a message queue

A `cs_queue` keeps `head`, `tail` and `used` by separate formulas. As long as its callers look
before they add and remove, these describe the first-in first-out queue that the other modules work
with, and no assertion fails.
-/

namespace Corosync.CsQueue

open Library List

/-- The indices and the memory of a `cs_queue`; `int` fields are integers. -/
structure Slots (α : Type) where
  head : ℤ
  tail : ℤ
  used : ℤ
  size : ℕ
  items : ℤ → α
  iterator : ℤ

/-- The calls of the functions that work on a queue. -/
inductive Operation (α : Type) where
  | avail
  | add (item : α)
  | get
  | remove
  | itemsRemove (relCount : ℕ)
  | iteratorInit
  | iteratorGet
  | iteratorNext

namespace Slots

variable {α : Type} (q : Slots α)

/-- A sum of `int` values modulo `size`, which is a `size_t`, assigned to an `int`. -/
def wrap (sum : ℤ) : ℤ := (sum.bmod (2 ^ 32) % 2 ^ 64 % q.size).bmod (2 ^ 32)

/-- `cs_queue_init`, which clears the memory and leaves the iterator as it is. -/
def init (size : ℕ) (zero : α) (iterator : ℤ) : Slots α where
  head := 0
  tail := (size - 1 : ℤ).bmod (2 ^ 32)
  used := 0
  size := size
  items _ := zero
  iterator := iterator

/-- `cs_queue_avail` -/
def avail : Option ℤ := do
  let avail := (q.size - q.used - 2 : ℤ).bmod (2 ^ 32)
  assertThat (0 ≤ avail)
  return avail

/-- `cs_queue_item_add` -/
def itemAdd (item : α) : Option (Slots α) := do
  assertThat (q.tail ≠ q.head)
  return { q with
    items := Function.update q.items q.head item
    head := q.wrap (q.head + 1)
    used := q.used + 1 }

/-- `cs_queue_item_get` -/
def itemGet : α := q.items (q.wrap (q.tail + 1))

/-- `cs_queue_item_remove` -/
def itemRemove : Option (Slots α) := do
  assertThat (q.wrap (q.tail + 1) ≠ q.head)
  assertThat (0 ≤ q.used - 1)
  return { q with tail := q.wrap (q.tail + 1), used := q.used - 1 }

/-- `cs_queue_items_remove` -/
def itemsRemove (relCount : ℤ) : Option (Slots α) := do
  assertThat (q.wrap (q.tail + relCount) ≠ q.head)
  return { q with tail := q.wrap (q.tail + relCount), used := q.used - relCount }

/-- `cs_queue_item_iterator_init` -/
def itemIteratorInit : Slots α := { q with iterator := q.wrap (q.tail + 1) }

/-- `cs_queue_item_iterator_get` -/
def itemIteratorGet : Option α :=
  if q.iterator = q.head then none else some (q.items (q.wrap q.iterator))

/-- `cs_queue_item_iterator_next` -/
def itemIteratorNext : Slots α × Bool :=
  let iterator := q.wrap (q.iterator + 1)
  ({ q with iterator := iterator }, iterator == q.head)

/-- The queue after a call, unless an assertion fails. -/
def step : Operation α → Option (Slots α)
  | .avail => q.avail.map fun _ => q
  | .add item => q.itemAdd item
  | .remove => q.itemRemove
  | .itemsRemove relCount => q.itemsRemove relCount
  | .iteratorInit => some q.itemIteratorInit
  | .iteratorNext => some q.itemIteratorNext.1
  | .get | .iteratorGet => some q

/-- What the callers look at first: `cs_queue_avail`, `cs_queue_is_empty` or `cs_queue_used`. -/
def Checked : Operation α → Prop
  | .add _ => 1 ≤ q.avail.getD 0
  | .get | .remove => q.used ≠ 0
  | .itemsRemove relCount => relCount ≤ q.used
  | _ => True

instance (operation : Operation α) : Decidable (q.Checked operation) := by
  cases operation <;> dsimp only [Checked] <;> infer_instance

/-- The items between `tail` and `head`. -/
def contents : List α :=
  (range q.used.toNat).map fun k : ℕ => q.items ((q.tail + 1 + k) % q.size)

end Slots

/-- The first-in first-out queue, and how many of its items the iterator has passed. It has lost its
place if that item was removed or it was moved on from the end. -/
structure Fifo (α : Type) where
  items : List α := []
  position : Option ℕ := none

namespace Fifo

variable {α : Type} (f : Fifo α)

/-- Items leave the front, and the iterator with them. -/
def drop (count : ℕ) : Fifo α where
  items := f.items.drop count
  position := f.position.bind fun k => if count ≤ k then some (k - count) else none

/-- One operation. -/
def step : Operation α → Fifo α
  | .add item => { f with items := f.items ++ [item] }
  | .remove => f.drop 1
  | .itemsRemove relCount => f.drop relCount
  | .iteratorInit => { f with position := some 0 }
  | .iteratorNext =>
    let next := fun k => if k < f.items.length then some (k + 1) else none
    { f with position := f.position.bind next }
  | .avail | .get | .iteratorGet => f

end Fifo

variable {α : Type} {q : Slots α} {f : Fifo α}

/-- The slot of the item `k` places after the oldest one. -/
def slot (size tail k : ℕ) : ℕ := (tail + 1 + k) % size

/-- Different places have different slots. -/
theorem slot_inj {size tail k l : ℕ} (hk : k < size) (hl : l < size)
    (heq : slot size tail k = slot size tail l) : k = l :=
  (Nat.ModEq.add_left_cancel' (tail + 1) heq).eq_of_lt_of_lt hk hl

/-- The slots behind items that are removed. -/
theorem slot_add (size tail count k : ℕ) :
    slot size ((tail + count) % size) k = slot size tail (count + k) := by
  rw [slot, slot, Nat.add_assoc, Nat.mod_add_mod]
  congr 1
  omega

/-- The next slot. -/
theorem slot_succ (size tail k : ℕ) : (slot size tail k + 1) % size = slot size tail (k + 1) :=
  Nat.mod_add_mod _ _ _

/-- The slots hold a queue whose oldest item lies after the slot `base`. -/
structure Slots.Holds (q : Slots α) (f : Fifo α) (base : ℕ) : Prop where
  size : q.size ≤ 2 ^ 30 + 1
  room : f.items.length + 2 ≤ q.size
  lt : base < q.size
  tail : q.tail = base
  head : q.head = slot q.size base f.items.length
  used : q.used = f.items.length
  items : ∀ k item, f.items[k]? = some item → q.items (slot q.size base k) = item
  iterator : ∀ k, f.position = some k →
    k ≤ f.items.length ∧ q.iterator = slot q.size base k

namespace Slots.Holds

variable {base : ℕ} (h : q.Holds f base)

include h

/-- Adding to an index wraps at the size. -/
theorem wrap (sum : ℕ) (hsum : sum < 2 ^ 31) : q.wrap sum = (sum % q.size : ℕ) := by
  have hroom := h.room
  have hsize := h.size
  have hlt : sum % q.size < q.size := Nat.mod_lt _ (by omega)
  have hsum' : (sum : ℤ).bmod (2 ^ 32) = sum := Int.bmod_eq_of_le (by omega) (by omega)
  have hconverted : (sum : ℤ) % 2 ^ 64 = sum := Int.emod_eq_of_lt (by omega) (by omega)
  rw [Slots.wrap, hsum', hconverted, ← Int.natCast_mod]
  exact Int.bmod_eq_of_le (by omega) (by omega)

/-- A slot is one of the array. -/
theorem slot_lt (k : ℕ) : slot q.size base k < q.size :=
  Nat.mod_lt _ (Nat.zero_lt_of_lt h.lt)

/-- The next slot, as the source computes it. -/
theorem wrap_succ (k : ℕ) :
    q.wrap (slot q.size base k + 1) = slot q.size base (k + 1) := by
  have hlt := h.slot_lt k
  have hsize := h.size
  rw [← slot_succ]
  exact_mod_cast h.wrap (slot q.size base k + 1) (by omega)

/-- The slot behind the tail is the first one. -/
theorem first : q.wrap (q.tail + 1) = slot q.size base 0 := by
  have hlt := h.lt
  have hsize := h.size
  rw [h.tail]
  exact_mod_cast h.wrap (base + 1) (by omega)

/-- The head is behind the items. -/
theorem slot_eq_head {k : ℕ} (hk : k < q.size) :
    (slot q.size base k : ℤ) = q.head ↔ k = f.items.length := by
  have hroom := h.room
  rw [h.head, Nat.cast_inj]
  exact ⟨slot_inj hk (by omega), fun heq => by rw [heq]⟩

/-- Tail and head differ. -/
theorem tail_ne_head : q.tail ≠ q.head := by
  have hroom := h.room
  have hlast : slot q.size base (q.size - 1) = base := by
    rw [slot, show base + 1 + (q.size - 1) = base + q.size by omega, Nat.add_mod_right,
      Nat.mod_eq_of_lt h.lt]
  intro heq
  rw [h.tail, ← hlast, h.slot_eq_head (by omega)] at heq
  omega

/-- What `cs_queue_avail` returns. -/
theorem avail : q.avail = some (q.size - f.items.length - 2 : ℤ) := by
  have hroom := h.room
  have hsize := h.size
  have havail : (q.size - q.used - 2 : ℤ).bmod (2 ^ 32) = q.size - f.items.length - 2 := by
    rw [h.used, Int.bmod_eq_of_le (by omega) (by omega)]
  rw [Slots.avail, havail, assertThat_bind_of_true (by omega)]
  rfl

/-- An item is added. -/
theorem add (item : α) (hroom : f.items.length + 2 < q.size) :
    ∃ q', q.itemAdd item = some q' ∧ q'.Holds (f.step (.add item)) base := by
  refine ⟨_, assertThat_bind_of_true h.tail_ne_head _, ?_⟩
  refine ⟨h.size, ?_, h.lt, h.tail, ?_, ?_, fun k added hk => ?_, fun k hk => ?_⟩
  · simp only [Fifo.step, length_append, length_singleton]
    omega
  · simp [h.head, h.wrap_succ, Fifo.step]
  · simp [h.used, Fifo.step]
  · simp only [Fifo.step] at hk
    by_cases hlast : k = f.items.length
    · subst hlast
      rw [getElem?_concat_length] at hk
      simp [h.head, Option.some.inj hk]
    · have hlt : k < f.items.length := by
        have hbound := (List.getElem?_eq_some_iff.mp hk).1
        simp only [length_append, length_singleton] at hbound
        omega
      rw [getElem?_append_left hlt] at hk
      exact (Function.update_of_ne (mt (h.slot_eq_head (by omega)).mp hlast) _ _).trans
        (h.items k added hk)
  · obtain ⟨hle, hiterator⟩ := h.iterator k hk
    exact ⟨by simpa [Fifo.step] using Nat.le_succ_of_le hle, hiterator⟩

/-- The tail moves over items. -/
theorem drop {count : ℕ} (hcount : count ≤ f.items.length) :
    ({ q with tail := q.wrap (q.tail + count), used := q.used - count } : Slots α).Holds
      (f.drop count) ((base + count) % q.size) := by
  have hroom := h.room
  have hsize := h.size
  have hlt := h.lt
  refine ⟨hsize, ?_, Nat.mod_lt _ (by omega), ?_, ?_, ?_, fun k item hk => ?_, fun k hk => ?_⟩
  · simp only [Fifo.drop, length_drop]
    omega
  · simp only [h.tail]
    exact_mod_cast h.wrap (base + count) (by omega)
  · simp only [h.head, Fifo.drop, length_drop, slot_add]
    rw [Nat.add_sub_cancel' hcount]
  · simp only [h.used, Fifo.drop, length_drop]
    omega
  · simp only [Fifo.drop, getElem?_drop] at hk
    rw [slot_add]
    exact h.items _ item hk
  · obtain ⟨old, hold, hpassed⟩ := Option.bind_eq_some_iff.mp hk
    obtain ⟨hle, heq⟩ := Option.ite_none_right_eq_some.mp hpassed
    obtain rfl := Option.some.inj heq
    obtain ⟨hbound, hiterator⟩ := h.iterator old hold
    rw [slot_add, Nat.add_sub_cancel' hle]
    simp only [Fifo.drop, length_drop]
    exact ⟨by omega, hiterator⟩

/-- Items are removed. -/
theorem remove {count : ℕ} (hcount : count ≤ f.items.length) :
    ∃ q', q.itemsRemove count = some q' ∧ q'.Holds (f.drop count) ((base + count) % q.size) :=
  ⟨_, assertThat_bind_of_true (h.drop hcount).tail_ne_head _, h.drop hcount⟩

/-- Removing one item is removing items. -/
theorem itemRemove (hused : 1 ≤ f.items.length) : q.itemRemove = q.itemsRemove (1 : ℕ) := by
  have hpos : 0 ≤ q.used - 1 := by
    rw [h.used]
    omega
  rw [Slots.itemRemove, Slots.itemsRemove, assertThat_bind_of_true hpos]
  rfl

/-- A call after the look of its caller keeps the queue, and no assertion fails. -/
theorem step (operation : Operation α) (hchecked : q.Checked operation) :
    ∃ q' base', q.step operation = some q' ∧ q'.Holds (f.step operation) base' := by
  cases operation with
  | avail => exact ⟨q, base, by simp [Slots.step, h.avail], h⟩
  | add item =>
    have hroom : f.items.length + 2 < q.size := by
      simp only [Slots.Checked, h.avail, Option.getD_some] at hchecked
      omega
    obtain ⟨q', hadd, hq'⟩ := h.add item hroom
    exact ⟨q', base, hadd, hq'⟩
  | get | iteratorGet => exact ⟨q, base, rfl, h⟩
  | remove =>
    have hused : 1 ≤ f.items.length := by
      simp only [Slots.Checked, h.used] at hchecked
      omega
    obtain ⟨q', hremove, hq'⟩ := h.remove hused
    exact ⟨q', _, (h.itemRemove hused).trans hremove, hq'⟩
  | itemsRemove relCount =>
    simp only [Slots.Checked, h.used, Nat.cast_le] at hchecked
    obtain ⟨q', hremove, hq'⟩ := h.remove hchecked
    exact ⟨q', _, hremove, hq'⟩
  | iteratorInit =>
    refine ⟨_, base, rfl, { h with iterator := ?_ }⟩
    rintro _ ⟨rfl⟩
    exact ⟨Nat.zero_le _, h.first⟩
  | iteratorNext =>
    refine ⟨_, base, rfl, { h with iterator := fun k hk => ?_ }⟩
    obtain ⟨old, hold, hnext⟩ := Option.bind_eq_some_iff.mp hk
    obtain ⟨hlt, heq⟩ := Option.ite_none_right_eq_some.mp hnext
    obtain rfl := Option.some.inj heq
    refine ⟨hlt, ?_⟩
    simp only [itemIteratorNext, (h.iterator old hold).2, h.wrap_succ]

/-- A run of the array is one of the list. -/
theorem run {operations : List (Operation α)} {q' : Slots α}
    (hrun : run (restrict Slots.Checked Slots.step) q operations = some q') :
    ∃ base', q'.Holds (operations.foldl Fifo.step f) base' := by
  induction operations generalizing q f base with
  | nil =>
    cases hrun
    exact ⟨base, h⟩
  | cons operation _ ih =>
    obtain ⟨next, hnext, hrest⟩ := Option.bind_eq_some_iff.mp hrun
    obtain ⟨hchecked, hnext⟩ := restrict_eq_some.mp hnext
    obtain ⟨q', base', hstep, hq'⟩ := h.step operation hchecked
    obtain rfl : q' = next := Option.some.inj (hstep.symm.trans hnext)
    exact ih hq' hrest

/-- The array holds the list. -/
theorem contents : q.contents = f.items := by
  refine List.ext_getElem? fun k => ?_
  rw [Slots.contents, h.used, getElem?_map, Int.toNat_natCast]
  by_cases hk : k < f.items.length
  · have hitem := h.items k _ (getElem?_eq_getElem hk)
    rw [getElem?_range hk, getElem?_eq_getElem hk, ← hitem, h.tail, slot]
    simp
  · rw [getElem?_eq_none (by simpa using hk), getElem?_eq_none (by simpa using hk)]
    rfl

/-- The item at the iterator. -/
theorem iteratorGet {k : ℕ} (hk : f.position = some k) : q.itemIteratorGet = f.items[k]? := by
  obtain ⟨hle, hiterator⟩ := h.iterator k hk
  have hroom := h.room
  have hlt := h.slot_lt k
  have hsize := h.size
  rw [itemIteratorGet, hiterator]
  by_cases hend : k = f.items.length
  · rw [if_pos ((h.slot_eq_head (by omega)).mpr hend), hend, getElem?_eq_none (le_refl _)]
  · rw [if_neg (mt (h.slot_eq_head (by omega)).mp hend), h.wrap _ (by omega), Nat.mod_eq_of_lt hlt,
      getElem?_eq_getElem (by omega), h.items k _ (getElem?_eq_getElem (by omega))]

/-- The iterator tells whether it has reached the end. -/
theorem iteratorNext {k : ℕ} (hk : f.position = some k) :
    q.itemIteratorNext.2 = (k + 1 == f.items.length) := by
  obtain ⟨hle, hiterator⟩ := h.iterator k hk
  have hroom := h.room
  rw [itemIteratorNext, hiterator, h.wrap_succ, Bool.eq_iff_iff, beq_iff_eq, beq_iff_eq]
  exact h.slot_eq_head (by omega)

end Slots.Holds

/-- A queue whose indices can count its slots is a first-in first-out queue for callers that look
first. -/
theorem slots_refine_fifo {size : ℕ} (hthree : 3 ≤ size) (hsize : size ≤ 2 ^ 30 + 1) (zero : α)
    (iterator : ℤ) {operations : List (Operation α)} {q : Slots α}
    (hrun : run (restrict Slots.Checked Slots.step) (.init size zero iterator) operations =
      some q) :
    let f := operations.foldl Fifo.step {}
    q.contents = f.items ∧ q.used = f.items.length ∧
      (∀ item ∈ f.items.head?, q.itemGet = item) ∧
      (∀ k, f.position = some k → q.itemIteratorGet = f.items[k]? ∧
        q.itemIteratorNext.2 = (k + 1 == f.items.length)) ∧
      ∀ operation, q.Checked operation → ∃ q', q.step operation = some q' := by
  have hinit : (Slots.init size zero iterator).Holds {} (size - 1) := by
    refine ⟨hsize, Nat.le_of_succ_le hthree, Nat.sub_lt (by omega) one_pos, ?_, ?_, rfl, ?_, ?_⟩
    · simp only [Slots.init]
      rw [Int.bmod_eq_of_le (by omega) (by omega)]
      omega
    · simp [Slots.init, slot, Nat.sub_add_cancel (Nat.le_of_succ_le (Nat.le_of_succ_le hthree))]
    · simp
    · simp
  obtain ⟨base, hq⟩ := hinit.run hrun
  refine ⟨hq.contents, hq.used, fun item hitem => ?_,
    fun k hk => ⟨hq.iteratorGet hk, hq.iteratorNext hk⟩, fun operation hchecked => ?_⟩
  · rw [Slots.itemGet, hq.first]
    exact hq.items 0 item (head?_eq_getElem? ▸ hitem)
  · obtain ⟨q', -, hstep, -⟩ := hq.step operation hchecked
    exact ⟨q', hstep⟩

/-- A queue of four slots wraps around. -/
theorem slots_refine_fifo_wraps :
    ∃ q, run (restrict Slots.Checked Slots.step) (.init 4 0 0)
        [.avail, .add 1, .add 2, .get, .remove, .add 3, .iteratorInit, .iteratorNext,
          .itemsRemove 1, .add 4] = some q ∧ q.contents = [3, 4] ∧ q.itemIteratorGet = some 3 := by
  refine exists_run_imp (fun _ => True) (by decide) fun q hrun _ => ?_
  obtain ⟨hcontents, -, -, hiterator, -⟩ := slots_refine_fifo (by decide) (by decide) 0 0 hrun
  exact ⟨hcontents, (hiterator 0 rfl).1⟩

/-- In a queue of more slots than an `int` counts, the assertion of `cs_queue_avail` fails. -/
theorem avail_fails_large : ∃ size, 3 ≤ size ∧ (Slots.init size 0 0).step .avail = none :=
  ⟨2 ^ 31 + 2, by decide, by decide⟩

end Corosync.CsQueue
