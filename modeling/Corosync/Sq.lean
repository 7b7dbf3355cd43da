import Corosync.SqCompare

/-!
# The sort queue

A sort queue keeps the messages of a ring between the last released and the highest received
sequence number. It is a circular array of `size` slots; slot `head` holds sequence number
`headSeqid`. The three arrays of the code are functions on slot numbers.
-/

namespace Corosync

/-- The `sq` structure. Its last four fields are what every operation of the code maintains; the
assertion of `sq_copy` is `inuseLe`. -/
structure Sq (α : Type) where
  head : ℕ
  size : ℕ
  items : ℕ → Option α
  itemsInuse : ℕ → ℕ
  itemsMissCount : ℕ → ℕ
  headSeqid : ℕ
  posMax : ℕ
  sizePos : 0 < size
  headLt : head < size
  inuseLe : ∀ pos, posMax < pos → pos < size → itemsInuse pos = 0
  inuseItem : ∀ pos, itemsInuse pos ≠ 0 → (items pos).isSome

namespace Sq

variable {α : Type} {q : Sq α}

/-- `sq_init`, for memory that can be allocated. -/
def init (itemCount headSeqid : ℕ) (hpos : 0 < itemCount) : Sq α where
  head := 0
  size := itemCount
  items := fun _ => none
  itemsInuse := fun _ => 0
  itemsMissCount := fun _ => 0
  headSeqid := headSeqid
  posMax := 0
  sizePos := hpos
  headLt := hpos
  inuseLe := fun _ _ _ => rfl
  inuseItem := fun _ hinuse => absurd rfl hinuse

/-- `sq_reinit`. -/
def reinit (q : Sq α) (headSeqid : ℕ) : Sq α :=
  init q.size headSeqid q.sizePos

/-- Slot of a sequence number, as `sq_item_add` computes it. -/
def position (q : Sq α) (seq : ℕ) : ℕ :=
  usub (q.head + seq) q.headSeqid % q.size

/-- The slot as `sq_item_inuse` and `sq_item_miss_count` compute it. -/
def inusePosition (q : Sq α) (seq : ℕ) : ℕ :=
  uadd (usub q.head q.headSeqid) seq % q.size

/-- The slot as `sq_item_get` computes it, with one form on each side of the rollover point. -/
def getPosition (q : Sq α) (seq : ℕ) : ℕ :=
  if adjustRolloverPoint < seq then
    uadd (usub (usub q.head adjustRolloverValue) (usub q.headSeqid adjustRolloverValue)) seq %
      q.size
  else q.inusePosition seq

/-- As unsigned numbers the sums are one. -/
@[simp]
theorem inusePosition_eq (q : Sq α) (seq : ℕ) : q.inusePosition seq = q.position seq := by
  unfold inusePosition position uadd usub
  congr 1
  omega

/-- The adjustment of both numbers has no effect. -/
@[simp]
theorem getPosition_eq (q : Sq α) (seq : ℕ) : q.getPosition seq = q.position seq := by
  have hadjust : ∀ value, usub (usub q.head value) (usub q.headSeqid value) =
      usub q.head q.headSeqid := by
    intro value
    unfold usub
    omega
  rw [getPosition, hadjust, ← inusePosition, ite_self, inusePosition_eq]

/-- The queue after its slot `pos` was filled with `item`. -/
def fill (q : Sq α) (pos seqid : ℕ) (item : α) : Sq α where
  head := q.head
  size := q.size
  items := Function.update q.items pos (some item)
  itemsInuse := Function.update q.itemsInuse pos (if seqid = 0 then 1 else seqid)
  itemsMissCount := Function.update q.itemsMissCount pos 0
  headSeqid := q.headSeqid
  posMax := max q.posMax pos
  sizePos := q.sizePos
  headLt := q.headLt
  inuseLe := by
    intro p hmax hlt
    rw [Function.update_of_ne (by omega)]
    exact q.inuseLe p (by omega) hlt
  inuseItem := by
    intro p hinuse
    by_cases hp : p = pos
    · subst hp
      simp
    · rw [Function.update_of_ne hp] at hinuse ⊢
      exact q.inuseItem p hinuse

/-- `sq_item_add`, which asserts that the slot is free. -/
def itemAdd (q : Sq α) (item : α) (seqid : ℕ) : Option (Sq α) := do
  assertThat (q.itemsInuse (q.position seqid) = 0)
  return q.fill (q.position seqid) seqid item

/-- `sq_item_inuse`. -/
def itemInuse (q : Sq α) (seq : ℕ) : Bool :=
  q.itemsInuse (q.inusePosition seq) != 0

/-- `sq_item_miss_count`, which counts one more miss and returns the count. -/
def itemMissCount (q : Sq α) (seq : ℕ) : Sq α × ℕ :=
  let count := uadd (q.itemsMissCount (q.inusePosition seq)) 1
  ({ q with itemsMissCount := Function.update q.itemsMissCount (q.inusePosition seq) count },
    count)

/-- `sq_in_range`. -/
def inRange (q : Sq α) (seq : ℕ) : Bool :=
  if adjustRolloverPoint < q.headSeqid then
    !decide (usub seq adjustRolloverValue < usub q.headSeqid adjustRolloverValue) &&
      !decide (uadd (usub q.headSeqid adjustRolloverValue) q.size ≤ usub seq adjustRolloverValue)
  else
    !decide (seq < q.headSeqid) && !decide (uadd q.headSeqid q.size ≤ seq)

/-- The assertion of `sq_item_get`, which has one form on each side of the rollover point. -/
def getAsserted (q : Sq α) (seq : ℕ) : Bool :=
  if adjustRolloverPoint < seq then
    decide (usub seq adjustRolloverPoint < uadd (usub q.headSeqid adjustRolloverPoint) q.size)
  else
    decide (seq < uadd q.headSeqid q.size)

/-- The item in the slot of a sequence number. -/
def item? (q : Sq α) (seq : ℕ) : Option α :=
  if q.itemsInuse (q.position seq) = 0 then none else q.items (q.position seq)

/-- `sq_item_get`: `none` when its assertion fails, `some none` for `ENOENT`. -/
def itemGet (q : Sq α) (seq : ℕ) : Option (Option α) := do
  assertThat (q.getAsserted seq = true)
  return if q.itemsInuse (q.getPosition seq) = 0 then none else q.items (q.getPosition seq)

/-- `sq_item_get` finds what is in the slot. -/
theorem itemGet_def (q : Sq α) (seq : ℕ) :
    q.itemGet seq = (do assertThat (q.getAsserted seq = true); return q.item? seq) := by
  simp only [itemGet, item?, getPosition_eq]

/-- The `memset` of `count` cells of an array to zero, from cell `start` on. -/
def clear (cells : ℕ → ℕ) (start count : ℕ) : ℕ → ℕ :=
  fun pos => if start ≤ pos ∧ pos < start + count then 0 else cells pos

/-- A cell that is still set was set and lies outside the cleared part. -/
theorem clear_ne_zero {cells : ℕ → ℕ} {start count pos : ℕ} :
    clear cells start count pos ≠ 0 ↔ cells pos ≠ 0 ∧ ¬(start ≤ pos ∧ pos < start + count) := by
  unfold clear
  split <;> simp_all

/-- The in-use flags after `sq_items_release`: the code clears one run of slots, or two when the
released part wraps around the end of the array. -/
def releasedInuse (q : Sq α) (seqid : ℕ) : ℕ → ℕ :=
  let count := uadd (usub seqid q.headSeqid) 1
  if q.size < uadd q.head count then
    clear (clear q.itemsInuse q.head (q.size - q.head)) 0 (uadd q.head count % q.size)
  else
    clear q.itemsInuse q.head count

/-- What is in use after a release was so before. -/
theorem releasedInuse_ne_zero {seqid pos : ℕ} (hinuse : q.releasedInuse seqid pos ≠ 0) :
    q.itemsInuse pos ≠ 0 := by
  unfold releasedInuse at hinuse
  split at hinuse
  · exact (clear_ne_zero.mp (clear_ne_zero.mp hinuse).1).1
  · exact (clear_ne_zero.mp hinuse).1

/-- `sq_items_release`. The miss counts are cleared only when the released part does not wrap. -/
def itemsRelease (q : Sq α) (seqid : ℕ) : Sq α where
  head := uadd q.head (uadd (usub seqid q.headSeqid) 1) % q.size
  size := q.size
  items := q.items
  itemsInuse := q.releasedInuse seqid
  itemsMissCount :=
    let count := uadd (usub seqid q.headSeqid) 1
    if q.size < uadd q.head count then q.itemsMissCount else clear q.itemsMissCount q.head count
  headSeqid := uadd seqid 1
  posMax := q.posMax
  sizePos := q.sizePos
  headLt := Nat.mod_lt _ q.sizePos
  inuseLe := by
    intro pos hmax hlt
    by_contra hne
    exact releasedInuse_ne_zero hne (q.inuseLe pos hmax hlt)
  inuseItem := fun pos hinuse => q.inuseItem pos (releasedInuse_ne_zero hinuse)

end Sq

end Corosync
