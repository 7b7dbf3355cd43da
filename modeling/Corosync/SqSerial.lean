import Corosync.Library.Run
import Corosync.SqWindow

/-!
# The sort queue as a map on serial numbers

Sequence numbers count modulo `2 ^ 32` and the window of a sort queue may lie across the wrap. What
the queue is for is said by `SqMap`, a map whose window starts at a serial number. This module
follows every operation of `sq.h` across the wrap and shows that any number of queues, also with
copies between them, do what their maps do.
-/

namespace Corosync

open Function Library

/-! ### The windowed map -/

/-- A map from the `size` serial numbers behind `start` to items. -/
structure SqMap (α : Type) (size : ℕ) where
  start : ℕ
  items : ℕ → Option α
  outside : ∀ s, size ≤ usub s start → items s = none

namespace SqMap

variable {α : Type} {size : ℕ} {map : SqMap α size}

/-- The map without items. -/
def empty (start : ℕ) : SqMap α size where
  start := start
  items := fun _ => none
  outside := fun _ _ => rfl

/-- Adding an item for a number of the window that has none. -/
def add (map : SqMap α size) (item : α) (s : ℕ) : Option (SqMap α size) :=
  if hlt : usub s map.start < size ∧ map.items s = none then
    some {
      start := map.start
      items := update map.items s (some item)
      outside := by
        intro t ht
        have hne : t ≠ s := fun heq => Nat.not_lt.mpr ht (heq ▸ hlt.1)
        rw [update_of_ne hne]
        exact map.outside t ht }
  else none

/-- Releasing the numbers up to one of the window. -/
def release (map : SqMap α size) (s : ℕ) : Option (SqMap α size) :=
  if usub s map.start < size then
    some {
      start := uadd s 1
      items := fun t => if usub t map.start ≤ usub s map.start then none else map.items t
      outside := by
        intro t ht
        split
        · rfl
        · refine map.outside t (Nat.le_trans ht ?_)
          unfold usub uadd at *
          omega }
  else none

/-- What is added was missing and is in the window. -/
theorem add_eq_some {map' : SqMap α size} {item : α} {s : ℕ} (hadd : map.add item s = some map') :
    usub s map.start < size ∧ map.items s = none ∧ map'.start = map.start ∧
      map'.items = update map.items s (some item) := by
  unfold add at hadd
  split at hadd
  case isFalse => cases hadd
  case isTrue hlegal =>
    cases hadd
    exact ⟨hlegal.1, hlegal.2, rfl, rfl⟩

/-- A release moves the window and forgets what is before it. -/
theorem release_eq_some {map' : SqMap α size} {s : ℕ} (hrelease : map.release s = some map') :
    usub s map.start < size ∧ map'.start = uadd s 1 ∧
      ∀ t, map'.items t = if usub t map.start ≤ usub s map.start then none else map.items t := by
  unfold release at hrelease
  split at hrelease
  case isFalse => cases hrelease
  case isTrue hlegal =>
    cases hrelease
    exact ⟨hlegal, rfl, fun _ => rfl⟩

end SqMap

/-! ### Queues across the wrap -/

namespace Sq

variable {α : Type} {q : Sq α} {s t : ℕ}

/-- The assertion of `sq_assert`: the slots past `pos_max` are free. -/
def sqAssert (q : Sq α) : Bool :=
  (List.range q.size).all fun pos => decide (q.posMax < pos → q.itemsInuse pos = 0)

/-- `sq_copy` of a queue to another one of the same size. -/
def copy (src : Sq α) : Option (Sq α) := do
  assertThat (src.sqAssert = true)
  return src

/-- The assertion of the queue holds. -/
theorem sqAssert_eq_true (q : Sq α) : q.sqAssert = true := by
  rw [sqAssert, List.all_eq_true]
  intro pos hpos
  exact decide_eq_true fun hmax => q.inuseLe pos hmax (List.mem_range.mp hpos)

/-- The slot of a number in the window. -/
theorem position_serial (hsize : q.size ≤ 2 ^ 16) (hs : usub s q.headSeqid < q.size) :
    q.position s = (q.head + usub s q.headSeqid) % q.size := by
  have hhead := q.headLt
  have hsum : usub (q.head + s) q.headSeqid = q.head + usub s q.headSeqid := by
    unfold usub at *
    omega
  rw [position, hsum]

/-- `sq_in_range` accepts the numbers of the window, also across the wrap. -/
theorem inRange_serial_iff (hsize : q.size ≤ 2 ^ 16) (hhead : q.headSeqid < 2 ^ 32)
    (hs : s < 2 ^ 32) : q.inRange s = true ↔ usub s q.headSeqid < q.size := by
  unfold inRange adjustRolloverPoint adjustRolloverValue
  split
  · simp only [Bool.and_eq_true, Bool.not_eq_true', decide_eq_false_iff_not]
    unfold uadd usub
    omega
  · simp only [Bool.and_eq_true, Bool.not_eq_true', decide_eq_false_iff_not]
    unfold uadd usub
    omega

/-- Both forms of the assertion of `sq_item_get` hold inside the window. -/
theorem itemGet_serial (hsize : q.size ≤ 2 ^ 16) (hs : s < 2 ^ 32)
    (hwin : usub s q.headSeqid < q.size) : q.itemGet s = some (q.item? s) := by
  have hassert : q.getAsserted s = true := by
    unfold getAsserted adjustRolloverPoint
    split
    · rw [decide_eq_true_iff]
      unfold uadd usub at *
      omega
    · rw [decide_eq_true_iff]
      unfold uadd usub at *
      omega
  rw [itemGet_def, assertThat_bind_of_true hassert]
  rfl

/-- A slot is in use if it has an item. -/
theorem itemInuse_eq_isSome (q : Sq α) (s : ℕ) : q.itemInuse s = (q.item? s).isSome := by
  unfold itemInuse item?
  by_cases hzero : q.itemsInuse (q.position s) = 0
  · simp [hzero]
  · simp [hzero, q.inuseItem _ hzero]

/-- The numbers of the window have different slots, also across the wrap. -/
theorem position_serial_inj (hsize : q.size ≤ 2 ^ 16) (hs : s < 2 ^ 32) (ht : t < 2 ^ 32)
    (hswin : usub s q.headSeqid < q.size) (htwin : usub t q.headSeqid < q.size)
    (heq : q.position s = q.position t) : s = t := by
  rw [position_serial hsize hswin, position_serial hsize htwin] at heq
  have hoff := offset_inj hswin htwin heq
  unfold usub at hoff
  omega

/-- The items after a release. -/
theorem item?_itemsRelease_serial (hsize : q.size ≤ 2 ^ 16) {r : ℕ}
    (hr : usub r q.headSeqid < q.size) (ht : usub t (uadd r 1) < q.size) :
    (q.itemsRelease r).item? t =
      if usub t q.headSeqid ≤ usub r q.headSeqid ∨ q.size ≤ usub t q.headSeqid then none
      else q.item? t := by
  have hhead := q.headLt
  have hcount : uadd (usub r q.headSeqid) 1 = usub r q.headSeqid + 1 := uadd_of_lt (by omega)
  have hnewHead : (q.itemsRelease r).head = (q.head + (usub r q.headSeqid + 1)) % q.size := by
    simp only [itemsRelease, hcount]
    rw [uadd_of_lt (by omega)]
  -- the slot in the new window, counted from the old head
  have hpos : (q.itemsRelease r).position t =
      (q.head + (usub r q.headSeqid + 1 + usub t (uadd r 1))) % q.size := by
    have hslot := position_serial (q := q.itemsRelease r) hsize ht
    rw [hslot, hnewHead]
    simp only [itemsRelease, Nat.mod_add_mod, Nat.add_assoc]
  have hposLt : (q.itemsRelease r).position t < q.size := Nat.mod_lt _ q.sizePos
  have hinuse : (q.itemsRelease r).itemsInuse ((q.itemsRelease r).position t) ≠ 0 ↔
      q.itemsInuse ((q.itemsRelease r).position t) ≠ 0 ∧
        ∀ k < usub r q.headSeqid + 1, (q.itemsRelease r).position t ≠ (q.head + k) % q.size :=
    releasedInuse_count_iff hsize hcount (by omega) hposLt
  by_cases hout : usub t q.headSeqid ≤ usub r q.headSeqid ∨ q.size ≤ usub t q.headSeqid
  · -- the slot is one of those that were released
    rw [if_pos hout]
    have hfree : (q.itemsRelease r).itemsInuse ((q.itemsRelease r).position t) = 0 := by
      by_contra hne
      refine (hinuse.mp hne).2 (usub r q.headSeqid + 1 + usub t (uadd r 1) - q.size) ?_ ?_
      · unfold usub uadd at *
        omega
      rw [hpos]
      have hback : usub r q.headSeqid + 1 + usub t (uadd r 1) =
          usub r q.headSeqid + 1 + usub t (uadd r 1) - q.size + q.size := by
        unfold usub uadd at *
        omega
      conv_lhs => rw [hback]
      rw [← Nat.add_assoc, Nat.add_mod_right]
    rw [item?, if_pos hfree]
  · rw [if_neg hout]
    push Not at hout
    have hsame : (q.itemsRelease r).position t = q.position t := by
      rw [hpos, position_serial hsize hout.2]
      congr 2
      unfold usub uadd at *
      omega
    have hkept : ∀ k < usub r q.headSeqid + 1, q.position t ≠ (q.head + k) % q.size := by
      intro k hk heq
      rw [position_serial hsize hout.2] at heq
      have hoff := offset_inj hout.2 (by omega) heq
      omega
    rw [hsame] at hinuse
    unfold item?
    rw [hsame]
    by_cases hzero : q.itemsInuse (q.position t) = 0
    · have hnew : (q.itemsRelease r).itemsInuse (q.position t) = 0 := by
        by_contra hne
        exact (hinuse.mp hne).1 hzero
      rw [if_pos hzero, if_pos hnew]
    · rw [if_neg hzero, if_neg (hinuse.mpr ⟨hzero, hkept⟩)]
      rfl

/-! ### The refinement -/

/-- A queue holds what its map holds. -/
structure Refines {size : ℕ} (q : Sq α) (map : SqMap α size) : Prop where
  size_eq : q.size = size
  start_eq : q.headSeqid = map.start
  start_lt : map.start < 2 ^ 32
  item_eq : ∀ s < 2 ^ 32, usub s map.start < size → q.item? s = map.items s

section Refines

variable {size : ℕ} {map map' : SqMap α size}

/-- A new queue is an empty map. -/
theorem refines_init {start : ℕ} (hpos : 0 < size) (hstart : start < 2 ^ 32) :
    (init size start hpos : Sq α).Refines (SqMap.empty start : SqMap α size) :=
  ⟨rfl, rfl, hstart, fun _ _ _ => rfl⟩

/-- The assertion of `sq_item_add` holds where the map has no item. -/
theorem Refines.itemAdd (h : q.Refines map) (hle : size ≤ 2 ^ 16) {item : α} (hs : s < 2 ^ 32)
    (hadd : map.add item s = some map') : ∃ q', q.itemAdd item s = some q' ∧ q'.Refines map' := by
  obtain ⟨hwin, hnone, hstart, hitems⟩ := SqMap.add_eq_some hadd
  have hsize : q.size ≤ 2 ^ 16 := h.size_eq ▸ hle
  have hswin : usub s q.headSeqid < q.size := by rwa [h.start_eq, h.size_eq]
  have hfree : q.itemsInuse (q.position s) = 0 := by
    have hitem := h.item_eq s hs hwin
    rw [hnone] at hitem
    by_contra hne
    have hsome := q.inuseItem _ hne
    rw [item?, if_neg hne] at hitem
    rw [hitem] at hsome
    cases hsome
  refine ⟨q.fill (q.position s) s item, ?_, h.size_eq, h.start_eq.trans hstart.symm,
    hstart ▸ h.start_lt, ?_⟩
  · rw [Sq.itemAdd, assertThat_bind_of_true hfree]
    rfl
  intro t ht htwin
  rw [hstart] at htwin
  rw [hitems]
  by_cases heq : t = s
  · subst heq
    rw [update_self, item?_fill_self]
  have htwin' : usub t q.headSeqid < q.size := by rwa [h.start_eq, h.size_eq]
  have hpos : q.position t ≠ q.position s :=
    fun hpos => heq (position_serial_inj hsize ht hs htwin' hswin hpos)
  rw [update_of_ne heq, ← h.item_eq t ht htwin]
  unfold item?
  rw [fill_position]
  simp only [fill, update_of_ne hpos]

/-- A release of the queue is one of the map. -/
theorem Refines.itemsRelease (h : q.Refines map) (hle : size ≤ 2 ^ 16)
    (hrelease : map.release s = some map') : (q.itemsRelease s).Refines map' := by
  obtain ⟨hwin, hstart, hitems⟩ := SqMap.release_eq_some hrelease
  have hsize : q.size ≤ 2 ^ 16 := h.size_eq ▸ hle
  have hswin : usub s q.headSeqid < q.size := by rwa [h.start_eq, h.size_eq]
  refine ⟨h.size_eq, hstart.symm, hstart ▸ uadd_lt _ _, ?_⟩
  intro t ht htwin
  rw [hstart] at htwin
  rw [item?_itemsRelease_serial hsize hswin (by rwa [h.size_eq]), h.start_eq, h.size_eq, hitems]
  by_cases hreleased : usub t map.start ≤ usub s map.start
  · rw [if_pos (.inl hreleased), if_pos hreleased]
  · rw [if_neg hreleased]
    by_cases hbehind : size ≤ usub t map.start
    · rw [if_pos (.inr hbehind), map.outside t hbehind]
    · rw [if_neg (by omega), h.item_eq t ht (by omega)]

/-- A queue that is initialised again is an empty map. -/
theorem Refines.reinit (h : q.Refines map) {start : ℕ} (hstart : start < 2 ^ 32) :
    (q.reinit start).Refines (SqMap.empty start : SqMap α size) :=
  ⟨h.size_eq, rfl, hstart, fun _ _ _ => rfl⟩

/-- What a queue answers about a number, by its map. -/
theorem Refines.answers (h : q.Refines map) (hle : size ≤ 2 ^ 16) (hs : s < 2 ^ 32) :
    (q.inRange s = true ↔ usub s q.headSeqid < size) ∧
      (q.inRange s = true →
        q.itemGet s = some (map.items s) ∧ q.itemInuse s = (map.items s).isSome) := by
  have hsize : q.size ≤ 2 ^ 16 := h.size_eq ▸ hle
  have hhead : q.headSeqid < 2 ^ 32 := h.start_eq ▸ h.start_lt
  have hrange := inRange_serial_iff hsize hhead hs
  refine ⟨by rw [hrange, h.size_eq], fun hin => ?_⟩
  have hwin := hrange.mp hin
  have hitem := h.item_eq s hs (by rwa [← h.start_eq, ← h.size_eq])
  rw [itemGet_serial hsize hs hwin, itemInuse_eq_isSome, hitem]
  exact ⟨rfl, rfl⟩

end Refines

end Sq

/-! ### Runs of operations -/

/-- The operations on a family of sort queues. -/
inductive SqOp (ι α : Type)
  | itemAdd (queue : ι) (item : α) (seqid : UInt32)
  | itemsRelease (queue : ι) (seqid : UInt32)
  | reinit (queue : ι) (headSeqid : UInt32)
  | copy (dest src : ι)

section Runs

variable {ι α : Type} [DecidableEq ι] {size : ℕ} {queues : ι → Sq α}

/-- An operation on the queues, which fails with an assertion. -/
def sqStep (queues : ι → Sq α) : SqOp ι α → Option (ι → Sq α)
  | .itemAdd queue item seqid =>
    ((queues queue).itemAdd item seqid.toNat).map (update queues queue)
  | .itemsRelease queue seqid =>
    some (update queues queue ((queues queue).itemsRelease seqid.toNat))
  | .reinit queue headSeqid =>
    some (update queues queue ((queues queue).reinit headSeqid.toNat))
  | .copy dest src => (queues src).copy.map (update queues dest)

/-- An operation on the maps, which refuses to add or release outside the window and to add for a
number that has an item. -/
def sqMapStep (maps : ι → SqMap α size) : SqOp ι α → Option (ι → SqMap α size)
  | .itemAdd queue item seqid =>
    ((maps queue).add item seqid.toNat).map (update maps queue)
  | .itemsRelease queue seqid =>
    ((maps queue).release seqid.toNat).map (update maps queue)
  | .reinit queue headSeqid => some (update maps queue (.empty headSeqid.toNat))
  | .copy dest src => some (update maps dest (maps src))

/-- One queue changes with its map. -/
theorem refines_update {maps : ι → SqMap α size} {queue : ι} {q : Sq α}
    {map : SqMap α size} (hall : ∀ i, (queues i).Refines (maps i)) (hnew : q.Refines map) (i : ι) :
    (update queues queue q i).Refines (update maps queue map i) := by
  by_cases heq : i = queue
  · subst heq
    rwa [update_self, update_self]
  · rw [update_of_ne heq, update_of_ne heq]
    exact hall i

/-- An operation that the maps allow is done by the queues, without a failed assertion. -/
theorem sqStep_refines (hle : size ≤ 2 ^ 16) {maps maps' : ι → SqMap α size}
    {op : SqOp ι α} (hall : ∀ i, (queues i).Refines (maps i))
    (hstep : sqMapStep maps op = some maps') :
    ∃ queues', sqStep queues op = some queues' ∧ ∀ i, (queues' i).Refines (maps' i) := by
  cases op with
  | itemAdd queue _ seqid =>
    obtain ⟨map, hadd, rfl⟩ := Option.map_eq_some_iff.mp hstep
    obtain ⟨q, hq, hnew⟩ := (hall queue).itemAdd hle seqid.toNat_lt hadd
    exact ⟨_, by rw [sqStep, hq, Option.map_some], refines_update hall hnew⟩
  | itemsRelease queue _ =>
    obtain ⟨map, hrelease, rfl⟩ := Option.map_eq_some_iff.mp hstep
    exact ⟨_, rfl, refines_update hall ((hall queue).itemsRelease hle hrelease)⟩
  | reinit queue headSeqid =>
    cases hstep
    exact ⟨_, rfl, refines_update hall ((hall queue).reinit headSeqid.toNat_lt)⟩
  | copy dest src =>
    cases hstep
    refine ⟨update queues dest (queues src), ?_, refines_update hall (hall src)⟩
    rw [sqStep, Sq.copy, assertThat_bind_of_true (queues src).sqAssert_eq_true]
    rfl

/-- Every run of the maps is one of the queues. -/
theorem run_sqStep_refines (hle : size ≤ 2 ^ 16)
    {maps maps' : ι → SqMap α size} (ops : List (SqOp ι α))
    (hall : ∀ i, (queues i).Refines (maps i)) (hrun : run sqMapStep maps ops = some maps') :
    ∃ queues', run sqStep queues ops = some queues' ∧ ∀ i, (queues' i).Refines (maps' i) := by
  induction ops generalizing queues maps with
  | nil =>
    cases hrun
    exact ⟨queues, rfl, hall⟩
  | cons _ _ ih =>
    obtain ⟨maps₁, hstep, hrest⟩ := Option.bind_eq_some_iff.mp hrun
    obtain ⟨queues₁, hqueues₁, hall₁⟩ := sqStep_refines hle hall hstep
    obtain ⟨queues', hqueues', hall'⟩ := ih hall₁ hrest
    exact ⟨queues', by rw [run, hqueues₁, Option.bind_some, hqueues'], hall'⟩

/-- Sort queues of at most `0x10000` slots do every sequence of operations that windowed maps
allow. No assertion fails, `sq_in_range` accepts the window, and inside it `sq_item_get` and
`sq_item_inuse` report what the map holds. -/
theorem sq_refines_maps (hpos : 0 < size) (hle : size ≤ 0x10000) (heads : ι → UInt32)
    (ops : List (SqOp ι α)) (maps : ι → SqMap α size)
    (hrun : run sqMapStep (fun i => .empty (heads i).toNat) ops = some maps) :
    ∃ queues, run sqStep (fun i => .init size (heads i).toNat hpos) ops = some queues ∧
      ∀ i (s : UInt32), (queues i).headSeqid = (maps i).start ∧ (queues i).sqAssert = true ∧
        ((queues i).inRange s.toNat = true ↔ usub s.toNat (queues i).headSeqid < size) ∧
        ((queues i).inRange s.toNat = true →
          (queues i).itemGet s.toNat = some ((maps i).items s.toNat) ∧
            (queues i).itemInuse s.toNat = ((maps i).items s.toNat).isSome) := by
  obtain ⟨queues, hqueues, hall⟩ := run_sqStep_refines hle ops
    (fun i => Sq.refines_init hpos (heads i).toNat_lt) hrun
  refine ⟨queues, hqueues, fun i s => ⟨(hall i).start_eq, (queues i).sqAssert_eq_true, ?_⟩⟩
  exact (hall i).answers hle s.toNat_lt

/-- A queue of four slots across the wrap: an item behind a released one is found in a copy. -/
theorem sq_refines_maps_wrap :
    ∃ maps : Bool → SqMap ℕ 4, ∃ queues : Bool → Sq ℕ, run sqMapStep (fun _ => .empty 0xFFFFFFFE)
        [.itemAdd false 7 0xFFFFFFFE, .itemAdd false 8 0, .itemsRelease false 0xFFFFFFFF,
          .copy true false] = some maps ∧
      run sqStep (fun _ => .init 4 0xFFFFFFFE (by decide))
        [.itemAdd false 7 0xFFFFFFFE, .itemAdd false 8 0, .itemsRelease false 0xFFFFFFFF,
          .copy true false] = some queues ∧
      (queues true).itemGet 0 = some (some 8) := by
  obtain ⟨queues, hqueues, hanswers⟩ := sq_refines_maps (by decide : 0 < 4) (by decide)
    (fun _ : Bool => 0xFFFFFFFE)
    [.itemAdd false 7 0xFFFFFFFE, .itemAdd false 8 0, .itemsRelease false 0xFFFFFFFF,
      .copy true false] _ rfl
  obtain ⟨hhead, -, hrange, hget⟩ := hanswers true 0
  refine ⟨_, queues, rfl, hqueues, (hget (hrange.mpr ?_)).1⟩
  rw [hhead]
  decide

end Runs

end Corosync
