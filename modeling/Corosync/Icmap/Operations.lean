import Corosync.Icmap.Store
import Mathlib.Algebra.Ring.Int.Defs

/-!
# Adjusting a number and copying a map

`icmap_adjust_int_r` sets its result with `icmap_set`, which is about the global map whatever map it
was given, while `icmap_fast_adjust_int_r` changes the item in place. `icmap_copy_map` sets every
item with the length it is stored with, which for a string is the one with the terminator.

Numbers are little-endian.
-/

namespace Corosync.Icmap

open Library List

/-- The types whose values are adjusted. -/
def ValueType.isInteger : ValueType → Bool
  | .float | .double | .string | .binary => false
  | _ => true

namespace Item

variable (item : Item) (step : Int32)

/-- The bytes of the number after a step, modulo the width of the type. -/
def adjustedValue : List UInt8 :=
  leBytes item.type.len ((ofLeBytes item.value + step.toInt) % 256 ^ item.type.len).toNat

variable {item}

/-- The bytes of a number are as many as its type says. -/
theorem fits_iff (hint : item.type.isInteger = true) (value : List UInt8) :
    item.type.Fits value ↔ value.length = item.type.len := by
  unfold ValueType.isInteger at hint
  unfold ValueType.Fits
  split <;> simp_all

/-- The item after a step. -/
def adjusted (hint : item.type.isInteger = true) : Item where
  type := item.type
  value := item.adjustedValue step
  fits := (fits_iff hint _).mpr (length_leBytes _ _)

/-- The number after a step, as it is passed to `icmap_set`. -/
def adjustedArgument (hint : item.type.isInteger = true) : Argument where
  value := item.adjustedValue step
  valueLen := item.type.len
  type := item.type
  readable := by
    rw [if_neg fun hstring => by rw [hstring] at hint; cases hint]
    exact (length_leBytes _ _).ge

/-- The number after a step. -/
theorem ofLeBytes_adjustedValue : (ofLeBytes (item.adjustedValue step) : ℤ) =
    (ofLeBytes item.value + step.toInt) % 256 ^ item.type.len := by
  have hpos : (0 : ℤ) < 256 ^ item.type.len := Int.pow_pos (by decide)
  have hnonneg := Int.emod_nonneg (ofLeBytes item.value + step.toInt) hpos.ne'
  have hlt := Int.emod_lt_of_pos (ofLeBytes item.value + step.toInt) hpos
  rw [adjustedValue, ofLeBytes_leBytes ((Int.toNat_lt hnonneg).mpr (by exact_mod_cast hlt)),
    Int.toNat_of_nonneg hnonneg]

/-- A step leaves a number as it is if and only if it is a multiple of the range of the type. -/
theorem adjusted_eq_iff (hint : item.type.isInteger = true) :
    (ofLeBytes item.value : ℤ) = (ofLeBytes item.value + step.toInt) % 256 ^ item.type.len ↔
      (256 ^ item.type.len : ℤ) ∣ step.toInt := by
  have hlt : (ofLeBytes item.value : ℤ) < 256 ^ item.type.len := by
    have hlength := (fits_iff hint _).mp item.fits
    exact_mod_cast hlength ▸ ofLeBytes_lt item.value
  have hself := Int.emod_eq_of_lt (Int.natCast_nonneg _) hlt
  have hsub : (ofLeBytes item.value : ℤ) + step.toInt - ofLeBytes item.value = step.toInt := by
    omega
  rw [← hself, Int.emod_add_emod, eq_comm, Int.emod_eq_emod_iff_emod_sub_eq_zero, hsub,
    Int.dvd_iff_emod_eq_zero]

/-- Such a step leaves the item as it is. -/
theorem adjusted_eq (hint : item.type.isInteger = true)
    (hstep : (256 ^ item.type.len : ℤ) ∣ step.toInt) : item.adjusted step hint = item := by
  refine Item.ext rfl ?_
  have hlength := (fits_iff hint _).mp item.fits
  change leBytes _ _ = _
  rw [← (adjusted_eq_iff step hint).mpr hstep, Int.toNat_natCast, ← hlength, leBytes_ofLeBytes]

/-- The length of an adjusted number is accepted. -/
theorem checkValueLen_adjustedArgument (hint : item.type.isInteger = true) :
    (item.adjustedArgument step hint).checkValueLen = true := by
  unfold Argument.checkValueLen
  cases htype : item.type <;> simp_all [adjustedArgument, ValueType.len, maxValueLen]

/-- The item that `icmap_set` makes of an adjusted number. -/
theorem newItem_adjustedArgument (hint : item.type.isInteger = true) :
    (item.adjustedArgument step hint).newItem (checkValueLen_adjustedArgument step hint) =
      item.adjusted step hint := by
  refine Item.ext rfl ?_
  have hstring : (item.adjustedArgument step hint).type ≠ .string := fun hstring => by
    rw [show item.type = .string from hstring] at hint
    cases hint
  refine (Argument.newValue_eq (checkValueLen_adjustedArgument step hint)).trans ?_
  rw [Argument.stored, if_neg hstring]
  exact take_of_length_le (length_leBytes _ _).le

/-- A stored item as `icmap_copy_map` passes it on. -/
def argument (item : Item) : Argument where
  value := item.value
  valueLen := item.value.length
  type := item.type
  readable := by
    have hfits := item.fits
    split
    · next hstring =>
      rw [hstring] at hfits
      obtain ⟨text, -, -, hvalue⟩ := hfits
      rw [hvalue]
      exact mem_append_right _ (mem_singleton_self _)
    · exact Nat.le_refl _

/-- A stored item is accepted again, unless its length with the terminator is too long. -/
theorem checkValueLen_argument :
    item.argument.checkValueLen = true ↔ item.value.length ≤ maxValueLen := by
  have hfits := item.fits
  unfold Argument.checkValueLen
  split
  · next hlen => exact iff_of_false Bool.false_ne_true (Nat.not_le.mpr hlen)
  · next hlen =>
    refine iff_of_true ?_ (Nat.not_lt.mp hlen)
    cases htype : item.type <;> simp_all [argument, ValueType.Fits]
    obtain ⟨text, hzero, -, hvalue⟩ := hfits
    rw [hvalue, cString_append hzero, length_append, length_singleton]

/-- It is stored as it is. -/
theorem stored_argument : item.argument.stored = item.value := by
  have hfits := item.fits
  rw [Argument.stored]
  split
  · next hstring =>
    rw [show item.type = .string from hstring] at hfits
    obtain ⟨text, hzero, -, hvalue⟩ := hfits
    simp [argument, hvalue, cString_append hzero, take_of_length_le]
  · exact take_length

end Item

namespace Store

section Adjust

variable {ι : Type*} [DecidableEq ι] (maps : ι → Store) (global map : ι) (key : String)
  (step : Int32)

/-- `icmap_adjust_int_r` -/
def adjustIntR : Error × (ι → Store) :=
  match (maps map).items[key]? with
  | none => (.notExist, maps)
  | some item =>
    if hint : item.type.isInteger = true then
      let result := (maps global).setR key (item.adjustedArgument step hint)
      (result.error, Function.update maps global result.map)
    else (.invalidParam, maps)

/-- `icmap_fast_adjust_int_r` -/
def fastAdjustIntR : Error × (ι → Store) :=
  match hitem : (maps map).items[key]? with
  | none => (.notExist, maps)
  | some item =>
    if hint : item.type.isInteger = true then
      (.ok, Function.update maps map
        ((maps map).put key (item.adjusted step hint) ((maps map).names hitem)))
    else (.invalidParam, maps)

/-- What an adjustment of an item is to do: a number goes on by the step, modulo the width of its
type, and nothing else changes in any map. -/
structure Adjusts (item : Item) (result : Error × (ι → Store)) : Prop where
  error : result.1 = if item.type.isInteger then .ok else .invalidParam
  value : ∃ item', (result.2 map).items[key]? = some item' ∧ item'.type = item.type ∧
    if item.type.isInteger then
      (ofLeBytes item'.value : ℤ) = (ofLeBytes item.value + step.toInt) % 256 ^ item.type.len
    else item'.value = item.value
  others : ∀ name ≠ key, (result.2 map).items[name]? = (maps map).items[name]?
  elsewhere : ∀ other ≠ map, result.2 other = maps other

variable {maps global map key step} {item : Item}

omit [DecidableEq ι] in
/-- The item of a map becomes the adjusted one, and that is all. -/
theorem Adjusts.of_put {after : ι → Store} (hint : item.type.isInteger = true)
    (hput : ∀ name, (after map).items[name]? =
      if key = name then some (item.adjusted step hint) else (maps map).items[name]?)
    (helsewhere : ∀ other ≠ map, after other = maps other) :
    Adjusts maps map key step item (.ok, after) where
  error := (if_pos hint).symm
  value := by
    refine ⟨item.adjusted step hint, (hput key).trans (if_pos rfl), rfl, ?_⟩
    rw [if_pos hint]
    exact Item.ofLeBytes_adjustedValue step
  others name hne := (hput name).trans (if_neg (Ne.symm hne))
  elsewhere := helsewhere

omit [DecidableEq ι] in
/-- Another type is refused. -/
theorem Adjusts.of_refused (hitem : (maps map).items[key]? = some item)
    (hint : ¬item.type.isInteger = true) :
    Adjusts maps map key step item (.invalidParam, maps) where
  error := (if_neg hint).symm
  value := ⟨item, hitem, rfl, by rw [if_neg hint]⟩
  others _ _ := rfl
  elsewhere _ _ := rfl

/-- A change in place is what it is to be. -/
theorem adjusts_fastAdjustIntR (hitem : (maps map).items[key]? = some item) :
    Adjusts maps map key step item (fastAdjustIntR maps map key step) := by
  unfold fastAdjustIntR
  split
  · next hnone =>
    rw [hitem] at hnone
    cases hnone
  · next found hfound =>
    obtain rfl : item = found := Option.some.inj (hitem.symm.trans hfound)
    split
    · next hint =>
      refine .of_put hint (fun name => ?_) fun other hne => Function.update_of_ne hne _ _
      rw [Function.update_self, getElem?_put]
    · next hint => exact .of_refused hitem hint

/-- Setting the adjusted number in the global map. -/
theorem adjustIntR_eq (global : ι) (step : Int32) (hitem : (maps map).items[key]? = some item)
    (hint : item.type.isInteger = true) : ∃ after,
      adjustIntR maps global map key step = (.ok, Function.update maps global after) ∧
      ∀ name, after.items[name]? =
        if key = name then some (item.adjusted step hint) else (maps global).items[name]? := by
  have hname := (maps map).names hitem
  have hlen := Item.checkValueLen_adjustedArgument step hint
  refine ⟨((maps global).setR key (item.adjustedArgument step hint)).map, ?_, fun name => ?_⟩
  · rw [adjustIntR, hitem]
    simp only [dif_pos hint, setR_error, if_pos hlen, if_pos hname]
  · rw [getElem?_setR hlen hname, Item.newItem_adjustedArgument]

/-- Setting the result is what it is to be in the global map; in another one it is if the item is no
number, or if the step changes nothing and the global map has the same item. -/
theorem adjusts_adjustIntR_iff (hitem : (maps map).items[key]? = some item) :
    Adjusts maps map key step item (adjustIntR maps global map key step) ↔
      (item.type.isInteger = true → map = global ∨
        (256 ^ item.type.len : ℤ) ∣ step.toInt ∧ (maps global).items[key]? = some item) := by
  by_cases hint : item.type.isInteger = true
  · obtain ⟨after, hresult, hafter⟩ := adjustIntR_eq global step hitem hint
    rw [hresult]
    refine ⟨fun hadjusts _ => or_iff_not_imp_left.mpr fun hne => ?_, fun hcond => ?_⟩
    · have hmap : after = maps global :=
        (Function.update_self global after maps).symm.trans (hadjusts.elsewhere _ (Ne.symm hne))
      obtain ⟨kept, hkept, -, hnumber⟩ := hadjusts.value
      simp only [Function.update_of_ne hne, hitem, Option.some.injEq] at hkept
      rw [← hkept, if_pos hint] at hnumber
      have hstep := (Item.adjusted_eq_iff step hint).mp hnumber
      exact ⟨hstep, by rw [← hmap, hafter, if_pos rfl, Item.adjusted_eq step hint hstep]⟩
    · rcases hcond hint with rfl | ⟨hstep, hglobal⟩
      · refine .of_put hint (fun name => ?_) fun other hne => Function.update_of_ne hne _ _
        rw [Function.update_self, hafter]
      · have hsame := Item.adjusted_eq step hint hstep
        have hmap : after = maps global := by
          refine Store.ext (Std.ExtTreeMap.ext_getElem? fun name => ?_)
          rw [hafter, hsame, ← getElem?_eq_ite hglobal]
        rw [hmap, Function.update_eq_self]
        refine .of_put hint (fun name => ?_) fun _ _ => rfl
        rw [hsame, ← getElem?_eq_ite hitem]
  · refine iff_of_true ?_ fun h => absurd h hint
    have hresult : adjustIntR maps global map key step = (.invalidParam, maps) := by
      rw [adjustIntR, hitem]
      exact dif_neg hint
    rw [hresult]
    exact .of_refused hitem hint

/-- Both adjustments of an item do the same to its map, and to that map only, if and only if the map
is the global one, or the item is no number, or the step is a multiple of the range of its type and
the global map holds the same item. -/
theorem adjustIntR_agree_iff (hitem : (maps map).items[key]? = some item) :
    (Adjusts maps map key step item (adjustIntR maps global map key step) ∧
        Adjusts maps map key step item (fastAdjustIntR maps map key step)) ↔
      (map = global ∨ item.type.isInteger = false ∨
        (256 ^ item.type.len : ℤ) ∣ step.toInt ∧ (maps global).items[key]? = some item) := by
  rw [adjusts_adjustIntR_iff hitem, and_iff_left (adjusts_fastAdjustIntR hitem)]
  cases item.type.isInteger <;> simp

end Adjust

/-- A counter. -/
def counter (count : UInt8) : Item := ⟨.uint32, [count, 0, 0, 0], rfl⟩

/-- A map with a counter. -/
def counterMap : Store := empty.put "stats.count" (counter 5) (by decide)

/-- An empty global map and another one with a counter. -/
def twoMaps (second : Bool) : Store := if second then counterMap else empty

/-- The counter. -/
theorem counterMap_count : counterMap.items["stats.count"]? = some (counter 5) := by
  rw [counterMap, getElem?_put, if_pos rfl]

/-- The counter of another map than the global one stays as it is, and the global map gets a new
key. -/
theorem adjustIntR_changes_global :
    (adjustIntR twoMaps false true "stats.count" 1).1 = .ok ∧
    ((adjustIntR twoMaps false true "stats.count" 1).2 true).items["stats.count"]? =
      some (counter 5) ∧
    (twoMaps false).items["stats.count"]? = none ∧
    ((adjustIntR twoMaps false true "stats.count" 1).2 false).items["stats.count"]? =
      some (counter 6) := by
  have hcount : (twoMaps true).items["stats.count"]? = some (counter 5) := counterMap_count
  obtain ⟨after, hresult, hafter⟩ := adjustIntR_eq false 1 hcount rfl
  simp only [hresult, Function.update_self, hafter, if_true, true_and]
  refine ⟨hcount, rfl, congrArg some (Item.ext rfl ?_)⟩
  decide

/-- The counter goes on in the global map. -/
theorem adjustIntR_agree_iff_counterMap :
    Adjusts (fun _ : Unit => counterMap) () "stats.count" 1 (counter 5)
      (adjustIntR (fun _ : Unit => counterMap) () () "stats.count" 1) :=
  ((adjustIntR_agree_iff counterMap_count).mpr (.inl rfl)).1

section Copy

variable {dst src : Store} {list : List (String × Item)}

/-- The loop of `icmap_copy_map` -/
def copyItems : Store → List (String × Item) → Error × Store
  | dst, [] => (.ok, dst)
  | dst, (key, item) :: rest =>
    let result := dst.setR key item.argument
    if result.error = .ok then copyItems result.map rest else (result.error, result.map)

/-- `icmap_copy_map` -/
def copyMap (dst src : Store) : Error × Store := copyItems dst src.items.toList

/-- `icmap_key_value_eq` -/
def keyValueEq (map1 : Store) (key1 : String) (map2 : Store) (key2 : String) : Bool :=
  match map1.items[key1]?, map2.items[key2]? with
  | some item1, some item2 => item1.eq item2.argument
  | _, _ => false

/-- An item that is accepted again is put as it is. -/
theorem items_setR_argument {key : String} {item : Item} (hname : checkKeyName key = true)
    (hlen : item.value.length ≤ maxValueLen) :
    (dst.setR key item.argument).map.items = dst.items.insert key item := by
  have hcheck := Item.checkValueLen_argument.mpr hlen
  refine Std.ExtTreeMap.ext_getElem? fun name => ?_
  rw [getElem?_setR hcheck hname, Std.ExtTreeMap.getElem?_insert]
  have hitem : item.argument.newItem hcheck = item :=
    Item.ext rfl ((Argument.newValue_eq hcheck).trans Item.stored_argument)
  simp only [hitem, Std.compare_eq_iff_eq]

/-- The loop goes through if and only if every item is accepted again. -/
theorem copyItems_ok_iff (hnames : ∀ entry ∈ list, checkKeyName entry.1 = true) :
    (copyItems dst list).1 = .ok ↔ ∀ entry ∈ list, entry.2.value.length ≤ maxValueLen := by
  induction list generalizing dst with
  | nil => simp [copyItems]
  | cons entry rest ih =>
    obtain ⟨hname, hrest⟩ := forall_mem_cons.mp hnames
    rw [forall_mem_cons, copyItems, setR_error, if_pos hname, ← Item.checkValueLen_argument]
    by_cases hcheck : entry.2.argument.checkValueLen = true
    · simp [hcheck, ih hrest]
    · simp [hcheck]

/-- The items after the loop. -/
theorem items_copyItems (hnames : ∀ entry ∈ list, checkKeyName entry.1 = true)
    (hlens : ∀ entry ∈ list, entry.2.value.length ≤ maxValueLen) :
    (copyItems dst list).2.items = dst.items.insertMany list := by
  induction list generalizing dst with
  | nil => simp [copyItems]
  | cons entry rest ih =>
    obtain ⟨hname, hnames⟩ := forall_mem_cons.mp hnames
    obtain ⟨hlen, hlens⟩ := forall_mem_cons.mp hlens
    have hcheck := Item.checkValueLen_argument.mpr hlen
    rw [copyItems, setR_error, if_pos hname, if_pos hcheck]
    rw [if_pos rfl, ih hnames hlens, items_setR_argument hname hlen, Std.ExtTreeMap.insertMany_cons]

/-- The entries that the copy goes through are those of the map. -/
theorem mem_toList {entry : String × Item} :
    entry ∈ src.items.toList ↔ src.items[entry.1]? = some entry.2 :=
  Std.ExtTreeMap.mem_toList_iff_getElem?_eq_some

/-- The names of a map are accepted again. -/
theorem names_toList : ∀ entry ∈ src.items.toList, checkKeyName entry.1 = true :=
  fun _ hentry => src.names (mem_toList.mp hentry)

/-- A map whose items are accepted again is copied as it is. -/
theorem copyMap_eq
    (hlens : ∀ (key : String) (item : Item), src.items[key]? = some item →
      item.value.length ≤ maxValueLen) :
    copyMap empty src = (.ok, src) := by
  have hentries : ∀ entry ∈ src.items.toList, entry.2.value.length ≤ maxValueLen :=
    fun entry hentry => hlens _ _ (mem_toList.mp hentry)
  refine Prod.ext ((copyItems_ok_iff names_toList).mpr hentries) (Store.ext ?_)
  refine (items_copyItems names_toList hentries).trans (Std.ExtTreeMap.ext_getElem? fun key => ?_)
  cases hitem : src.items[key]? with
  | none =>
    rw [Std.ExtTreeMap.getElem?_insertMany_list_of_contains_eq_false]
    · rfl
    · simp [Std.ExtTreeMap.mem_iff_isSome_getElem?, hitem]
  | some item =>
    exact Std.ExtTreeMap.getElem?_insertMany_list_of_mem Std.ReflOrd.compare_self
      Std.ExtTreeMap.distinct_keys_toList (mem_toList.mpr hitem)

/-- An item that is accepted again is equal to itself. -/
theorem keyValueEq_self {key : String} {item : Item} (hitem : src.items[key]? = some item)
    (hlen : item.value.length ≤ maxValueLen) : src.keyValueEq key src key = true := by
  rw [keyValueEq, hitem]
  exact (Item.eq_iff (Item.checkValueLen_argument.mpr hlen)).mpr ⟨rfl, Item.stored_argument.symm⟩

/-- A map is copied, with the same keys and with values that are equal in both directions, if and
only if none of its items is longer with its terminator than the longest length that is accepted. -/
theorem copyMap_copies_iff (src : Store) :
    ((copyMap empty src).1 = .ok ∧
        (∀ key, key ∈ (copyMap empty src).2.items ↔ key ∈ src.items) ∧
        ∀ key ∈ src.items, src.keyValueEq key (copyMap empty src).2 key = true ∧
          (copyMap empty src).2.keyValueEq key src key = true) ↔
      ∀ (key : String) (item : Item), src.items[key]? = some item →
        item.value.length ≤ maxValueLen := by
  constructor
  · rintro ⟨hok, -, -⟩ key item hitem
    exact (copyItems_ok_iff names_toList).mp hok (key, item) (mem_toList.mpr hitem)
  · intro hlens
    rw [copyMap_eq hlens]
    refine ⟨rfl, fun _ => Iff.rfl, fun key hkey => ?_⟩
    obtain ⟨item, hitem⟩ := Option.isSome_iff_exists.mp
      (Std.ExtTreeMap.mem_iff_isSome_getElem?.mp hkey)
    have hself := keyValueEq_self hitem (hlens key item hitem)
    exact ⟨hself, hself⟩

/-- A string of as many characters as the longest length. -/
def longText : Argument where
  value := replicate maxValueLen 97 ++ [0]
  valueLen := maxValueLen
  type := .string
  readable := by simp

/-- A map with such a string is not copied. -/
theorem longText_not_copied :
    (empty.setR "long.text" longText).error = .ok ∧
      (copyMap empty (empty.setR "long.text" longText).map).1 ≠ .ok := by
  have hzero : (0 : UInt8) ∉ replicate maxValueLen 97 := by simp
  have hname : checkKeyName "long.text" = true := by decide
  have hlen : longText.checkValueLen = true := by
    simp [Argument.checkValueLen, longText, cString_append hzero]
  refine ⟨by rw [setR_error, if_pos hlen, if_pos hname], fun hok => ?_⟩
  have hitem : (empty.setR "long.text" longText).map.items["long.text"]? =
      some (longText.newItem hlen) := by rw [getElem?_setR hlen hname, if_pos rfl]
  have hle := (copyItems_ok_iff names_toList).mp hok
    ("long.text", longText.newItem hlen) (mem_toList.mpr hitem)
  simp [Argument.value_newItem, Argument.stored, longText, cString_append hzero] at hle

end Copy

end Store

end Corosync.Icmap
