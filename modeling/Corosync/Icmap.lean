import Mathlib.Data.String.Basic

/-!
# The configuration map

`icmap.c` keeps typed values under names such as `totem.token`. The trie of libqb iterates over the
names in alphabetical order, which is the order of `Std.ExtTreeMap`.

Allocation does not fail here. The bytes of the values, their lengths and the checks are in
`Icmap/Store`.
-/

namespace Corosync

/-- A value with its `icmap_value_types_t`; floats are their bits. -/
inductive Icmap.Value
  | int8 (value : Int8)
  | uint8 (value : UInt8)
  | int16 (value : Int16)
  | uint16 (value : UInt16)
  | int32 (value : Int32)
  | uint32 (value : UInt32)
  | int64 (value : Int64)
  | uint64 (value : UInt64)
  | float (bits : UInt32)
  | double (bits : UInt64)
  | string (value : String)
  | binary (value : List UInt8)
deriving DecidableEq

/-- `icmap_map_t` -/
abbrev Icmap := Std.ExtTreeMap String Icmap.Value

namespace Icmap

variable {map other : Icmap} {key : String}

/-- A name starts with a prefix, as compared by `strncmp` and the iterators. -/
def Under (name start : String) : Prop := start.toList <+: name.toList

instance (name start : String) : Decidable (Under name start) :=
  inferInstanceAs (Decidable (_ <+: _))

/-- The names an iterator with a prefix goes through. -/
def iter (map : Icmap) (start : String) : List String := map.keys.filter (Under · start)

/-- An iteration goes over the keys under a name. -/
theorem mem_iter {start : String} : key ∈ map.iter start ↔ key ∈ map ∧ Under key start := by
  simp [iter, List.mem_filter, Std.ExtTreeMap.mem_keys]

/-- Iterators are sorted; `remove_deleted_entries` depends on it. -/
theorem pairwise_iter (map : Icmap) (start : String) : (map.iter start).Pairwise (· < ·) := by
  have hkeys : map.keys.Pairwise (· < ·) :=
    Std.ExtTreeMap.ordered_keys.imp fun hlt => compare_lt_iff_lt.mp hlt
  exact hkeys.filter _

/-- The entries after one is set. -/
theorem getElem?_set (value : Value) (name : String) :
    (map.insert key value)[name]? = if key = name then some value else map[name]? := by
  rw [Std.ExtTreeMap.getElem?_insert]
  simp only [Std.compare_eq_iff_eq]

/-- The entries after one is deleted. -/
theorem getElem?_delete (name : String) :
    (map.erase key)[name]? = if key = name then none else map[name]? := by
  rw [Std.ExtTreeMap.getElem?_erase]
  simp only [Std.compare_eq_iff_eq]

/-- `icmap_key_value_eq` of one name in two maps. -/
def keyValueEq (map other : Icmap) (key : String) : Bool :=
  match map[key]?, other[key]? with
  | some item, some item' => item = item'
  | _, _ => false

/-- Two maps have the same value of a key. -/
theorem keyValueEq_iff : map.keyValueEq other key = true ↔ key ∈ map ∧ map[key]? = other[key]? := by
  unfold keyValueEq
  rw [Std.ExtTreeMap.mem_iff_isSome_getElem?]
  cases map[key]? <;> cases other[key]? <;> simp

/-- Several writes, in order. -/
def setAll (map : Icmap) (items : List (String × Value)) : Icmap :=
  items.foldl (fun map item => map.insert item.1 item.2) map

/-- They are the writes of the library. -/
theorem setAll_eq_insertMany (items : List (String × Value)) :
    map.setAll items = map.insertMany items := by
  induction items generalizing map with
  | nil => simp [setAll]
  | cons _ _ ih => exact ih.trans Std.ExtTreeMap.insertMany_cons.symm

variable {items : List (String × Value)} {name : String}

/-- Entries that are not set stay. -/
theorem getElem?_setAll_of_notMem (hnotMem : name ∉ items.map Prod.fst) :
    (map.setAll items)[name]? = map[name]? := by
  rw [setAll_eq_insertMany, Std.ExtTreeMap.getElem?_insertMany_list_of_contains_eq_false]
  simpa using hnotMem

/-- Writes to different names do not disturb each other. -/
theorem getElem?_setAll_of_mem {value : Value}
    (hdistinct : items.Pairwise fun item item' => item.1 ≠ item'.1)
    (hmem : (name, value) ∈ items) : (map.setAll items)[name]? = some value := by
  rw [setAll_eq_insertMany]
  refine Std.ExtTreeMap.getElem?_insertMany_list_of_mem Std.ReflOrd.compare_self ?_ hmem
  exact hdistinct.imp fun hne heq => hne (Std.compare_eq_iff_eq.mp heq)

/-- `icmap_copy_map`, from `src` to `dst` -/
def copyMap (dst src : Icmap) : Icmap := dst.setAll src.toList

/-- The entries of a copy come first. -/
theorem getElem?_copyMap (dst src : Icmap) (name : String) :
    (dst.copyMap src)[name]? = src[name]?.or dst[name]? := by
  have hdistinct : src.toList.Pairwise fun item item' => item.1 ≠ item'.1 :=
    Std.ExtTreeMap.distinct_keys_toList.imp fun hne heq => hne (Std.compare_eq_iff_eq.mpr heq)
  cases hsrc : src[name]? with
  | none =>
    refine getElem?_setAll_of_notMem fun hmem => ?_
    rw [Std.ExtTreeMap.map_fst_toList_eq_keys, Std.ExtTreeMap.mem_keys,
      Std.ExtTreeMap.mem_iff_isSome_getElem?, hsrc] at hmem
    cases hmem
  | some _ =>
    exact getElem?_setAll_of_mem hdistinct
      (Std.ExtTreeMap.mem_toList_iff_getElem?_eq_some.mpr hsrc)

end Icmap

end Corosync
