import Corosync.Library.LittleEndian
import Mathlib.Data.String.Basic

/-!
# The bytes of the configuration map

`icmap_set_r` takes a pointer, a length and a type, and a string may be longer than the length it is
given with: it is then cut and terminated. `Icmap` has the values only; here are the lengths, the
comparison with the item that is stored, and the checks. Pointers are not null.
-/

namespace Corosync.Icmap

open List

/-- `icmap_value_types_t` -/
inductive ValueType
  | int8 | uint8 | int16 | uint16 | int32 | uint32 | int64 | uint64 | float | double | string
  | binary
deriving DecidableEq, Repr

/-- `icmap_get_valuetype_len` -/
def ValueType.len : ValueType → ℕ
  | .int8 | .uint8 => 1
  | .int16 | .uint16 => 2
  | .int32 | .uint32 | .float => 4
  | .int64 | .uint64 | .double => 8
  | .string | .binary => 0

/-- `ICMAP_MAX_VALUE_LEN` -/
def maxValueLen : ℕ := 16 * 1024

/-- What is stored under a type: a string with its terminator may be one byte longer than the
longest length that is accepted. -/
def ValueType.Fits (value : List UInt8) : ValueType → Prop
  | .string => ∃ text, 0 ∉ text ∧ text.length ≤ maxValueLen ∧ value = text ++ [0]
  | .binary => value.length ≤ maxValueLen
  | type => value.length = type.len

/-- `struct icmap_item`; `value_len` is the number of bytes. -/
@[ext] structure Item where
  type : ValueType
  value : List UInt8
  fits : type.Fits value

/-- The characters of a C string. -/
def cString (value : List UInt8) : List UInt8 := value.takeWhile (· ≠ 0)

/-- A value as it is passed to `icmap_set_r`: the memory at the pointer is at least as long as what
is read from it. -/
structure Argument where
  value : List UInt8
  valueLen : ℕ
  type : ValueType
  readable : if type = .string then 0 ∈ value else valueLen ≤ value.length

namespace Argument

variable (a : Argument)

/-- `icmap_check_value_len` -/
def checkValueLen : Bool :=
  if maxValueLen < a.valueLen then false
  else
    match a.type with
    | .string => a.valueLen ≤ (cString a.value).length + 1
    | .binary => true
    | type => type.len = a.valueLen

/-- `ptr_len` of `icmap_item_eq` -/
def ptrLen : ℕ :=
  if a.type = .string then min (cString a.value).length a.valueLen + 1 else a.valueLen

/-- `new_value_len` of `icmap_set_r` -/
def newValueLen : ℕ := if a.type = .string ∨ a.type = .binary then a.ptrLen else a.type.len

/-- The bytes of `new_item` in `icmap_set_r`: copied, and the last one of a string cleared -/
def newValue : List UInt8 :=
  let copied := a.value.take a.newValueLen
  if a.type = .string then copied.set (a.newValueLen - 1) 0 else copied

/-- What a caller expects to be stored: a string cut to the length and terminated. -/
def stored : List UInt8 :=
  if a.type = .string then (cString a.value).take a.valueLen ++ [0] else a.value.take a.valueLen

end Argument

/-- `icmap_item_eq` -/
def Item.eq (item : Item) (a : Argument) : Bool :=
  item.type = a.type ∧ item.value.length = a.ptrLen ∧
    item.value.take a.valueLen = a.value.take a.valueLen

/-- `icmap_is_valid_name_char` -/
def isValidNameChar (c : Char) : Bool :=
  ('a' ≤ c ∧ c ≤ 'z') ∨ ('A' ≤ c ∧ c ≤ 'Z') ∨ ('0' ≤ c ∧ c ≤ '9') ∨ c ∈ ['.', '_', '-', '/', ':']

/-- The errors of the operations. -/
inductive Error
  | ok | invalidParam | nameTooLong | notExist
deriving DecidableEq, Repr

section Values

variable {a : Argument} {text : List UInt8}

/-- The characters before the first zero. -/
theorem cString_append (htext : 0 ∉ text) (rest : List UInt8) :
    cString (text ++ 0 :: rest) = text := by
  rw [cString, takeWhile_append_of_pos, takeWhile_cons_of_neg (by simp), append_nil]
  intro byte hbyte
  exact decide_eq_true fun h => htext (h ▸ hbyte)

/-- The memory of a string argument. -/
theorem Argument.exists_text (hstring : a.type = .string) :
    ∃ text rest, 0 ∉ text ∧ a.value = text ++ 0 :: rest ∧ cString a.value = text := by
  have hreadable := a.readable
  rw [if_pos hstring] at hreadable
  obtain ⟨text, rest, hvalue, htext⟩ := eq_append_cons_of_mem hreadable
  exact ⟨text, rest, htext, hvalue, hvalue ▸ cString_append htext rest⟩

/-- A string that is accepted has at most its terminator more than its length. -/
theorem Argument.valueLen_le (hstring : a.type = .string) (hlen : a.checkValueLen = true) :
    a.valueLen ≤ maxValueLen ∧ a.valueLen ≤ (cString a.value).length + 1 := by
  simpa [checkValueLen, hstring] using hlen

/-- Another value that is accepted has the length of its type, and a binary one any length. -/
theorem Argument.valueLen_eq (hstring : a.type ≠ .string) (hlen : a.checkValueLen = true) :
    a.valueLen ≤ maxValueLen ∧ a.valueLen ≤ a.value.length ∧ a.newValueLen = a.valueLen ∧
      (a.type ≠ .binary → a.type.len = a.valueLen) := by
  have hreadable := a.readable
  rw [if_neg hstring] at hreadable
  unfold checkValueLen at hlen
  split at hlen
  · cases hlen
  unfold newValueLen ptrLen
  cases htype : a.type <;> simp_all

/-- Writing the last byte of a copy. -/
theorem set_take_succ {n : ℕ} {bytes : List UInt8} (hn : n < bytes.length) (byte : UInt8) :
    (bytes.take (n + 1)).set n byte = bytes.take n ++ [byte] := by
  rw [take_succ_eq_append_getElem hn, set_append_right _ _ (length_take_le _ _),
    length_take_of_le hn.le, Nat.sub_self]
  rfl

/-- The item that is built holds the value cut to its length. -/
theorem Argument.newValue_eq (hlen : a.checkValueLen = true) : a.newValue = a.stored := by
  by_cases hstring : a.type = .string
  · obtain ⟨text, rest, -, hvalue, htext⟩ := exists_text hstring
    have hle : min text.length a.valueLen ≤ text.length := Nat.min_le_left _ _
    have hlt : min text.length a.valueLen < a.value.length := by
      rw [hvalue, length_append, length_cons]
      omega
    simp only [newValue, stored, newValueLen, ptrLen, hstring, if_true, true_or, htext,
      Nat.add_sub_cancel]
    rw [set_take_succ hlt, hvalue, take_append_of_le_length hle, Nat.min_comm, ← take_eq_take_min]
  · simp only [newValue, stored, if_neg hstring, (valueLen_eq hstring hlen).2.2.1]

/-- What is stored fits its type. -/
theorem Argument.fits_stored (hlen : a.checkValueLen = true) : a.type.Fits a.stored := by
  by_cases hstring : a.type = .string
  · obtain ⟨text, rest, hzero, -, htext⟩ := exists_text hstring
    have hmax := (valueLen_le hstring hlen).1
    rw [stored, hstring, if_pos rfl, htext]
    refine ⟨text.take a.valueLen, fun hmem => hzero (mem_of_mem_take hmem), ?_, rfl⟩
    exact (length_take_le _ _).trans hmax
  · obtain ⟨hmax, hread, -, hfixed⟩ := valueLen_eq hstring hlen
    have hstored : a.stored.length = a.valueLen := by
      rw [stored, if_neg hstring, length_take_of_le hread]
    cases htype : a.type <;> simp_all [ValueType.Fits]

/-- `memcmp` of as many bytes as the length compares a stored string with the cut one. -/
theorem take_terminated_iff {old rest : List UInt8} {n : ℕ} (hn : n ≤ text.length + 1) :
    old.length = min text.length n ∧ (old ++ [0]).take n = (text ++ 0 :: rest).take n ↔
      old = text.take n := by
  -- The length covers the terminator as well, or the string ends there or before.
  rcases Nat.lt_or_ge text.length n with hwhole | hcut
  · obtain rfl : n = text.length + 1 := by omega
    have hmemory : (text ++ 0 :: rest).take (text.length + 1) = text ++ [0] := by
      rw [take_append, take_of_length_le (Nat.le_succ _), Nat.add_sub_cancel_left]
      rfl
    rw [Nat.min_eq_left hwhole.le, take_of_length_le hwhole.le, hmemory]
    constructor
    · rintro ⟨hlength, htake⟩
      rw [take_of_length_le (by simp [hlength])] at htake
      exact append_left_inj [0] |>.mp htake
    · rintro rfl
      exact ⟨rfl, take_of_length_le (by simp)⟩
  · rw [Nat.min_eq_right hcut, take_append_of_le_length hcut]
    constructor
    · rintro ⟨hlength, htake⟩
      rwa [take_append_of_le_length hlength.ge, take_of_length_le hlength.le] at htake
    · rintro rfl
      have hlength := length_take_of_le hcut
      exact ⟨hlength, by rw [take_append_of_le_length hlength.ge, take_take, Nat.min_self]⟩

/-- The comparison with a stored item compares it with what would be stored instead. -/
theorem Item.eq_iff {item : Item} (hlen : a.checkValueLen = true) :
    item.eq a = true ↔ item.type = a.type ∧ item.value = a.stored := by
  rw [Item.eq, decide_eq_true_iff]
  refine and_congr_right fun htype => ?_
  by_cases hstring : a.type = .string
  · obtain ⟨text, rest, -, hvalue, htext⟩ := Argument.exists_text hstring
    have hle := (Argument.valueLen_le hstring hlen).2
    have hfits := item.fits
    rw [htype, hstring] at hfits
    obtain ⟨old, -, -, hold⟩ := hfits
    rw [hold, Argument.ptrLen, Argument.stored, if_pos hstring, if_pos hstring, htext, hvalue,
      append_left_inj, length_append, length_singleton, Nat.add_right_cancel_iff]
    exact take_terminated_iff (htext ▸ hle)
  · obtain ⟨-, hread, -, -⟩ := Argument.valueLen_eq hstring hlen
    rw [Argument.ptrLen, Argument.stored, if_neg hstring, if_neg hstring]
    constructor
    · rintro ⟨hlength, htake⟩
      rwa [take_of_length_le hlength.le] at htake
    · intro hitem
      rw [hitem, length_take_of_le hread, take_take, Nat.min_self]
      exact ⟨rfl, rfl⟩

/-- The item of `icmap_set_r`. -/
def Argument.newItem (a : Argument) (hlen : a.checkValueLen = true) : Item where
  type := a.type
  value := a.newValue
  fits := newValue_eq hlen ▸ fits_stored hlen

/-- Its bytes. -/
theorem Argument.value_newItem (hlen : a.checkValueLen = true) :
    (a.newItem hlen).value = a.stored := newValue_eq hlen

end Values

/-- `icmap_check_key_name` -/
def checkKeyName (key : String) : Bool :=
  3 ≤ key.utf8ByteSize ∧ key.utf8ByteSize ≤ 255 ∧ key.toList.all isValidNameChar

/-- A map of items, under names that were accepted. A map stays one of these whatever is set,
adjusted or deleted. -/
@[ext] structure Store where
  items : Std.ExtTreeMap String Item
  names : ∀ {key item}, items[key]? = some item → checkKeyName key = true

namespace Store

open Argument

variable {map : Store} {key : String} {a : Argument}

/-- `icmap_init_r` -/
def empty : Store := ⟨∅, fun h => by simp at h⟩

/-- `qb_map_put` -/
def put (map : Store) (key : String) (item : Item) (hname : checkKeyName key = true) : Store where
  items := map.items.insert key item
  names := by
    intro name other hother
    rw [Std.ExtTreeMap.getElem?_insert] at hother
    split at hother
    · next heq => exact Std.compare_eq_iff_eq.mp heq ▸ hname
    · exact map.names hother

/-- The items after one is put. -/
theorem getElem?_put {item : Item} (hname : checkKeyName key = true) (name : String) :
    (map.put key item hname).items[name]? = if key = name then some item else map.items[name]? := by
  rw [put, Std.ExtTreeMap.getElem?_insert]
  simp only [Std.compare_eq_iff_eq]

/-- Putting an item that is there already would change nothing. -/
theorem getElem?_eq_ite {item : Item} (hitem : map.items[key]? = some item) (name : String) :
    map.items[name]? = if key = name then some item else map.items[name]? := by
  split
  · next hkey => rw [← hkey, hitem]
  · rfl

/-- What `icmap_set_r` returns, the map after it, and whether `qb_map_put` was called. -/
structure SetResult where
  error : Error
  map : Store
  put : Bool

/-- `icmap_set_r` -/
def setR (map : Store) (key : String) (a : Argument) : SetResult :=
  if hlen : a.checkValueLen = true then
    match hitem : map.items[key]? with
    | some item =>
      -- The key is really changed, or nothing is put.
      if item.eq a then ⟨.ok, map, false⟩
      else ⟨.ok, map.put key (a.newItem hlen) (map.names hitem), true⟩
    | none =>
      if hname : checkKeyName key = true then ⟨.ok, map.put key (a.newItem hlen) hname, true⟩
      else ⟨.nameTooLong, map, false⟩
  else ⟨.invalidParam, map, false⟩

/-- `icmap_get_r` into a buffer of a size -/
def getR (map : Store) (key : String) (room : ℕ) : Except Error (ValueType × List UInt8) :=
  match map.items[key]? with
  | none => .error .notExist
  | some item =>
    if room < item.value.length then .error .invalidParam else .ok (item.type, item.value)

/-- A call is accepted for its length and its name. -/
theorem setR_error : (map.setR key a).error =
    if a.checkValueLen = true then if checkKeyName key = true then .ok else .nameTooLong
    else .invalidParam := by
  unfold setR
  split
  · split
    · next hitem =>
      rw [if_pos (map.names hitem)]
      split <;> rfl
    · split <;> rfl
  · rfl

/-- A call that is refused changes nothing. -/
theorem setR_refused (herror : (map.setR key a).error ≠ .ok) :
    (map.setR key a).map = map ∧ (map.setR key a).put = false := by
  revert herror
  unfold setR
  repeat' split
  all_goals simp

/-- The items after a call that is accepted. -/
theorem getElem?_setR (hlen : a.checkValueLen = true) (hname : checkKeyName key = true)
    (name : String) : (map.setR key a).map.items[name]? =
      if key = name then some (a.newItem hlen) else map.items[name]? := by
  unfold setR
  rw [dif_pos hlen]
  split
  · next item hitem =>
    split
    · next heq =>
      obtain ⟨htype, hvalue⟩ := (Item.eq_iff hlen).mp heq
      have hsame : item = a.newItem hlen := Item.ext htype (hvalue.trans (value_newItem hlen).symm)
      exact getElem?_eq_ite (hsame ▸ hitem) name
    · exact getElem?_put (map.names hitem) name
  · rw [dif_pos hname]
    exact getElem?_put hname name

/-- A call that is accepted puts the item unless the same one is there. -/
theorem setR_put (hlen : a.checkValueLen = true) (hname : checkKeyName key = true) :
    (map.setR key a).put = true ↔
      ∀ item, map.items[key]? = some item → ¬(item.type = a.type ∧ item.value = a.stored) := by
  unfold setR
  rw [dif_pos hlen]
  split
  · next item hitem =>
    simp only [hitem, Option.some.injEq, forall_eq', ← Item.eq_iff hlen]
    split <;> simp_all
  · next hitem => simp [hitem, dif_pos hname]

/-- What `icmap_set_r` accepts is what `icmap_get_r` returns, cut to its length; a call that is
refused changes nothing, and a key is put if and only if its item changes. Every sequence of calls
goes from one `Store` to another. -/
theorem setR_stores (map : Store) (key : String) (a : Argument) :
    ((map.setR key a).error = .ok →
      (∀ room, (map.setR key a).map.getR key room =
        if room < a.stored.length then .error .invalidParam else .ok (a.type, a.stored)) ∧
      (∀ name ≠ key, (map.setR key a).map.items[name]? = map.items[name]?) ∧
      ((map.setR key a).put = true ↔
        ∀ item, map.items[key]? = some item → ¬(item.type = a.type ∧ item.value = a.stored))) ∧
    ((map.setR key a).error ≠ .ok → (map.setR key a).map = map ∧ (map.setR key a).put = false) := by
  refine ⟨fun hok => ?_, setR_refused⟩
  rw [setR_error] at hok
  split at hok
  · next hlen =>
    split at hok
    · next hname =>
      refine ⟨fun room => ?_, fun name hne => ?_, setR_put hlen hname⟩
      · rw [getR, getElem?_setR hlen hname, if_pos rfl]
        simp only [value_newItem]
        rfl
      · rw [getElem?_setR hlen hname, if_neg (Ne.symm hne)]
    · cases hok
  · cases hok

end Store

end Corosync.Icmap
