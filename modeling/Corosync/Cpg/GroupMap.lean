import Mathlib.Data.List.Nodup
import Corosync.Cpg.Node

/-!
# One event for each group

The events of an activation are collected in maps whose keys are C strings. For a name without
zeros that is followed by a zero the string is the name, and then the map has one entry for each
group with exactly the processes of this group.
-/

namespace Corosync.Cpg

open List

/-- A name whose string is the name itself: it has no zero and a zero comes after it, in the
array. -/
structure CpgName.Plain (group : CpgName) : Prop where
  bytes : 0 ∉ group.bytes
  rest : group.rest.head? = some 0
  short : group.bytes.length < cpgMaxNameLength

instance (group : CpgName) : Decidable group.Plain :=
  decidable_of_iff (0 ∉ group.bytes ∧ group.rest.head? = some 0 ∧
    group.bytes.length < cpgMaxNameLength)
    ⟨fun ⟨hbytes, hrest, hshort⟩ => ⟨hbytes, hrest, hshort⟩,
      fun ⟨hbytes, hrest, hshort⟩ => ⟨hbytes, hrest, hshort⟩⟩

/-- The string ends at the first zero. -/
theorem cString_append {bytes rest : List UInt8} (h : 0 ∉ bytes) :
    cString (bytes ++ 0 :: rest) = some bytes := by
  unfold cString
  rw [if_pos (mem_append_right _ mem_cons_self)]
  have hbytes : ∀ byte ∈ bytes, decide (byte ≠ 0) = true := by
    intro byte hbyte
    rw [decide_eq_true_eq]
    rintro rfl
    exact h hbyte
  rw [takeWhile_append_of_pos hbytes]
  simp

/-- The key of a plain name is the name. -/
theorem CpgName.Plain.cString_value {group : CpgName} (h : group.Plain) :
    cString group.value = some group.bytes := by
  obtain ⟨rest, hrest⟩ := head?_eq_some_iff.mp h.rest
  rw [CpgName.value, hrest]
  exact cString_append h.bytes

variable {map map' : GroupMap} {key : List UInt8} {group : CpgName} {address : CpgAddress}

/-- A stored address is the new one or was there. -/
theorem mem_storeAddress {list list' : List CpgAddress} {other : CpgAddress}
    (h : storeAddress list address = some list') (hother : other ∈ list') :
    other ∈ list ∨ other = address := by
  unfold storeAddress at h
  split at h
  · cases h
    rcases mem_append.mp hother with hother | hother
    · exact .inl hother
    · exact .inr (mem_singleton.mp hother)
  · obtain ⟨-, h⟩ := Option.ite_none_right_eq_some.mp h
    cases h
    exact .inl (mem_of_mem_take hother)

/-- An address goes to the entry of its key or makes a new one. -/
theorem GroupMap.add_cases (h : map.add key group address = some map') :
    (∃ (before after : GroupMap) (group' : CpgName) (list list' : List CpgAddress),
      map = before ++ (key, group', list) :: after ∧ storeAddress list address = some list' ∧
        map' = before ++ (key, group', list') :: after) ∨
    ((∀ entry ∈ map, entry.1 ≠ key) ∧ map' = map ++ [(key, group, [address])]) := by
  induction map generalizing map' with
  | nil =>
    cases h
    exact .inr ⟨nofun, rfl⟩
  | cons first rest ih =>
    obtain ⟨key', group', list⟩ := first
    unfold GroupMap.add at h
    split at h
    · rename_i hkey
      obtain ⟨list', hlist, rfl⟩ := Option.map_eq_some_iff.mp h
      rw [hkey]
      exact .inl ⟨[], rest, group', list, list', rfl, hlist, rfl⟩
    · rename_i hkey
      obtain ⟨added, hadded, rfl⟩ := Option.map_eq_some_iff.mp h
      rcases ih hadded with ⟨before, after, other, old, new, rfl, hnew, rfl⟩ | ⟨hnone, rfl⟩
      · exact .inl ⟨(key', group', list) :: before, after, other, old, new, rfl, hnew, rfl⟩
      · refine .inr ⟨fun entry hentry => ?_, rfl⟩
        rcases mem_cons.mp hentry with rfl | hentry
        · exact hkey
        · exact hnone entry hentry

/-- An address can be added when the entry of its key has a place for it. -/
theorem GroupMap.exists_add
    (h : ∀ entry ∈ map, entry.1 = key → entry.2.2.length < cpgMembersMax) :
    ∃ map', map.add key group address = some map' := by
  induction map with
  | nil => exact ⟨_, rfl⟩
  | cons first rest ih =>
    obtain ⟨key', group', list⟩ := first
    unfold GroupMap.add
    split
    · rename_i hkey
      rw [storeAddress, if_pos (h _ mem_cons_self hkey)]
      exact ⟨_, rfl⟩
    · obtain ⟨added, hadded⟩ := ih fun entry hentry => h entry (mem_cons_of_mem _ hentry)
      rw [hadded]
      exact ⟨_, rfl⟩

/-- A map only has addresses with some property. -/
def GroupMap.All (P : CpgAddress → Prop) (map : GroupMap) : Prop :=
  ∀ entry ∈ map, ∀ address ∈ entry.2.2, P address

/-- An added address with the property keeps it. -/
theorem GroupMap.All.add {P : CpgAddress → Prop} (hmap : map.All P) (haddress : P address)
    (h : map.add key group address = some map') : map'.All P := by
  rcases GroupMap.add_cases h with ⟨before, after, group', list, list', rfl, hlist, rfl⟩ | ⟨-, rfl⟩
  · intro entry hentry other hother
    rcases mem_cons.mp (perm_middle.mem_iff.mp hentry) with rfl | hentry
    · rcases mem_storeAddress hlist hother with hother | rfl
      · exact hmap _ (mem_append_right _ mem_cons_self) other hother
      · exact haddress
    · exact hmap entry (perm_middle.mem_iff.mpr (mem_cons_of_mem _ hentry)) other hother
  · intro entry hentry other hother
    rcases mem_append.mp hentry with hentry | hentry
    · exact hmap entry hentry other hother
    · rw [mem_singleton.mp hentry] at hother
      exact mem_singleton.mp hother ▸ haddress

/-- The addresses of one group. -/
def ofGroup (items : List (CpgName × CpgAddress)) (bytes : List UInt8) : List CpgAddress :=
  (items.filter fun item => item.1.bytes == bytes).map Prod.snd

/-- A map has the processes of some list, by their groups. -/
structure GroupMap.Collects (map : GroupMap) (items : List (CpgName × CpgAddress)) : Prop where
  nodup : (map.map fun entry => entry.2.1.bytes).Nodup
  key : ∀ entry ∈ map, entry.1 = entry.2.1.bytes
  list : ∀ entry ∈ map, entry.2.2 = ofGroup items entry.2.1.bytes
  complete : ∀ item ∈ items, ∃ entry ∈ map, entry.2.1.bytes = item.1.bytes

/-- The empty map collects nothing. -/
theorem GroupMap.Collects.nil : GroupMap.Collects [] [] where
  nodup := nodup_nil
  key := nofun
  list := nofun
  complete := nofun

variable {items : List (CpgName × CpgAddress)}

/-- The entry of a group after a process is added. -/
theorem ofGroup_snoc {bytes : List UInt8} :
    ofGroup (items ++ [(group, address)]) bytes =
      ofGroup items bytes ++ if group.bytes = bytes then [address] else [] := by
  rw [ofGroup, filter_append, map_append]
  congr 1
  split
  · rename_i hsame
    simp [hsame]
  · rename_i hother
    simp [hother]

/-- With a place for it an added process is collected too. -/
theorem GroupMap.Collects.add (hmap : map.Collects items)
    (hroom : (ofGroup items group.bytes).length < cpgMembersMax)
    (h : map.add group.bytes group address = some map') :
    map'.Collects (items ++ [(group, address)]) := by
  rcases GroupMap.add_cases h with
    ⟨before, after, group', list, list', rfl, hlist, rfl⟩ | ⟨hnone, rfl⟩
  · have hfound := mem_append_right before
      (@mem_cons_self _ (group.bytes, group', list) after)
    have hbytes : group.bytes = group'.bytes := hmap.key _ hfound
    have hold : list = ofGroup items group.bytes := by
      rw [hbytes]
      exact hmap.list _ hfound
    rw [storeAddress, hold, if_pos hroom] at hlist
    cases hlist
    -- the other entries have other groups
    have hother : ∀ entry ∈ before ++ after, group.bytes ≠ entry.2.1.bytes := by
      intro entry hentry heq
      have hperm := ((perm_middle.map _).nodup_iff).mp hmap.nodup
      refine (nodup_cons.mp hperm).1 (mem_map.mpr ⟨entry, hentry, ?_⟩)
      exact heq.symm.trans hbytes
    have hmem : ∀ entry ∈ before ++ after,
        entry ∈ before ++ (group.bytes, group', list) :: after :=
      fun entry hentry => perm_middle.mem_iff.mpr (mem_cons_of_mem _ hentry)
    refine ⟨?_, fun entry hentry => ?_, fun entry hentry => ?_, fun item hitem => ?_⟩
    · have hsame := hmap.nodup
      rw [map_append, map_cons] at hsame ⊢
      exact hsame
    · rcases mem_cons.mp (perm_middle.mem_iff.mp hentry) with rfl | hentry
      · exact hbytes
      · exact hmap.key entry (hmem entry hentry)
    · rw [ofGroup_snoc]
      rcases mem_cons.mp (perm_middle.mem_iff.mp hentry) with rfl | hentry
      · rw [if_pos hbytes, ← hbytes]
      · rw [if_neg (hother entry hentry), append_nil]
        exact hmap.list entry (hmem entry hentry)
    · rcases mem_append.mp hitem with hitem | hitem
      · obtain ⟨entry, hentry, heq⟩ := hmap.complete item hitem
        rcases mem_cons.mp (perm_middle.mem_iff.mp hentry) with rfl | hentry
        · exact ⟨_, mem_append_right _ mem_cons_self, heq⟩
        · exact ⟨entry, perm_middle.mem_iff.mpr (mem_cons_of_mem _ hentry), heq⟩
      · rw [mem_singleton.mp hitem]
        exact ⟨_, mem_append_right _ mem_cons_self, hbytes.symm⟩
  · have hnew : ∀ entry ∈ map, group.bytes ≠ entry.2.1.bytes := by
      intro entry hentry heq
      exact hnone entry hentry ((hmap.key entry hentry).trans heq.symm)
    refine ⟨?_, fun entry hentry => ?_, fun entry hentry => ?_, fun item hitem => ?_⟩
    · rw [map_append, map_cons, map_nil, nodup_append]
      refine ⟨hmap.nodup, nodup_singleton _, fun bytes hbytes other hother heq => ?_⟩
      obtain ⟨entry, hentry, rfl⟩ := mem_map.mp hbytes
      exact hnew entry hentry ((heq.trans (mem_singleton.mp hother)).symm)
    · rcases mem_append.mp hentry with hentry | hentry
      · exact hmap.key entry hentry
      · rw [mem_singleton.mp hentry]
    · rw [ofGroup_snoc]
      rcases mem_append.mp hentry with hentry | hentry
      · rw [if_neg (hnew entry hentry), append_nil]
        exact hmap.list entry hentry
      rw [mem_singleton.mp hentry, if_pos rfl]
      have hempty : items.filter (fun item => item.1.bytes == group.bytes) = [] := by
        rw [filter_eq_nil_iff]
        intro item hitem hsame
        obtain ⟨entry, hentry, heq⟩ := hmap.complete item hitem
        exact hnew entry hentry ((beq_iff_eq.mp hsame).symm.trans heq.symm)
      rw [ofGroup, hempty]
      rfl
    · rcases mem_append.mp hitem with hitem | hitem
      · obtain ⟨entry, hentry, heq⟩ := hmap.complete item hitem
        exact ⟨entry, mem_append_left _ hentry, heq⟩
      · rw [mem_singleton.mp hitem]
        exact ⟨_, mem_append_right _ mem_cons_self, rfl⟩

/-- With a place for it a process can be added. -/
theorem GroupMap.Collects.exists_add (hmap : map.Collects items) (address : CpgAddress)
    (hroom : (ofGroup items group.bytes).length < cpgMembersMax) :
    ∃ map', map.add group.bytes group address = some map' := by
  refine GroupMap.exists_add fun entry hentry hkey => ?_
  rw [hmap.list entry hentry, ← hmap.key entry hentry, hkey]
  exact hroom

/-- Whether a process of a group is among those of a list. -/
def collected (items : List (CpgName × CpgAddress)) (bytes : List UInt8) (nodeid pid : ℕ) : Bool :=
  items.any fun item =>
    item.1.bytes == bytes && (item.2.nodeid == nodeid && item.2.pid == pid)

/-- One process more. -/
theorem collected_snoc (items : List (CpgName × CpgAddress)) (item : CpgName × CpgAddress)
    (bytes : List UInt8) (n p : ℕ) :
    collected (items ++ [item]) bytes n p = (collected items bytes n p ||
      (item.1.bytes == bytes && (item.2.nodeid == n && item.2.pid == p))) := by
  rw [collected, any_append, any_cons, any_nil, Bool.or_false]
  rfl

/-- A group without an entry has no process. -/
theorem GroupMap.Collects.collected_eq_false (hmap : map.Collects items) {bytes : List UInt8}
    (hnone : ∀ entry ∈ map, entry.2.1.bytes ≠ bytes) (nodeid pid : ℕ) :
    collected items bytes nodeid pid = false := by
  rw [collected, any_eq_false]
  intro item hitem htrue
  simp only [Bool.and_eq_true, beq_iff_eq] at htrue
  obtain ⟨entry, hentry, heq⟩ := hmap.complete item hitem
  exact hnone entry hentry (heq.trans htrue.1)

/-- An address of an entry is one of a process of its group. -/
theorem GroupMap.Collects.mem_list (hmap : map.Collects items) {entry} (hentry : entry ∈ map)
    (haddress : address ∈ entry.2.2) :
    ∃ item ∈ items, item.1.bytes = entry.2.1.bytes ∧ item.2 = address := by
  rw [hmap.list entry hentry] at haddress
  obtain ⟨item, hitem, heq⟩ := mem_map.mp haddress
  obtain ⟨hmem, hbytes⟩ := mem_filter.mp hitem
  exact ⟨item, hmem, beq_iff_eq.mp hbytes, heq⟩

end Corosync.Cpg
