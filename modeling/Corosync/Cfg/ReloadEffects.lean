import Corosync.Cfg.Reload

/-!
# What a reload does to the live map

The keys that the new file leaves out are deleted from the live map before the file is checked, so
a rejected reload can delete keys and a successful one can delete keys that cannot be changed at run
time. A file that does not parse leaves the live map alone but for a progress flag that stays set.
-/

namespace Corosync.Cfg

open Icmap
open List hiding getElem?_set

variable {live temp : Icmap} {name : String} {knetCryptoReconf : Bool}

/-! ### Deleted entries -/

/-- What is left of a sorted list after the smaller elements are dropped. -/
theorem mem_dropWhile_lt {names : List String} (hsorted : names.Pairwise (· < ·)) (key : String) :
    name ∈ names.dropWhile (· < key) ↔ name ∈ names ∧ key ≤ name := by
  induction names with
  | nil => simp
  | cons first _ ih =>
    obtain ⟨hfirst, hrest⟩ := pairwise_cons.mp hsorted
    by_cases hlt : first < key
    · rw [dropWhile_cons_of_pos (by simpa using hlt), ih hrest, mem_cons]
      constructor
      · rintro ⟨hmem, hle⟩
        exact ⟨.inr hmem, hle⟩
      · rintro ⟨rfl | hmem, hle⟩
        · exact absurd hlt (not_lt.mpr hle)
        · exact ⟨hmem, hle⟩
    · rw [dropWhile_cons_of_neg (by simpa using hlt)]
      refine ⟨fun hmem => ⟨hmem, ?_⟩, And.left⟩
      rcases mem_cons.mp hmem with rfl | hmem
      · exact not_lt.mp hlt
      · exact (not_lt.mp hlt).trans (hfirst name hmem).le

/-- The loop deletes the old names that are not among the new ones. -/
theorem getElem?_removeDeletedLoop {oldIter newIter : List String}
    (hold : oldIter.Pairwise (· < ·)) (hnew : newIter.Pairwise (· < ·)) :
    (removeDeletedLoop live oldIter newIter)[name]? =
      if name ∈ oldIter ∧ name ∉ newIter then none else live[name]? := by
  induction oldIter generalizing live newIter with
  | nil => simp [removeDeletedLoop]
  | cons oldKey oldIter ih =>
    obtain ⟨hfirst, hrest⟩ := pairwise_cons.mp hold
    have hself : oldKey ∉ oldIter := fun hmem => lt_irrefl _ (hfirst oldKey hmem)
    -- No old name is smaller than this one, so the new names that are dropped do not matter.
    have hdropped : (name ∈ oldKey :: oldIter ∧ name ∉ newIter) ↔
        (name ∈ oldKey :: oldIter ∧ name ∉ newIter.dropWhile (· < oldKey)) := by
      refine and_congr_right fun hmem => not_congr ?_
      have hle : oldKey ≤ name := by
        rcases mem_cons.mp hmem with rfl | hmem
        · exact le_rfl
        · exact (hfirst name hmem).le
      simp only [mem_dropWhile_lt hnew oldKey, hle, and_true]
    have hkept : ∀ newKey ∈ newIter.dropWhile (· < oldKey), oldKey ≤ newKey := fun newKey hmem =>
      ((mem_dropWhile_lt hnew oldKey).mp hmem).2
    have hsorted := hnew.sublist (dropWhile_sublist (· < oldKey))
    rw [if_congr hdropped rfl rfl, removeDeletedLoop]
    generalize newIter.dropWhile (· < oldKey) = left at hkept hsorted
    cases left with
    | nil =>
      simp only
      rw [ih hrest List.Pairwise.nil, getElem?_delete]
      by_cases heq : oldKey = name
      · simp [heq]
      · simp [heq, Ne.symm heq]
    | cons newKey left =>
      simp only
      split
      · rename_i hsame
        rw [ih hrest (pairwise_cons.mp hsorted).2, hsame]
        by_cases heq : oldKey = name
        · simp [← heq, hself]
        · simp [Ne.symm heq]
      · rename_i hdiff
        have habsent : oldKey ∉ newKey :: left := by
          intro hmem
          rcases mem_cons.mp hmem with heq | hmem
          · exact hdiff heq.symm
          · have hlt := (pairwise_cons.mp hsorted).1 oldKey hmem
            exact absurd hlt (not_lt.mpr (hkept newKey mem_cons_self))
        rw [ih hrest hsorted, getElem?_delete]
        by_cases heq : oldKey = name
        · subst heq
          simp [habsent]
        · simp [heq, Ne.symm heq]

/-- A key that the new file leaves out and the reload looks after. -/
def LeftOut (temp : Icmap) (name : String) : Prop :=
  (∃ start ∈ deletedPrefixes, Under name start) ∧ name ∉ temp

instance (temp : Icmap) (name : String) : Decidable (LeftOut temp name) :=
  inferInstanceAs (Decidable (_ ∧ _))

/-- The map after the deletions under one name. -/
theorem getElem?_removeDeletedEntries (start : String) :
    (removeDeletedEntries temp live start)[name]? =
      if Under name start ∧ name ∉ temp then none else live[name]? := by
  unfold removeDeletedEntries
  rw [getElem?_removeDeletedLoop (pairwise_iter _ _) (pairwise_iter _ _)]
  simp only [mem_iter]
  by_cases hlive : name ∈ live
  · by_cases hunder : Under name start <;> simp [hlive, hunder]
  · simp [hlive]

/-- The map after all deletions. -/
theorem getElem?_foldl_removeDeletedEntries (starts : List String) :
    (starts.foldl (removeDeletedEntries temp) live)[name]? =
      if (∃ start ∈ starts, Under name start) ∧ name ∉ temp then none else live[name]? := by
  induction starts generalizing live with
  | nil => simp
  | cons start _ ih =>
    rw [foldl_cons, ih, getElem?_removeDeletedEntries]
    by_cases htemp : name ∈ temp
    · simp [htemp]
    · by_cases hunder : Under name start <;> simp [htemp, hunder]

/-! ### Entries that cannot be changed -/

/-- The map without an entry that must not change. -/
theorem getElem?_deleteAndNotifyIfChanged (key : String) :
    (deleteAndNotifyIfChanged live temp key)[name]? =
      if name = key ∧ temp[name]? ≠ live[name]? then none else temp[name]? := by
  unfold deleteAndNotifyIfChanged
  split
  · rename_i heq
    have hsame := (keyValueEq_iff.mp heq).2
    rw [if_neg]
    rintro ⟨rfl, hne⟩
    exact hne hsame
  · rename_i hne
    rw [getElem?_delete]
    by_cases hkey : key = name
    · subst hkey
      by_cases hsame : temp[key]? = live[key]?
      · -- The values agree and are not equal items, so there is none.
        have habsent : key ∉ temp := fun hmem => hne (keyValueEq_iff.mpr ⟨hmem, hsame⟩)
        simp [habsent]
      · simp [hsame]
    · simp [hkey, Ne.symm hkey]

/-- The map without all of them. -/
theorem getElem?_foldl_deleteAndNotifyIfChanged (keys : List String) :
    (keys.foldl (deleteAndNotifyIfChanged live) temp)[name]? =
      if name ∈ keys ∧ temp[name]? ≠ live[name]? then none else temp[name]? := by
  induction keys generalizing temp with
  | nil => simp
  | cons key _ ih =>
    rw [foldl_cons, ih, getElem?_deleteAndNotifyIfChanged]
    by_cases hsame : temp[name]? = live[name]?
    · simp [hsame]
    · by_cases hkey : name = key
      · subst hkey
        simp [hsame]
      · simp [hkey, hsame]

/-! ### The checks -/

/-- Generated entries do not concern the others. -/
theorem getElem?_setAll_additions {map : Icmap} (additions : Additions) (hname : ¬ Generated name) :
    (map.setAll additions.1)[name]? = map[name]? := by
  refine getElem?_setAll_of_notMem fun hmem => ?_
  obtain ⟨item, hitem, rfl⟩ := mem_map.mp hmem
  exact hname (additions.2 item hitem)

/-- The checks add keys of their own to the temporary map and leave the others alone. -/
theorem getElem?_prepare {checks : Checks} {prepared : Icmap} {cryptoChanged : Bool}
    (hprepare : checks.prepare knetCryptoReconf temp = .ok (prepared, cryptoChanged))
    (hname : ¬ Generated name) : prepared[name]? = temp[name]? := by
  unfold Checks.prepare at hprepare
  split at hprepare
  · cases hprepare
  · simp only at hprepare
    split_ifs at hprepare
    obtain ⟨rfl, -⟩ := Prod.mk.inj (Except.ok.inj hprepare)
    simp only [getElem?_setAll_additions _ hname]

/-! ### The whole reload -/

/-- The end of a reload concerns the names under `config.`. -/
theorem getElem?_reloadFini {res : ReloadError} (hname : ¬ Under name "config.") :
    (reloadFini live res)[name]? = live[name]? := by
  have hne : ∀ key, Under key "config." → key ≠ name := fun key hkey heq => hname (heq ▸ hkey)
  unfold reloadFini
  rw [getElem?_set, if_neg (hne _ (by decide +kernel)), getElem?_set,
    if_neg (hne _ (by decide +kernel)), getElem?_set, if_neg (hne _ (by decide +kernel))]

/-- The bookkeeping before the file is looked at. -/
theorem getElem?_begun (hname : ¬ Under name "config.") :
    ((reloadStart live).insert "config.reload_in_progress" (.uint8 1))[name]? = live[name]? := by
  have hne : ∀ key, Under key "config." → key ≠ name := fun key hkey heq => hname (heq ▸ hkey)
  unfold reloadStart
  rw [getElem?_set, if_neg (hne _ (by decide +kernel)), getElem?_set,
    if_neg (hne _ (by decide +kernel)), getElem?_delete, if_neg (hne _ (by decide +kernel))]

/-- The live map after the deletions. -/
theorem alignMaps_fst : (alignMaps knetCryptoReconf live temp).1 =
    deletedPrefixes.foldl (removeDeletedEntries temp) live := by
  simp only [alignMaps]

/-- The temporary map without the entries that must not change. -/
theorem alignMaps_snd : (alignMaps knetCryptoReconf live temp).2 =
    (roEntries knetCryptoReconf).foldl
      (deleteAndNotifyIfChanged (alignMaps knetCryptoReconf live temp).1) temp := by
  simp only [alignMaps, removeRoEntries]

/-- The live map when the checks begin: what the new file leaves out is gone. -/
theorem getElem?_alignMaps_fst :
    (alignMaps knetCryptoReconf live temp).1[name]? =
      if LeftOut temp name then none else live[name]? := by
  rw [alignMaps_fst, getElem?_foldl_removeDeletedEntries]
  rfl

/-- A key that cannot be changed is in the temporary map only with the live value. -/
theorem getElem?_alignMaps_snd_of_ro (hname : name ∈ roEntries knetCryptoReconf) :
    (alignMaps knetCryptoReconf live temp).2[name]? =
      if temp[name]? = (alignMaps knetCryptoReconf live temp).1[name]? then temp[name]?
      else none := by
  rw [alignMaps_snd, getElem?_foldl_deleteAndNotifyIfChanged]
  by_cases hsame : temp[name]? = (alignMaps knetCryptoReconf live temp).1[name]?
  · rw [if_neg fun hne => hne.2 hsame, if_pos hsame]
  · rw [if_pos ⟨hname, hsame⟩, if_neg hsame]

/-- None of the prefixes is that of the bookkeeping keys. -/
theorem not_under_config {start : String} (hstart : start ∈ deletedPrefixes)
    (hunder : Under name start) : ¬ Under name "config." := by
  intro hconfig
  have hdisjoint : ∀ start ∈ deletedPrefixes,
      ¬ start.toList <+: "config.".toList ∧ ¬ "config.".toList <+: start.toList := by
    decide +kernel
  obtain ⟨hleft, hright⟩ := hdisjoint start hstart
  obtain hle | hle := prefix_or_prefix_of_prefix hunder hconfig
  · exact hleft hle
  · exact hright hle

/-- These entries are neither generated nor under `config.`. -/
theorem roEntries_elsewhere (knetCryptoReconf : Bool) :
    ∀ key ∈ roEntries knetCryptoReconf, ¬ Under key "config." ∧ ¬ Generated key := by
  cases knetCryptoReconf <;> decide +kernel

/-- Every key but the bookkeeping ones has the value it had. -/
def Untouched (live after : Icmap) : Prop :=
  ∀ name, ¬ Under name "config." → after[name]? = live[name]?

/-- No reload is in progress any more. -/
def Finished (after : Icmap) : Prop :=
  ∀ flag ∈ ["config.reload_in_progress", "config.totemconfig_reload_in_progress"],
    after[flag]? = none ∨ after[flag]? = some (.uint8 0)

/-- The end of a reload is marked. -/
theorem finished_reloadFini {res : ReloadError} : Finished (reloadFini live res) := by
  intro flag hflag
  right
  simp only [mem_cons, not_mem_nil, or_false] at hflag
  unfold reloadFini
  rcases hflag with rfl | rfl
  · rw [getElem?_set, if_pos rfl]
  · rw [getElem?_set, if_neg (by decide), getElem?_set, if_pos rfl]

/-- The live map has lost nothing iff the new file names every key the reload looks after. -/
theorem untouched_aligned_iff (res : ReloadError) {begun : Icmap}
    (hbegun : ∀ name, ¬ Under name "config." → begun[name]? = live[name]?) :
    Untouched live (reloadFini (alignMaps knetCryptoReconf begun temp).1 res) ↔
      ∀ name ∈ live, (∃ start ∈ deletedPrefixes, Under name start) → name ∈ temp := by
  constructor
  · intro huntouched name hlive ⟨start, hstart, hunder⟩
    by_contra htemp
    have hname := not_under_config hstart hunder
    have hvalue := huntouched name hname
    rw [getElem?_reloadFini hname, getElem?_alignMaps_fst,
      if_pos ⟨⟨start, hstart, hunder⟩, htemp⟩] at hvalue
    rw [Std.ExtTreeMap.mem_iff_isSome_getElem?, ← hvalue] at hlive
    cases hlive
  · intro hnames name hname
    rw [getElem?_reloadFini hname, getElem?_alignMaps_fst, hbegun name hname]
    by_cases hout : LeftOut temp name
    · have hlive : name ∉ live := fun hlive => hout.2 (hnames name hlive hout.1)
      simp [hout, hlive]
    · rw [if_neg hout]

/-- A reload that is rejected changes nothing iff the file could be parsed and has every key of the
live map under the prefixes for which deleted keys are removed. -/
theorem rejected_reload_untouched_iff (knetCryptoReconf : Bool) (checks : Checks)
    (parsed : Option Icmap) (live : Icmap)
    (hrejected : (reloadConfig knetCryptoReconf checks parsed live).res ≠ .ok) :
    (Untouched live (reloadConfig knetCryptoReconf checks parsed live).live ∧
        Finished (reloadConfig knetCryptoReconf checks parsed live).live) ↔
      ∃ temp, parsed = some temp ∧
        ∀ name ∈ live, (∃ start ∈ deletedPrefixes, Under name start) → name ∈ temp := by
  cases parsed with
  | none =>
    -- The handler leaves past the point where the flags are reset.
    refine ⟨fun ⟨_, hfinished⟩ => ?_, fun ⟨temp, hnone, _⟩ => by cases hnone⟩
    have hflag := hfinished "config.totemconfig_reload_in_progress" (by simp)
    simp [reloadConfig, reloadStart] at hflag
  | some _ =>
    simp only [reloadConfig, Option.some.injEq, exists_eq_left'] at hrejected ⊢
    split at hrejected
    · rename_i hprepare
      rw [← untouched_aligned_iff .errInvalidParam fun name hname => getElem?_begun hname]
      exact ⟨And.left, fun huntouched => ⟨huntouched, finished_reloadFini⟩⟩
    · exact absurd rfl hrejected

/-- Checks that only look at the join timeout, which may not be less than 30 ms. -/
def joinChecks : Checks where
  configureNewParams := fun _ => some ⟨[], by simp⟩
  volatileConfigRead := fun _ => ⟨[], by simp⟩
  rereadCryptoConfig := fun _ => (true, false)
  calcKnetPingTimers := fun _ => ⟨[], by simp⟩
  volatileConfigValidate := fun map =>
    match map["totem.join"]? with
    | some (.uint32 value) => 30 ≤ value
    | _ => true

/-- A file that is rejected for its join timeout and has every key of the live map. -/
theorem rejected_reload_untouched_joinTimeout :
    let live : Icmap := (∅ : Icmap).insert "totem.token" (.uint32 1000)
    let file : Icmap := live.insert "totem.join" (.uint32 10)
    (reloadConfig true joinChecks (some file) live).res ≠ .ok ∧
      Untouched live (reloadConfig true joinChecks (some file) live).live ∧
      Finished (reloadConfig true joinChecks (some file) live).live := by
  intro live file
  have hrejected : (reloadConfig true joinChecks (some file) live).res ≠ .ok := by decide +kernel
  refine ⟨hrejected, ?_⟩
  refine (rejected_reload_untouched_iff true joinChecks (some file) live hrejected).mpr ?_
  refine ⟨file, rfl, fun name hname _ => ?_⟩
  exact Std.ExtTreeMap.mem_insert.mpr (.inr hname)

/-- A file without the token timeout that is rejected for its join timeout deletes the token timeout
from the live map, and a file that does not parse leaves a flag set. -/
theorem rejected_reload_touches_live :
    let live : Icmap := (∅ : Icmap).insert "totem.token" (.uint32 1000)
    let file : Icmap := (∅ : Icmap).insert "totem.join" (.uint32 10)
    ((reloadConfig true joinChecks (some file) live).res ≠ .ok ∧
      ¬ Untouched live (reloadConfig true joinChecks (some file) live).live) ∧
    ((reloadConfig true joinChecks none live).res ≠ .ok ∧
      ¬ Finished (reloadConfig true joinChecks none live).live) := by
  intro live file
  refine ⟨⟨by decide +kernel, fun huntouched => ?_⟩, ⟨by decide, fun hfinished => ?_⟩⟩
  · have hvalue := huntouched "totem.token" (by decide +kernel)
    revert hvalue
    decide +kernel
  · have hflag := hfinished "config.totemconfig_reload_in_progress" (by simp)
    revert hflag
    decide +kernel

/-- What is protected has been taken out of the temporary map, so the live value stays, if there
still is one. -/
theorem getElem?_reload_ro {checks : Checks} {key : String}
    (hok : (reloadConfig knetCryptoReconf checks (some temp) live).res = .ok)
    (hkey : key ∈ roEntries knetCryptoReconf) :
    (reloadConfig knetCryptoReconf checks (some temp) live).live[key]? =
      if LeftOut temp key then none else live[key]? := by
  obtain ⟨hconfig, hgenerated⟩ := roEntries_elsewhere knetCryptoReconf key hkey
  simp only [reloadConfig] at hok ⊢
  split at hok
  · cases hok
  · rename_i prepared cryptoChanged hprepare
    have hprepared := getElem?_prepare hprepare hgenerated
    rw [getElem?_reloadFini hconfig, getElem?_copyMap, hprepared, getElem?_alignMaps_snd_of_ro hkey,
      getElem?_alignMaps_fst, getElem?_begun hconfig]
    split_ifs <;> simp_all

/-- A successful reload keeps every key that cannot be changed at run time, and adds none, iff the
new file has those of them that the live map has under the prefixes for which deleted keys are
removed. -/
theorem successful_reload_keeps_ro_iff (knetCryptoReconf : Bool) (checks : Checks)
    (parsed : Option Icmap) (live : Icmap)
    (hok : (reloadConfig knetCryptoReconf checks parsed live).res = .ok) :
    (∀ key ∈ roEntries knetCryptoReconf,
        (reloadConfig knetCryptoReconf checks parsed live).live[key]? = live[key]?) ↔
      ∀ temp, parsed = some temp → ∀ key ∈ roEntries knetCryptoReconf, key ∈ live →
        (∃ start ∈ deletedPrefixes, Under key start) → key ∈ temp := by
  cases parsed with
  | none => cases hok
  | some temp =>
    simp only [Option.some.injEq, forall_eq']
    refine forall₂_congr fun key hkey => ?_
    obtain ⟨hconfig, _⟩ := roEntries_elsewhere knetCryptoReconf key hkey
    rw [getElem?_reload_ro hok hkey]
    by_cases hout : LeftOut temp key
    · rw [if_pos hout]
      constructor
      · intro hnone hlive
        rw [Std.ExtTreeMap.mem_iff_isSome_getElem?, ← hnone] at hlive
        cases hlive
      · intro hnames
        have hlive : key ∉ live := fun hlive => hout.2 (hnames hlive hout.1)
        simp [hlive]
    · rw [if_neg hout]
      refine ⟨fun _ _ hunder => ?_, fun _ => rfl⟩
      by_contra htemp
      exact hout ⟨hunder, htemp⟩

/-- A file that changes the protocol version. -/
theorem successful_reload_keeps_ro_version :
    let live : Icmap := (∅ : Icmap).insert "totem.version" (.uint32 2)
    let file : Icmap := (∅ : Icmap).insert "totem.version" (.uint32 3)
    (reloadConfig true joinChecks (some file) live).res = .ok ∧
      ∀ key ∈ roEntries true,
        (reloadConfig true joinChecks (some file) live).live[key]? = live[key]? := by
  intro live file
  have hok : (reloadConfig true joinChecks (some file) live).res = .ok := by decide +kernel
  refine ⟨hok, (successful_reload_keeps_ro_iff true joinChecks (some file) live hok).mpr ?_⟩
  intro temp htemp key _ hlive _
  cases htemp
  exact Std.ExtTreeMap.mem_insert.mpr
    ((Std.ExtTreeMap.mem_insert.mp hlive).imp id fun hempty => by simp at hempty)

/-- A file that leaves the transport out takes it out of the live map. -/
theorem successful_reload_loses_transport :
    let live : Icmap := (∅ : Icmap).insert "totem.transport" (.string "udpu")
    (reloadConfig true joinChecks (some ∅) live).res = .ok ∧ "totem.transport" ∈ roEntries true ∧
      (reloadConfig true joinChecks (some ∅) live).live["totem.transport"]? = none := by
  decide +kernel

end Corosync.Cfg
