import Corosync.Cfg.ReloadEffects

/-!
# The walk over two sorted iterators

`removeDeletedLoop` says what `remove_deleted_entries` computes. The function itself moves two
iterators whose ends are `NULL`, and one of them is over the map that it deletes from.
-/

namespace Corosync.Cfg

open Icmap List

/-- `nullcheck_strcmp` -/
def nullcheckStrcmp : Option String → Option String → Ordering
  | none, some _ => .lt
  | some _, none => .gt
  | none, none => .eq
  | some left, some right => compare left right

/-- `icmap_iter_next`: the first name in the map as it is now that comes after the last one. An
iterator at its end stays there. -/
def iterNext (map : Icmap) (start : String) (key : Option String) : Option String :=
  key.bind fun key => (map.iter start).find? (key < ·)

/-- The loop whose body is executed next. -/
inductive Loop
  | outer
  | deleting
  | adding
deriving DecidableEq

/-- The variables of `remove_deleted_entries` and the global map. -/
structure Walk where
  live : Icmap
  oldKey : Option String
  newKey : Option String

namespace Walk

variable (temp : Icmap) (start : String)

/-- The end of the outer loop: both iterators are moved on at a common name. -/
def advance (s : Walk) (ret : Ordering) : Walk :=
  if ret = .eq then
    { s with newKey := iterNext temp start s.newKey, oldKey := iterNext s.live start s.oldKey }
  else s

/-- The body of a loop of `remove_deleted_entries`, with the loop whose body is next. -/
def body (loop : Loop) (s : Walk) : Option (Loop × Walk) :=
  let ret := nullcheckStrcmp s.oldKey s.newKey
  if loop = .outer ∧ s.oldKey = none ∧ s.newKey = none then none
  else if loop = .deleting ∨
      loop = .outer ∧ (ret = .lt ∧ s.oldKey.isSome ∨ s.newKey = none) then
    -- `icmap_delete` of `NULL` only fails.
    let live := s.oldKey.elim s.live s.live.erase
    let s := ⟨live, iterNext live start s.oldKey, s.newKey⟩
    let ret := nullcheckStrcmp s.oldKey s.newKey
    some (if ret = .lt ∧ s.oldKey.isSome then (.deleting, s)
      else (.outer, s.advance temp start ret))
  else if loop = .adding ∨ ret = .gt ∧ s.newKey.isSome ∨ s.oldKey = none then
    let s := { s with newKey := iterNext temp start s.newKey }
    let ret := nullcheckStrcmp s.oldKey s.newKey
    some (if ret = .gt ∧ s.newKey.isSome then (.adding, s)
      else (.outer, s.advance temp start ret))
  else some (.outer, s.advance temp start ret)

/-- The loops of `remove_deleted_entries`, one body after the other. -/
def run : ℕ → Loop → Walk → Option Icmap
  | 0, _, _ => none
  | fuel + 1, loop, s =>
    match body temp start loop s with
    | none => some s.live
    | some (loop, s) => run fuel loop s

end Walk

/-- `remove_deleted_entries`, statement by statement. -/
def walkDeletedEntries (fuel : ℕ) (temp live : Icmap) (start : String) : Option Icmap :=
  Walk.run temp start fuel .outer ⟨live, (live.iter start).head?, (temp.iter start).head?⟩

/-- The names that an iterator has before it, the current one included. -/
def remaining (map : Icmap) (start : String) (key : Option String) : List String :=
  key.elim [] fun key => (map.iter start).filter (key ≤ ·)

section

variable {map live : Icmap} {start key : String} {oldIter newIter : List String}

/-- What is left after a key. -/
theorem remaining_next (map : Icmap) (start key : String) :
    remaining map start (iterNext map start (some key)) = (map.iter start).filter (key < ·) := by
  have hnext : iterNext map start (some key) = ((map.iter start).filter (key < ·)).head? :=
    head?_filter.symm
  have hsorted := (pairwise_iter map start).filter (key < ·)
  cases hlist : (map.iter start).filter (key < ·) with
  | nil =>
    rw [hnext, hlist]
    rfl
  | cons next _ =>
    rw [hnext, hlist]
    rw [hlist] at hsorted
    have hfirst : next ∈ (map.iter start).filter (key < ·) := hlist ▸ mem_cons_self
    have hlt : key < next := of_decide_eq_true (mem_filter.mp hfirst).2
    refine Eq.trans (filter_congr fun name hmem => decide_eq_decide.mpr ?_) hlist
    refine ⟨hlt.trans_le, fun hgt => ?_⟩
    have hin : name ∈ (map.iter start).filter (key < ·) :=
      mem_filter.mpr ⟨hmem, decide_eq_true hgt⟩
    rw [hlist] at hin
    rcases mem_cons.mp hin with rfl | hin
    · exact le_rfl
    · exact ((pairwise_cons.mp hsorted).1 name hin).le

/-- Sorted lists of the same names are equal. -/
theorem eq_of_sorted {names names' : List String} (hsorted : names.Pairwise (· < ·))
    (hsorted' : names'.Pairwise (· < ·)) (hmem : ∀ name, name ∈ names ↔ name ∈ names') :
    names = names' :=
  ((perm_ext_iff_of_nodup (hsorted.imp ne_of_lt) (hsorted'.imp ne_of_lt)).mpr
    hmem).eq_of_pairwise (fun _ _ _ _ hlt hgt => absurd hlt hgt.asymm) hsorted hsorted'

/-- An iterator goes through the names in order. -/
theorem remaining_some (hkey : key ∈ map.iter start) :
    remaining map start (some key) =
      key :: remaining map start (iterNext map start (some key)) := by
  rw [remaining_next]
  refine eq_of_sorted ((pairwise_iter _ _).filter _) ?_ fun name => ?_
  · refine pairwise_cons.mpr ⟨fun name hmem => ?_, (pairwise_iter _ _).filter _⟩
    exact of_decide_eq_true (mem_filter.mp hmem).2
  simp only [remaining, Option.elim_some, mem_cons, mem_filter, decide_eq_true_iff]
  constructor
  · rintro ⟨hmem, hle⟩
    exact hle.eq_or_lt.imp Eq.symm (⟨hmem, ·⟩)
  · rintro (rfl | ⟨hmem, hlt⟩)
    · exact ⟨hkey, le_rfl⟩
    · exact ⟨hmem, hlt.le⟩

/-- Deleting the current name does not disturb the iterator. -/
theorem remaining_erase (map : Icmap) (start key : String) :
    remaining (map.erase key) start (iterNext (map.erase key) start (some key)) =
      remaining map start (iterNext map start (some key)) := by
  rw [remaining_next, remaining_next]
  refine eq_of_sorted ((pairwise_iter _ _).filter _) ((pairwise_iter _ _).filter _) fun name => ?_
  simp only [mem_filter, mem_iter, Std.ExtTreeMap.mem_erase, decide_eq_true_iff]
  constructor
  · rintro ⟨⟨⟨-, hmem⟩, hunder⟩, hlt⟩
    exact ⟨⟨hmem, hunder⟩, hlt⟩
  · rintro ⟨⟨hmem, hunder⟩, hlt⟩
    exact ⟨⟨⟨fun heq => hlt.ne (Std.compare_eq_iff_eq.mp heq), hmem⟩, hunder⟩, hlt⟩

/-- An iterator is at a name of its map or at its end. -/
def At (map : Icmap) (start : String) (cursor : Option String) : Prop :=
  ∀ key, cursor = some key → key ∈ map.iter start

/-- The next key of an iteration is where it stands. -/
theorem at_next (map : Icmap) (start : String) (cursor : Option String) :
    At map start (iterNext map start cursor) := by
  intro key hnext
  obtain ⟨_, -, hfind⟩ := Option.bind_eq_some_iff.mp hnext
  exact mem_of_find?_eq_some hfind

/-- A new key is skipped. -/
theorem removeDeletedLoop_added {newKey : String} (hlt : newKey < key) :
    removeDeletedLoop live (key :: oldIter) (newKey :: newIter) =
      removeDeletedLoop live (key :: oldIter) newIter := by
  rw [removeDeletedLoop, dropWhile_cons, if_pos (decide_eq_true hlt)]
  rfl

/-- A key of both maps stays. -/
theorem removeDeletedLoop_same :
    removeDeletedLoop live (key :: oldIter) (key :: newIter) =
      removeDeletedLoop live oldIter newIter := by
  rw [removeDeletedLoop, dropWhile_cons,
    if_neg fun hlt => lt_irrefl key (of_decide_eq_true hlt)]
  exact if_pos rfl

/-- A key of the old map only is deleted. -/
theorem removeDeletedLoop_deleted {newKey : String} (hlt : key < newKey) :
    removeDeletedLoop live (key :: oldIter) (newKey :: newIter) =
      removeDeletedLoop (live.erase key) oldIter (newKey :: newIter) := by
  rw [removeDeletedLoop, dropWhile_cons, if_neg fun hgt => hlt.asymm (of_decide_eq_true hgt)]
  exact if_neg hlt.ne'

end

namespace Walk

variable {temp : Icmap} {start : String} {s s' : Walk} {loop : Loop} {fuel : ℕ}

/-- Both iterators are at names of their maps. -/
structure Ready (temp : Icmap) (start : String) (s : Walk) : Prop where
  old : At s.live start s.oldKey
  new : At temp start s.newKey

/-- The condition of an inner loop. -/
def Entered (s : Walk) : Loop → Prop
  | .outer => True
  | .deleting => nullcheckStrcmp s.oldKey s.newKey = .lt ∧ s.oldKey.isSome
  | .adding => nullcheckStrcmp s.oldKey s.newKey = .gt ∧ s.newKey.isSome

/-- The names before both iterators. -/
def left (temp : Icmap) (start : String) (s : Walk) : ℕ :=
  (remaining s.live start s.oldKey).length + (remaining temp start s.newKey).length

/-- The map in the end. -/
def result (temp : Icmap) (start : String) (s : Walk) : Icmap :=
  removeDeletedLoop s.live (remaining s.live start s.oldKey) (remaining temp start s.newKey)

/-- One name is dealt with. -/
structure Moves (temp : Icmap) (start : String) (s s' : Walk) : Prop where
  ready : Ready temp start s'
  left : s'.left temp start < s.left temp start
  result : s'.result temp start = s.result temp start

/-- A name that only the global map has is deleted. -/
theorem Ready.delete {live : Icmap} {key : String} {newKey : Option String}
    (hready : Ready temp start ⟨live, some key, newKey⟩)
    (hlt : ∀ new, newKey = some new → key < new) :
    Moves temp start ⟨live, some key, newKey⟩
      ⟨live.erase key, iterNext (live.erase key) start (some key), newKey⟩ := by
  have hold := remaining_some (hready.old key rfl)
  refine ⟨⟨at_next (live.erase key) start (some key), hready.new⟩, ?_, ?_⟩
  · simp only [Walk.left, hold, remaining_erase, length_cons]
    omega
  simp only [Walk.result, hold, remaining_erase]
  cases newKey with
  | none => rfl
  | some new =>
    rw [remaining_some (hready.new new rfl)]
    exact (removeDeletedLoop_deleted (hlt new rfl)).symm

/-- A name that only the temporary map has is skipped. -/
theorem Ready.add {live : Icmap} {key : String} {oldKey : Option String}
    (hready : Ready temp start ⟨live, oldKey, some key⟩)
    (hlt : ∀ old, oldKey = some old → key < old) :
    Moves temp start ⟨live, oldKey, some key⟩ ⟨live, oldKey, iterNext temp start (some key)⟩ := by
  have hnew := remaining_some (hready.new key rfl)
  refine ⟨⟨hready.old, at_next temp start (some key)⟩, ?_, ?_⟩
  · simp only [Walk.left, hnew, length_cons]
    omega
  simp only [Walk.result, hnew]
  cases oldKey with
  | none => rfl
  | some old =>
    rw [remaining_some (hready.old old rfl)]
    exact (removeDeletedLoop_added (hlt old rfl)).symm

/-- A common name stays. -/
theorem Ready.same {live : Icmap} {key : String}
    (hready : Ready temp start ⟨live, some key, some key⟩) :
    Moves temp start ⟨live, some key, some key⟩
      ⟨live, iterNext live start (some key), iterNext temp start (some key)⟩ := by
  have hold := remaining_some (hready.old key rfl)
  have hnew := remaining_some (hready.new key rfl)
  refine ⟨⟨at_next live start (some key), at_next temp start (some key)⟩, ?_, ?_⟩
  · simp only [Walk.left, hold, hnew, length_cons]
    omega
  · simp only [Walk.result, hold, hnew]
    exact removeDeletedLoop_same.symm

/-- The end of the outer loop. -/
theorem Moves.advance (h : Moves temp start s s') :
    Moves temp start s (s'.advance temp start (nullcheckStrcmp s'.oldKey s'.newKey)) := by
  unfold Walk.advance
  split
  · rename_i heq
    obtain ⟨live, _ | key, _ | newKey⟩ := s'
    · exact h
    · cases heq
    · cases heq
    · obtain rfl : key = newKey := Std.compare_eq_iff_eq.mp heq
      have hsame := h.ready.same
      exact ⟨hsame.ready, hsame.left.trans h.left, hsame.result.trans h.result⟩
  · exact h

/-- What the body of a loop does. -/
def Steps (temp : Icmap) (start : String) (s : Walk) (next : Loop × Walk) : Prop :=
  next.2.Entered next.1 ∧ Moves temp start s next.2

/-- The end of an inner loop. -/
theorem Moves.inner (h : Moves temp start s s') {again : Prop} [Decidable again]
    (hagain : again → s'.Entered loop) :
    Steps temp start s (if again then (loop, s') else
      (.outer, s'.advance temp start (nullcheckStrcmp s'.oldKey s'.newKey))) := by
  split
  · rename_i hloop
    exact ⟨hagain hloop, h⟩
  · exact ⟨trivial, h.advance⟩

/-- One turn of the loop ends it or goes on. -/
theorem Ready.body (hready : Ready temp start s) (hentered : s.Entered loop) :
    (body temp start loop s = none ∧ s.live = s.result temp start) ∨
      ∃ next, body temp start loop s = some next ∧ Steps temp start s next := by
  obtain ⟨live, _ | key, _ | newKey⟩ := s
  · cases loop with
    | outer => exact .inl ⟨rfl, rfl⟩
    | deleting => cases hentered.2
    | adding => cases hentered.2
  · have hadd := hready.add nofun
    cases loop with
    | outer => exact .inr ⟨_, rfl, hadd.inner id⟩
    | deleting => cases hentered.2
    | adding => cases hentered.1
  · have hdelete := hready.delete nofun
    cases loop with
    | outer => exact .inr ⟨_, rfl, hdelete.inner id⟩
    | deleting => cases hentered.1
    | adding => cases hentered.2
  · refine .inr ?_
    rcases hret : compare key newKey with _ | _ | _
    · have hdelete := hready.delete fun _ hnew =>
        Option.some.inj hnew ▸ compare_lt_iff_lt.mp hret
      cases loop with
      | outer => exact ⟨_, if_pos (.inr ⟨rfl, .inl ⟨hret, rfl⟩⟩), hdelete.inner id⟩
      | deleting => exact ⟨_, rfl, hdelete.inner id⟩
      | adding => cases hret.symm.trans hentered.1
    · obtain rfl : key = newKey := Std.compare_eq_iff_eq.mp hret
      cases loop with
      | outer =>
        refine ⟨(.outer, _), ?_, trivial, hready.same⟩
        simp [Walk.body, Walk.advance, nullcheckStrcmp]
      | deleting => cases hret.symm.trans hentered.1
      | adding => cases hret.symm.trans hentered.1
    · have hadd := hready.add fun _ hold => Option.some.inj hold ▸ compare_gt_iff_gt.mp hret
      cases loop with
      | outer =>
        refine ⟨_, (if_neg ?_).trans (if_pos (.inr (.inl ⟨hret, rfl⟩))), hadd.inner id⟩
        simp [nullcheckStrcmp, hret]
      | deleting => cases hret.symm.trans hentered.1
      | adding => exact ⟨_, rfl, hadd.inner id⟩

/-- With enough fuel the loop ends with the result. -/
theorem Ready.run_eq (hready : Ready temp start s) (hentered : s.Entered loop)
    (hfuel : s.left temp start < fuel) :
    run temp start fuel loop s = some (s.result temp start) := by
  induction fuel generalizing loop s with
  | zero => exact absurd hfuel (Nat.not_lt_zero _)
  | succ fuel ih =>
    unfold run
    obtain ⟨hbody, hresult⟩ | ⟨next, hbody, hentered, hmoves⟩ := hready.body hentered
    · rw [hbody, hresult]
    · rw [hbody, ← hmoves.result]
      exact ih hmoves.ready hentered (by have := hmoves.left; omega)

end Walk

/-- An iterator begins with all names. -/
theorem remaining_head (map : Icmap) (start : String) :
    remaining map start (map.iter start).head? = map.iter start := by
  have hsorted := pairwise_iter map start
  cases hiter : map.iter start with
  | nil => rfl
  | cons key _ =>
    rw [hiter] at hsorted
    refine (congrArg _ hiter).trans (filter_eq_self.mpr fun name hmem => decide_eq_true ?_)
    rcases mem_cons.mp hmem with rfl | hmem
    · exact le_rfl
    · exact ((pairwise_cons.mp hsorted).1 name hmem).le

/-- `remove_deleted_entries` returns after at most as many steps as the maps have names with the
given start. It has then deleted those of them that are in the global map and not in the temporary
one, and nothing else has changed. -/
theorem remove_deleted_entries_is_difference (temp live : Icmap) (start : String) :
    ∃ after, (∀ fuel, walkDeletedEntries
        ((live.iter start).length + (temp.iter start).length + fuel + 1) temp live start =
          some after) ∧
      ∀ name, after[name]? =
        if Under name start ∧ name ∈ live ∧ name ∉ temp then none else live[name]? := by
  refine ⟨removeDeletedEntries temp live start, fun fuel => ?_, fun name => ?_⟩
  · have hready : Walk.Ready temp start ⟨live, (live.iter start).head?, (temp.iter start).head?⟩ :=
      ⟨fun _ => mem_of_mem_head?, fun _ => mem_of_mem_head?⟩
    refine (hready.run_eq (show Walk.Entered _ .outer from trivial) ?_).trans ?_
    · simp only [Walk.left, remaining_head]
      omega
    · simp only [Walk.result, remaining_head, removeDeletedEntries]
  · rw [getElem?_removeDeletedEntries]
    by_cases hlive : name ∈ live
    · simp [hlive]
    · simp [hlive]

end Corosync.Cfg
