import Mathlib.Data.List.Sort
import Corosync.Sync.System

/-!
# The service list

The list of a node always has the services of the nodes heard so far, in the order of their ids,
so that it does not depend on the order in which they were heard.
-/

namespace Corosync.Sync

open List ServiceEntry SyncNode

variable {list : List ServiceEntry} {new : List ℕ}

/-- Ids in the list after adding services. -/
theorem mem_addServices {id : ℕ} :
    id ∈ (new.foldl addService list).map serviceId ↔
      id ∈ list.map serviceId ∨ id ∈ new := by
  induction new generalizing list with
  | nil => simp
  | cons first _ ih =>
    rw [foldl_cons, ih, mem_cons]
    have hadd : id ∈ (addService list first).map serviceId ↔
        id ∈ list.map serviceId ∨ id = first := by
      unfold addService
      split
      · rename_i hany
        obtain ⟨entry, hentry, heq⟩ := any_eq_true.mp hany
        constructor
        · exact .inl
        · rintro (hmem | rfl)
          · exact hmem
          · exact mem_map.mpr ⟨entry, hentry, by simpa using heq⟩
      · simp
    rw [hadd, or_assoc]

/-- Added services are distinct. -/
theorem nodup_addServices (hnodup : (list.map serviceId).Nodup) :
    ((new.foldl addService list).map serviceId).Nodup := by
  induction new generalizing list with
  | nil => exact hnodup
  | cons first _ ih =>
    rw [foldl_cons]
    apply ih
    unfold addService
    split
    · exact hnodup
    rename_i hany
    rw [map_append, nodup_append]
    refine ⟨hnodup, by simp, ?_⟩
    intro a ha b hb hab
    obtain ⟨entry, hentry, rfl⟩ := mem_map.mp ha
    apply hany
    refine any_eq_true.mpr ⟨entry, hentry, ?_⟩
    have hb : b = first := by simpa using hb
    simpa using hab.trans hb

/-- Added services are not yet activated. -/
theorem activate_addServices (hnew : ∀ entry ∈ list, entry.activate = false) :
    ∀ entry ∈ new.foldl addService list, entry.activate = false := by
  induction new generalizing list with
  | nil => exact hnew
  | cons _ _ ih =>
    rw [foldl_cons]
    apply ih
    unfold addService
    split
    · exact hnew
    · intro entry hentry
      rcases mem_append.mp hentry with hentry | hentry
      · exact hnew entry hentry
      · rw [mem_singleton.mp hentry]

/-- Sorted lists without repetition that have the same members are equal. -/
theorem eq_of_sorted {a b : List ℕ} (ha : a.Pairwise (· ≤ ·)) (hanodup : a.Nodup)
    (hb : b.Pairwise (· ≤ ·)) (hbnodup : b.Nodup) (hmem : ∀ id, id ∈ a ↔ id ∈ b) : a = b :=
  ((perm_ext_iff_of_nodup hanodup hbnodup).mpr hmem).eq_of_pairwise'
    ha hb

/-- The ids below the limit with some property, which is what service lists are. -/
def idsWith (f : ℕ → Bool) : List ℕ := (List.range servicesCountMax).filter f

/-- Ids are listed in order. -/
theorem idsWith_sorted (f : ℕ → Bool) : (idsWith f).Pairwise (· ≤ ·) :=
  (pairwise_le_range).filter f

/-- Ids are listed once. -/
theorem idsWith_nodup (f : ℕ → Bool) : (idsWith f).Nodup :=
  nodup_range.filter f

/-- Adding a node's services to a list in order gives the list of both in order. -/
theorem mergeServices_ids {qsort : List ServiceEntry → List ServiceEntry} (hqsort : Qsort qsort)
    {node : SyncNode} {f g : ℕ → Bool}
    (hids : node.myServiceList.map serviceId = idsWith f) :
    (node.mergeServices qsort (idsWith g)).myServiceList.map serviceId =
      idsWith fun id => f id || g id := by
  set merged := (idsWith g).foldl addService node.myServiceList with hmerged
  have hmem : ∀ id, id ∈ merged.map serviceId ↔
      id ∈ idsWith fun id => f id || g id := by
    intro id
    rw [hmerged, mem_addServices, hids]
    simp only [idsWith, mem_filter, mem_range, Bool.or_eq_true]
    constructor
    · rintro (⟨hlt, hf⟩ | ⟨hlt, hg⟩)
      · exact ⟨hlt, .inl hf⟩
      · exact ⟨hlt, .inr hg⟩
    · rintro ⟨hlt, hf | hg⟩
      · exact .inl ⟨hlt, hf⟩
      · exact .inr ⟨hlt, hg⟩
  have hnodup : (merged.map serviceId).Nodup :=
    nodup_addServices (hids ▸ idsWith_nodup f)
  simp only [mergeServices, ← hmerged]
  split
  · rename_i hsame
    refine eq_of_sorted ?_ hnodup (idsWith_sorted _) (idsWith_nodup _) hmem
    rw [hsame, hids]
    exact idsWith_sorted f
  · have hperm := (hqsort.perm merged).map serviceId
    refine eq_of_sorted ?_ (hperm.nodup_iff.mpr hnodup) (idsWith_sorted _) (idsWith_nodup _)
      fun id => (hperm.mem_iff).trans (hmem id)
    rw [pairwise_map]
    refine (hqsort.sorted merged).imp fun {a b} hcompare => ?_
    unfold serviceEntryCompare at hcompare
    split at hcompare
    · omega
    · omega

/-- Merged services are not yet activated. -/
theorem mergeServices_activate {qsort : List ServiceEntry → List ServiceEntry}
    (hqsort : Rearranges qsort) {node : SyncNode}
    (hnew : ∀ entry ∈ node.myServiceList, entry.activate = false) :
    ∀ entry ∈ (node.mergeServices qsort new).myServiceList, entry.activate = false := by
  have hmerged : ∀ entry ∈ new.foldl addService node.myServiceList,
      entry.activate = false := activate_addServices hnew
  simp only [mergeServices]
  split
  · exact hmerged
  · exact fun entry hentry => hmerged entry ((hqsort.perm _).mem_iff.mp hentry)

end Corosync.Sync
