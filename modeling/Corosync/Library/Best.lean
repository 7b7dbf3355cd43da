import Mathlib.Order.Lattice

/-!
# The best element of a list

A loop that keeps the best element seen so far. When the comparison ranks the elements in a linear
order, the element kept is in the list and no element is better; so two loops over one list keep
elements of the same rank, wherever they started, as long as the list can beat both starts.
-/

namespace Corosync.Library

open List

variable {α β : Type*} [LinearOrder β]

/-- The element a loop over `list` keeps when it replaces its best one by every better one. -/
def keepBest (better : α → α → Bool) (start : α) (list : List α) : α :=
  list.foldl (fun best x => if better x best then x else best) start

/-- On the elements of `s` the comparison follows a rank. -/
def RankedBy (better : α → α → Bool) (rank : α → β) (s : α → Prop) : Prop :=
  ∀ x y, s x → s y → (better x y = true ↔ rank x < rank y)

variable {better : α → α → Bool} {rank : α → β} {s : α → Prop} {start : α} {list : List α}

/-- The best is one of the list. -/
theorem keepBest_mem (better : α → α → Bool) (start : α) (list : List α) :
    keepBest better start list ∈ start :: list := by
  induction list generalizing start with
  | nil => exact mem_singleton_self start
  | cons x _ ih =>
    unfold keepBest
    rw [foldl_cons]
    rcases mem_cons.mp (ih (if better x start then x else start)) with heq | hmem
    · unfold keepBest at heq
      rw [heq]
      split <;> simp
    · exact mem_cons_of_mem _ (mem_cons_of_mem _ hmem)

/-- No element has a smaller rank than the element kept. -/
theorem rank_keepBest_le (hranked : RankedBy better rank s) (hstart : s start)
    (hlist : ∀ x ∈ list, s x) :
    ∀ x ∈ start :: list, rank (keepBest better start list) ≤ rank x := by
  induction list generalizing start with
  | nil =>
    intro x hx
    rw [mem_singleton.mp hx]
    exact le_rfl
  | cons y _ ih =>
    have hy : s y := hlist y mem_cons_self
    have hnext : s (if better y start then y else start) := by
      split
      · exact hy
      · exact hstart
    have hrest := ih hnext fun x hx => hlist x (mem_cons_of_mem _ hx)
    have hle : rank (if better y start then y else start) ≤ rank start ∧
        rank (if better y start then y else start) ≤ rank y := by
      by_cases hbetter : better y start = true
      · rw [if_pos hbetter]
        exact ⟨le_of_lt ((hranked y start hy hstart).mp hbetter), le_rfl⟩
      · rw [if_neg hbetter]
        exact ⟨le_rfl, not_lt.mp fun hlt => hbetter ((hranked y start hy hstart).mpr hlt)⟩
    intro x hx
    rcases mem_cons.mp hx with rfl | hx
    · exact le_trans (hrest _ mem_cons_self) hle.1
    · rcases mem_cons.mp hx with rfl | hx
      · exact le_trans (hrest _ mem_cons_self) hle.2
      · exact hrest x (mem_cons_of_mem _ hx)

/-- When the list has an element that ranks no worse than the start, the kept rank is attained in
the list. -/
theorem rank_keepBest_mem (hranked : RankedBy better rank s) (hstart : s start)
    (hlist : ∀ x ∈ list, s x) {x : α} (hx : x ∈ list) (hle : rank x ≤ rank start) :
    ∃ y ∈ list, rank (keepBest better start list) = rank y := by
  rcases mem_cons.mp (keepBest_mem better start list) with heq | hmem
  · have hbest := rank_keepBest_le hranked hstart hlist x (mem_cons_of_mem _ hx)
    rw [heq] at hbest ⊢
    exact ⟨x, hx, le_antisymm hbest hle⟩
  · exact ⟨_, hmem, rfl⟩

/-- Two loops over one list keep elements of one rank when the list can beat both starts. -/
theorem rank_keepBest_congr {other : α} (hranked : RankedBy better rank s) (hstart : s start)
    (hother : s other) (hlist : ∀ x ∈ list, s x) {x y : α} (hx : x ∈ list)
    (hxle : rank x ≤ rank start) (hy : y ∈ list) (hyle : rank y ≤ rank other) :
    rank (keepBest better start list) = rank (keepBest better other list) := by
  obtain ⟨v, hv, hveq⟩ := rank_keepBest_mem hranked hstart hlist hx hxle
  obtain ⟨w, hw, hweq⟩ := rank_keepBest_mem hranked hother hlist hy hyle
  apply le_antisymm
  · rw [hweq]
    exact rank_keepBest_le hranked hstart hlist w (mem_cons_of_mem _ hw)
  · rw [hveq]
    exact rank_keepBest_le hranked hother hlist v (mem_cons_of_mem _ hv)

end Corosync.Library
