import Mathlib.Algebra.Order.BigOperators.Group.List
import Mathlib.Algebra.Order.Group.Nat
import Mathlib.Algebra.Ring.Nat
import Mathlib.Data.List.Nodup
import Mathlib.Data.List.Perm.Subperm

/-!
# Tallies

The votes of a list of voters. Two groups without a common voter have together at most the votes of
all, so they are not both more than half of them.
-/

namespace Corosync.Library

open List

variable {α : Type*} {votes : α → ℕ} {voters some all left right : List α}

/-- The votes of all voters of a list. -/
def tally (votes : α → ℕ) (voters : List α) : ℕ := (voters.map votes).sum

/-- A tally does not depend on the order. -/
theorem tally_perm (hperm : left.Perm right) : tally votes left = tally votes right :=
  (hperm.map votes).sum_nat

/-- The tally of two groups. -/
theorem tally_append : tally votes (left ++ right) = tally votes left + tally votes right := by
  simp [tally]

/-- A part has at most the votes of all. -/
theorem tally_le_of_subset (hnodup : some.Nodup) (hsub : some ⊆ all) :
    tally votes some ≤ tally votes all := by
  obtain ⟨same, hperm, hsublist⟩ := subperm_of_subset hnodup hsub
  rw [← tally_perm hperm]
  exact (hsublist.map votes).sum_le_sum (by simp)

/-- Two groups without a common voter. -/
theorem tally_add_le_of_disjoint (hleft : left.Nodup) (hright : right.Nodup)
    (hdisjoint : left.Disjoint right) (hleftAll : left ⊆ all) (hrightAll : right ⊆ all) :
    tally votes left + tally votes right ≤ tally votes all := by
  rw [← tally_append]
  refine tally_le_of_subset (hleft.append hright hdisjoint) ?_
  exact append_subset.mpr ⟨hleftAll, hrightAll⟩

/-- The votes of all are those of some of them and those of the others. -/
theorem tally_eq_add_others [DecidableEq α] (hsome : some.Nodup) (hall : all.Nodup)
    (hsub : some ⊆ all) :
    tally votes all = tally votes some + tally votes (all.filter fun voter => voter ∉ some) := by
  have hfound : (all.filter fun voter => voter ∈ some).Perm some := by
    refine (perm_ext_iff_of_nodup (hall.filter _) hsome).mpr fun voter => ?_
    simpa using fun hmem => hsub hmem
  have hsplit := filter_append_perm (fun voter => decide (voter ∈ some)) all
  rw [← tally_perm hsplit, tally_append, tally_perm hfound]
  simp only [decide_not]

/-- Where every voter has a vote, the votes are one for each and those beyond. -/
theorem tally_eq_length_add (hpositive : ∀ voter, 0 < votes voter) (voters : List α) :
    tally votes voters = voters.length + tally (fun voter => votes voter - 1) voters := by
  induction voters with
  | nil => rfl
  | cons voter _ ih =>
    have hfirst := hpositive voter
    simp only [tally, map_cons, sum_cons, length_cons] at ih ⊢
    omega

/-- With one vote each the tally is the number of voters. -/
theorem tally_one (hone : ∀ voter ∈ voters, votes voter = 1) :
    tally votes voters = voters.length := by
  induction voters with
  | nil => rfl
  | cons voter _ ih =>
    have hrest := ih fun other hmem => hone other (mem_cons_of_mem _ hmem)
    have hfirst := hone voter mem_cons_self
    simp only [tally, map_cons, sum_cons, length_cons] at hrest ⊢
    omega

end Corosync.Library
