import Mathlib.Data.Finset.Card

/-!
# Rival majorities

A group of voters that expects a number of votes has a majority in every part with more than half
of them. Two groups are rivals if they have majorities without a common voter. Groups whose
expectations are lowered one after another do not become rivals as long as a group lowers them to
its own size only while it has a majority itself and all others are either the same or have no
common voter with it.
-/

namespace Corosync.Library

variable {α : Type*}

/-- A group of voters and the votes it expects. -/
structure Electorate (α : Type*) where
  voters : Finset α
  expected : ℕ

namespace Electorate

variable {p p' q q' : Electorate α} {all : Finset α}

/-- Two groups have majorities without a common voter. -/
def Rivals (p q : Electorate α) : Prop :=
  ∃ left ⊆ p.voters, ∃ right ⊆ q.voters, Disjoint left right ∧
    p.expected < 2 * left.card ∧ q.expected < 2 * right.card

/-- A group with fewer voters that expects more. -/
def Weaker (p q : Electorate α) : Prop := p.voters ⊆ q.voters ∧ q.expected ≤ p.expected

/-- Every electorate is weaker than itself. -/
theorem Weaker.refl (p : Electorate α) : p.Weaker p := ⟨Finset.Subset.refl _, Nat.le_refl _⟩

/-- Rivals are rivals of each other. -/
theorem Rivals.symm (hrivals : p.Rivals q) : q.Rivals p := by
  obtain ⟨left, hleft, right, hright, hdisjoint, hmost, hmost'⟩ := hrivals
  exact ⟨right, hright, left, hleft, hdisjoint.symm, hmost', hmost⟩

/-- What a weaker group is a rival of is a rival of the stronger one. -/
theorem Rivals.of_weaker (hrivals : p'.Rivals q') (hp : p'.Weaker p) (hq : q'.Weaker q) :
    p.Rivals q := by
  obtain ⟨left, hleft, right, hright, hdisjoint, hmost, hmost'⟩ := hrivals
  exact ⟨left, hleft.trans hp.1, right, hright.trans hq.1, hdisjoint,
    Nat.lt_of_le_of_lt hp.2 hmost, Nat.lt_of_le_of_lt hq.2 hmost'⟩

/-- Groups that expect enough of all votes are not rivals. -/
theorem not_rivals_of_overlap [DecidableEq α] (hp : p.voters ⊆ all) (hq : q.voters ⊆ all)
    (henough : all.card < (p.expected + 2) / 2 + (q.expected + 2) / 2) : ¬p.Rivals q := by
  rintro ⟨left, hleft, right, hright, hdisjoint, hmost, hmost'⟩
  have hunion : (left ∪ right).card ≤ all.card :=
    Finset.card_le_card (Finset.union_subset (hleft.trans hp) (hright.trans hq))
  rw [Finset.card_union_of_disjoint hdisjoint] at hunion
  omega

/-- A group that has a majority may expect the votes of its voters only. -/
theorem not_rivals_lowered [DecidableEq α] (hmajority : p.expected < 2 * p.voters.card)
    (hself : ¬q.Rivals q) (hrivals : ¬p.Rivals q)
    (hapart : q.voters = p.voters ∨ Disjoint p.voters q.voters) :
    ¬(Electorate.mk p.voters p.voters.card).Rivals q := by
  rintro ⟨left, hleft, right, hright, hdisjoint, hmost, hmost'⟩
  obtain hsame | hapart := hapart
  · -- the larger part is a majority in the eyes of the other group as well
    have hunion : (left ∪ right).card ≤ p.voters.card :=
      Finset.card_le_card (Finset.union_subset hleft (hsame ▸ hright))
    rw [Finset.card_union_of_disjoint hdisjoint] at hunion
    exact hself ⟨left, hsame.symm ▸ hleft, right, hright, hdisjoint, by simp only at hmost; omega,
      hmost'⟩
  · exact hrivals ⟨p.voters, Finset.Subset.refl _, right, hright,
      Finset.disjoint_of_subset_right hright hapart, hmajority, hmost'⟩

/-- A group is not its own rival if it expects the votes of its voters. -/
theorem not_rivals_self [DecidableEq α] (hall : p.voters.card ≤ p.expected) : ¬p.Rivals p := by
  refine not_rivals_of_overlap (Finset.Subset.refl _) (Finset.Subset.refl _) ?_
  omega

end Electorate

/-- A sublist is a subset. -/
theorem toFinset_subset_toFinset [DecidableEq α] {left right : List α} (hsub : left ⊆ right) :
    left.toFinset ⊆ right.toFinset :=
  fun _ hmem => List.mem_toFinset.mpr (hsub (List.mem_toFinset.mp hmem))

end Corosync.Library
