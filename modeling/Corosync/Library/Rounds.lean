import Mathlib.Algebra.Order.Group.Nat

/-!
# Rounds in a log

Members write into one log, each of them only after everybody has written as often as the member
itself. Such a log consists of rounds: at any time all members have written `r` or `r + 1` times.
-/

namespace Corosync.Library

open List

variable {α : Type*} [DecidableEq α]

/-- Round `r` of a log is in progress: every member has written `r` or `r + 1` times, and some
member has still to write. -/
structure AtRound (members log : List α) (r : ℕ) : Prop where
  le : ∀ q ∈ members, r ≤ log.count q
  le_succ : ∀ q ∈ members, log.count q ≤ r + 1
  behind : ∃ q ∈ members, log.count q = r

/-- Nobody has written while another member had written less often. -/
def Balanced (members log : List α) : Prop :=
  ∀ before q after, log = before ++ q :: after →
    q ∈ members ∧ ∀ other ∈ members, before.count q ≤ before.count other

variable {members log : List α} {r : ℕ} {q : α}

/-- An empty log is balanced. -/
theorem Balanced.nil : Balanced members [] := by
  intro before q after heq
  simp at heq

/-- So is the beginning of a balanced log. -/
theorem Balanced.of_append {rest : List α} (h : Balanced members (log ++ rest)) :
    Balanced members log := by
  intro before q after heq
  refine h before q (after ++ rest) ?_
  rw [heq, append_assoc, cons_append]

/-- The next sender is not ahead of the others. -/
theorem Balanced.next (h : Balanced members (log ++ [q])) :
    q ∈ members ∧ ∀ other ∈ members, log.count q ≤ log.count other :=
  h log q [] rfl

/-- A member that has written as often as the least may write. -/
theorem Balanced.concat (h : Balanced members log) (hq : q ∈ members)
    (hleast : ∀ other ∈ members, log.count q ≤ log.count other) :
    Balanced members (log ++ [q]) := by
  intro before p after heq
  rcases eq_nil_or_concat after with rfl | ⟨init, last, rfl⟩
  · obtain ⟨rfl, hlast⟩ := append_inj' heq rfl
    obtain rfl : q = p := by simpa using hlast
    exact ⟨hq, hleast⟩
  · have hsplit : log ++ [q] = (before ++ p :: init) ++ [last] := by
      rw [heq, append_assoc, cons_append]
      simp
    exact h before p init (append_inj' hsplit rfl).1

/-- The first round. -/
theorem AtRound.nil (hne : members ≠ []) : AtRound members [] 0 := by
  obtain ⟨q, hq⟩ := exists_mem_of_ne_nil members hne
  exact ⟨fun _ _ => Nat.zero_le _, fun _ _ => by simp, q, hq, count_nil⟩

/-- The next writer of a balanced log has still to write in this round. -/
theorem AtRound.count_next (h : AtRound members log r) (hbalanced : Balanced members (log ++ [q])) :
    log.count q = r := by
  obtain ⟨hq, hleast⟩ := hbalanced.next
  obtain ⟨p, hp, hcount⟩ := h.behind
  exact le_antisymm (hcount ▸ hleast p hp) (h.le q hq)

/-- How often somebody has written after one more entry. -/
theorem count_concat (log : List α) (q p : α) :
    (log ++ [q]).count p = log.count p + if q = p then 1 else 0 := by
  rw [count_append, count_singleton]
  simp

/-- Whether a message ends its round. -/
theorem AtRound.cases_concat (hround : AtRound members log r)
    (hbalanced : Balanced members (log ++ [q])) :
    ((∀ x ∈ members, (log ++ [q]).count x = r + 1) ∧ AtRound members (log ++ [q]) (r + 1)) ∨
    (¬ (∀ x ∈ members, r < (log ++ [q]).count x) ∧ AtRound members (log ++ [q]) r) := by
  have hcount := hround.count_next hbalanced
  have hle : ∀ x ∈ members, (log ++ [q]).count x ≤ r + 1 := by
    intro x hx
    rw [count_concat]
    split
    · rename_i heq
      rw [← heq, hcount]
    · exact hround.le_succ x hx
  by_cases hall : ∀ x ∈ members, r < (log ++ [q]).count x
  · have heq : ∀ x ∈ members, (log ++ [q]).count x = r + 1 :=
      fun x hx => le_antisymm (hle x hx) (hall x hx)
    exact Or.inl ⟨heq, fun x hx => (heq x hx).ge, fun x hx => (heq x hx).le.trans (Nat.le_succ _),
      q, hbalanced.next.1, heq q hbalanced.next.1⟩
  · refine Or.inr ⟨hall, ?_⟩
    push Not at hall
    obtain ⟨x, hx, hbehind⟩ := hall
    refine ⟨fun y hy => ?_, hle, x, hx, le_antisymm hbehind ?_⟩
    · rw [count_concat]
      exact (hround.le y hy).trans (Nat.le_add_right _ _)
    · rw [count_concat]
      exact (hround.le x hx).trans (Nat.le_add_right _ _)

end Corosync.Library
