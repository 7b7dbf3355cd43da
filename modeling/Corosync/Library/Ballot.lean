import Mathlib.Data.Finset.Card

/-!
# Ballots

A ballot asks some voters and keeps the latest answer of each of them. An answer counts once: a
voter who answers again takes the earlier answer back.
-/

namespace Corosync.Library

open Finset

/-- Those who were asked and what each voter answered last. -/
structure Ballot (α β : Type*) where
  asked : Finset α
  latest : α → Option β

namespace Ballot

variable {α β : Type*} {b : Ballot α β} {voter : α} {given wanted : β}

/-- A ballot nobody has answered yet. -/
def fresh (asked : Finset α) : Ballot α β := ⟨asked, fun _ => none⟩

section Count

variable [DecidableEq β]

/-- The voters asked whose latest answer is the wanted one. -/
def count (b : Ballot α β) (wanted : β) : ℕ :=
  (b.asked.filter fun voter => b.latest voter = some wanted).card

/-- A new ballot has no answers. -/
@[simp] theorem count_fresh (asked : Finset α) : (fresh asked : Ballot α β).count wanted = 0 := by
  simp [count, fresh]

/-- A count that reaches the number of voters asked is unanimous. -/
theorem latest_of_card_le_count (hcount : b.asked.card ≤ b.count wanted)
    (hasked : voter ∈ b.asked) :
    b.latest voter = some wanted := by
  have hall : b.asked.filter (fun voter => b.latest voter = some wanted) = b.asked :=
    eq_of_subset_of_card_le (filter_subset _ _) hcount
  rw [← hall] at hasked
  exact (mem_filter.mp hasked).2

end Count

variable [DecidableEq α]

/-- Another voter is asked. -/
def ask (b : Ballot α β) (voter : α) : Ballot α β := { b with asked := insert voter b.asked }

/-- A voter answers. -/
def answer (b : Ballot α β) (voter : α) (given : β) : Ballot α β :=
  { b with latest := Function.update b.latest voter (some given) }

/-- The latest answers after one more. -/
theorem latest_answer (other : α) :
    (b.answer voter given).latest other = if other = voter then some given else b.latest other := by
  simp only [answer, Function.update_apply]

variable [DecidableEq β]

/-- A voter who has not answered does not change any count by being asked. -/
theorem count_ask (hlatest : b.latest voter = none) :
    (b.ask voter).count wanted = b.count wanted := by
  unfold count ask
  rw [filter_insert, if_neg (by simp [hlatest])]

/-- A new answer counts and the earlier one does not any more. -/
theorem count_answer (given wanted : β) (hasked : voter ∈ b.asked) :
    (b.answer voter given).count wanted + (if b.latest voter = some wanted then 1 else 0) =
      b.count wanted + (if given = wanted then 1 else 0) := by
  -- Both counts agree on the other voters.
  have hothers : ∀ other ∈ b.asked.erase voter,
      (b.answer voter given).latest other = b.latest other := by
    intro other hother
    rw [latest_answer, if_neg (ne_of_mem_erase hother)]
  have hsplit : ∀ c : Ballot α β, c.asked = b.asked →
      c.count wanted = ((b.asked.erase voter).filter fun v => c.latest v = some wanted).card +
        (if c.latest voter = some wanted then 1 else 0) := by
    intro c hc
    unfold count
    rw [hc, ← insert_erase hasked, filter_insert, erase_insert_eq_erase,
      erase_idem]
    split
    · rw [card_insert_of_notMem (by simp)]
    · rfl
  rw [hsplit (b.answer voter given) rfl, hsplit b rfl,
    filter_congr fun other hother => by rw [hothers other hother], latest_answer, if_pos rfl]
  simp only [Option.some.injEq]
  omega

end Ballot

end Corosync.Library
