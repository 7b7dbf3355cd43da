import Mathlib.Data.List.Basic

/-!
# Steps that may fail

What is known when a computation in `Except` returns: its steps have returned, and a loop keeps
what each of its steps keeps.
-/

namespace Corosync.Library

section Fallible

variable {ε α β σ : Type}

/-- A sequence returns when both parts return. -/
theorem bind_eq_ok {x : Except ε α} {f : α → Except ε β} {b : β} :
    (x >>= f) = .ok b ↔ ∃ a, x = .ok a ∧ f a = .ok b := by
  cases x with
  | error | ok => simp [bind, Except.bind]

/-- A loop that returns, with a property of the state and of the entries that are done. -/
theorem foldlM_ok_invariant (P : List α → σ → Prop) {step : σ → α → Except ε σ}
    (hstep : ∀ done a s s', P done s → step s a = .ok s' → P (done ++ [a]) s')
    {list : List α} {s s' : σ} (hs : P [] s) (hfold : list.foldlM step s = .ok s') : P list s' := by
  suffices hdone : ∀ done s, P done s → list.foldlM step s = .ok s' → P (done ++ list) s' from
    hdone [] s hs hfold
  clear hs hfold
  induction list with
  | nil =>
    intro done s hs hfold
    cases hfold
    rwa [List.append_nil]
  | cons a _ ih =>
    intro done s hs hfold
    rw [List.foldlM_cons, bind_eq_ok] at hfold
    obtain ⟨next, ha, hrest⟩ := hfold
    have hnext := ih (done ++ [a]) next (hstep done a s next hs ha) hrest
    rwa [List.append_assoc, List.singleton_append] at hnext

/-- An element-wise step that returns keeps the length. -/
theorem length_of_mapM_ok {f : α → Except ε β} {list : List α} {out : List β}
    (hmap : list.mapM f = .ok out) : out.length = list.length := by
  induction list generalizing out with
  | nil =>
    cases hmap
    rfl
  | cons _ _ ih =>
    rw [List.mapM_cons, bind_eq_ok] at hmap
    obtain ⟨b, -, hrest⟩ := hmap
    obtain ⟨rest, hlist, hout⟩ := bind_eq_ok.mp hrest
    cases hout
    rw [List.length_cons, List.length_cons, ih hlist]

end Fallible

end Corosync.Library
