import Mathlib.Data.List.Basic

/-!
# Runs of a partial step function

A system is a step function that may refuse an event. A run feeds it a list of events; what holds
at the start and is kept by every step holds after every run.
-/

namespace Corosync.Library

open List Option

variable {σ ε : Type*} {step : σ → ε → Option σ}

/-- Feeds a list of events to a step function. -/
def run (step : σ → ε → Option σ) : σ → List ε → Option σ
  | s, [] => some s
  | s, e :: events => (step s e).bind fun s' => run step s' events

/-- The step function that also refuses events outside a condition. -/
def restrict (cond : σ → ε → Prop) [∀ s e, Decidable (cond s e)] (step : σ → ε → Option σ) :
    σ → ε → Option σ :=
  fun s e => if cond s e then step s e else none

variable {cond : σ → ε → Prop} {s s' : σ}

/-- A restricted step meets the condition. -/
theorem restrict_eq_some [∀ s e, Decidable (cond s e)] {e : ε} :
    restrict cond step s e = some s' ↔ cond s e ∧ step s e = some s' := by
  unfold restrict
  split <;> simp_all

variable {P : σ → Prop} {events : List ε}

/-- What every step with an admitted event keeps holds after every run of such events. -/
theorem run_invariant_of_forall {Q : ε → Prop}
    (hstep : ∀ s e s', Q e → P s → step s e = some s' → P s')
    (hevents : ∀ e ∈ events, Q e) (hstart : P s) (hrun : run step s events = some s') : P s' := by
  induction events generalizing s with
  | nil =>
    cases hrun
    exact hstart
  | cons e _ ih =>
    obtain ⟨t, hfirst, hrest⟩ := bind_eq_some_iff.mp hrun
    exact ih (fun other hother => hevents other (mem_cons_of_mem _ hother))
      (hstep s e t (hevents e mem_cons_self) hstart hfirst) hrest

/-- What every step keeps holds after every run. -/
theorem run_invariant (hstep : ∀ s e s', P s → step s e = some s' → P s')
    (hstart : P s) (hrun : run step s events = some s') : P s' :=
  run_invariant_of_forall (fun s e s' (_ : True) => hstep s e s') (fun _ _ => trivial) hstart hrun

/-- Where a step keeps a property if and only if its event is admitted, the property holds all
along a run if and only if every event of the run is admitted. -/
theorem run_restrict_iff [∀ s e, Decidable (cond s e)]
    (hstep : ∀ s e s', P s → step s e = some s' → (P s' ↔ cond s e)) (hstart : P s)
    (hrun : run step s events = some s') :
    (∀ first t, first <+: events → run step s first = some t → P t) ↔
      run (restrict cond step) s events = some s' := by
  induction events generalizing s with
  | nil =>
    refine iff_of_true (fun first t hfirst hrun => ?_) hrun
    rw [prefix_nil.mp hfirst] at hrun
    cases hrun
    exact hstart
  | cons e events ih =>
    obtain ⟨next, hnext, hrest⟩ := bind_eq_some_iff.mp hrun
    have hkept := hstep s e next hstart hnext
    constructor
    · intro hall
      have hP := hall [e] next (prefix_append [e] events) (by simp only [run, hnext]; rfl)
      refine bind_eq_some_iff.mpr ⟨next, restrict_eq_some.mpr ⟨hkept.mp hP, hnext⟩, ?_⟩
      refine (ih hP hrest).mp fun first t hfirst hrun => hall (e :: first) t ?_ ?_
      · exact cons_prefix_cons.mpr ⟨rfl, hfirst⟩
      · exact bind_eq_some_iff.mpr ⟨next, hnext, hrun⟩
    · intro hadmitted first t hfirst hreach
      obtain ⟨other, hother, hafter⟩ := bind_eq_some_iff.mp hadmitted
      obtain ⟨hcond, hother⟩ := restrict_eq_some.mp hother
      obtain rfl : next = other := some.inj (hnext.symm.trans hother)
      cases first with
      | nil =>
        cases hreach
        exact hstart
      | cons e' first =>
        obtain ⟨rfl, htail⟩ := cons_prefix_cons.mp hfirst
        obtain ⟨third, hthird, htailRun⟩ := bind_eq_some_iff.mp hreach
        obtain rfl : next = third := some.inj (hnext.symm.trans hthird)
        exact (ih (hkept.mpr hcond) hrest).mpr hafter first t htail htailRun

variable {list : List ε}

/-- A loop that may fail, with a property of the state and of the elements that are done. -/
theorem foldlM_invariant (P : List ε → σ → Prop)
    (hstep : ∀ done e s s', e ∈ list → P done s → step s e = some s' → P (done ++ [e]) s')
    (hstart : P [] s) (hfold : list.foldlM step s = some s') : P list s' := by
  suffices hdone : ∀ rest done s, rest ⊆ list → P done s → rest.foldlM step s = some s' →
      P (done ++ rest) s' from hdone list [] s (List.Subset.refl _) hstart hfold
  intro rest
  induction rest with
  | nil =>
    intro done s _ hs hfold
    cases hfold
    rwa [append_nil]
  | cons e _ ih =>
    intro done s hsub hs hfold
    rw [cons_subset] at hsub
    rw [foldlM_cons] at hfold
    obtain ⟨next, hnext, hrest⟩ := bind_eq_some_iff.mp hfold
    have hall := ih (done ++ [e]) next hsub.2 (hstep done e s next hsub.1 hs hnext) hrest
    rwa [append_assoc, singleton_append] at hall

/-- A loop that succeeds at every element after those before it. -/
theorem foldlM_total (P : List ε → σ → Prop)
    (hstep : ∀ done e s, done ++ [e] <+: list → P done s →
      ∃ s', step s e = some s' ∧ P (done ++ [e]) s')
    (hstart : P [] s) : ∃ s', list.foldlM step s = some s' ∧ P list s' := by
  suffices hdone : ∀ rest done s, done ++ rest = list → P done s →
      ∃ s', rest.foldlM step s = some s' ∧ P (done ++ rest) s' from hdone list [] s rfl hstart
  intro rest
  induction rest with
  | nil =>
    intro done s _ hs
    exact ⟨s, rfl, by rwa [append_nil]⟩
  | cons e rest ih =>
    intro done s hlist hs
    rw [append_cons] at hlist ⊢
    obtain ⟨next, hnext, hkept⟩ := hstep done e s ⟨rest, hlist⟩ hs
    obtain ⟨last, hlast, hall⟩ := ih (done ++ [e]) next hlist hkept
    exact ⟨last, by rw [foldlM_cons, hnext]; exact hlast, hall⟩

/-- A run that can be evaluated. -/
theorem exists_run_of_any {p : σ → Prop} [DecidablePred p]
    (hany : (run step s events).any (fun s' => p s') = true) :
    ∃ s', run step s events = some s' ∧ p s' := by
  cases hrun : run step s events with
  | none =>
    rw [hrun] at hany
    exact absurd hany Bool.false_ne_true
  | some s' =>
    rw [hrun] at hany
    exact ⟨s', rfl, of_decide_eq_true hany⟩

variable {q : σ → Prop}

/-- A run ends in a state with a property that follows from one that can be evaluated. -/
theorem exists_run_imp (p : σ → Prop) [DecidablePred p]
    (hany : (run step s events).any (fun s' => p s') = true)
    (himp : ∀ s', run step s events = some s' → p s' → q s') :
    ∃ s', run step s events = some s' ∧ q s' := by
  obtain ⟨s', hrun, hp⟩ := exists_run_of_any hany
  exact ⟨s', hrun, himp s' hrun hp⟩

/-- The same for a run that a further step can follow. -/
theorem exists_run_step_imp {next : σ → Option σ} (p : σ → Prop) [DecidablePred p]
    (hany : (run step s events).any (fun s' => (next s').isSome ∧ p s') = true)
    (himp : ∀ s' t, run step s events = some s' → next s' = some t → p s' → q s') :
    ∃ s' t, run step s events = some s' ∧ next s' = some t ∧ q s' := by
  obtain ⟨s', hrun, hsome, hp⟩ := exists_run_of_any hany
  obtain ⟨t, ht⟩ := isSome_iff_exists.mp hsome
  exact ⟨s', t, hrun, ht, himp s' t hrun ht hp⟩

end Corosync.Library
