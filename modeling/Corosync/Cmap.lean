import Corosync.Library.Run
import Corosync.Sync.Transitional

/-!
# Versions of the configuration

A node whose configuration has a version compares it with those of the other members when it goes
from being alone to a ring with others for the first time, and stops if another member has a higher
one. `cmap.c` takes the first synchronisation with a transitional list that is not empty for that
moment, which it is if the node was alone in its first ring only.
-/

namespace Corosync.Cmap

open Library Option Sync

/-- How far the synchronisation of the service has come in this ring. -/
inductive Phase
  | idle
  /-- `cmap_sync_init` has been called. -/
  | started
  /-- `cmap_sync_process` has sent the version. -/
  | processed
deriving DecidableEq, Repr

/-- The variables of `cmap.c` that are about the version, and what the rule is about. -/
structure State where
  /-- The lists of `sync.c`. -/
  sync : ServiceLists := {}
  /-- `totem.config_version` in the map, zero when it is missing -/
  configVersion : ℕ
  cmapSyncTransListEntries : ℕ := 0
  cmapSyncMemberListEntries : ℕ := 0
  cmapHighestConfigVersionReceived : ℕ := 0
  cmapMyConfigVersion : ℕ := 0
  cmapFirstSync : Bool := true
  phase : Phase := .idle
  /-- The versions announced by the members in this synchronisation: those this node sent and those
  that arrived from the others. -/
  announced : List ℕ := []
  together : Bool := false
deriving DecidableEq, Repr

/-- What happens to the service. -/
inductive Event
  | ringChange (transList members : List ℕ)
  | process
  | deliver (nodeid version : ℕ)
  /-- A change of `totem.config_version`, for example by a reload -/
  | reload (version : ℕ)
  | activate
deriving DecidableEq, Repr

namespace State

/-- `cmap_sync_init` -/
def cmapSyncInit (s : State) (transList members : List ℕ) : State :=
  { s with
    cmapSyncTransListEntries := transList.length
    cmapSyncMemberListEntries := members.length
    cmapMyConfigVersion := s.configVersion
    cmapHighestConfigVersionReceived := s.configVersion }

/-- `cmap_sync_activate`, and whether it calls `shutdown_request` -/
def cmapSyncActivate (s : State) : State × Bool :=
  if s.cmapSyncTransListEntries = 0 then (s, false)
  else if !s.cmapFirstSync then (s, false)
  else
    ({ s with cmapFirstSync := false },
      s.cmapMyConfigVersion ≠ 0 ∧ s.cmapHighestConfigVersionReceived ≠ s.cmapMyConfigVersion)

/-- `message_handler_req_exec_cmap_mcast_reason_sync_nv` at node `self` -/
def reasonSyncNv (self : ℕ) (s : State) (nodeid version : ℕ) : State :=
  if nodeid ≠ self ∧ version > s.cmapHighestConfigVersionReceived then
    { s with cmapHighestConfigVersionReceived := version }
  else s

/-- One event at node `self`. -/
def step (self : ℕ) (s : State) : Event → Option State
  | .ringChange transList members =>
    let sync := s.sync.confchg transList members
    some { s.cmapSyncInit sync.myTransList sync.myMemberList with
      sync := sync, phase := .started, announced := [] }
  | .process =>
    if s.phase = .started then
      some { s with phase := .processed, announced := s.configVersion :: s.announced }
    else none
  | .deliver nodeid version =>
    if nodeid ∈ s.sync.myMemberList then
      some { s.reasonSyncNv self nodeid version with
        announced := if nodeid = self then s.announced else version :: s.announced }
    else none
  | .reload version =>
    -- `cmap_config_version_track_cb` is called when the value changes.
    if version = s.configVersion then some s
    else some { s with
      configVersion := version, cmapMyConfigVersion := version,
      announced := version :: s.announced }
  | .activate =>
    if s.phase = .processed then
      some { s.cmapSyncActivate.1 with
        phase := .idle, together := s.together || 1 < s.sync.myMemberList.length }
    else none

/-- The highest version announced in this synchronisation. -/
def highest (s : State) : ℕ := s.announced.foldr max 0

/-- The activation that is due has to stop the node: it has a version, this is its first
synchronisation with other members, and its version is not the highest. -/
def MustStop (s : State) : Prop :=
  s.configVersion ≠ 0 ∧ s.together = false ∧ 1 < s.sync.myMemberList.length ∧
    s.configVersion ≠ s.highest

instance (s : State) : Decidable s.MustStop := inferInstanceAs (Decidable (_ ∧ _))

/-- The condition: until the first synchronisation with other members is completed, a
synchronisation that is completed has an empty transitional list iff the node is alone, and the
version does not change during a synchronisation. -/
def Starting (s : State) : Event → Prop
  | .activate => s.together = false → (s.sync.myTransList = [] ↔ s.sync.myMemberList.length ≤ 1)
  | .reload version => s.phase ≠ .idle → s.together = true ∨ version = s.configVersion
  | _ => True

instance (s : State) (event : Event) : Decidable (s.Starting event) := by
  cases event <;> dsimp only [State.Starting] <;> infer_instance

end State

variable {self : ℕ} {s s' : State}

/-- The variables during a run under the condition. -/
structure Versions (s : State) : Prop where
  first : s.cmapFirstSync = !s.together
  entries : s.phase ≠ .idle → s.cmapSyncTransListEntries = s.sync.myTransList.length
  own : s.phase ≠ .idle → s.cmapMyConfigVersion = s.configVersion
  collected : s.phase ≠ .idle → s.together = false →
    s.cmapHighestConfigVersionReceived = max s.configVersion s.highest
  announced : s.phase = .processed → s.together = false → s.configVersion ≤ s.highest

/-- An activation that looks at the versions is the last one to do so. -/
theorem cmapSyncActivate_fst (s : State) : s.cmapSyncActivate.1 =
    { s with cmapFirstSync := s.cmapFirstSync && decide (s.cmapSyncTransListEntries = 0) } := by
  obtain ⟨_, _, _, _, _, _, first, _, _, _⟩ := s
  unfold State.cmapSyncActivate
  cases first <;> split_ifs <;> simp_all

/-- When `cmap_sync_activate` shuts the node down. -/
theorem cmapSyncActivate_snd_iff (s : State) : s.cmapSyncActivate.2 = true ↔
    s.cmapSyncTransListEntries ≠ 0 ∧ s.cmapFirstSync = true ∧ s.cmapMyConfigVersion ≠ 0 ∧
      s.cmapHighestConfigVersionReceived ≠ s.cmapMyConfigVersion := by
  unfold State.cmapSyncActivate
  split_ifs <;> simp_all

/-- The highest version of the other nodes is kept. -/
theorem reasonSyncNv_eq (nodeid version : ℕ) : s.reasonSyncNv self nodeid version =
    { s with cmapHighestConfigVersionReceived :=
        if nodeid = self then s.cmapHighestConfigVersionReceived
        else max s.cmapHighestConfigVersionReceived version } := by
  unfold State.reasonSyncNv
  by_cases hself : nodeid = self
  · simp [hself]
  · by_cases hhigher : version > s.cmapHighestConfigVersionReceived
    · rw [if_pos ⟨hself, hhigher⟩, if_neg hself, Nat.max_eq_right (Nat.le_of_lt hhigher)]
    · rw [if_neg fun hboth => hhigher hboth.2, if_neg hself,
        Nat.max_eq_left (Nat.le_of_not_gt hhigher)]

/-- The service stops the node when it has to. -/
theorem Versions.stops_iff (h : Versions s) (hstarting : s.Starting .activate)
    (hphase : s.phase = .processed) : s.cmapSyncActivate.2 = true ↔ s.MustStop := by
  have hactive : s.phase ≠ .idle := by simp [hphase]
  rw [cmapSyncActivate_snd_iff, h.first, h.entries hactive, h.own hactive]
  cases htogether : s.together with
  | true => simp [State.MustStop, htogether]
  | false =>
    have halone := hstarting htogether
    have hhighest : s.cmapHighestConfigVersionReceived = s.highest := by
      rw [h.collected hactive htogether]
      exact Nat.max_eq_right (h.announced hphase htogether)
    simp only [State.MustStop, htogether, hhighest, ne_eq, List.length_eq_zero_iff, halone,
      Nat.not_le, Bool.not_false, true_and, eq_comm (a := s.highest)]
    tauto

/-- Every step of a starting node keeps the versions. -/
theorem Versions.step {event : Event} (h : Versions s) (hstarting : s.Starting event)
    (hstep : s.step self event = some s') : Versions s' := by
  cases event with
  | ringChange _ _ =>
    cases hstep
    refine ⟨h.first, fun _ => rfl, fun _ => rfl, fun _ _ => ?_, fun hphase => by cases hphase⟩
    simp [State.cmapSyncInit, State.highest]
  | process =>
    obtain ⟨hphase, hstep⟩ := ite_none_right_eq_some.mp hstep
    have hactive : s.phase ≠ .idle := by simp [hphase]
    cases hstep
    refine ⟨h.first, fun _ => h.entries hactive, fun _ => h.own hactive, ?_, ?_⟩
    · intro _ htogether
      simp only [State.highest, List.foldr_cons, h.collected hactive htogether]
      omega
    · intro _ _
      simp only [State.highest, List.foldr_cons]
      omega
  | deliver _ _ =>
    obtain ⟨_, hstep⟩ := ite_none_right_eq_some.mp hstep
    cases hstep
    rw [reasonSyncNv_eq]
    refine ⟨h.first, h.entries, h.own, fun hactive htogether => ?_, fun hphase htogether => ?_⟩
    · have hcollected := h.collected hactive htogether
      simp only [State.highest] at hcollected ⊢
      split
      · exact hcollected
      · simp only [List.foldr_cons, hcollected]
        omega
    · have hannounced := h.announced hphase htogether
      simp only [State.highest] at hannounced ⊢
      split
      · exact hannounced
      · simp only [List.foldr_cons]
        omega
  | reload _ =>
    simp only [State.step] at hstep
    split at hstep
    · cases hstep
      exact h
    cases hstep
    rename_i hchanged
    have htogether : s.phase ≠ .idle → s.together = true := fun hactive =>
      (hstarting hactive).resolve_right hchanged
    refine ⟨h.first, h.entries, fun _ => rfl, ?_, ?_⟩
    · intro hactive hnot
      simp [htogether hactive] at hnot
    · intro hphase hnot
      have hphase : s.phase = .processed := hphase
      simp [htogether (by simp [hphase])] at hnot
  | activate =>
    obtain ⟨hphase, hstep⟩ := ite_none_right_eq_some.mp hstep
    cases hstep
    refine ⟨?_, by simp, by simp, by simp, by simp⟩
    have hentries := h.entries (by simp [hphase])
    simp only [cmapSyncActivate_fst, h.first, hentries]
    cases htogether : s.together with
    | true => rfl
    | false =>
      have halone := hstarting htogether
      simp only [List.length_eq_zero_iff, halone, Bool.not_false, Bool.true_and, Bool.false_or]
      simp only [← decide_not, Nat.not_lt]

/-- The versions of a run. -/
theorem versions_of_run {version : ℕ} {events : List Event}
    (hrun : run (restrict State.Starting (State.step self)) { configVersion := version } events =
      some s) : Versions s := by
  refine run_invariant (P := Versions) ?_ ?_ hrun
  · intro s event s' h hstep
    obtain ⟨hstarting, hstep⟩ := restrict_eq_some.mp hstep
    exact h.step hstarting hstep
  · exact ⟨rfl, by simp, by simp, by simp, by simp⟩

/-- In every run in which the node is alone in its first ring and in no later one that it
synchronises before it is together with others, and in which its version does not change during such
a synchronisation, an activation stops the node iff it has to. -/
theorem activation_stops_iff (self version : ℕ) (events : List Event) (s s' : State)
    (hrun : run (restrict State.Starting (State.step self)) { configVersion := version } events =
      some s)
    (hactivate : restrict State.Starting (State.step self) s .activate = some s') :
    s.cmapSyncActivate.2 = true ↔ s.MustStop := by
  obtain ⟨hstarting, hstep⟩ := restrict_eq_some.mp hactivate
  refine (versions_of_run hrun).stops_iff hstarting ?_
  obtain ⟨_, hstep⟩ := ite_none_right_eq_some.mp hstep
  assumption

/-- A node with an old version is alone and then joins a node with a newer one. -/
theorem activation_stops_iff_oldVersion :
    ∃ s s', run (restrict State.Starting (State.step 1)) { configVersion := 3 }
        [.ringChange [] [1], .process, .activate, .ringChange [1] [1, 2], .process,
          .deliver 2 5] = some s ∧
      restrict State.Starting (State.step 1) s .activate = some s' ∧
      s.MustStop ∧ s.cmapSyncActivate.2 = true := by
  refine exists_run_step_imp State.MustStop (by decide +kernel) ?_
  intro s s' hrun hactivate hstop
  exact ⟨hstop, (activation_stops_iff 1 3 _ s s' hrun hactivate).mpr hstop⟩

/-- A node that forms a second ring alone is not stopped when it joins a node with a newer version,
and one whose first ring has other members is stopped in a later ring. -/
theorem activation_misses_first_join :
    (∃ s s', run (State.step 1) { configVersion := 3 }
        [.ringChange [] [1], .process, .activate, .ringChange [1] [1], .process, .activate,
          .ringChange [1] [1, 2], .process, .deliver 2 5] = some s ∧
      s.step 1 .activate = some s' ∧ s.MustStop ∧ s.cmapSyncActivate.2 = false) ∧
    (∃ s s', run (State.step 1) { configVersion := 3 }
        [.ringChange [] [1, 2], .process, .deliver 2 3, .activate, .ringChange [1, 2] [1, 2, 3],
          .process, .deliver 2 3, .deliver 3 5] = some s ∧
      s.step 1 .activate = some s' ∧ ¬ s.MustStop ∧ s.cmapSyncActivate.2 = true) := by
  constructor
  · exact exists_run_step_imp _ (by decide +kernel) fun _ _ _ _ h => h
  · exact exists_run_step_imp _ (by decide +kernel) fun _ _ _ _ h => h

end Corosync.Cmap
