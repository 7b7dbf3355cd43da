import Mathlib.Data.List.GetD
import Corosync.Sync.Barrier

/-!
# Aborted rounds

Every membership change gives two configuration callbacks. `confchg_fn` aborts a synchronisation
that has not completed before it looks at the type of the change, and only the regular one starts
the next round. `sync_abort` keeps `my_state`: what it has aborted looks as if it were still going
on, except that `my_ring_id` is zero. The model adds to `sync.c` the flag of `main.c` and a history
of the calls that end the round of a service.
-/

namespace Corosync.Sync

open Library List Totemsrp SyncNode ServiceEntry

/-- `enum totem_configuration_type`. -/
inductive ConfigurationType where
  | regular
  | transitional
  deriving DecidableEq, Repr

/-- The ids in the service list. -/
def SyncNode.serviceIds (node : SyncNode) : List ℕ :=
  node.myServiceList.map serviceId

/-- A service is being synchronised: the test of `sync_abort`. -/
def SyncNode.Synchronising (node : SyncNode) : Prop :=
  (node.myState = .process ∨ node.myState = .barrier) ∧
    node.myProcessingIdx < node.myServiceList.length

instance (node : SyncNode) : Decidable node.Synchronising :=
  inferInstanceAs (Decidable (_ ∧ _))

/-- The variables of `sync.c` and `sync_in_process` of `main.c`, and what happened so far. The
round of a service is the number of the `sync_start` with the id of the service. -/
structure Main where
  /-- The variables of `sync.c`. -/
  node : SyncNode
  syncInProcess : Bool
  /-- How often `sync_start` was called. -/
  round : ℕ
  /-- How many handles `sync_process_enter` has created; `my_schedwrk_handle` is the last. -/
  handles : ℕ
  /-- The rounds of services that `sync_abort` was called for. -/
  aborted : List (ℕ × ℕ)
  /-- The rounds of services that `sync_activate` was called for. -/
  activated : List (ℕ × ℕ)
  /-- The handles `schedwrk_destroy` was called for. -/
  destroyed : List ℕ

namespace Main

/-- The variables before the first configuration. -/
def initial (services : Services) : Main where
  node := ⟨services, .barrier, ⟨0, 0⟩, 0, [], [], false, [], []⟩
  syncInProcess := true
  round := 0
  handles := 0
  aborted := []
  activated := []
  destroyed := []

variable (s : Main)

/-- The call of the service's `sync_abort` that `sync_abort` makes. -/
def abortCalls : List (ℕ × ℕ) :=
  let entry := s.node.myServiceList.getD s.node.myProcessingIdx ⟨0, false⟩
  if s.node.Synchronising ∧ s.node.services.retrieve entry.serviceId then
    [(s.round, entry.serviceId)]
  else
    []

/-- `sync_abort`. -/
def syncAbort : Main :=
  { s with
    node := s.node.syncAbort
    aborted := s.aborted ++ s.abortCalls
    destroyed := if s.node.myState = .process then s.destroyed ++ [s.handles] else s.destroyed }

/-- `sync_start`. -/
def syncStart (memberList : List ℕ) (ringId : RingId) : Main :=
  { s with
    node := s.node.syncStart memberList ringId
    round := s.round + 1 }

/-- `confchg_fn`. What `sync_save_transitional` saves is left out. -/
def confchgFn (configurationType : ConfigurationType) (memberList : List ℕ) (ringId : RingId) :
    Main :=
  let inProcess := { s with syncInProcess := true }
  let stopped := if s.syncInProcess then inProcess.syncAbort else inProcess
  match configurationType with
  | .transitional => stopped
  | .regular => stopped.syncStart memberList ringId

/-- The node before a message, without the record of calls and the mark of the work item: what
stands there afterwards is what the message has caused. -/
def fresh : SyncNode :=
  { s.node with
    schedwrk := false
    calls := [] }

/-- What a message has caused goes to the history. -/
def record (after : SyncNode) : Main :=
  { s with
    node := { after with schedwrk := after.schedwrk || s.node.schedwrk }
    -- `corosync_sync_completed`
    syncInProcess := if .completed ∈ after.calls then false else s.syncInProcess
    handles := if after.schedwrk then s.handles + 1 else s.handles
    activated := s.activated ++ (activations after.calls).map fun id => (s.round, id) }

/-- `sync_deliver_fn`. -/
def syncDeliverFn (qsort : List ServiceEntry → List ServiceEntry) (nodeid : ℕ)
    (message : SyncMessage) : Main :=
  s.record (s.fresh.syncDeliverFn qsort nodeid message)

end Main

/-- What a node gets. -/
inductive MainEvent where
  | confchg (configurationType : ConfigurationType) (memberList : List ℕ) (ringId : RingId)
  | deliver (nodeid : ℕ) (message : SyncMessage)
  /-- The scheduler calls the work item; `done` is what `sync_process` says. -/
  | work (done : Bool)

namespace Main

/-- One step. -/
def step (qsort : List ServiceEntry → List ServiceEntry) (s : Main) : MainEvent → Option Main
  | .confchg configurationType memberList ringId =>
    some (s.confchgFn configurationType memberList ringId)
  | .deliver nodeid message => some (s.syncDeliverFn qsort nodeid message)
  | .work done =>
    if s.node.schedwrk then some { s with node := s.node.schedwrkProcessor done } else none

/-- A message of the node's ring comes when the protocol sends it: service lists while they are
collected, and the last barrier message while the node itself waits at the barrier of a service. -/
def Expected (s : Main) (nodeid : ℕ) : SyncMessage → Prop
  | .serviceBuild _ _ => s.node.myState = .servicelistBuild
  | .barrier _ =>
    (s.node.markReceived nodeid).allReceived = true →
      s.node.myState = .barrier ∧ s.node.myProcessingIdx < s.node.myServiceList.length

instance (s : Main) (nodeid : ℕ) : (message : SyncMessage) → Decidable (s.Expected nodeid message)
  | .serviceBuild _ _ => inferInstanceAs (Decidable (_ = _))
  | .barrier _ => inferInstanceAs (Decidable (_ → _))

/-- The condition: no configuration callback finds the service that an earlier one has aborted,
which shows in `my_ring_id` being zero. Messages of the zero ring do not exist. -/
def Orderly (s : Main) : MainEvent → Prop
  | .confchg _ _ _ => s.node.myRingId = ⟨0, 0⟩ → ¬ s.node.Synchronising
  | .deliver nodeid message =>
    message.ringId ≠ ⟨0, 0⟩ ∧ (s.node.myRingId = message.ringId → s.Expected nodeid message)
  | .work _ => True

instance (s : Main) : (event : MainEvent) → Decidable (s.Orderly event)
  | .confchg _ _ _ => inferInstanceAs (Decidable (_ → _))
  | .deliver _ _ => inferInstanceAs (Decidable (_ ∧ _))
  | .work _ => inferInstanceAs (Decidable True)

/-- Every round of a service ends at most once and every handle is destroyed at most once. -/
structure EndedOnce (s : Main) : Prop where
  ended : (s.aborted ++ s.activated).Nodup
  destroyed : s.destroyed.Nodup

/-- What makes the history grow without repetition: the services before the present one are
activated in this round, and only the present one can be aborted. -/
structure Inv (s : Main) : Prop where
  ids : s.node.serviceIds.Nodup
  building : s.node.myState = .servicelistBuild → s.node.myProcessingIdx = 0
  processing : s.node.myState = .process →
    s.node.myProcessingIdx < s.node.myServiceList.length
  /-- What is ended in this round stands before the present service, or is the present one and the
  ring id is zero. -/
  ended : ∀ ended ∈ s.aborted ++ s.activated, ended.1 < s.round ∨ ended.1 = s.round ∧
    (ended.2 ∈ s.node.serviceIds.take s.node.myProcessingIdx ∨
      s.node.myRingId = ⟨0, 0⟩ ∧ s.node.Synchronising ∧
        s.node.serviceIds[s.node.myProcessingIdx]? = some ended.2)
  destroyed : ∀ handle ∈ s.destroyed, handle < s.handles ∨
    handle = s.handles ∧ (s.node.myState = .process → s.node.myRingId = ⟨0, 0⟩)
  once : s.EndedOnce

/-- Before the first ring. -/
theorem Inv.initial (services : Services) : (initial services).Inv where
  ids := nodup_nil
  building := nofun
  processing := nofun
  ended := nofun
  destroyed := nofun
  once := ⟨nodup_nil, nodup_nil⟩

variable {s t : Main} {qsort : List ServiceEntry → List ServiceEntry}

section

variable (h : s.Inv) (hring : s.node.myRingId ≠ ⟨0, 0⟩)

include h hring

/-- While the ring id stands, the round of the present service is not ended. -/
theorem Inv.present_not_mem {id : ℕ} (hget : s.node.serviceIds[s.node.myProcessingIdx]? = some id) :
    (s.round, id) ∉ s.aborted ++ s.activated := by
  intro hmem
  rcases h.ended _ hmem with hlt | ⟨-, htake | hzero⟩
  · exact absurd hlt (lt_irrefl _)
  · obtain ⟨hlt, hid⟩ := List.getElem?_eq_some_iff.mp hget
    obtain ⟨i, hi, heq⟩ := mem_take_iff_getElem.mp htake
    have hsame := (List.Nodup.getElem_inj_iff h.ids).mp (heq.trans hid.symm)
    omega
  · exact hring hzero.1

/-- While the ring id stands, the handle of the work item is not destroyed. -/
theorem Inv.handle_not_mem (hstate : s.node.myState = .process) : s.handles ∉ s.destroyed := by
  intro hmem
  rcases h.destroyed _ hmem with hlt | ⟨-, hzero⟩
  · exact absurd hlt (lt_irrefl _)
  · exact hring (hzero hstate)

/-- What a message has caused keeps the history free of repetition while the ring id stands: at
most the present service is activated, and then it is passed, and the process state is entered with
a new handle. -/
theorem Inv.record {after : SyncNode} (hids : after.serviceIds.Nodup)
    (hbuilding : after.myState = .servicelistBuild → after.myProcessingIdx = 0)
    (hprocessing : after.myState = .process →
      after.myProcessingIdx < after.myServiceList.length ∧
        (after.schedwrk = true ∨ s.node.myState = .process))
    (hkept : ∀ id ∈ s.node.serviceIds.take s.node.myProcessingIdx,
      id ∈ after.serviceIds.take after.myProcessingIdx)
    (hnew : ∀ id ∈ activations after.calls,
      s.node.serviceIds[s.node.myProcessingIdx]? = some id ∧
        id ∈ after.serviceIds.take after.myProcessingIdx)
    (hnodup : (activations after.calls).Nodup) : (s.record after).Inv := by
  have hassoc : (s.record after).aborted ++ (s.record after).activated =
      s.aborted ++ s.activated ++ (activations after.calls).map fun id => (s.round, id) :=
    (append_assoc ..).symm
  refine ⟨hids, hbuilding, fun hstate => (hprocessing hstate).1, fun ended hmem => ?_,
    fun handle hmem => ?_, ?_, h.once.destroyed⟩
  · rw [hassoc] at hmem
    rcases mem_append.mp hmem with hold | hmem
    · rcases h.ended ended hold with hlt | ⟨heq, htake | hzero⟩
      · exact .inl hlt
      · exact .inr ⟨heq, .inl (hkept _ htake)⟩
      · exact absurd hzero.1 hring
    · obtain ⟨id, hid, rfl⟩ := mem_map.mp hmem
      exact .inr ⟨rfl, .inl (hnew id hid).2⟩
  · have hbefore := h.destroyed handle hmem
    simp only [Main.record]
    split
    · omega
    · rename_i hold
      refine hbefore.imp_right fun hlast => ⟨hlast.1, fun hstate => ?_⟩
      exact absurd (hlast.2 ((hprocessing hstate).2.resolve_left hold)) hring
  · rw [hassoc, nodup_append]
    refine ⟨h.once.ended, hnodup.map fun a b heq => (Prod.mk.inj heq).2, ?_⟩
    rintro ended hold _ hmem rfl
    obtain ⟨id, hid, rfl⟩ := mem_map.mp hmem
    exact h.present_not_mem hring (hnew id hid).1 hold

end

/-- Merged services are distinct. -/
theorem nodup_mergeServices
    (hqsort : Rearranges qsort) {node : SyncNode} (hnodup : node.serviceIds.Nodup) (new : List ℕ) :
    (node.mergeServices qsort new).serviceIds.Nodup := by
  have hmerged : ((new.foldl addService node.myServiceList).map
      serviceId).Nodup := nodup_addServices hnodup
  simp only [serviceIds, mergeServices]
  split
  · exact hmerged
  · exact ((hqsort.perm _).map serviceId).nodup_iff.mpr hmerged

/-- A list of services arrives. -/
theorem Inv.serviceBuild (h : s.Inv) (hqsort : Rearranges qsort) (hring : s.node.myRingId ≠ ⟨0, 0⟩)
    (hstate : s.node.myState = .servicelistBuild) (nodeid : ℕ) (serviceList : List ℕ) :
    (s.syncDeliverFn qsort nodeid (.serviceBuild s.node.myRingId serviceList)).Inv := by
  have hidx := h.building hstate
  set marked := (s.fresh.mergeServices qsort serviceList).markReceived nodeid
  have hids : marked.serviceIds.Nodup := nodup_mergeServices hqsort h.ids serviceList
  have hkept : ∀ id ∈ s.node.serviceIds.take s.node.myProcessingIdx,
      id ∈ marked.serviceIds.take marked.myProcessingIdx := by simp [hidx]
  have hafter : s.syncDeliverFn qsort nodeid (.serviceBuild s.node.myRingId serviceList) =
      s.record (if marked.allReceived then marked.syncProcessEnter else marked) :=
    congrArg s.record (if_pos rfl)
  rw [hafter]
  split
  · by_cases hnil : marked.myServiceList = []
    · rw [syncProcessEnter, if_pos hnil]
      exact h.record hring hids (fun _ => hidx) nofun hkept
        nofun nodup_nil
    · rw [syncProcessEnter_of_ne_nil hnil]
      exact h.record hring hids nofun
        (fun _ => ⟨hidx ▸ length_pos_iff.mpr hnil, .inl rfl⟩) hkept
        nofun nodup_nil
  · exact h.record hring hids (fun _ => hidx)
      (fun htrue => SyncState.noConfusion (hstate.symm.trans htrue)) hkept
      nofun nodup_nil

/-- The last barrier message: the service is activated, and the next one gets a work item unless
there is none. -/
theorem Inv.barrierReached (h : s.Inv) (hring : s.node.myRingId ≠ ⟨0, 0⟩)
    (hstate : s.node.myState = .barrier)
    (hlt : s.node.myProcessingIdx < s.node.myServiceList.length) (nodeid : ℕ) :
    (s.record ((s.fresh.markReceived nodeid).barrierReached
      (s.node.myServiceList.getD s.node.myProcessingIdx ⟨0, false⟩))).Inv := by
  rw [getD_eq_getElem _ _ hlt]
  set entry := s.node.myServiceList[s.node.myProcessingIdx] with hentry
  set list := s.node.myServiceList.set s.node.myProcessingIdx { entry with activate := true }
    with hlist
  have hids : list.map serviceId = s.node.serviceIds := by
    have hsame : entry.serviceId = (s.node.serviceIds.get ⟨_, by simpa [serviceIds]⟩) := by
      simp [serviceIds, hentry]
    rw [hlist, map_set]
    exact (congrArg _ hsame).trans (set_getElem_self _)
  have hlength : list.length = s.node.myServiceList.length := length_set
  have hpresent : s.node.serviceIds[s.node.myProcessingIdx]? = some entry.serviceId := by
    simp [serviceIds, hentry, hlt]
  have htake : (list.map serviceId).take (s.node.myProcessingIdx + 1) =
      s.node.serviceIds.take s.node.myProcessingIdx ++ [entry.serviceId] := by
    rw [hids, take_add_one, hpresent]
    rfl
  have hcalls := (activates_call [] entry.serviceId
    (s.node.services.retrieve entry.serviceId)).activations
  -- whatever comes after the activation
  have hgoes : ∀ after : SyncNode, after.myServiceList = list →
      after.myProcessingIdx = s.node.myProcessingIdx + 1 →
      activations after.calls =
        (if s.node.services.retrieve entry.serviceId then [entry.serviceId] else []) →
      after.myState ≠ .servicelistBuild →
      (after.myState = .process → after.myProcessingIdx < list.length ∧ after.schedwrk = true) →
      (s.record after).Inv := by
    intro after hsame hidx hnew hbuild hprocess
    have hafter : after.serviceIds = list.map serviceId := by
      rw [serviceIds, hsame]
    refine h.record hring ?_ (fun htrue => absurd htrue hbuild)
      (fun htrue => ⟨hsame ▸ (hprocess htrue).1, .inl (hprocess htrue).2⟩) ?_ ?_ ?_
    · rw [hafter, hids]
      exact h.ids
    · rw [hafter, hidx, htake]
      exact fun id hid => mem_append_left _ hid
    · rw [hafter, hidx, htake, hnew]
      intro id hid
      obtain rfl : id = entry.serviceId := by
        split at hid
        · exact mem_singleton.mp hid
        · cases hid
      exact ⟨hpresent, mem_append_right _ mem_cons_self⟩
    · rw [hnew]
      split <;> simp
  unfold SyncNode.barrierReached
  dsimp only
  split
  · exact hgoes _ rfl rfl ((calls_completed _).2.2.trans hcalls)
      (fun htrue => SyncState.noConfusion (hstate.symm.trans htrue))
      fun htrue => SyncState.noConfusion (hstate.symm.trans htrue)
  · rename_i hnext
    have hlast : s.node.myProcessingIdx + 1 ≠ list.length := fun heq => hnext heq.symm
    have hless : s.node.myProcessingIdx + 1 < list.length := by omega
    rw [syncProcessEnter_of_ne_nil (length_pos_iff.mp (Nat.zero_lt_of_lt hless))]
    exact hgoes _ rfl rfl hcalls SyncState.noConfusion fun _ => ⟨hless, rfl⟩

/-- An orderly message arrives. -/
theorem Inv.deliver (h : s.Inv) (hqsort : Rearranges qsort) {nodeid : ℕ} {message : SyncMessage}
    (horderly : s.Orderly (.deliver nodeid message)) :
    (s.syncDeliverFn qsort nodeid message).Inv := by
  obtain ⟨hring, hexpected⟩ := horderly
  by_cases hown : s.node.myRingId = message.ringId
  · rw [← hown] at hring
    have hexpected := hexpected hown
    cases message with
    | serviceBuild ringId serviceList =>
      obtain rfl : s.node.myRingId = ringId := hown
      exact h.serviceBuild hqsort hring hexpected nodeid serviceList
    | barrier ringId =>
      have hafter : s.syncDeliverFn qsort nodeid (.barrier ringId) = s.record
          (if (s.fresh.markReceived nodeid).allReceived then
            (s.fresh.markReceived nodeid).barrierReached
              (s.node.myServiceList.getD s.node.myProcessingIdx ⟨0, false⟩)
          else s.fresh.markReceived nodeid) := congrArg s.record (if_pos hown)
      rw [hafter]
      split
      · rename_i hall
        obtain ⟨hstate, hlt⟩ := hexpected hall
        exact h.barrierReached hring hstate hlt nodeid
      · exact h.record hring h.ids h.building (fun hstate => ⟨h.processing hstate, .inr hstate⟩)
          (fun _ hid => hid) nofun nodup_nil
  · have hsame : s.syncDeliverFn qsort nodeid message = s.record s.fresh :=
      congrArg s.record (syncDeliverFn_of_ne hown)
    have hactivated : (s.record s.fresh).activated = s.activated := append_nil _
    rw [hsame]
    exact ⟨h.ids, h.building, h.processing, hactivated ▸ h.ended, h.destroyed,
      hactivated ▸ h.once.ended, h.once.destroyed⟩

/-- What the work item leaves alone. -/
theorem schedwrkProcessor_frame (node : SyncNode) (done : Bool) :
    (node.schedwrkProcessor done).myServiceList = node.myServiceList ∧
      (node.schedwrkProcessor done).myProcessingIdx = node.myProcessingIdx ∧
      (node.schedwrkProcessor done).myRingId = node.myRingId ∧
      ((node.schedwrkProcessor done).myState = node.myState ∨
        (node.schedwrkProcessor done).myState = .barrier) := by
  unfold schedwrkProcessor syncBarrierEnter
  grind

/-- The scheduled work runs. -/
theorem Inv.work (h : s.Inv) (done : Bool) :
    ({ s with node := s.node.schedwrkProcessor done } : Main).Inv := by
  obtain ⟨hlist, hidx, hring, hstate⟩ := schedwrkProcessor_frame s.node done
  have hids : (s.node.schedwrkProcessor done).serviceIds = s.node.serviceIds :=
    congrArg (List.map serviceId) hlist
  have hsync : s.node.Synchronising → (s.node.schedwrkProcessor done).Synchronising := by
    unfold SyncNode.Synchronising
    grind
  obtain ⟨hnodup, hbuilding, hprocessing, hended, hdestroyed, hdistinct, honce⟩ := h
  refine ⟨hids ▸ hnodup, ?_, ?_, ?_, ?_, hdistinct, honce⟩
  · grind
  · grind
  · rw [hids, hidx, hring]
    exact fun ended hmem => (hended ended hmem).imp_right fun ⟨hround, hnow⟩ =>
      ⟨hround, hnow.imp_right fun ⟨hzero, hbusy, hget⟩ => ⟨hzero, hsync hbusy, hget⟩⟩
  · grind

/-- What is aborted is the service in synchronisation. -/
theorem mem_abortCalls {ended : ℕ × ℕ} (hended : ended ∈ s.abortCalls) :
    ended.1 = s.round ∧ s.node.Synchronising ∧
      s.node.serviceIds[s.node.myProcessingIdx]? = some ended.2 := by
  unfold abortCalls at hended
  dsimp only at hended
  split at hended
  · rename_i hcall
    obtain rfl := mem_singleton.mp hended
    have hlt := hcall.1.2
    exact ⟨rfl, hcall.1, by simp [serviceIds, hlt]⟩
  · cases hended

/-- It is aborted once. -/
theorem nodup_abortCalls (s : Main) : s.abortCalls.Nodup := by
  unfold abortCalls
  dsimp only
  split <;> simp

/-- `sync_abort` ends a round that has not been ended, if the ring id stands wherever a service is
being synchronised. -/
theorem Inv.abort (h : s.Inv) (hring : s.node.myRingId = ⟨0, 0⟩ → ¬ s.node.Synchronising) :
    s.syncAbort.Inv := by
  have hperm : (s.syncAbort.aborted ++ s.syncAbort.activated).Perm
      (s.abortCalls ++ (s.aborted ++ s.activated)) := by
    rw [← append_assoc]
    exact perm_append_comm.append_right _
  refine ⟨h.ids, h.building, h.processing, fun ended hmem => ?_, fun handle hmem => ?_, ?_, ?_⟩
  · rcases mem_append.mp (hperm.mem_iff.mp hmem) with hcall | hold
    · obtain ⟨hround, hsync, hget⟩ := mem_abortCalls hcall
      exact .inr ⟨hround, .inr ⟨rfl, hsync, hget⟩⟩
    · exact (h.ended ended hold).imp_right fun ⟨hround, hnow⟩ =>
        ⟨hround, hnow.imp_right fun ⟨_, hrest⟩ => ⟨rfl, hrest⟩⟩
  · have hle : handle < s.handles ∨ handle = s.handles := by
      have hbefore := h.destroyed handle
      simp only [syncAbort] at hmem
      grind
    exact hle.imp_right fun heq => ⟨heq, fun _ => rfl⟩
  · rw [hperm.nodup_iff, nodup_append]
    refine ⟨nodup_abortCalls s, h.once.ended, ?_⟩
    rintro ⟨round, id⟩ hcall _ hold rfl
    obtain ⟨rfl, hsync, hget⟩ := mem_abortCalls hcall
    exact h.present_not_mem (fun hzero => hring hzero hsync) hget hold
  · simp only [syncAbort]
    split
    · rename_i hstate
      have hsync : s.node.Synchronising := ⟨.inl hstate, h.processing hstate⟩
      rw [← concat_eq_append]
      exact h.once.destroyed.concat (h.handle_not_mem (fun hzero => hring hzero hsync) hstate)
    · exact h.once.destroyed

/-- A new ring begins. -/
theorem Inv.start (h : s.Inv) (memberList : List ℕ) (ringId : RingId) :
    (s.syncStart memberList ringId).Inv := by
  have hids : (s.syncStart memberList ringId).node.serviceIds =
      SyncNode.ownServices s.node.services := by
    simp [SyncNode.serviceIds, syncStart, SyncNode.syncStart, Function.comp_def]
  refine ⟨hids ▸ nodup_range.filter _, fun _ => rfl,
    nofun, fun ended hmem => ?_, fun handle hmem => ?_,
    h.once.ended, h.once.destroyed⟩
  · have hbefore := h.ended ended hmem
    exact .inl (show ended.1 < s.round + 1 by omega)
  · exact (h.destroyed handle hmem).imp_right fun hlast =>
      ⟨hlast.1, nofun⟩

/-- A configuration callback that does not find an aborted service. -/
theorem Inv.confchg (h : s.Inv) (hring : s.node.myRingId = ⟨0, 0⟩ → ¬ s.node.Synchronising)
    (configurationType : ConfigurationType) (memberList : List ℕ) (ringId : RingId) :
    (s.confchgFn configurationType memberList ringId).Inv := by
  have hinProcess : ({ s with syncInProcess := true } : Main).Inv :=
    ⟨h.ids, h.building, h.processing, h.ended, h.destroyed, h.once.ended, h.once.destroyed⟩
  have hstopped : (if s.syncInProcess then ({ s with syncInProcess := true } : Main).syncAbort
      else { s with syncInProcess := true }).Inv := by
    split
    · exact hinProcess.abort hring
    · exact hinProcess
  cases configurationType with
  | transitional => exact hstopped
  | regular => exact hstopped.start memberList ringId

/-- Every orderly step keeps this. -/
theorem Inv.step (hqsort : Rearranges qsort) {t : Main} {event : MainEvent} (h : s.Inv)
    (hstep : restrict Orderly (Main.step qsort) s event = some t) : t.Inv := by
  obtain ⟨horderly, hstep⟩ := restrict_eq_some.mp hstep
  cases event with
  | confchg configurationType memberList ringId =>
    cases hstep
    exact h.confchg horderly configurationType memberList ringId
  | deliver _ _ =>
    cases hstep
    exact h.deliver hqsort horderly
  | work done =>
    obtain ⟨_, hstep⟩ := Option.ite_none_right_eq_some.mp hstep
    cases hstep
    exact h.work done

/-- In every run of orderly steps each round of a service is ended at most once, by `sync_abort`
or by `sync_activate`, and `schedwrk_destroy` is called at most once for a handle. -/
theorem ended_once {qsort : List ServiceEntry → List ServiceEntry} (hqsort : Rearranges qsort)
    {services : Services} {events : List MainEvent}
    (hrun : run (restrict Orderly (Main.step qsort)) (initial services) events = some s) :
    s.EndedOnce :=
  (run_invariant (fun _ _ _ h hstep => h.step hqsort hstep) (Inv.initial services) hrun).once

/-- A node with one service. -/
def oneService : Services := ⟨fun id => id == 0, fun _ => true⟩

/-- A node alone: it begins to process its service when the next membership change comes. -/
def interrupted : List MainEvent :=
  [.confchg .transitional [1] ⟨1, 4⟩, .confchg .regular [1] ⟨1, 4⟩,
    .deliver 1 (.serviceBuild ⟨1, 4⟩ [0]), .work false, .confchg .transitional [1] ⟨1, 4⟩]

/-- The service is aborted once by the transitional configuration. -/
theorem ended_once_interrupted :
    ∃ s, run (restrict Orderly (Main.step pairRing.qsort)) (initial oneService) interrupted =
        some s ∧ s.aborted = [(1, 0)] ∧ s.destroyed = [1] ∧ s.EndedOnce :=
  ⟨_, rfl, rfl, rfl, ended_once pairRing_qsort.toRearranges
    (show run (restrict Orderly (Main.step pairRing.qsort)) (initial oneService) interrupted =
      some _ from rfl)⟩

/-- The regular configuration of the same membership change aborts the service again and destroys
the handle again. -/
theorem service_aborted_twice :
    ∃ s, run (Main.step pairRing.qsort) (initial oneService)
        (interrupted ++ [.confchg .regular [1] ⟨1, 8⟩]) = some s ∧
      s.aborted = [(1, 0), (1, 0)] ∧ s.destroyed = [1, 1] :=
  ⟨_, rfl, rfl, rfl⟩

end Main

end Corosync.Sync
