import Corosync.Library.Run
import Corosync.Sync.Transitional

/-!
# Notifications of the quorum service

`vsf_quorum.c` tells its trackers the members of a ring together with those that left and those that
joined since the notification before. Both lists are computed when a synchronisation starts, from
the members of the last notification and from the latest transitional list. A node that left and
came back while synchronisations were aborted is not in them if the latest transitional list has it.
-/

namespace Corosync.VsfQuorum

open Library Sync

/-- The variables of `vsf_quorum.c` that are about the ring. -/
structure Lists where
  myMemberList : List ℕ := []
  myOldMemberList : List ℕ := []
  myLeftList : List ℕ := []
  myJoinedList : List ℕ := []
deriving DecidableEq, Repr

namespace Lists

/-- The loop of `quorum_sync_init` for the nodes that left: an old member that is not in the
transitional list, or not in the new ring. -/
def leftList (old transList members : List ℕ) : List ℕ :=
  old.filter fun nodeid => nodeid ∉ transList ∨ nodeid ∉ members

/-- The loop of `quorum_sync_init` for the nodes that joined: a member that is not an old member, or
one that left as well. -/
def joinedList (old left members : List ℕ) : List ℕ :=
  members.filter fun nodeid => nodeid ∉ old ∨ nodeid ∈ left

/-- `quorum_sync_init` -/
def quorumSyncInit (lists : Lists) (transList members : List ℕ) : Lists :=
  let left := leftList lists.myOldMemberList transList members
  { lists with
    myMemberList := members
    myLeftList := left
    myJoinedList := joinedList lists.myOldMemberList left members }

/-- `quorum_sync_activate` -/
def quorumSyncActivate (lists : Lists) : Lists :=
  { lists with myOldMemberList := lists.myMemberList }

end Lists

/-- A notification of `send_nodelist_library_notification`. -/
structure Notification where
  /-- `member_list` -/
  members : List ℕ
  left : List ℕ
  joined : List ℕ
deriving DecidableEq, Repr

/-- What happens to the service. -/
inductive Event
  | ringChange (transList members : List ℕ)
  | activate
deriving DecidableEq, Repr

/-- The service together with what happened since the last notification. -/
structure State where
  /-- The lists of `sync.c`. -/
  sync : ServiceLists := {}
  lists : Lists := {}
  syncing : Bool := false
  notified : List ℕ := []
  since : List (List ℕ) := []
deriving DecidableEq, Repr

namespace State

/-- What an activation tells the trackers. -/
def notification (s : State) : Notification :=
  ⟨s.lists.myMemberList, s.lists.myLeftList, s.lists.myJoinedList⟩

/-- One event. -/
def step (s : State) : Event → Option State
  | .ringChange transList members =>
    let sync := s.sync.confchg transList members
    some { s with
      sync := sync
      lists := s.lists.quorumSyncInit sync.myTransList sync.myMemberList
      syncing := true
      since := transList :: s.since }
  | .activate =>
    if s.syncing then
      some { s with
        lists := s.lists.quorumSyncActivate
        syncing := false
        notified := s.lists.myMemberList
        since := [] }
    else none

/-- A node of the last notification has departed since then. -/
def Departed (s : State) (nodeid : ℕ) : Prop :=
  nodeid ∈ s.notified ∧ ∃ transList ∈ s.since, nodeid ∉ transList

instance (s : State) (nodeid : ℕ) : Decidable (s.Departed nodeid) :=
  inferInstanceAs (Decidable (_ ∧ _))

/-- The notification of an activation describes the change since the last one. -/
structure Describes (s : State) : Prop where
  members : s.notification.members = s.sync.myMemberList
  change : ∀ nodeid, nodeid ∈ s.notification.members ↔
    (nodeid ∈ s.notified ∧ nodeid ∉ s.notification.left) ∨ nodeid ∈ s.notification.joined
  left : ∀ nodeid, s.Departed nodeid → nodeid ∈ s.notification.left
  joined : ∀ nodeid, s.Departed nodeid → nodeid ∈ s.notification.members →
    nodeid ∈ s.notification.joined

/-- The condition on a new ring: nobody who departed since the last notification goes through the
transitional configuration. -/
def Gone (s : State) : Event → Prop
  | .ringChange transList _ => ∀ nodeid ∈ transList, ¬ s.Departed nodeid
  | .activate => True

instance (s : State) (event : Event) : Decidable (s.Gone event) := by
  cases event <;> dsimp only [State.Gone] <;> infer_instance

end State

variable {s s' : State}

/-- The lists of a synchronisation in progress were computed from the members of the last
notification and from the latest transitional list, which nobody who departed is in. -/
structure Tracked (s : State) : Prop where
  old : s.lists.myOldMemberList = s.notified
  members : s.syncing → s.lists.myMemberList = s.sync.myMemberList
  left : s.syncing → s.lists.myLeftList =
    Lists.leftList s.notified s.sync.myTransList s.sync.myMemberList
  joined : s.syncing → s.lists.myJoinedList =
    Lists.joinedList s.notified s.lists.myLeftList s.sync.myMemberList
  departed : s.syncing → ∀ nodeid, s.Departed nodeid → nodeid ∉ s.sync.myTransList

/-- Every step with members that are gone keeps the lists. -/
theorem Tracked.step {event : Event} (h : Tracked s) (hgone : s.Gone event)
    (hstep : s.step event = some s') : Tracked s' := by
  cases event with
  | ringChange _ _ =>
    cases hstep
    refine ⟨h.old, fun _ => rfl, fun _ => ?_, fun _ => ?_, fun _ nodeid hdeparted hmem => ?_⟩
    · simp only [Lists.quorumSyncInit, h.old]
    · simp only [Lists.quorumSyncInit, h.old]
    · obtain ⟨hnotified, list, hlist, hmissing⟩ := hdeparted
      have htrans := (ServiceLists.mem_myTransList_confchg.mp hmem).1
      rcases List.mem_cons.mp hlist with rfl | hold
      · exact hmissing htrans
      · exact hgone nodeid htrans ⟨hnotified, list, hold, hmissing⟩
  | activate =>
    obtain ⟨_, hstep⟩ := Option.ite_none_right_eq_some.mp hstep
    cases hstep
    exact ⟨rfl, by simp, by simp, by simp, by simp⟩

/-- The lists of a run. -/
theorem tracked_of_run {events : List Event}
    (hrun : run (restrict State.Gone State.step) {} events = some s) : Tracked s := by
  refine run_invariant (P := Tracked) ?_ ?_ hrun
  · intro s event s' h hstep
    obtain ⟨hgone, hstep⟩ := restrict_eq_some.mp hstep
    exact h.step hgone hstep
  · exact ⟨rfl, by simp, by simp, by simp, by simp⟩

/-- The lists describe the change. -/
theorem Tracked.describes (h : Tracked s) (hsyncing : s.syncing = true) : s.Describes := by
  have hmembers := h.members hsyncing
  have hleft := h.left hsyncing
  have hjoined := h.joined hsyncing
  have hin : ∀ nodeid, nodeid ∈ s.lists.myLeftList ↔ nodeid ∈ s.notified ∧
      (nodeid ∉ s.sync.myTransList ∨ nodeid ∉ s.sync.myMemberList) := by
    simp [hleft, Lists.leftList, List.mem_filter]
  have hnew : ∀ nodeid, nodeid ∈ s.lists.myJoinedList ↔ nodeid ∈ s.sync.myMemberList ∧
      (nodeid ∉ s.notified ∨ nodeid ∈ s.lists.myLeftList) := by
    simp [hjoined, Lists.joinedList, List.mem_filter]
  constructor
  · exact hmembers
  · intro nodeid
    simp only [State.notification, hmembers, hnew, hin]
    tauto
  · intro nodeid hdeparted
    exact (hin nodeid).mpr ⟨hdeparted.1, .inl (h.departed hsyncing nodeid hdeparted)⟩
  · intro nodeid hdeparted hmem
    have hmem : nodeid ∈ s.sync.myMemberList := hmembers ▸ hmem
    refine (hnew nodeid).mpr ⟨hmem, .inr ?_⟩
    exact (hin nodeid).mpr ⟨hdeparted.1, .inl (h.departed hsyncing nodeid hdeparted)⟩

/-- In every run in which nobody who departed since the last notification goes through a
transitional configuration, every notification describes the change since the one before. -/
theorem notification_describes_change (events : List Event) (s s' : State)
    (hrun : run (restrict State.Gone State.step) {} events = some s)
    (hactivate : s.step .activate = some s') : s.Describes := by
  refine (tracked_of_run hrun).describes ?_
  obtain ⟨_, hactivate⟩ := Option.ite_none_right_eq_some.mp hactivate
  assumption

/-- A node that leaves in an aborted synchronisation and comes back in the next one. -/
theorem notification_describes_change_comingBack :
    ∃ s s', run (restrict State.Gone State.step) {}
        [.ringChange [] [1, 2, 3], .activate, .ringChange [1, 2] [1, 2],
          .ringChange [1, 2] [1, 2, 3]] = some s ∧
      s.step .activate = some s' ∧ s.Departed 3 ∧ s.Describes := by
  refine exists_run_step_imp (State.Departed · 3) (by decide +kernel) ?_
  intro s s' hrun hactivate hdeparted
  exact ⟨hdeparted, notification_describes_change _ s s' hrun hactivate⟩

/-- A node that leaves and comes back in two aborted synchronisations and stays for a third one is
in neither list. -/
theorem notification_forgets_departure :
    ∃ s s', run State.step {}
        [.ringChange [] [1, 2, 3], .activate, .ringChange [1, 2] [1, 2],
          .ringChange [1, 2] [1, 2, 3], .ringChange [1, 2, 3] [1, 2, 3]] = some s ∧
      s.step .activate = some s' ∧ ¬ s.Describes := by
  refine exists_run_step_imp (fun s => s.Departed 3 ∧ 3 ∉ s.notification.left)
    (by decide +kernel) ?_
  intro s s' hrun hactivate ⟨hdeparted, hleft⟩ hdescribes
  exact hleft (hdescribes.left 3 hdeparted)

end Corosync.VsfQuorum
