import Corosync.Cfg.Shutdown

/-!
# Consent to a shutdown

As long as only those asked answer, each of them once, and nobody who stopped tracking is asked a
second time, the counters agree with the ballot, and a shutdown that is executed without one of the
flags has the consent of every tracker.
-/

namespace Corosync.Cfg

open Library List Option Session Ballot

variable {s s' : State} {ballot : Ballot Connection Bool} {conn : Connection} {session : Session}

/-- The field `shutdown_reply` that goes with an answer. -/
def Reply.of : Option Bool → Reply
  | none => .unknown
  | some true => .yes
  | some false => .no

/-- The counters and the answers of the pending request are those of the ballot. -/
structure Tallied (s : State) (ballot : Ballot Connection Bool) (initiator : Connection) :
    Prop where
  expected : s.shutdownExpected = ballot.asked.card
  yes : s.shutdownYes = ballot.count true
  no : s.shutdownNo = ballot.count false
  trackers : ∀ ci ∈ s.trackersList, ci ≠ initiator → ci ∈ ballot.asked
  reply : ∀ ci ∈ s.trackersList, ci ∈ ballot.asked →
    (s.info ci).shutdownReply = .of (ballot.latest ci)
  unasked : ∀ ci, ci ∉ ballot.asked → ballot.latest ci = none

/-- What holds between two events. -/
structure Recorded (s : State) (ballot : Ballot Connection Bool) : Prop where
  nodup : s.trackersList.Nodup
  tallied : ∀ initiator, s.shutdownCon = some initiator → Tallied s ballot initiator

/-- Enough votes mean that every tracker consents. -/
theorem Tallied.unanimous {initiator ci : Connection} (htallied : Tallied s ballot initiator)
    (henough : s.shutdownExpected ≤ s.shutdownYes) (hmem : ci ∈ s.trackersList)
    (hother : ci ≠ initiator) : ballot.latest ci = some true := by
  have hcard : ballot.asked.card ≤ ballot.count true := by
    have hexpected := htallied.expected
    have hyes := htallied.yes
    omega
  exact latest_of_card_le_count hcard (htallied.trackers ci hmem hother)

/-! ### The decision -/

/-- The check leaves the trackers as they are. -/
@[simp] theorem trackersList_checkShutdownStatus (s : State) :
    s.checkShutdownStatus.1.trackersList = s.trackersList := by
  unfold State.checkShutdownStatus
  split_ifs <;> rfl

/-- The check does nothing or ends the request. -/
theorem checkShutdownStatus_fst (s : State) :
    s.checkShutdownStatus.1 = s ∨ s.checkShutdownStatus.1.shutdownCon = none := by
  unfold State.checkShutdownStatus
  split_ifs <;> simp

/-- A response is no shutdown. -/
theorem shutdown_notMem_respond (s : State) (error : CsError) :
    Output.shutdown ∉ s.respond error := by
  intro hmem
  obtain ⟨conn, _, heq⟩ := map_eq_some_iff.mp (mem_toList.mp hmem)
  cases heq

/-- A question to the trackers is no shutdown. -/
theorem shutdown_notMem_sendTestShutdown (s : State) (only exclude : Option Connection)
    (status : CsError) : Output.shutdown ∉ s.sendTestShutdown only exclude status := by
  unfold State.sendTestShutdown
  split
  · simp
  · simp only [mem_filterMap, not_exists, not_and]
    intro ci _
    split_ifs <;> simp

/-- Only a pending request with enough votes, or one that does not need them, is executed. -/
theorem shutdown_mem_checkShutdownStatus (hmem : Output.shutdown ∈ s.checkShutdownStatus.2) :
    ∃ initiator, s.shutdownCon = some initiator ∧
      (s.shutdownExpected ≤ s.shutdownYes ∨ s.shutdownFlags = shutdownFlagRegardless) := by
  unfold State.checkShutdownStatus at hmem
  split_ifs at hmem with hnone hall henough
  · simp at hmem
  · obtain ⟨initiator, hcon⟩ := ne_none_iff_exists'.mp (by simpa using hnone)
    exact ⟨initiator, hcon, henough⟩
  · exact absurd hmem (shutdown_notMem_respond s _)
  · simp at hmem

/-- The check keeps the count. -/
theorem Recorded.check (h : Recorded s ballot) : Recorded s.checkShutdownStatus.1 ballot := by
  constructor
  · rw [trackersList_checkShutdownStatus]
    exact h.nodup
  intro initiator hcon
  rcases checkShutdownStatus_fst s with hsame | hnone
  · rw [hsame] at hcon ⊢
    exact h.tallied initiator hcon
  · rw [hnone] at hcon
    cases hcon

/-- What the execution of a request says about its flags and about the trackers. -/
def Agreed (ballot : Ballot Connection Bool) (trackers : List Connection)
    (request : Option (Connection × UInt32)) : Prop :=
  ∃ initiator flags, request = some (initiator, flags) ∧
    (flags = shutdownFlagRegardless ∨ flags = shutdownFlagImmediate ∨
      ∀ ci ∈ trackers, ci ≠ initiator → ballot.latest ci = some true)

/-- A shutdown has the consent it needs. -/
theorem Recorded.agreed (h : Recorded s ballot) (hmem : Output.shutdown ∈ s.checkShutdownStatus.2) :
    Agreed ballot s.trackersList (s.shutdownCon.map (·, s.shutdownFlags)) := by
  obtain ⟨initiator, hcon, henough | hflags⟩ := shutdown_mem_checkShutdownStatus hmem
  · refine ⟨initiator, s.shutdownFlags, by simp [hcon], .inr (.inr ?_)⟩
    intro ci hci hother
    exact (h.tallied initiator hcon).unanimous henough hci hother
  · exact ⟨initiator, s.shutdownFlags, by simp [hcon], .inl hflags⟩

/-! ### One event -/

/-- A new tracker is asked. -/
theorem Recorded.link (h : Recorded s ballot) (hnew : conn ∉ s.trackersList)
    (hasked : s.shutdownCon.isSome → conn ∉ ballot.asked) :
    Recorded (s.link conn) (if s.shutdownCon.isSome then ballot.ask conn else ballot) := by
  unfold State.link
  split_ifs with hpending
  · refine ⟨nodup_cons.mpr ⟨hnew, h.nodup⟩, fun initiator hcon => ?_⟩
    have htallied := h.tallied initiator hcon
    have hnone := htallied.unasked conn (hasked hpending)
    constructor
    · have hexpected := htallied.expected
      simp only [ask, Finset.card_insert_of_notMem (hasked hpending)]
      push_cast
      omega
    · exact htallied.yes.trans (by rw [count_ask hnone])
    · exact htallied.no.trans (by rw [count_ask hnone])
    · intro ci hci hother
      rcases mem_cons.mp hci with rfl | hold
      · exact Finset.mem_insert_self _ _
      · exact Finset.mem_insert_of_mem (htallied.trackers ci hold hother)
    · intro ci hci hmem
      by_cases heq : ci = conn
      · subst heq
        simp [State.setReply, ask, hnone, Reply.of]
      · have hold := htallied.reply ci (mem_of_ne_of_mem heq hci)
          (Finset.mem_of_mem_insert_of_ne hmem heq)
        simpa [State.setReply, heq, ask] using hold
    · intro ci hci
      exact htallied.unasked ci fun hmem => hci (Finset.mem_insert_of_mem hmem)
  · refine ⟨nodup_cons.mpr ⟨hnew, h.nodup⟩, fun initiator hcon => ?_⟩
    exact absurd (isSome_of_eq_some hcon) hpending

/-- The request of a connection is cancelled. -/
theorem Recorded.cancel (h : Recorded s ballot) (conn : Connection) :
    Recorded (s.cancel conn) ballot := by
  unfold State.cancel
  split
  · exact ⟨h.nodup, fun initiator hcon => by cases hcon⟩
  · exact h

/-- One of those asked answers: its earlier answer, if any, is not counted any more. -/
theorem Tallied.answer {initiator : Connection} {given : Bool} (h : Tallied s ballot initiator)
    (hasked : conn ∈ ballot.asked) (hsub : s'.trackersList ⊆ s.trackersList)
    (hexpected : s'.shutdownExpected = s.shutdownExpected)
    (hyes : s'.shutdownYes + (if ballot.latest conn = some true then 1 else 0) =
      s.shutdownYes + (if given = true then 1 else 0))
    (hno : s'.shutdownNo + (if ballot.latest conn = some false then 1 else 0) =
      s.shutdownNo + (if given = false then 1 else 0))
    (hinfo : ∀ ci ∈ s'.trackersList, (s'.info ci).shutdownReply =
      if ci = conn then .of (some given) else (s.info ci).shutdownReply) :
    Tallied s' (ballot.answer conn given) initiator := by
  constructor
  · exact hexpected.trans h.expected
  · have hcount := count_answer given true hasked
    have hold := h.yes
    split at hcount <;> split at hcount <;> simp_all
    omega
  · have hcount := count_answer given false hasked
    have hold := h.no
    split at hcount <;> split at hcount <;> simp_all
    omega
  · intro ci hci hother
    exact h.trackers ci (hsub hci) hother
  · intro ci hci hin
    rw [hinfo ci hci, latest_answer]
    split
    · rfl
    · exact h.reply ci (hsub hci) hin
  · intro ci hci
    have hne : ci ≠ conn := fun heq => hci (by rw [heq]; exact hasked)
    rw [latest_answer, if_neg hne]
    exact h.unasked ci hci

/-- A tracker that is taken off counts as a consent. -/
theorem Recorded.unlink (h : Recorded s ballot) (hcon : s.shutdownCon ≠ some conn)
    (hmem : conn ∈ s.trackersList) :
    Recorded (s.unlink conn)
      (if s.shutdownCon.isSome then ballot.answer conn true else ballot) := by
  refine ⟨h.nodup.erase conn, fun initiator hpending => ?_⟩
  have hpending : s.shutdownCon = some initiator := hpending
  have htallied := h.tallied initiator hpending
  have hasked := htallied.trackers conn hmem fun heq => hcon (heq ▸ hpending)
  have hreply := htallied.reply conn hmem hasked
  rw [if_pos (by simp [hpending])]
  refine htallied.answer hasked erase_subset rfl ?_ ?_ ?_
  · rcases hlatest : ballot.latest conn with _ | _ | _ <;>
      simp [State.unlink, hreply, hlatest, hpending, Reply.of]
  · rcases hlatest : ballot.latest conn with _ | _ | _ <;>
      simp [State.unlink, hreply, hlatest, hpending, Reply.of]
  · intro ci _
    by_cases heq : ci = conn
    · simp [State.unlink, State.setReply, heq, Reply.of]
    · simp [State.unlink, State.setReply, heq]

/-- A request begins with the trackers of the moment. -/
theorem Recorded.begin (h : Recorded s ballot) (conn : Connection) (flags : UInt32) :
    Recorded (s.begin conn flags) (.fresh (s.trackersList.filter (· ≠ conn)).toFinset) := by
  refine ⟨h.nodup, fun initiator hcon => ?_⟩
  obtain rfl : conn = initiator := some.inj hcon
  constructor
  · have hcard := toFinset_card_of_nodup (h.nodup.filter (· ≠ conn))
    simp only [State.begin, fresh, hcard]
  · simp [State.begin]
  · simp [State.begin]
  · intro ci hci hother
    simp only [fresh, List.mem_toFinset, mem_filter]
    exact ⟨hci, by simpa using hother⟩
  · intro ci hci hin
    have hlistens : ci ∈ s.trackersList.filter (· ≠ conn) := mem_toFinset.mp hin
    simp only [State.begin, if_pos hlistens, fresh, Reply.of]
  · intro ci _
    rfl

/-- The answer of a tracker that was asked. -/
theorem Recorded.countReply (h : Recorded s ballot) (response : Bool)
    (hcond : s.shutdownCon.isSome → conn ∈ ballot.asked ∧ ballot.latest conn = none) :
    Recorded (s.countReply conn response) (ballot.answer conn response) := by
  have htrackers : (s.countReply conn response).trackersList = s.trackersList := by
    cases response <;> rfl
  have hcon : (s.countReply conn response).shutdownCon = s.shutdownCon := by
    cases response <;> rfl
  refine ⟨htrackers ▸ h.nodup, fun initiator hpending => ?_⟩
  rw [hcon] at hpending
  obtain ⟨hasked, hnone⟩ := hcond (by simp [hpending])
  refine (h.tallied initiator hpending).answer hasked (htrackers ▸ List.Subset.refl _) ?_ ?_ ?_ ?_
  · cases response <;> rfl
  · cases response <;> simp [State.countReply, State.setReply, hnone]
  · cases response <;> simp [State.countReply, State.setReply, hnone]
  · intro ci _
    by_cases heq : ci = conn <;>
      cases response <;> simp [State.countReply, State.setReply, heq, Reply.of]

/-! ### Runs -/

/-- The condition under which the counters are right: an answer comes from a connection that was
asked and has not answered this request, and nobody who was asked and stopped tracking starts
tracking again before the decision. -/
def Session.Orderly (s : Session) : Event → Prop
  | .replytoshutdown conn _ =>
    s.state.shutdownCon.isSome → conn ∈ s.ballot.asked ∧ s.ballot.latest conn = none
  | .trackstart conn =>
    s.state.shutdownCon.isSome → conn ∉ s.state.trackersList → conn ∉ s.ballot.asked
  | _ => True

instance (s : Session) (event : Event) : Decidable (s.Orderly event) := by
  cases event <;> dsimp only [Session.Orderly] <;> infer_instance

/-- What one event keeps, and what it says when it executes the shutdown. -/
structure Handled (s : Session) (event : Event) : Prop where
  recorded : Recorded (s.state.handle event).1 (s.noted event)
  agreed : Output.shutdown ∈ (s.state.handle event).2 →
    Agreed (s.noted event) (s.state.handle event).1.trackersList (s.request event)

/-- A connection is removed. -/
theorem handled_remove {ballot' : Ballot Connection Bool} (conn : Connection)
    (h : Recorded s ballot)
    (hballot : ballot' = if (s.cancel conn).shutdownCon.isSome ∧ conn ∈ s.trackersList then
      ballot.answer conn true else ballot) :
    Recorded (s.removeCiFromShutdown conn).1 ballot' ∧
      (Output.shutdown ∈ (s.removeCiFromShutdown conn).2 →
        Agreed ballot' (s.removeCiFromShutdown conn).1.trackersList
          (s.shutdownCon.map (·, s.shutdownFlags))) := by
  have hlist : (s.cancel conn).trackersList = s.trackersList := by
    unfold State.cancel
    split <;> rfl
  have hcon : (s.cancel conn).shutdownCon ≠ some conn := by
    unfold State.cancel
    split
    · simp
    · assumption
  have hcancelled := h.cancel conn
  unfold State.removeCiFromShutdown
  by_cases hmem : conn ∈ s.trackersList
  · have hunlinked := hcancelled.unlink hcon (hlist ▸ hmem)
    simp only [hmem, and_true] at hballot
    rw [← hballot] at hunlinked
    simp only [hlist, hmem, if_true]
    refine ⟨hunlinked.check, fun hshutdown => ?_⟩
    have hagreed := hunlinked.agreed hshutdown
    obtain ⟨initiator, hpending, _⟩ := shutdown_mem_checkShutdownStatus hshutdown
    have hsame : s.cancel conn = s := by
      unfold State.cancel at hpending ⊢
      split at hpending
      · cases hpending
      · rw [if_neg ‹_›]
    rw [trackersList_checkShutdownStatus]
    rw [hsame] at hagreed ⊢
    exact hagreed
  · simp only [hmem, and_false, if_false] at hballot
    simp only [hlist, hmem, if_false, hballot]
    exact ⟨hcancelled, by simp⟩

/-- When the timer expires the request is decided, and nobody's consent is made up. -/
theorem handled_timeout (h : Recorded s ballot) :
    Recorded s.shutdownTimerFn.1 ballot ∧
      (Output.shutdown ∈ s.shutdownTimerFn.2 →
        Agreed ballot s.shutdownTimerFn.1.trackersList
          (s.shutdownCon.map (·, s.shutdownFlags))) := by
  let marked := { s with shutdownTimer := false, shutdownNo := s.shutdownExpected }
  have hdecided : marked.checkShutdownStatus.1.shutdownCon = none := by
    rcases hpending : s.shutdownCon with _ | initiator
    · simp [State.checkShutdownStatus, marked, hpending]
    · have hyes := (h.tallied initiator hpending).yes
      have hall : s.shutdownYes + s.shutdownExpected ≥ s.shutdownExpected := by omega
      unfold State.checkShutdownStatus
      rw [if_neg (by simp [marked, hpending]), if_pos (by simpa [marked] using hall)]
      split <;> rfl
  constructor
  · refine ⟨?_, fun initiator hcon => ?_⟩
    · exact (trackersList_checkShutdownStatus marked).symm ▸ h.nodup
    · exact absurd (hdecided.symm.trans hcon) (by simp)
  intro hshutdown
  have hmem : Output.shutdown ∈ marked.checkShutdownStatus.2 := by
    rcases mem_append.mp hshutdown with hmem | hmem
    · exact hmem
    · exact absurd hmem (shutdown_notMem_sendTestShutdown _ _ _ _)
  have htrackers : s.shutdownTimerFn.1.trackersList = s.trackersList :=
    trackersList_checkShutdownStatus marked
  obtain ⟨initiator, hcon, henough | hflags⟩ := shutdown_mem_checkShutdownStatus hmem
  · refine ⟨initiator, s.shutdownFlags, ?_, .inr (.inr fun ci hci hother => ?_)⟩
    · rw [show s.shutdownCon = some initiator from hcon]
      rfl
    · exact (h.tallied initiator hcon).unanimous henough (htrackers ▸ hci) hother
  · refine ⟨initiator, s.shutdownFlags, ?_, .inl hflags⟩
    rw [show s.shutdownCon = some initiator from hcon]
    rfl

/-- A connection begins to track. -/
theorem handled_trackstart (h : Recorded session.state session.ballot)
    (horderly : session.Orderly (.trackstart conn)) : Handled session (.trackstart conn) := by
  have hquiet : Output.shutdown ∉ (session.state.trackstart conn).2 := by
    unfold State.trackstart
    split_ifs <;> simp [shutdown_notMem_sendTestShutdown]
  refine ⟨?_, fun hmem => absurd hmem hquiet⟩
  simp only [State.handle, State.trackstart, noted]
  by_cases hmem : conn ∈ session.state.trackersList
  · rw [if_pos hmem, if_neg (fun hnew => hnew.2 hmem)]
    exact h
  · simp only [hmem, if_false, not_false_eq_true, and_true]
    exact h.link hmem fun hpending => horderly hpending hmem

/-- A shutdown is requested. -/
theorem handled_tryshutdown (flags : UInt32)
    (h : Recorded session.state session.ballot) : Handled session (.tryshutdown conn flags) := by
  by_cases himmediate : flags = shutdownFlagImmediate
  · constructor
    · simpa [State.handle, State.tryshutdown, noted, himmediate] using h
    · intro _
      exact ⟨conn, flags, rfl, .inr (.inl himmediate)⟩
  · by_cases hpending : session.state.shutdownCon.isSome
    · constructor
      · simpa [State.handle, State.tryshutdown, noted, himmediate, hpending] using h
      · simp [State.handle, State.tryshutdown, himmediate, hpending]
    have hbegun := h.begin conn flags
    have hstate : (session.state.handle (.tryshutdown conn flags)).1 =
        if (session.state.begin conn flags).shutdownExpected = 0 then
          session.state.begin conn flags
        else { session.state.begin conn flags with shutdownTimer := true } := by
      simp only [State.handle, State.tryshutdown, if_neg himmediate, if_neg hpending]
      split <;> rfl
    constructor
    · rw [hstate]
      rw [noted, if_neg (not_or.mpr ⟨himmediate, hpending⟩)]
      split
      · exact hbegun
      · exact ⟨hbegun.nodup, fun initiator hcon =>
          { hbegun.tallied initiator hcon with }⟩
    · intro hmem
      refine ⟨conn, flags, rfl, .inr (.inr fun ci hci hother => ?_)⟩
      simp only [State.handle, State.tryshutdown, if_neg himmediate, if_neg hpending] at hmem hci
      split at hmem
      · rename_i hnobody
        -- Nobody listens, so there is no tracker to ask.
        have hlength : (session.state.trackersList.filter (· ≠ conn)).length = 0 := by
          simpa [State.begin] using hnobody
        have hempty := length_eq_zero_iff.mp hlength
        have htracker : ci ∈ session.state.trackersList := by
          rw [if_pos hnobody] at hci
          exact hci
        have hlistens : ci ∈ session.state.trackersList.filter (· ≠ conn) :=
          mem_filter.mpr ⟨htracker, by simpa using hother⟩
        rw [hempty] at hlistens
        cases hlistens
      · exact absurd hmem
          (shutdown_notMem_sendTestShutdown (session.state.begin conn flags) none (some conn) .ok)

/-- A tracker answers. -/
theorem handled_replytoshutdown (response : Bool) (h : Recorded session.state session.ballot)
    (horderly : session.Orderly (.replytoshutdown conn response)) :
    Handled session (.replytoshutdown conn response) := by
  by_cases hpending : session.state.shutdownCon.isSome
  · have hcounted := h.countReply response horderly
    have hnone : session.state.shutdownCon.isNone = false := by simpa using hpending
    have hrequest : session.request (.replytoshutdown conn response) =
        (session.state.countReply conn response).shutdownCon.map
          (·, (session.state.countReply conn response).shutdownFlags) := by
      cases response <;> rfl
    constructor
    · simpa [State.handle, State.replytoshutdown, noted, hpending, hnone] using hcounted.check
    intro hmem
    have hmem : Output.shutdown ∈
        (session.state.countReply conn response).checkShutdownStatus.2 := by
      simpa [State.handle, State.replytoshutdown, hnone] using hmem
    rw [hrequest]
    simpa [State.handle, State.replytoshutdown, noted, hpending, hnone] using
      hcounted.agreed hmem
  · have hnone : session.state.shutdownCon.isNone = true := by simpa using hpending
    constructor
    · simpa [State.handle, State.replytoshutdown, noted, hpending, hnone] using h
    · simp [State.handle, State.replytoshutdown, hnone]

/-- Every orderly event is handled so. -/
theorem handled {event : Event} (h : Recorded session.state session.ballot)
    (horderly : session.Orderly event) : Handled session event := by
  cases event with
  | trackstart _ => exact handled_trackstart h horderly
  | trackstop conn =>
    obtain ⟨hrecorded, hagreed⟩ := handled_remove conn h rfl
    refine ⟨hrecorded, fun hmem => hagreed ?_⟩
    simpa [State.handle, State.trackstop] using hmem
  | disconnect conn =>
    obtain ⟨hrecorded, hagreed⟩ := handled_remove conn h rfl
    exact ⟨hrecorded, hagreed⟩
  | tryshutdown _ flags => exact handled_tryshutdown flags h
  | replytoshutdown _ response => exact handled_replytoshutdown response h horderly
  | timeout =>
    obtain ⟨hrecorded, hagreed⟩ := handled_timeout h
    exact ⟨hrecorded, hagreed⟩

/-- A step of a session. -/
theorem step_eq_some {s s' : Session} {event : Event} (hstep : s.step event = some s') :
    s'.state = (s.state.handle event).1 ∧ s'.ballot = s.noted event := by
  obtain ⟨_, hstep⟩ := ite_none_right_eq_some.mp hstep
  cases hstep
  exact ⟨rfl, rfl⟩

/-- The count of an orderly run. -/
theorem recorded_of_run {events : List Event} {s : Session}
    (hrun : run (restrict Session.Orderly step) {} events = some s) :
    Recorded s.state s.ballot := by
  refine run_invariant (P := fun s => Recorded s.state s.ballot) ?_ ?_ hrun
  · intro s event s' h hstep
    obtain ⟨horderly, hstep⟩ := restrict_eq_some.mp hstep
    obtain ⟨hstate, hballot⟩ := step_eq_some hstep
    rw [hstate, hballot]
    exact (handled h horderly).recorded
  · exact ⟨nodup_nil, fun initiator hcon => by cases hcon⟩

/-- In every run whose answers come from those asked and count once, the counters of a pending
request are those of the ballot, and whatever happens next under the same condition executes the
shutdown only with the consent of every tracker but the initiator, or with one of the flags. -/
theorem shutdown_needs_consent (events : List Event) (s : Session)
    (hrun : run (restrict Session.Orderly Session.step) {} events = some s) :
    s.Counts ∧ ∀ event s', restrict Session.Orderly Session.step s event = some s' →
        s.Consented event s' := by
  have hrecorded := recorded_of_run hrun
  constructor
  · intro hpending
    obtain ⟨initiator, hcon⟩ := isSome_iff_exists.mp hpending
    have htallied := hrecorded.tallied initiator hcon
    exact ⟨htallied.expected, htallied.yes, htallied.no⟩
  · intro event s' hstep hshutdown
    obtain ⟨horderly, hstep⟩ := restrict_eq_some.mp hstep
    obtain ⟨hstate, hballot⟩ := step_eq_some hstep
    have hagreed := (handled hrecorded horderly).agreed hshutdown
    rw [hstate, hballot]
    exact hagreed

/-- Two trackers, one of which has consented; the other one's consent executes the shutdown. -/
theorem shutdown_needs_consent_twoTrackers :
    ∃ s, run (restrict Session.Orderly Session.step) {}
        [.trackstart 1, .trackstart 2, .tryshutdown 3 0, .replytoshutdown 1 true] = some s ∧
      s.Counts ∧ s.state.shutdownExpected = 2 ∧
      Output.shutdown ∈ (s.state.handle (.replytoshutdown 2 true)).2 ∧
      ∀ s', restrict Session.Orderly Session.step s (.replytoshutdown 2 true) = some s' →
        s.Consented (.replytoshutdown 2 true) s' := by
  refine exists_run_imp (fun s => s.state.shutdownExpected = 2 ∧
    Output.shutdown ∈ (s.state.handle (.replytoshutdown 2 true)).2) (by decide +kernel) ?_
  intro s hrun ⟨hexpected, hshutdown⟩
  obtain ⟨hcounts, hconsented⟩ := shutdown_needs_consent _ s hrun
  exact ⟨hcounts, hexpected, hshutdown, hconsented _⟩

/-- A client that does not track answers yes twice, and the node is shut down although neither of
its two trackers has answered. -/
theorem outsider_answers_for_trackers :
    ∃ s s', run Session.step {}
        [.trackstart 1, .trackstart 2, .tryshutdown 3 0, .replytoshutdown 4 true] = some s ∧
      ¬ s.Counts ∧ s.step (.replytoshutdown 4 true) = some s' ∧
      ¬ s.Consented (.replytoshutdown 4 true) s' := by
  obtain ⟨s, hrun, hcounts, hshutdown, hrequest, hsome⟩ := @exists_run_of_any _ _ step {}
    [.trackstart 1, .trackstart 2, .tryshutdown 3 0, .replytoshutdown 4 true]
    (fun s => ¬ s.Counts ∧ Output.shutdown ∈ (s.state.handle (.replytoshutdown 4 true)).2 ∧
      s.request (.replytoshutdown 4 true) = some (3, 0) ∧
      (s.step (.replytoshutdown 4 true)).any fun s' =>
        1 ∈ s'.state.trackersList ∧ s'.ballot.latest 1 = none) _ (by decide +kernel)
  obtain ⟨s', hstep, hsilent⟩ := (any_eq_true _ _).mp hsome
  obtain ⟨htracker, hlatest⟩ := of_decide_eq_true hsilent
  refine ⟨s, s', hrun, hcounts, hstep, fun hconsented => ?_⟩
  obtain ⟨initiator, flags, heq, hflags⟩ := hconsented hshutdown
  obtain ⟨rfl, rfl⟩ := Prod.mk.inj (some.inj (hrequest.symm.trans heq))
  rcases hflags with hflags | hflags | hall
  · cases hflags
  · cases hflags
  · cases hlatest.symm.trans (hall 1 htracker (by decide))

end Corosync.Cfg
