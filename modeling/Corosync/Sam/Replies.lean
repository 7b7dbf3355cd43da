import Corosync.Sam.Serving

/-!
# Replies to the child

While the conditions on memory, quorum and the end of the child are met, the pipe to the parent
holds whole commands, of which at most the last one is waited for, and the pipe to the child holds
at most the reply to the call that waits.
-/

namespace Corosync.Sam

open Library List Option State

variable {s s' : State} {number : ℕ} {call : Call} {results : Results} {rest : List Byte}
  {entry : ℕ × Call}

/-! ### The invariant -/

/-- The bytes of several commands. -/
def bytes (queue : List (ℕ × Call)) : List Byte :=
  queue.flatMap fun entry => encode entry.1 entry.2

/-- How far the call that waits has come, with the commands that the parent has not served. -/
inductive Exchange (s : State) : List (ℕ × Call) → Prop
  | idle {queue : List (ℕ × Call)} (hwaiting : s.child.waiting = none) (hreply : s.toChild = [])
      (hqueue : ∀ entry ∈ queue, entry.2.waits s.policy = false)
      (hdata : s.userData.bytes = s.lastStored) : Exchange s queue
  | asked {queue : List (ℕ × Call)} {entry : ℕ × Call} (hwaiting : s.child.waiting = some entry)
      (hreply : s.toChild = []) (hqueue : ∀ other ∈ queue, other.2.waits s.policy = false)
      (hdata : s.userData.bytes = s.lastStored) : Exchange s (queue ++ [entry])
  | ignored {entry : ℕ × Call} (hwaiting : s.child.waiting = some entry) (hreply : s.toChild = [])
      (hdata : s.userData.bytes = s.lastStored) : Exchange s []
  | answered {entry : ℕ × Call} {result : Option CsError} (hwaiting : s.child.waiting = some entry)
      (hreply : s.toChild = [{ owner := entry.1, result := result }])
      (hperformed : result = none → entry.1 ∈ s.performed)
      (hstored : ∀ data, entry.2 = .dataStore data → result = none →
        s.userData.bytes = data.getD [])
      (hdata : (∀ data, entry.2 = .dataStore data → result ≠ none) →
        s.userData.bytes = s.lastStored) : Exchange s []

/-- What is left of a command that the child did not write to its end. -/
def Fragment (pipe : List Byte) : Prop :=
  ∃ number call written, Call.Fits call ∧ written < (encode number call).length ∧
    pipe = (encode number call).take written

/-- Nothing is a fragment. -/
theorem fragment_nil : Fragment [] :=
  ⟨0, .start, 0, trivial, by decide, rfl⟩

/-- The invariant of the runs. -/
structure Synced (s : State) : Prop where
  read : ∀ pair ∈ s.read, pair.1 = pair.2
  confirmed : s.confirmed ⊆ s.performed
  alive : s.child.alive = true → s.phase ≠ .forking ∧
    ∃ queue, (s.phase = .serving → s.toParent = bytes queue) ∧
      (∀ entry ∈ queue, entry.2.Fits) ∧ Exchange s queue
  dead : s.child.alive = false → s.child.waiting = none ∧ s.userData.bytes = s.lastStored ∧
    (s.phase = .forking → s.toParent = [] ∧ s.toChild = []) ∧
    (s.phase = .serving → ∃ queue fragment, s.toParent = bytes queue ++ fragment ∧
      (∀ entry ∈ queue, entry.2.Fits ∧ ∀ data, entry.2 ≠ .dataStore data) ∧ Fragment fragment)

/-- A child that waits for its data to be stored. -/
theorem Child.storing_of_waiting {child : Child} {data : Option (List UInt8)}
    (hwaiting : child.waiting = some entry) (hentry : entry.2 = .dataStore data) :
    child.storing = true := by
  obtain ⟨number, call⟩ := entry
  obtain rfl : call = .dataStore data := hentry
  simp [Child.storing, hwaiting]

section

variable {queue : List (ℕ × Call)} (h : Exchange s queue)

include h

/-- Otherwise the parent has what was stored last. -/
theorem Exchange.data_of_storing
    (hstoring : s.child.storing = false) : s.userData.bytes = s.lastStored := by
  cases h with
  | idle _ _ _ hdata | asked _ _ _ hdata | ignored _ _ hdata => exact hdata
  | answered hwaiting _ _ _ hdata =>
    refine hdata fun data hentry => ?_
    rw [Child.storing_of_waiting hwaiting hentry] at hstoring
    cases hstoring

/-- The commands in the pipe are not stores, if the child does not wait for one. -/
theorem Exchange.no_store
    (hstoring : s.child.storing = false) : ∀ entry ∈ queue, ∀ data, entry.2 ≠ .dataStore data := by
  have hwaits : ∀ entry : ℕ × Call, entry.2.waits s.policy = false →
      ∀ data, entry.2 ≠ .dataStore data := by
    intro entry hentry data hdata
    rw [hdata] at hentry
    cases hentry
  cases h with
  | idle _ _ hqueue => exact fun entry hentry => hwaits entry (hqueue entry hentry)
  | @asked _ _ hwaiting _ hqueue =>
    intro entry hentry data hdata
    rcases mem_append.mp hentry with hearlier | hlast
    · exact hwaits entry (hqueue entry hearlier) data hdata
    · obtain rfl := mem_singleton.mp hlast
      rw [Child.storing_of_waiting hwaiting hdata] at hstoring
      cases hstoring
  | ignored | answered => simp

/-- The other variables of the parent do not matter. -/
theorem Exchange.parent (phase : Phase) (termSend : Bool) :
    Exchange { s with phase := phase, termSend := termSend } queue := by
  cases h with
  | idle hwaiting hreply hqueue hdata => exact .idle hwaiting hreply hqueue hdata
  | asked hwaiting hreply hqueue hdata => exact .asked hwaiting hreply hqueue hdata
  | ignored hwaiting hreply hdata => exact .ignored hwaiting hreply hdata
  | answered hwaiting hreply hresult hstored hdata =>
    exact .answered hwaiting hreply hresult hstored hdata

/-- Without a waiting child the pipe to it is empty. -/
theorem Exchange.idle_of_waiting (hwaiting : s.child.waiting = none) :
    s.toChild = [] ∧ (∀ entry ∈ queue, entry.2.waits s.policy = false) ∧
      s.userData.bytes = s.lastStored := by
  cases h with
  | idle _ hreply hqueue hdata => exact ⟨hreply, hqueue, hdata⟩
  | asked hsome | ignored hsome | answered hsome => simp [hsome] at hwaiting

end

/-- What is read matches. -/
theorem Synced.matched (h : Synced s) : s.Matched := by
  refine ⟨h.read, h.confirmed, ?_, ?_⟩
  · intro halive reply hreply
    obtain ⟨_, queue, _, _, hexchange⟩ := h.alive halive
    cases hexchange with
    | idle _ hnone | asked _ hnone | ignored _ hnone => simp [hnone] at hreply
    | @answered entry _ hwaiting hone =>
      rw [hone, mem_singleton] at hreply
      exact ⟨entry.2, by rw [hwaiting, hreply]⟩
  · cases halive : s.child.alive with
    | false => exact .inl (h.dead halive).2.1
    | true =>
      obtain ⟨_, queue, _, _, hexchange⟩ := h.alive halive
      cases hexchange with
      | idle _ _ _ hdata | asked _ _ _ hdata | ignored _ _ hdata => exact .inl hdata
      | @answered entry result hwaiting _ _ hstored hdata =>
        by_cases hnone : ∀ data, entry.2 = .dataStore data → result ≠ none
        · exact .inl (hdata hnone)
        · push Not at hnone
          obtain ⟨data, hentry, hresult⟩ := hnone
          exact .inr ⟨entry.1, data, by rw [hwaiting, ← hentry], hstored data hentry hresult⟩

/-! ### Steps -/

/-- The end of a call does not concern the life of the child. -/
theorem finish_alive {child child' : Child} {results : Local}
    (h : child.finish results call = .ok child') :
    child'.alive = child.alive ∧ child'.waiting = child.waiting := by
  cases call with
  | start | stop =>
    simp only [Child.finish] at h
    split at h <;> cases h
    exact ⟨rfl, rfl⟩
  | dataStore data =>
    cases hstore : child.userData.store data results.realloc with
    | error _ => simp [Child.finish, hstore, Except.map] at h
    | ok _ =>
      simp only [Child.finish, hstore, Except.map, Except.ok.injEq] at h
      exact h ▸ ⟨rfl, rfl⟩
  | warnSignalSet _ | hcSend | markFailed =>
    cases h
    exact ⟨rfl, rfl⟩

/-- The bytes of one more call. -/
theorem bytes_append (queue : List (ℕ × Call)) (entry : ℕ × Call) :
    bytes (queue ++ [entry]) = bytes queue ++ encode entry.1 entry.2 := by
  simp [bytes]

/-- The child makes a call. -/
theorem Synced.makeCall (h : Synced s) (halive : s.child.alive = true)
    (hwaiting : s.child.waiting = none) (call : Call) (results : Local) :
    Synced (s.makeCall call results) := by
  unfold State.makeCall
  split
  · exact h
  rename_i hrefuses
  split
  · exact h
  rename_i hserving
  rw [not_not] at hserving
  obtain ⟨_, queue, hpipe, hfits, hexchange⟩ := h.alive halive
  obtain ⟨hreply, hqueue, hdata⟩ := hexchange.idle_of_waiting hwaiting
  have hfits' : ∀ entry ∈ queue ++ [(s.sent, call)], entry.2.Fits := by
    exact forall_mem_append.mpr ⟨hfits,
      forall_mem_singleton.mpr (Call.fits_of_refuses hrefuses)⟩
  have hpipe' : s.toParent ++ encode s.sent call = bytes (queue ++ [(s.sent, call)]) := by
    rw [bytes_append, hpipe hserving]
  have hphase : s.phase ≠ .forking := by simp [hserving]
  by_cases hwaits : call.waits s.policy = true
  · simp only [hwaits, if_true]
    refine ⟨h.read, h.confirmed, fun _ => ⟨hphase, _, fun _ => hpipe', hfits', ?_⟩, ?_⟩
    · exact .asked rfl hreply hqueue hdata
    · simp [halive]
  · have hqueue' : ∀ entry ∈ queue ++ [(s.sent, call)], entry.2.waits s.policy = false := by
      exact forall_mem_append.mpr ⟨hqueue, forall_mem_singleton.mpr (by simpa using hwaits)⟩
    have hchild : ∀ child : Child, child.alive = true → child.waiting = none →
        Synced { s with
          toParent := s.toParent ++ encode s.sent call, sent := s.sent + 1, child := child } := by
      intro child halive hwaiting
      refine ⟨h.read, h.confirmed, fun _ => ⟨hphase, _, fun _ => hpipe', hfits', ?_⟩, ?_⟩
      · exact .idle hwaiting hreply hqueue' hdata
      · simp [halive]
    simp only [hwaits]
    cases hfinish : s.child.finish results call with
    | error _ => exact hchild _ halive hwaiting
    | ok _ =>
      obtain ⟨halive', hwaiting'⟩ := finish_alive hfinish
      exact hchild _ (halive'.trans halive) (hwaiting'.trans hwaiting)

/-- A call of the child that has memory fails after the reply only if it is not a store. -/
theorem finish_error {child : Child} {results : Local} {err : CsError}
    (hrealloc : results.realloc = true) (h : child.finish results call = .error err) :
    ∀ data, call ≠ .dataStore data := by
  rintro data rfl
  unfold Child.finish UserData.store at h
  cases data with
  | none => cases h
  | some _ =>
    simp only [hrealloc, if_true] at h
    split at h <;> cases h

/-- The child reads the reply. -/
theorem Synced.readReply (h : Synced s) (halive : s.child.alive = true) {results : Local}
    (hrealloc : results.realloc = true) (hread : s.readReply results = some s') : Synced s' := by
  obtain ⟨hphase, queue, hpipe, _, hexchange⟩ := h.alive halive
  unfold State.readReply at hread
  cases hexchange with
  | idle hwaiting => simp [hwaiting] at hread
  | asked hwaiting hreply _ hdata | ignored hwaiting hreply hdata =>
    simp only [hwaiting, hreply] at hread
    split at hread
    · rename_i hover
      cases hread
      refine ⟨h.read, h.confirmed, fun _ => ⟨hphase, [], ?_, by simp, ?_⟩, by simp [halive]⟩
      · simp [hover]
      · exact .idle rfl rfl (by simp) hdata
    · cases hread
  | @answered entry result hwaiting hreply hperformed hstored hdata =>
    have hread' : ∀ pair ∈ (entry.1, entry.1) :: s.read, pair.1 = pair.2 := by
      exact forall_mem_cons.mpr ⟨rfl, h.read⟩
    simp only [hwaiting, hreply] at hread
    cases result with
    | some _ =>
      cases hread
      refine ⟨hread', h.confirmed, fun _ => ⟨hphase, [], hpipe, by simp, ?_⟩, by simp [halive]⟩
      exact .idle rfl rfl (by simp) (hdata (by simp))
    | none =>
      simp only at hread
      split at hread
      · rename_i err hfinish
        cases hread
        refine ⟨hread', h.confirmed, fun _ => ⟨hphase, [], hpipe, by simp, ?_⟩, by simp [halive]⟩
        refine .idle rfl rfl (by simp) (hdata fun data hentry => ?_)
        exact absurd hentry (finish_error hrealloc hfinish data)
      · rename_i child hfinish
        obtain ⟨halive', hwaiting'⟩ := finish_alive hfinish
        cases hread
        refine ⟨hread', ?_, fun _ => ⟨hphase, [], hpipe, by simp, ?_⟩, ?_⟩
        · exact cons_subset.mpr ⟨hperformed rfl, h.confirmed⟩
        · refine .idle hwaiting' rfl (by simp) ?_
          cases hcall : entry.2 with
          | dataStore data => simpa [confirm, hcall] using hstored data hcall rfl
          | start | stop | hcSend | warnSignalSet _ | markFailed =>
            simpa [confirm, hcall] using hdata (by simp [hcall])
        · simp [confirm, halive', halive]

/-- The parent recovers. -/
theorem Synced.parentRecovery (h : Synced s) (hdata : s.userData.bytes = s.lastStored) :
    Synced s.parentRecovery := by
  refine ⟨h.read, h.confirmed, by simp [State.parentRecovery], fun _ => ?_⟩
  refine ⟨rfl, hdata, fun _ => ⟨rfl, rfl⟩, fun hserving => ?_⟩
  simp only [State.parentRecovery] at hserving
  split at hserving <;> cases hserving

/-- A child that is marked failed is over. -/
theorem synced_parentMarkChildFailed (hread : ∀ pair ∈ s.read, pair.1 = pair.2)
    (hconfirmed : s.confirmed ⊆ s.performed) (hdata : s.userData.bytes = s.lastStored) :
    Synced s.parentMarkChildFailed := by
  obtain ⟨policy, heq⟩ := parentMarkChildFailed_eq s
  rw [heq]
  exact ⟨hread, hconfirmed, by simp, fun _ => ⟨rfl, hdata, by simp, by simp⟩⟩

/-- The next command of the pipe. -/
theorem nextCommand_encode (hpipe : s.toParent = encode number call ++ rest) :
    s.nextCommand = some call.command := by
  simp [nextCommand, hpipe, encode]

/-- A call that nobody waits for has no answer. -/
theorem Answer.silent_of_waits (h : Answer s s' number call)
    (hwaits : call.waits s.policy = false) : s'.toChild = s.toChild ∧ s'.userData = s.userData := by
  cases h with
  | silent htoChild hdata => exact ⟨htoChild, hdata⟩
  | replied _ hwaits' =>
    rw [hwaits] at hwaits'
    cases hwaits'

/-- As long as the parent has commands to serve, it has not stored what the child waits for. -/
theorem Exchange.data_of_cons {queue : List (ℕ × Call)}
    (h : Exchange s (entry :: queue)) : s.userData.bytes = s.lastStored := by
  generalize hentry : entry :: queue = all at h
  cases h with
  | idle _ _ _ hdata | asked _ _ _ hdata => exact hdata
  | ignored | answered => cases hentry

/-- One call is served. -/
theorem Exchange.served {queue : List (ℕ × Call)} {pipe : List Byte}
    (h : Exchange s (entry :: queue)) (hkeeps : Keeps { s with toParent := pipe } s')
    (hanswer : Answer { s with toParent := pipe } s' entry.1 entry.2) : Exchange s' queue := by
  obtain ⟨hpolicy, _, hchild, _, _, _, hlast, hperformed⟩ := hkeeps
  simp only at hpolicy hchild hlast
  generalize hentry : entry :: queue = all at h
  cases h with
  | idle hwaiting hreply hqueue hdata =>
    subst hentry
    obtain ⟨htoChild, huserData⟩ := hanswer.silent_of_waits (hqueue entry mem_cons_self)
    refine .idle (hchild ▸ hwaiting) (htoChild.trans hreply) ?_ ?_
    · intro other hother
      exact hpolicy ▸ hqueue other (mem_cons_of_mem _ hother)
    · rw [huserData, hlast]
      exact hdata
  | @asked earlier _ hwaiting hreply hqueue hdata =>
    cases earlier with
    | nil =>
      -- The command that is waited for is served.
      obtain ⟨rfl, rfl⟩ := List.cons.inj hentry
      cases hanswer with
      | silent htoChild huserData =>
        refine .ignored (hchild ▸ hwaiting) (htoChild.trans hreply) ?_
        rw [huserData, hlast]
        exact hdata
      | replied _ _ htoChild hresult hstored huserData =>
        refine .answered (hchild ▸ hwaiting) ?_ hresult hstored fun hnone => ?_
        · rw [htoChild]
          simp only [hreply, nil_append]
        · rw [huserData hnone, hlast]
          exact hdata
    | cons _ _ =>
      obtain ⟨rfl, rfl⟩ := List.cons.inj hentry
      obtain ⟨htoChild, huserData⟩ := hanswer.silent_of_waits (hqueue entry mem_cons_self)
      refine .asked (hchild ▸ hwaiting) (htoChild.trans hreply) ?_ ?_
      · intro other hother
        exact hpolicy ▸ hqueue other (mem_cons_of_mem _ hother)
      · rw [huserData, hlast]
        exact hdata
  | ignored | answered => cases hentry

/-- The same with the data of the parent. -/
theorem Synced.served (h : Synced s) (hpipe : s.toParent = encode number call ++ rest)
    (hfits : call.Fits) (hdata : s.userData.bytes = s.lastStored)
    (hundisturbed : s.Undisturbed (.serve results)) (hserved : s.parentHandler results = some s') :
    Synced s' ∨
      Keeps { s with toParent := rest } s' ∧ Answer { s with toParent := rest } s' number call := by
  have hnext := nextCommand_encode hpipe
  rw [parentHandler_encode hpipe hfits
    (fun hstore => hundisturbed.2 (hnext.trans (congrArg some hstore)))] at hserved
  by_cases hfailed : call = .markFailed
  · rw [hfailed] at hserved
    exact .inl (some.inj hserved ▸ synced_parentMarkChildFailed h.read h.confirmed hdata)
  · exact .inr (served_answer
      (fun hstart hflags => hundisturbed.1 ⟨by rw [hnext, hstart]; rfl, hflags⟩) hfailed hserved)

/-- The parent serves a living child. -/
theorem Synced.parentHandler_alive (h : Synced s) (hserving : s.phase = .serving)
    (halive : s.child.alive = true) (hundisturbed : s.Undisturbed (.serve results))
    (hserved : s.parentHandler results = some s') : Synced s' := by
  obtain ⟨_, queue, hpipe, hfits, hexchange⟩ := h.alive halive
  replace hpipe := hpipe hserving
  cases queue with
  | nil => simp [parentHandler, hpipe, bytes] at hserved
  | cons entry queue =>
    replace hpipe : s.toParent = encode entry.1 entry.2 ++ bytes queue := hpipe
    obtain hsynced | ⟨hkeeps, hanswer⟩ :=
      h.served hpipe (hfits entry mem_cons_self) hexchange.data_of_cons hundisturbed hserved
    · exact hsynced
    refine ⟨hkeeps.read ▸ h.read, ?_, fun _ => ⟨?_, queue, fun _ => hkeeps.toParent, ?_, ?_⟩, ?_⟩
    · exact hkeeps.confirmed ▸ List.Subset.trans h.confirmed hkeeps.performed
    · rw [hkeeps.phase]
      simp [hserving]
    · exact fun other hother => hfits other (mem_cons_of_mem _ hother)
    · exact hexchange.served hkeeps hanswer
    · rw [hkeeps.child]
      simp [halive]

/-- The parent serves what a dead child has left. -/
theorem Synced.parentHandler_dead (h : Synced s) (hserving : s.phase = .serving)
    (halive : s.child.alive = false) (hundisturbed : s.Undisturbed (.serve results))
    (hserved : s.parentHandler results = some s') : Synced s' := by
  obtain ⟨hwaiting, hdata, _, hpipe⟩ := h.dead halive
  obtain ⟨queue, fragment, hpipe, hqueue, hfragment⟩ := hpipe hserving
  cases queue with
  | nil =>
    obtain ⟨number, call, written, hfits, hwritten, hfragment⟩ := hfragment
    rw [parentHandler_fragment halive (hpipe.trans hfragment) hwritten hfits hundisturbed.2 hserved]
    refine ⟨h.read, h.confirmed, by simp [parentReplySend, halive], fun _ => ?_⟩
    refine ⟨hwaiting, hdata, by simp [parentReplySend, hserving], fun _ => ?_⟩
    exact ⟨[], [], rfl, by simp, fragment_nil⟩
  | cons entry queue =>
    obtain ⟨hfits, hstore⟩ := hqueue entry mem_cons_self
    replace hpipe : s.toParent = encode entry.1 entry.2 ++ (bytes queue ++ fragment) := by
      rw [hpipe, ← append_assoc]
      rfl
    obtain hsynced | ⟨hkeeps, hanswer⟩ := h.served hpipe hfits hdata hundisturbed hserved
    · exact hsynced
    have huserData : s'.userData = s.userData := by
      cases hanswer with
      | silent _ huserData => exact huserData
      | replied _ _ _ _ _ huserData =>
        exact huserData fun data hentry => absurd hentry (hstore data)
    refine ⟨hkeeps.read ▸ h.read, ?_, ?_, fun _ => ⟨?_, ?_, ?_, fun _ => ?_⟩⟩
    · exact hkeeps.confirmed ▸ List.Subset.trans h.confirmed hkeeps.performed
    · rw [hkeeps.child]
      simp [halive]
    · rw [hkeeps.child]
      exact hwaiting
    · rw [huserData, hkeeps.lastStored]
      exact hdata
    · rw [hkeeps.phase]
      simp [hserving]
    · exact ⟨queue, fragment, hkeeps.toParent,
        fun other hother => hqueue other (mem_cons_of_mem _ hother), hfragment⟩

/-- The child ends; what is left of a command may follow the whole ones. -/
theorem Synced.exit (h : Synced s) (halive : s.child.alive = true)
    (hstoring : s.child.storing = false) {fragment : List Byte} (hfragment : Fragment fragment)
    (sent : ℕ) :
    Synced { s with
      toParent := s.toParent ++ fragment
      sent := sent
      child := { s.child with alive := false, waiting := none } } := by
  obtain ⟨hphase, queue, hpipe, hfits, hexchange⟩ := h.alive halive
  refine ⟨h.read, h.confirmed, by simp, fun _ => ?_⟩
  refine ⟨rfl, hexchange.data_of_storing hstoring, fun hforking => absurd hforking hphase, ?_⟩
  intro hserving
  exact ⟨queue, fragment, congrArg (· ++ fragment) (hpipe hserving),
    fun entry hentry => ⟨hfits entry hentry, hexchange.no_store hstoring entry hentry⟩, hfragment⟩

/-- The parent quits. -/
theorem Synced.parentQuit (h : Synced s) : Synced s.parentQuit := by
  refine ⟨h.read, h.confirmed, fun halive => ?_, fun hdead => ?_⟩
  · obtain ⟨_, queue, _, hfits, hexchange⟩ := h.alive halive
    exact ⟨by simp [State.parentQuit], queue, by simp [State.parentQuit], hfits,
      hexchange.parent _ _⟩
  · obtain ⟨hwaiting, hdata, _⟩ := h.dead hdead
    exact ⟨hwaiting, hdata, by simp [State.parentQuit], by simp [State.parentQuit]⟩

/-- Outside a store the parent has what was stored last. -/
theorem Synced.data_of_storing (h : Synced s) (hstoring : s.child.storing = false) :
    s.userData.bytes = s.lastStored := by
  cases halive : s.child.alive with
  | false => exact (h.dead halive).2.1
  | true =>
    obtain ⟨_, queue, _, _, hexchange⟩ := h.alive halive
    exact hexchange.data_of_storing hstoring

/-- The parent kills the child. -/
theorem Synced.parentKillChild (h : Synced s) (hstoring : s.child.storing = false) :
    Synced s.parentKillChild := by
  unfold State.parentKillChild
  split
  · exact h.parentRecovery (h.data_of_storing hstoring)
  · refine ⟨h.read, h.confirmed, fun halive => ?_, h.dead⟩
    obtain ⟨hphase, queue, hpipe, hfits, hexchange⟩ := h.alive halive
    exact ⟨hphase, queue, hpipe, hfits, hexchange.parent _ _⟩

/-- The next child begins. -/
theorem Synced.fork (h : Synced s) (hforking : s.phase = .forking) :
    Synced { s with
      phase := .serving
      status := false
      termSend := false
      child := { userData := s.userData, warnSignal := s.warnSignal } } := by
  have hdead : s.child.alive = false := by
    cases halive : s.child.alive with
    | false => rfl
    | true => exact absurd hforking (h.alive halive).1
  obtain ⟨_, hdata, hpipes, _⟩ := h.dead hdead
  obtain ⟨htoParent, htoChild⟩ := hpipes hforking
  refine ⟨h.read, h.confirmed, fun _ => ⟨by simp, [], fun _ => htoParent, by simp, ?_⟩, by simp⟩
  exact .idle rfl htoChild (by simp) hdata

/-- Every undisturbed step keeps calls and replies together. -/
theorem Synced.step {event : Event} (h : Synced s) (hundisturbed : s.Undisturbed event)
    (hstep : s.step event = some s') : Synced s' := by
  cases event with
  | call call results =>
    obtain ⟨hready, hstep⟩ := ite_none_right_eq_some.mp hstep
    exact some.inj hstep ▸ h.makeCall hready.1 hready.2 call results
  | readReply _ =>
    obtain ⟨halive, hstep⟩ := ite_none_right_eq_some.mp hstep
    exact h.readReply halive hundisturbed hstep
  | serve _ =>
    obtain ⟨hserving, hstep⟩ := ite_none_right_eq_some.mp hstep
    cases halive : s.child.alive with
    | true => exact h.parentHandler_alive hserving halive hundisturbed hstep
    | false => exact h.parentHandler_dead hserving halive hundisturbed hstep
  | exit =>
    obtain ⟨halive, hstep⟩ := ite_none_right_eq_some.mp hstep
    cases hstep
    simpa using h.exit halive hundisturbed fragment_nil s.sent
  | crash call written =>
    obtain ⟨hready, hstep⟩ := ite_none_right_eq_some.mp hstep
    obtain ⟨halive, hwaiting, _, hrefuses, hwritten⟩ := hready
    cases hstep
    have hstoring : s.child.storing = false := by simp [Child.storing, hwaiting]
    have hfragment : Fragment ((encode s.sent call).take written) :=
      ⟨s.sent, call, written, Call.fits_of_refuses hrefuses, hwritten, rfl⟩
    simpa [hwaiting] using h.exit halive hstoring hfragment (s.sent + 1)
  | eof =>
    obtain ⟨hready, hstep⟩ := ite_none_right_eq_some.mp hstep
    cases hstep
    split
    · exact h.parentRecovery (h.dead hready.2.1).2.1
    · exact h.parentQuit
  | kill =>
    obtain ⟨_, hstep⟩ := ite_none_right_eq_some.mp hstep
    exact some.inj hstep ▸ h.parentKillChild hundisturbed
  | pollError =>
    obtain ⟨_, hstep⟩ := ite_none_right_eq_some.mp hstep
    exact some.inj hstep ▸ h.parentQuit
  | fork _ =>
    obtain ⟨hforking, hstep⟩ := ite_none_right_eq_some.mp hstep
    cases hstep
    split
    · exact h.fork hforking
    · exact h.parentQuit

/-- Before the first child. -/
theorem synced_register (policy : Policy) (userData : UserData) (warnSignal : UInt32) :
    Synced (.register policy userData warnSignal) := by
  refine ⟨by simp [register], by simp [register], fun _ => ?_, by simp [register]⟩
  exact ⟨by simp [register], [], fun _ => rfl, by simp, .idle rfl rfl (by simp) rfl⟩

/-- In every run in which the parent never finds quorum for a start under a policy with both flags,
both processes have the memory for the data, and the child does not end while it waits for the
reply to a store, the replies match the calls and the parent has the data that were stored. -/
theorem replies_matched (policy : Policy) (userData : UserData) (warnSignal : UInt32)
    (events : List Event) (s : State)
    (hrun : run (restrict State.Undisturbed State.step) (.register policy userData warnSignal)
      events = some s) : s.Matched := by
  refine Synced.matched ?_
  refine run_invariant (P := Synced) ?_ (synced_register policy userData warnSignal) hrun
  intro s event s' h hstep
  obtain ⟨hundisturbed, hstep⟩ := restrict_eq_some.mp hstep
  exact h.step hundisturbed hstep

/-- A child stores data, is started, crashes while it stores other data and is started again. -/
theorem replies_matched_restart :
    ∃ s, run (restrict State.Undisturbed State.step) (.register ⟨.restart, true, false⟩ {} 15)
        [.call (.dataStore (some [1, 2])) {}, .serve {}, .readReply {}, .call .start {}, .serve {},
          .readReply {}, .crash (.dataStore (some [3])) 9, .serve {}, .eof, .fork true,
          .call .start {}, .serve { quorum := .failed .library }, .readReply {}] = some s ∧
      s.confirmed = [1, 0] ∧ s.child.userData.bytes = [1, 2] ∧ s.Matched := by
  refine exists_run_imp (fun s => s.confirmed = [1, 0] ∧ s.child.userData.bytes = [1, 2])
    (by decide +kernel) fun s hrun hstate => ?_
  exact ⟨hstate.1, hstate.2, replies_matched _ _ _ _ s hrun⟩

/-- Under a policy with both flags the parent answers a start twice: the child reads the reply of
the wait for quorum and returns `CS_OK`, while the parent has failed to set the state and is not
started, and the error stays in the pipe. -/
theorem start_confirmed_not_performed :
    ∃ s, run State.step (.register ⟨.restart, true, true⟩ {} 15)
        [.call .start {}, .serve { stateSet := some (.other 6) }, .readReply {}] = some s ∧
      ¬ s.Matched := by
  refine exists_run_imp (fun s => 0 ∈ s.confirmed ∧ 0 ∉ s.performed) (by decide +kernel) ?_
  exact fun s _ ⟨hconfirmed, hperformed⟩ hmatched =>
    hperformed (hmatched.confirmed 0 hconfirmed)

end Corosync.Sam
