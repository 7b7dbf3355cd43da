import Corosync.Sam.Commands

/-!
# Serving the commands

The parent reads back the commands as they were written. As long as it does not find quorum for a
start under a policy with both flags, it answers a command at most once, and only if the call waits
for a reply.
-/

namespace Corosync.Sam

open Library List Option State Call

variable {s s' : State} {number : ℕ} {call : Call} {results : Results} {rest : List Byte}

/-! ### Reading commands -/

/-- The size of the data fits into `ssize_t`. -/
def Call.Fits : Call → Prop
  | .dataStore data => (data.getD []).length < ssizeMax
  | _ => True

/-- A call that is not refused fits. -/
theorem Call.fits_of_refuses {child : Child} {policy : Policy}
    (h : child.refuses policy call = none) : call.Fits := by
  cases call with
  | dataStore _ =>
    unfold Call.Fits
    simp only [Child.refuses] at h
    split at h
    · cases h
    · omega
  | start | stop | hcSend | warnSignalSet _ | markFailed => trivial

/-- A command is decoded as it was encoded. -/
@[simp] theorem Command.ofCode_code (command : Command) :
    Command.ofCode command.code = some command := by
  cases command <;> rfl

/-- Bytes that are there are read. -/
theorem safeRead_map_append (alive : Bool) (number : ℕ) (bytes : List UInt8) (rest : List Byte) :
    safeRead alive bytes.length
        (bytes.map (fun value => { value := value, owner := number }) ++ rest) =
      some (some bytes, rest) := by
  simp [safeRead, Function.comp_def]

/-- A dead child leaves an end of file. -/
theorem safeRead_dead {count : ℕ} {pipe : List Byte} (h : pipe.length < count) :
    safeRead false count pipe = some (none, []) := by
  simp [safeRead, Nat.not_le.mpr h]

/-- The data the parent stores for a call. -/
def stored (data : Option (List UInt8)) : Option (List UInt8) :=
  if (data.getD []).length = 0 then none else data

/-- What the parent does for a whole command. -/
def State.served (s : State) (number : ℕ) (results : Results) : Call → Option State
  | .start => s.parentStart number results
  | .stop => some (s.parentStop number results)
  | .hcSend => some s
  | .dataStore data => some (s.parentDataStoreNolock number results (stored data))
  | .warnSignalSet warnSignal =>
    some (({ s with warnSignal := warnSignal }.perform number).parentReplySend number none).1
  | .markFailed => some { s with status := true }.parentMarkChildFailed

/-- A size is read as it was written. -/
theorem ofLeBytes_size {size : ℕ} (h : size < ssizeMax) : ofLeBytes (leBytes 8 size) = size := by
  refine ofLeBytes_leBytes (Nat.lt_trans h ?_)
  decide

/-- The parent reads the data to store. -/
theorem parentDataStore_encode {data : Option (List UInt8)}
    (hpipe : s.toParent = (dataStore data).payload.map
      (fun value => { value := value, owner := number }) ++ rest)
    (hfits : (data.getD []).length < ssizeMax) (hmalloc : results.malloc = true) :
    s.parentDataStore number results =
      some ({ s with toParent := rest }.parentDataStoreNolock number results (stored data)) := by
  simp only [payload, map_append, append_assoc] at hpipe
  have hsize := safeRead_map_append s.child.alive number (leBytes 8 (data.getD []).length)
    ((data.getD []).map (fun value => { value := value, owner := number }) ++ rest)
  rw [length_leBytes] at hsize
  simp only [parentDataStore, hpipe, hsize, ofLeBytes_size hfits, Nat.not_le.mpr hfits,
    if_false, hmalloc, Bool.true_eq_false]
  unfold stored
  split_ifs with hempty
  · rw [length_eq_zero_iff.mp hempty]
    rfl
  · rw [safeRead_map_append]
    cases data with
    | none => simp at hempty
    | some _ => rfl

/-- The parent reads the signal. -/
theorem parentWarnSignalSet_encode {warnSignal : UInt32}
    (hpipe : s.toParent = (warnSignalSet warnSignal).payload.map
      (fun value => { value := value, owner := number }) ++ rest) :
    s.parentWarnSignalSet number =
      some (({ s with toParent := rest, warnSignal := warnSignal }.perform number).parentReplySend
        number none).1 := by
  simp only [payload] at hpipe
  have hsignal := safeRead_map_append s.child.alive number (leBytes 4 warnSignal.toNat) rest
  rw [length_leBytes] at hsignal
  have hfits : warnSignal.toNat < 256 ^ 4 := warnSignal.toNat_lt
  simp only [parentWarnSignalSet, hpipe, hsignal, ofLeBytes_leBytes hfits, UInt32.ofNat_toNat]

/-- The parent reads a call and serves it. -/
theorem parentHandler_encode (hpipe : s.toParent = encode number call ++ rest) (hfits : call.Fits)
    (hmalloc : call.command = .dataStore → results.malloc = true) :
    s.parentHandler results = { s with toParent := rest }.served number results call := by
  simp only [encode, map_cons, cons_append] at hpipe
  simp only [parentHandler, hpipe, Command.ofCode_code]
  cases call with
  | dataStore _ => exact parentDataStore_encode rfl hfits (hmalloc rfl)
  | warnSignalSet _ => exact parentWarnSignalSet_encode rfl
  | start | stop | hcSend | markFailed => rfl

/-- What is left of a command that was not written to its end is answered with an error. -/
theorem parentHandler_fragment {written : ℕ} (halive : s.child.alive = false)
    (hpipe : s.toParent = (encode number call).take written)
    (hwritten : written < (encode number call).length) (hfits : call.Fits)
    (hmalloc : s.nextCommand = some .dataStore → results.malloc = true)
    (hserved : s.parentHandler results = some s') :
    s' = ({ s with toParent := [] }.parentReplySend number (some .library)).1 := by
  cases written with
  | zero => simp [parentHandler, hpipe] at hserved
  | succ written =>
    simp only [encode, map_cons, take_succ_cons] at hpipe
    simp only [encode, map_cons, length_cons, length_map] at hwritten
    simp only [nextCommand, hpipe, head?_cons, bind_some, Command.ofCode_code]
      at hmalloc
    simp only [parentHandler, hpipe, Command.ofCode_code] at hserved
    cases call with
    | start | stop | hcSend | markFailed => simp [payload] at hwritten
    | warnSignalSet _ =>
      simp only [command, parentWarnSignalSet, halive] at hserved
      rw [safeRead_dead (by simp [payload] at hwritten ⊢; omega)] at hserved
      exact (some.inj hserved).symm
    | dataStore data =>
      simp only [command, parentDataStore, halive] at hserved
      simp only [payload, length_append, length_leBytes] at hwritten
      rcases Nat.lt_or_ge written 8 with hshort | hlong
      · rw [safeRead_dead (by simp; omega)] at hserved
        exact (some.inj hserved).symm
      have hsplit : (((dataStore data).payload.map
            (fun value => ({ value := value, owner := number } : Byte))).take written) =
          (leBytes 8 (data.getD []).length).map
              (fun value => { value := value, owner := number }) ++
            ((data.getD []).map (fun value => { value := value, owner := number })).take
              (written - 8) := by
        simp only [payload, map_append, take_append, length_map,
          length_leBytes]
        rw [take_of_length_le (by simp; omega)]
      have hsize := safeRead_map_append false number (leBytes 8 (data.getD []).length)
        (((data.getD []).map (fun value => { value := value, owner := number })).take
          (written - 8))
      rw [length_leBytes] at hsize
      simp only [hsplit, hsize, ofLeBytes_size hfits, Nat.not_le.mpr hfits, if_false,
        hmalloc rfl, Bool.true_eq_false] at hserved
      rw [if_neg (by omega), safeRead_dead (by simp; omega)] at hserved
      exact (some.inj hserved).symm

/-! ### Serving a command -/

/-- What serving a command leaves as it is. -/
structure Keeps (s s' : State) : Prop where
  policy : s'.policy = s.policy
  phase : s'.phase = s.phase
  child : s'.child = s.child
  toParent : s'.toParent = s.toParent
  read : s'.read = s.read
  confirmed : s'.confirmed = s.confirmed
  lastStored : s'.lastStored = s.lastStored
  performed : s.performed ⊆ s'.performed

/-- The parent answers a command at most once, and only if the call waits. -/
inductive Answer (s s' : State) (number : ℕ) (call : Call) : Prop
  | silent (htoChild : s'.toChild = s.toChild) (hdata : s'.userData = s.userData)
  | replied (result : Option CsError) (hwaits : call.waits s.policy = true)
      (htoChild : s'.toChild = s.toChild ++ [{ owner := number, result := result }])
      (hperformed : result = none → number ∈ s'.performed)
      (hstored : ∀ data, call = .dataStore data → result = none → s'.userData.bytes = data.getD [])
      (hdata : (∀ data, call = .dataStore data → result ≠ none) → s'.userData = s.userData)

/-- The data that was stored. -/
theorem bytes_of_store {userData userData' : UserData} {data : Option (List UInt8)} {realloc : Bool}
    (h : userData.store data realloc = .ok userData') : userData'.bytes = data.getD [] := by
  unfold UserData.store at h
  split at h
  · cases h
    rfl
  · split_ifs at h <;> cases h <;> rfl

/-- No data is empty data. -/
theorem getD_stored (data : Option (List UInt8)) : (stored data).getD [] = data.getD [] := by
  unfold stored
  split_ifs with hempty
  · exact (length_eq_zero_iff.mp hempty).symm
  · rfl

/-- Nothing is done. -/
theorem served_nothing : Keeps s s ∧ Answer s s number call :=
  ⟨⟨rfl, rfl, rfl, rfl, rfl, rfl, rfl, List.Subset.refl _⟩, .silent rfl rfl⟩

/-- A command answered with an error. -/
theorem served_error (hwaits : call.waits s.policy = true) (err : CsError) :
    Keeps s (s.parentReplySend number (some err)).1 ∧
      Answer s (s.parentReplySend number (some err)).1 number call :=
  ⟨⟨rfl, rfl, rfl, rfl, rfl, rfl, rfl, List.Subset.refl _⟩,
    .replied (some err) hwaits rfl (by simp) (by simp) (fun _ => rfl)⟩

/-- The answer of a store. -/
theorem parentDataStoreNolock_answer (data : Option (List UInt8)) :
    Keeps s (s.parentDataStoreNolock number results (stored data)) ∧
      Answer s (s.parentDataStoreNolock number results (stored data)) number (.dataStore data) := by
  unfold parentDataStoreNolock
  split
  · rename_i err hstore
    exact served_error rfl err
  rename_i userData hstore
  refine ⟨⟨rfl, rfl, rfl, rfl, rfl, rfl, rfl, subset_cons_self _ _⟩, ?_⟩
  refine .replied none rfl rfl (fun _ => mem_cons_self) ?_ ?_
  · rintro _ ⟨⟩ _
    exact (bytes_of_store hstore).trans (getD_stored data)
  · intro hnone
    exact absurd rfl (hnone data rfl)

/-- The answer of a change of the state in cmap. -/
theorem parentCmapStateSet_answer (results : Results) (status : Bool)
    (hcall : ∀ data, call ≠ .dataStore data)
    (hwaits : s.policy.cmap = true → call.waits s.policy = true)
    (hserved : (match if s.policy.cmap then s.parentCmapStateSet number results else (s, none) with
      | (t, some _) => t
      | (t, none) => { t.perform number with status := status }) = s') :
    Keeps s s' ∧ Answer s s' number call := by
  subst hserved
  by_cases hcmap : s.policy.cmap = true
  · simp only [hcmap, if_true, parentCmapStateSet]
    cases hset : results.stateSet with
    | some err => exact served_error (hwaits hcmap) err
    | none =>
      refine ⟨⟨rfl, rfl, rfl, rfl, rfl, rfl, rfl, subset_cons_self _ _⟩, ?_⟩
      exact .replied none (hwaits hcmap) rfl (fun _ => mem_cons_self)
        (fun data hdata => absurd hdata (hcall data)) (fun _ => rfl)
  · simp only [hcmap]
    exact ⟨⟨rfl, rfl, rfl, rfl, rfl, rfl, rfl, subset_cons_self _ _⟩, .silent rfl rfl⟩

/-- The answer of a stop. -/
theorem parentStop_answer :
    Keeps s (s.parentStop number results) ∧
      Answer s (s.parentStop number results) number .stop := by
  unfold parentStop
  split
  · exact parentCmapStateSet_answer results false (by simp) id rfl
  · exact served_nothing

/-- The wait for quorum sends one reply, unless the child is gone. -/
theorem parentWaitForQuorum_cases {t : State} {err : Option CsError}
    (hwait : s.parentWaitForQuorum number results = some (t, err)) :
    (t = (s.parentReplySend number err).1 ∧
        (err = none → s.policy.cmap = true → results.quorate = true)) ∨
      (t = s ∧ err = none) := by
  unfold parentWaitForQuorum at hwait
  split at hwait
  · cases hwait
    exact .inl ⟨rfl, by simp⟩
  rename_i hwaiting
  split at hwait
  · cases hwait
    exact .inl ⟨rfl, by simp⟩
  · split at hwait
    · cases hwait
    · cases hwait
      exact .inr ⟨rfl, rfl⟩
  · rename_i hquorum
    cases hwait
    refine .inl ⟨rfl, fun hrunning hcmap => ?_⟩
    simp only [hcmap, if_true] at hwaiting hrunning
    simp [Results.quorate, hwaiting, hquorum, hrunning]

/-- Without both flags, or when the wait for quorum fails, a start is answered once. -/
theorem parentStart_answer
    (hquorate : s.status = false ∧ s.policy.quorum ∧ s.policy.cmap → results.quorate = false)
    (hserved : s.parentStart number results = some s') :
    Keeps s s' ∧ Answer s s' number .start := by
  unfold parentStart at hserved
  by_cases hstatus : s.status = true
  · rw [if_pos hstatus] at hserved
    cases hserved
    exact served_nothing
  rw [if_neg hstatus] at hserved
  have hset : ∀ t, (match if s.policy.cmap then s.parentCmapStateSet number results
        else (s, none) with
      | (t, some _) => some t
      | (t, none) => some { t.perform number with status := true }) = some t →
      Keeps s t ∧ Answer s t number .start := by
    intro t ht
    refine parentCmapStateSet_answer results true (by simp) (by simp +contextual [waits]) ?_
    split at ht <;> exact some.inj ht
  by_cases hquorum : s.policy.quorum = true
  · have hwaits : start.waits s.policy = true := by simp [waits, hquorum]
    rw [if_pos hquorum] at hserved
    cases hwait : s.parentWaitForQuorum number results with
    | none => simp [hwait] at hserved
    | some pair =>
      obtain ⟨t, err⟩ := pair
      rcases parentWaitForQuorum_cases hwait with ⟨rfl, hfound⟩ | ⟨rfl, rfl⟩
      · cases err with
        | some err =>
          simp only [hwait] at hserved
          cases hserved
          exact served_error hwaits err
        | none =>
          -- The reply is sent, so the policy does not have the other flag.
          have hcmap : s.policy.cmap = false := by
            by_contra hcmap
            rw [Bool.not_eq_false] at hcmap
            have hnot := hquorate ⟨by simpa using hstatus, hquorum, hcmap⟩
            rw [hfound rfl hcmap] at hnot
            cases hnot
          simp only [hwait, parentReplySend, hcmap] at hserved
          cases hserved
          refine ⟨⟨rfl, rfl, rfl, rfl, rfl, rfl, rfl, subset_cons_self _ _⟩, ?_⟩
          exact .replied none hwaits rfl (fun _ => mem_cons_self) (by simp) (fun _ => rfl)
      · simp only [hwait] at hserved
        exact hset s' hserved
  · rw [if_neg hquorum] at hserved
    exact hset s' hserved

/-- The answer of every call but `sam_mark_failed`. -/
theorem served_answer
    (hquorate : call = .start → s.status = false ∧ s.policy.quorum ∧ s.policy.cmap →
      results.quorate = false)
    (hcall : call ≠ .markFailed) (hserved : s.served number results call = some s') :
    Keeps s s' ∧ Answer s s' number call := by
  cases call with
  | start => exact parentStart_answer (hquorate rfl) hserved
  | stop => exact some.inj hserved ▸ parentStop_answer
  | hcSend => exact some.inj hserved ▸ served_nothing
  | dataStore data => exact some.inj hserved ▸ parentDataStoreNolock_answer data
  | warnSignalSet _ =>
    cases hserved
    refine ⟨⟨rfl, rfl, rfl, rfl, rfl, rfl, rfl, subset_cons_self _ _⟩, ?_⟩
    exact .replied none rfl rfl (fun _ => mem_cons_self) (by simp) (fun _ => rfl)
  | markFailed => exact absurd rfl hcall

/-- What is left of a child that is marked failed. -/
theorem parentMarkChildFailed_eq (s : State) :
    ∃ policy, s.parentMarkChildFailed =
      { s with
        termSend := true, policy := policy, phase := .over, toParent := [], toChild := []
        child := { s.child with alive := false, waiting := none } } :=
  ⟨_, rfl⟩

end Corosync.Sam
