import Corosync.Library.LittleEndian
import Corosync.Library.Run

/-!
# Commands of a process to its parent

`sam_register` forks: the child is the application, the parent watches it and starts it again. The
child writes commands into one pipe and reads replies from another one. The parent serves one
command after another until the child is gone.

What the two processes ask of the system (`cmap`, `quorum`, memory, `fork`) are results given with
each event. The keys in `cmap` and the heartbeats' timer are left out; a write to a process that is
gone is not answered.
-/

namespace Corosync.Sam

open Library

/-- The part of `cs_error_t` that is returned here. -/
inductive CsError
  | library
  | invalidParam
  | noMemory
  | badHandle
  | tooBig
  /-- What a call of `cmap` or `quorum` has returned. -/
  | other (code : ℕ)
deriving DecidableEq, Repr

/-- `SAM_RP_MASK` of a policy. -/
inductive Recovery
  | quit
  | restart
deriving DecidableEq, Repr

/-- The value of `SAM_RECOVERY_POLICY_QUIT` and `SAM_RECOVERY_POLICY_RESTART`. -/
def Recovery.code : Recovery → ℕ
  | .quit => 1
  | .restart => 2

/-- `sam_recovery_policy_t` -/
structure Policy where
  recovery : Recovery
  quorum : Bool
  cmap : Bool
deriving DecidableEq, Repr

/-- `SAM_RP_MASK_Q` -/
def Policy.maskQ (policy : Policy) : ℕ :=
  policy.recovery.code + if policy.cmap then 16 else 0

/-- `SAM_RP_MASK_C` -/
def Policy.maskC (policy : Policy) : ℕ :=
  policy.recovery.code + if policy.quorum then 8 else 0

/-- `enum sam_command_t` -/
inductive Command
  | start
  | stop
  | hb
  | dataStore
  | warnSignalSet
  | markFailed
deriving DecidableEq, Repr

/-- The byte of a command. -/
def Command.code : Command → UInt8
  | .start => 0
  | .stop => 1
  | .hb => 2
  | .dataStore => 3
  | .warnSignalSet => 4
  | .markFailed => 5

/-- The command of a byte, as `sam_parent_handler` tells them apart. -/
def Command.ofCode (code : UInt8) : Option Command :=
  match code.toNat with
  | 0 => some .start
  | 1 => some .stop
  | 2 => some .hb
  | 3 => some .dataStore
  | 4 => some .warnSignalSet
  | 5 => some .markFailed
  | _ => none

/-- The calls of the child that write a command. -/
inductive Call
  | start
  | stop
  | hcSend
  /-- `sam_data_store`, with `none` for `NULL` -/
  | dataStore (data : Option (List UInt8))
  | warnSignalSet (warnSignal : UInt32)
  | markFailed
deriving DecidableEq, Repr

namespace Call

/-- The command a call writes. -/
def command : Call → Command
  | .start => .start
  | .stop => .stop
  | .hcSend => .hb
  | .dataStore _ => .dataStore
  | .warnSignalSet _ => .warnSignalSet
  | .markFailed => .markFailed

/-- What it writes after the command: `size_t` has eight bytes and `int` four. -/
def payload : Call → List UInt8
  | .dataStore data => leBytes 8 (data.getD []).length ++ data.getD []
  | .warnSignalSet warnSignal => leBytes 4 warnSignal.toNat
  | .start | .stop | .hcSend | .markFailed => []

/-- The call waits for a reply. -/
def waits (policy : Policy) : Call → Bool
  | .start => policy.quorum || policy.cmap
  | .stop => policy.cmap
  | .dataStore _ | .warnSignalSet _ => true
  | .hcSend | .markFailed => false

end Call

/-- `user_data`, `user_data_size` and `user_data_allocated` -/
structure UserData where
  bytes : List UInt8 := []
  allocated : ℕ := 0
deriving DecidableEq, Repr

/-- The end of `sam_data_store_nolock`. -/
def UserData.store (userData : UserData) (data : Option (List UInt8)) (realloc : Bool) :
    Except CsError UserData :=
  match data with
  | none => .ok {}
  | some bytes =>
    if userData.allocated < bytes.length then
      if realloc then .ok { bytes := bytes, allocated := bytes.length } else .error .noMemory
    else .ok { userData with bytes := bytes }

/-- `SSIZE_MAX` -/
def ssizeMax : ℕ := 2 ^ 63 - 1

/-- A byte in the pipe to the parent. The number of the call that wrote it is not in the source. -/
structure Byte where
  value : UInt8
  owner : ℕ
deriving DecidableEq, Repr

/-- A reply in the pipe to the child, `none` for `SAM_REPLY_OK`. The number of the call whose
command byte the parent answers is not in the source. -/
structure Reply where
  owner : ℕ
  result : Option CsError
deriving DecidableEq, Repr

/-- The child. -/
structure Child where
  alive : Bool := true
  /-- `internal_status` is `SAM_INTERNAL_STATUS_STARTED`, else `SAM_INTERNAL_STATUS_REGISTERED`. -/
  started : Bool := false
  userData : UserData
  warnSignal : UInt32
  waiting : Option (ℕ × Call) := none
deriving DecidableEq, Repr

/-- Where `sam_register` is in the parent. -/
inductive Phase
  /-- In `sam_parent_handler`. -/
  | serving
  /-- Before the next `fork`. -/
  | forking
  /-- The parent has left `sam_register`. -/
  | over
deriving DecidableEq, Repr

/-- The two processes and the pipes. The last five fields are not in the source. -/
structure State where
  policy : Policy
  /-- The place in `sam_register`. -/
  phase : Phase := .serving
  /-- `status` of `sam_parent_handler` -/
  status : Bool := false
  termSend : Bool := false
  userData : UserData
  /-- `warn_signal` of the parent -/
  warnSignal : UInt32
  child : Child
  toParent : List Byte := []
  toChild : List Reply := []
  sent : ℕ := 0
  performed : List ℕ := []
  read : List (ℕ × ℕ) := []
  /-- The calls that waited and returned `CS_OK`. -/
  confirmed : List ℕ := []
  /-- The data of the last `sam_data_store` that returned `CS_OK`. -/
  lastStored : List UInt8
deriving DecidableEq, Repr

/-- What the system answers to the child during a call. -/
structure Local where
  /-- `realloc` in `sam_data_store_nolock` -/
  realloc : Bool := true
  /-- The write to the thread of `sam_hc_callback_register`, if there is one. -/
  callback : Bool := true
deriving DecidableEq, Repr

/-- How the loop in `sam_parent_wait_for_quorum` ends. -/
inductive Quorum
  | quorate
  | failed (err : CsError)
  | exited
deriving DecidableEq, Repr

/-- What the system answers to the parent during a command. -/
structure Results where
  /-- The state `waiting for quorum` in `sam_parent_wait_for_quorum`. -/
  waitingSet : Option CsError := none
  /-- The loop in `sam_parent_wait_for_quorum`. -/
  quorum : Quorum := .quorate
  /-- The state `running` in `sam_parent_wait_for_quorum`. -/
  runningSet : Option CsError := none
  /-- The state set by `sam_parent_cmap_state_set`. -/
  stateSet : Option CsError := none
  /-- `malloc` in `sam_parent_data_store` -/
  malloc : Bool := true
  /-- `realloc` in `sam_data_store_nolock` -/
  realloc : Bool := true
deriving DecidableEq, Repr

/-- Nothing fails in `sam_parent_wait_for_quorum`. -/
def Results.quorate (results : Results) : Bool :=
  results.waitingSet = none && results.quorum = .quorate && results.runningSet = none

/-- What can happen. -/
inductive Event
  | call (call : Call) (results : Local)
  | readReply (results : Local)
  | serve (results : Results)
  | exit
  | crash (call : Call) (written : ℕ)
  | eof
  | kill
  /-- `poll` fails in the parent. -/
  | pollError
  | fork (success : Bool)
deriving DecidableEq, Repr

namespace Child

/-- The checks before a command is written. -/
def refuses (child : Child) (policy : Policy) : Call → Option CsError
  | .start => if child.started then some .badHandle else none
  | .stop | .hcSend => if child.started then none else some .badHandle
  | .dataStore data => if ssizeMax ≤ (data.getD []).length then some .tooBig else none
  | .warnSignalSet _ => none
  | .markFailed => if policy.cmap then none else some .invalidParam

/-- What a call does when no reply or the reply `SAM_REPLY_OK` is to be read. -/
def finish (child : Child) (results : Local) : Call → Except CsError Child
  | .start => if results.callback then .ok { child with started := true } else .error .library
  | .stop => if results.callback then .ok { child with started := false } else .error .library
  | .dataStore data =>
    (child.userData.store data results.realloc).map fun userData =>
      { child with userData := userData }
  | .warnSignalSet warnSignal => .ok { child with warnSignal := warnSignal }
  | .hcSend | .markFailed => .ok child

/-- The child waits for the reply to a store. -/
def storing (child : Child) : Bool :=
  match child.waiting with
  | some (_, .dataStore _) => true
  | _ => false

end Child

/-- The bytes of a call. -/
def encode (number : ℕ) (call : Call) : List Byte :=
  (call.command.code :: call.payload).map fun value => { value := value, owner := number }

/-- `sam_safe_read` of the parent: it waits while the child can still write, and reads less if not.
The result is `none` while it waits. -/
def safeRead (alive : Bool) (count : ℕ) (pipe : List Byte) :
    Option (Option (List UInt8) × List Byte) :=
  if count ≤ pipe.length then some (some ((pipe.take count).map (·.value)), pipe.drop count)
  else if alive then none
  else some (none, [])

namespace State

/-- The child of the first `fork`. -/
def register (policy : Policy) (userData : UserData) (warnSignal : UInt32) : State where
  policy := policy
  userData := userData
  warnSignal := warnSignal
  child := { userData := userData, warnSignal := warnSignal }
  lastStored := userData.bytes

/-- `sam_parent_reply_send` -/
def parentReplySend (s : State) (owner : ℕ) (err : Option CsError) : State × Option CsError :=
  ({ s with toChild := s.toChild ++ [{ owner := owner, result := err }] }, err)

/-- `sam_parent_wait_for_quorum` -/
def parentWaitForQuorum (s : State) (owner : ℕ) (results : Results) :
    Option (State × Option CsError) :=
  match if s.policy.cmap then results.waitingSet else none with
  | some err => some (s.parentReplySend owner (some err))
  | none =>
    match results.quorum with
    | .failed err => some (s.parentReplySend owner (some err))
    | .exited => if s.child.alive then none else some (s, none)
    | .quorate =>
      some (s.parentReplySend owner (if s.policy.cmap then results.runningSet else none))

/-- `sam_parent_cmap_state_set` -/
def parentCmapStateSet (s : State) (owner : ℕ) (results : Results) : State × Option CsError :=
  s.parentReplySend owner results.stateSet

/-- The parent has done what a command asks for. -/
def perform (s : State) (owner : ℕ) : State :=
  { s with performed := owner :: s.performed }

/-- The parent leaves the handler without recovery. -/
def parentQuit (s : State) : State :=
  { s with phase := .over }

/-- The parent leaves the handler with `SAM_PARENT_ACTION_RECOVERY`; the child is gone and the
pipes are closed. -/
def parentRecovery (s : State) : State :=
  { s with
    child := { s.child with alive := false, waiting := none }
    toParent := []
    toChild := []
    phase := if s.policy.recovery = .quit then .over else .forking }

/-- `sam_parent_kill_child` -/
def parentKillChild (s : State) : State :=
  if s.termSend then s.parentRecovery else { s with termSend := true }

/-- `sam_parent_mark_child_failed` -/
def parentMarkChildFailed (s : State) : State :=
  { s with
    termSend := true
    policy := {
      recovery := .quit
      cmap := s.policy.maskC ≠ 0
      quorum := s.policy.maskQ ≠ 0 } }.parentKillChild

/-- The command `SAM_COMMAND_START` in `sam_parent_handler`. -/
def parentStart (s : State) (owner : ℕ) (results : Results) : Option State :=
  if s.status then some s
  else
    match if s.policy.quorum then s.parentWaitForQuorum owner results else some (s, none) with
    | none => none
    | some (s, some _) => some s
    | some (s, none) =>
      match if s.policy.cmap then s.parentCmapStateSet owner results else (s, none) with
      | (s, some _) => some s
      | (s, none) => some { s.perform owner with status := true }

/-- The command `SAM_COMMAND_STOP` in `sam_parent_handler`. -/
def parentStop (s : State) (owner : ℕ) (results : Results) : State :=
  if s.status then
    match if s.policy.cmap then s.parentCmapStateSet owner results else (s, none) with
    | (s, some _) => s
    | (s, none) => { s.perform owner with status := false }
  else s

/-- The end of `sam_parent_data_store`, with `sam_data_store_nolock`. -/
def parentDataStoreNolock (s : State) (owner : ℕ) (results : Results)
    (data : Option (List UInt8)) : State :=
  match s.userData.store data results.realloc with
  | .error err => (s.parentReplySend owner (some err)).1
  | .ok userData => (({ s with userData := userData }.perform owner).parentReplySend owner none).1

/-- `sam_parent_data_store` -/
def parentDataStore (s : State) (owner : ℕ) (results : Results) : Option State :=
  match safeRead s.child.alive 8 s.toParent with
  | none => none
  | some (none, rest) => some ({ s with toParent := rest }.parentReplySend owner (some .library)).1
  | some (some bytes, rest) =>
    let s := { s with toParent := rest }
    -- A negative `ssize_t` passes the check of `sam_parent_data_store`, and then
    -- `sam_data_store_nolock` refuses it with the same error.
    if ssizeMax ≤ ofLeBytes bytes then some (s.parentReplySend owner (some .tooBig)).1
    else if ofLeBytes bytes = 0 then some (s.parentDataStoreNolock owner results none)
    else if results.malloc = false then some (s.parentReplySend owner (some .noMemory)).1
    else
      match safeRead s.child.alive (ofLeBytes bytes) s.toParent with
      | none => none
      | some (none, rest) =>
        some ({ s with toParent := rest }.parentReplySend owner (some .library)).1
      | some (some data, rest) =>
        some ({ s with toParent := rest }.parentDataStoreNolock owner results (some data))

/-- `sam_parent_warn_signal_set` -/
def parentWarnSignalSet (s : State) (owner : ℕ) : Option State :=
  match safeRead s.child.alive 4 s.toParent with
  | none => none
  | some (none, rest) => some ({ s with toParent := rest }.parentReplySend owner (some .library)).1
  | some (some bytes, rest) =>
    let s := { s with toParent := rest, warnSignal := UInt32.ofNat (ofLeBytes bytes) }
    some ((s.perform owner).parentReplySend owner none).1

/-- A command in the loop of `sam_parent_handler`. -/
def parentHandler (s : State) (results : Results) : Option State :=
  match s.toParent with
  | [] => none
  | byte :: rest =>
    let s := { s with toParent := rest }
    match Command.ofCode byte.value with
    | some .start => s.parentStart byte.owner results
    | some .stop => some (s.parentStop byte.owner results)
    | some .hb => some s
    | some .dataStore => s.parentDataStore byte.owner results
    | some .warnSignalSet => s.parentWarnSignalSet byte.owner
    | some .markFailed => some { s with status := true }.parentMarkChildFailed
    | none => some s

/-- A call writes its command and waits or ends. -/
def makeCall (s : State) (call : Call) (results : Local) : State :=
  match s.child.refuses s.policy call with
  | some _ => s
  | none =>
    -- Without a parent the write fails with `CS_ERR_LIBRARY`.
    if s.phase ≠ .serving then s
    else
      let s := { s with toParent := s.toParent ++ encode s.sent call, sent := s.sent + 1 }
      if call.waits s.policy then
        { s with child := { s.child with waiting := some (s.sent - 1, call) } }
      else
        match s.child.finish results call with
        | .error _ => s
        | .ok child => { s with child := child }

/-- A call that waited returns `CS_OK`. -/
def confirm (s : State) (number : ℕ) (call : Call) : State :=
  { s with
    confirmed := number :: s.confirmed
    lastStored := match call with
      | .dataStore data => data.getD []
      | _ => s.lastStored }

/-- `sam_read_reply` and the end of the call that waits for it. -/
def readReply (s : State) (results : Local) : Option State :=
  match s.child.waiting with
  | none => none
  | some (number, call) =>
    let returned := { s with child := { s.child with waiting := none } }
    match s.toChild with
    | [] => if s.phase = .over then some returned else none
    | reply :: rest =>
      let returned := { returned with toChild := rest, read := (number, reply.owner) :: s.read }
      match reply.result with
      | some _ => some returned
      | none =>
        match returned.child.finish results call with
        | .error _ => some returned
        | .ok child => some ({ returned with child := child }.confirm number call)

/-- One event. -/
def step (s : State) : Event → Option State
  | .call call results =>
    if s.child.alive ∧ s.child.waiting = none then some (s.makeCall call results) else none
  | .readReply results => if s.child.alive then s.readReply results else none
  | .serve results => if s.phase = .serving then s.parentHandler results else none
  | .exit =>
    if s.child.alive then some { s with child := { s.child with alive := false, waiting := none } }
    else none
  | .crash call written =>
    if s.child.alive ∧ s.child.waiting = none ∧ s.phase = .serving ∧
        s.child.refuses s.policy call = none ∧ written < (encode s.sent call).length then
      some { s with
        toParent := s.toParent ++ (encode s.sent call).take written
        sent := s.sent + 1
        child := { s.child with alive := false } }
    else none
  | .eof =>
    if s.phase = .serving ∧ s.child.alive = false ∧ s.toParent = [] then
      some (if s.status then s.parentRecovery else s.parentQuit)
    else none
  | .kill => if s.phase = .serving ∧ s.status then some s.parentKillChild else none
  | .pollError => if s.phase = .serving then some s.parentQuit else none
  | .fork success =>
    if s.phase = .forking then
      some (if success then
        { s with
          phase := .serving
          status := false
          termSend := false
          child := { userData := s.userData, warnSignal := s.warnSignal } }
        else s.parentQuit)
    else none

/-- Every reply read answers the call that reads it, a call that waited returns `CS_OK` only if
the parent has performed it, the replies not read yet answer the call that waits for one, and the
parent has the data of the last store that returned `CS_OK` or of the one that waits. -/
structure Matched (s : State) : Prop where
  read : ∀ pair ∈ s.read, pair.1 = pair.2
  confirmed : ∀ number ∈ s.confirmed, number ∈ s.performed
  unread : s.child.alive = true →
    ∀ reply ∈ s.toChild, ∃ call, s.child.waiting = some (reply.owner, call)
  data : s.userData.bytes = s.lastStored ∨
    ∃ number data, s.child.waiting = some (number, .dataStore data) ∧
      s.userData.bytes = data.getD []

/-- The command that the parent serves next. -/
def nextCommand (s : State) : Option Command :=
  s.toParent.head?.bind fun byte => Command.ofCode byte.value

/-- The condition on an event: the parent does not find quorum for a start when the policy has both
flags, has memory for the data sent to it, the child has memory for the data that the parent has
stored, and does not end while it waits for the reply to a store. -/
def Undisturbed (s : State) : Event → Prop
  | .serve results =>
    (s.nextCommand = some .start ∧ s.status = false ∧ s.policy.quorum ∧ s.policy.cmap →
        results.quorate = false) ∧
      (s.nextCommand = some .dataStore → results.malloc = true)
  | .readReply results => results.realloc = true
  | .exit | .kill => s.child.storing = false
  | _ => True

instance (s : State) (event : Event) : Decidable (s.Undisturbed event) := by
  cases event <;> dsimp only [State.Undisturbed] <;> infer_instance

end State

end Corosync.Sam
