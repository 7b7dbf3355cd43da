import Corosync.Library.Ballot
import Corosync.Library.Run

/-!
# Asking for a shutdown

A client of `cfg.c` may ask that this node is shut down. Without one of the flags the trackers are
asked first, and three counters say how many were asked and how many answered yes and no.

Connections are numbered in the order in which they are accepted, so a number is not used again
after a disconnect.
-/

namespace Corosync.Cfg

open Library

/-- A connection of a library client. -/
abbrev Connection := ℕ

/-- The values of `shutdown_reply`. -/
inductive Reply
  | unknown
  | yes
  | no
deriving DecidableEq, Repr

/-- The part of `cs_error_t` that the tracking handlers answer with. -/
inductive CsError
  | ok
  | errTimeout
  | errExist
  | errAccess
  | errBusy
deriving DecidableEq, Repr

/-- `struct cfg_info`; whether `list` is linked is said by `trackers_list`. -/
structure CfgInfo where
  /-- `conn`, set by `tryshutdown` -/
  conn : Option Connection := none
  trackerConn : Option Connection := none
  shutdownReply : Reply := .unknown
deriving DecidableEq, Repr

/-- `CFG_SHUTDOWN_FLAG_REGARDLESS` -/
def shutdownFlagRegardless : UInt32 := 1

/-- `CFG_SHUTDOWN_FLAG_IMMEDIATE` -/
def shutdownFlagImmediate : UInt32 := 2

/-- The variables that control a requested shutdown. -/
structure State where
  info : Connection → CfgInfo := fun _ => {}
  trackersList : List Connection := []
  /-- `shutdown_timer` is running. -/
  shutdownTimer : Bool := false
  shutdownCon : Option Connection := none
  shutdownFlags : UInt32 := 0
  shutdownYes : ℤ := 0
  shutdownNo : ℤ := 0
  shutdownExpected : ℤ := 0

/-- What the handlers send. -/
inductive Output
  | trackstart (conn : Connection) (error : CsError)
  | trackstop (conn : Connection) (error : CsError)
  | tryshutdown (conn : Connection) (error : CsError)
  | replytoshutdown (conn : Connection) (error : CsError)
  | testshutdown (conn : Connection) (flags : UInt32) (status : CsError)
  /-- The message multicast by `send_shutdown`, on whose delivery the node stops. -/
  | shutdown
deriving DecidableEq, Repr

namespace State

/-- Sets the answer of a connection. -/
def setReply (s : State) (conn : Connection) (reply : Reply) : State :=
  { s with info := Function.update s.info conn { s.info conn with shutdownReply := reply } }

/-- `send_test_shutdown`. A connection that never asked for a shutdown has a null `conn`, which is
what the timer passes as `exclude_conn`. -/
def sendTestShutdown (s : State) (onlyConn excludeConn : Option Connection) (status : CsError) :
    List Output :=
  match onlyConn with
  | some conn => [.testshutdown conn s.shutdownFlags status]
  | none =>
    s.trackersList.filterMap fun ci =>
      if (s.info ci).conn ≠ excludeConn then
        (s.info ci).trackerConn.map (Output.testshutdown · s.shutdownFlags status)
      else none

/-- The answer that the client who asked for the shutdown waits for. -/
def respond (s : State) (error : CsError) : List Output :=
  ((s.shutdownCon.bind fun ci => (s.info ci).conn).map (Output.tryshutdown · error)).toList

/-- `check_shutdown_status` -/
def checkShutdownStatus (s : State) : State × List Output :=
  if s.shutdownCon.isNone then (s, [])
  else if s.shutdownYes + s.shutdownNo ≥ s.shutdownExpected then
    let decided := { s with shutdownTimer := false, shutdownCon := none }
    if s.shutdownYes ≥ s.shutdownExpected ∨ s.shutdownFlags = shutdownFlagRegardless then
      (decided, s.respond .ok ++ [.shutdown])
    else (decided, s.respond .errBusy)
  else (s, [])

/-- `shutdown_timer_fn` -/
def shutdownTimerFn (s : State) : State × List Output :=
  let checked :=
    { s with shutdownTimer := false, shutdownNo := s.shutdownExpected }.checkShutdownStatus
  (checked.1, checked.2 ++ checked.1.sendTestShutdown none none .errTimeout)

/-- The part of `remove_ci_from_shutdown` that takes a tracker off the list: its answer becomes an
implicit yes. -/
def unlink (s : State) (ci : Connection) : State :=
  let reply := (s.info ci).shutdownReply
  let yes := if s.shutdownCon.isSome ∧ reply = .yes then s.shutdownYes - 1 else s.shutdownYes
  let no := if s.shutdownCon.isSome ∧ reply = .no then s.shutdownNo - 1 else s.shutdownNo
  { s.setReply ci .yes with
    trackersList := s.trackersList.erase ci, shutdownYes := yes + 1, shutdownNo := no }

/-- The part of `remove_ci_from_shutdown` that cancels a shutdown when the process that controls it
leaves. -/
def cancel (s : State) (ci : Connection) : State :=
  if s.shutdownCon = some ci then { s with shutdownCon := none, shutdownTimer := false } else s

/-- `remove_ci_from_shutdown` -/
def removeCiFromShutdown (s : State) (ci : Connection) : State × List Output :=
  let s := s.cancel ci
  if ci ∈ s.trackersList then (s.unlink ci).checkShutdownStatus else (s, [])

/-- The part of `message_handler_req_lib_cfg_trackstart` that puts a client on the list; a pending
shutdown asks the newcomer too. -/
def link (s : State) (conn : Connection) : State :=
  let linked := { s with
    trackersList := conn :: s.trackersList
    info := Function.update s.info conn { s.info conn with trackerConn := some conn } }
  if s.shutdownCon.isSome then
    { linked.setReply conn .unknown with shutdownExpected := s.shutdownExpected + 1 }
  else linked

/-- `message_handler_req_lib_cfg_trackstart` -/
def trackstart (s : State) (conn : Connection) : State × List Output :=
  if conn ∈ s.trackersList then (s, [.trackstart conn .ok])
  else
    let s := s.link conn
    let asked := if s.shutdownCon.isSome then s.sendTestShutdown (some conn) none .ok else []
    (s, asked ++ [.trackstart conn .ok])

/-- `message_handler_req_lib_cfg_trackstop` -/
def trackstop (s : State) (conn : Connection) : State × List Output :=
  let removed := s.removeCiFromShutdown conn
  (removed.1, removed.2 ++ [.trackstop conn .ok])

/-- `cfg_lib_exit_fn` -/
def libExit (s : State) (conn : Connection) : State × List Output := s.removeCiFromShutdown conn

/-- The part of `message_handler_req_lib_cfg_tryshutdown` that starts a request: the listeners are
counted and their answers forgotten. -/
def begin (s : State) (conn : Connection) (flags : UInt32) : State :=
  let listeners := s.trackersList.filter (· ≠ conn)
  { s with
    info := fun ci =>
      let info := if ci = conn then { s.info ci with conn := some conn } else s.info ci
      if ci ∈ listeners then { info with shutdownReply := .unknown } else info
    shutdownCon := some conn, shutdownFlags := flags, shutdownYes := 0, shutdownNo := 0
    shutdownExpected := listeners.length }

/-- `message_handler_req_lib_cfg_tryshutdown`. When nobody listens the shutdown is sent at once, and
`shutdown_con` stays set. -/
def tryshutdown (s : State) (conn : Connection) (flags : UInt32) : State × List Output :=
  if flags = shutdownFlagImmediate then (s, [.shutdown, .tryshutdown conn .ok])
  else if s.shutdownCon.isSome then (s, [.tryshutdown conn .errExist])
  else
    let begun := s.begin conn flags
    if begun.shutdownExpected = 0 then (begun, [.tryshutdown conn .ok, .shutdown])
    else ({ begun with shutdownTimer := true }, begun.sendTestShutdown none (some conn) .ok)

/-- The part of `message_handler_req_lib_cfg_replytoshutdown` that counts an answer, whoever it
comes from. -/
def countReply (s : State) (conn : Connection) (response : Bool) : State :=
  if response then { s.setReply conn .yes with shutdownYes := s.shutdownYes + 1 }
  else { s.setReply conn .no with shutdownNo := s.shutdownNo + 1 }

/-- `message_handler_req_lib_cfg_replytoshutdown` -/
def replytoshutdown (s : State) (conn : Connection) (response : Bool) : State × List Output :=
  if s.shutdownCon.isNone then (s, [.replytoshutdown conn .errAccess])
  else
    let checked := (s.countReply conn response).checkShutdownStatus
    (checked.1, checked.2 ++ [.replytoshutdown conn .ok])

end State

/-- What can happen to the service. -/
inductive Event
  | trackstart (conn : Connection)
  | trackstop (conn : Connection)
  | disconnect (conn : Connection)
  | tryshutdown (conn : Connection) (flags : UInt32)
  | replytoshutdown (conn : Connection) (response : Bool)
  | timeout
deriving DecidableEq, Repr

/-- The connection an event comes from. -/
def Event.conn? : Event → Option Connection
  | .trackstart conn | .trackstop conn | .disconnect conn | .tryshutdown conn _
  | .replytoshutdown conn _ => some conn
  | .timeout => none

/-- What the service does at an event. -/
def State.handle (s : State) : Event → State × List Output
  | .trackstart conn => s.trackstart conn
  | .trackstop conn => s.trackstop conn
  | .disconnect conn => s.libExit conn
  | .tryshutdown conn flags => s.tryshutdown conn flags
  | .replytoshutdown conn response => s.replytoshutdown conn response
  | .timeout => s.shutdownTimerFn

/-- The service, the connections that are gone, and who was asked about the latest request and what
they answered. Only the first field exists in the source. -/
structure Session where
  /-- The variables of `cfg.c`. -/
  state : State := {}
  closed : List Connection := []
  ballot : Ballot Connection Bool := .fresh ∅

namespace Session

/-- The ballot after an event. To stop tracking and to disconnect is to answer yes. -/
def noted (s : Session) : Event → Ballot Connection Bool
  | .trackstart conn =>
    if s.state.shutdownCon.isSome ∧ conn ∉ s.state.trackersList then s.ballot.ask conn
    else s.ballot
  | .trackstop conn | .disconnect conn =>
    if (s.state.cancel conn).shutdownCon.isSome ∧ conn ∈ s.state.trackersList then
      s.ballot.answer conn true
    else s.ballot
  | .tryshutdown conn flags =>
    if flags = shutdownFlagImmediate ∨ s.state.shutdownCon.isSome then s.ballot
    else .fresh (s.state.trackersList.filter (· ≠ conn)).toFinset
  | .replytoshutdown conn response =>
    if s.state.shutdownCon.isSome then s.ballot.answer conn response else s.ballot
  | .timeout => s.ballot

/-- An event can happen: it does not come from a connection that is gone, and the timer runs if it
expires. -/
def Admits (s : Session) (event : Event) : Prop :=
  (∀ conn ∈ event.conn?, conn ∉ s.closed) ∧ (event = .timeout → s.state.shutdownTimer = true)

instance (s : Session) (event : Event) : Decidable (s.Admits event) :=
  inferInstanceAs (Decidable (_ ∧ _))

/-- One event. -/
def step (s : Session) (event : Event) : Option Session :=
  if s.Admits event then
    some {
      state := (s.state.handle event).1
      closed := match event with
        | .disconnect conn => conn :: s.closed
        | _ => s.closed
      ballot := s.noted event }
  else none

/-- The request an event can decide: who asked, and with which flags. -/
def request (s : Session) : Event → Option (Connection × UInt32)
  | .tryshutdown conn flags => some (conn, flags)
  | _ => s.state.shutdownCon.map (·, s.state.shutdownFlags)

/-- The counters of the pending request say how many were asked and how many of them answered yes
and no. -/
def Counts (s : Session) : Prop :=
  s.state.shutdownCon.isSome → s.state.shutdownExpected = s.ballot.asked.card ∧
    s.state.shutdownYes = s.ballot.count true ∧
    s.state.shutdownNo = s.ballot.count false

instance (s : Session) : Decidable s.Counts := inferInstanceAs (Decidable (_ → _ ∧ _ ∧ _))

/-- The shutdown a step executes was asked for with one of the flags, or every tracker but the
initiator answered yes last. -/
def Consented (s : Session) (event : Event) (s' : Session) : Prop :=
  Output.shutdown ∈ (s.state.handle event).2 →
    ∃ initiator flags, s.request event = some (initiator, flags) ∧
      (flags = shutdownFlagRegardless ∨ flags = shutdownFlagImmediate ∨
        ∀ ci ∈ s'.state.trackersList, ci ≠ initiator → s'.ballot.latest ci = some true)

end Session

end Corosync.Cfg
