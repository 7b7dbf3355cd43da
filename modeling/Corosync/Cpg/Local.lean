import Corosync.Library.Run
import Corosync.Cpg.Node

/-!
# One node with its connections

Library requests, the messages of this node on their way through the queues and back, messages of
other nodes and the synchronisation, in any order. Library requests that need flow control are
handled only while no synchronisation is going on and messages are accepted; connections may be
closed at any time.
-/

namespace Corosync.Cpg

/-- What can happen. -/
inductive LocalEvent where
  | init (conn : ℕ)
  | join (conn pid : ℕ) (group : CpgName)
  | leave (conn pid : ℕ) (group : CpgName)
  | finalize (conn : ℕ)
  | exit (conn : ℕ)
  | mcast (conn : ℕ) (message : List UInt8)
  | partialMcast (conn : ℕ) (type : PartialType) (msglen : ℕ) (message : List UInt8)
  | transmit
  | deliver
  | foreign (nodeid : ℕ) (message : CpgMessage)
  | room (room : Bool)
  | syncInit (transList memberList : List ℕ)
  /-- `cpg_sync_process` is called. -/
  | syncProcess
  /-- `cpg_sync_abort` is called. -/
  | syncAbort
  /-- `cpg_sync_activate` is called. -/
  | syncActivate
  | syncCompleted
  deriving DecidableEq, Repr

/-- The node and what is recorded about it. -/
structure Local where
  node : CpgNode
  inFlight : List CpgMessage
  used : List ℕ
  /-- Connections whose own leave was delivered and that have not joined since, each with the
  number of dispatches until then. -/
  left : List (ℕ × ℕ)
  deriving DecidableEq, Repr

namespace Local

/-- The record of a listed connection. -/
def cpd (s : Local) (conn : ℕ) : Option CpgPd :=
  s.node.cpgPdList.find? fun cpd => cpd.conn == conn

/-- The record of a connection that is not closed. -/
def openCpd (s : Local) (conn : ℕ) : Option CpgPd :=
  (s.node.cpgPdList ++ s.node.finalized).find? fun cpd => cpd.conn == conn

/-- A request with flow control is handled. -/
def request (s : Local) (conn : ℕ) (handle : CpgPd → Option Local) : Option Local :=
  if s.node.totem.room ∧ s.node.totem.waitingTransAck = false then (s.cpd conn).bind handle
  else none

/-- Connections that wait for their own leave of a process and a group. -/
def leaving (s : Local) (group : CpgName) (pid : ℕ) : List ℕ :=
  (s.node.cpgPdList.filter fun cpd =>
    cpd.cpdState == .leaveStarted && cpd.pid == pid && cpd.groupName.bytes == group.bytes).map
      CpgPd.conn

/-- A message of the node is delivered to it. -/
def deliverOwn (s : Local) (message : CpgMessage) (rest : List CpgMessage) : Local :=
  let node := s.node.execHandler s.node.nodeid message
  let left :=
    match message with
    | .procleave group pid _ =>
      (s.leaving group pid).map fun conn => (conn, node.dispatched.length)
    | _ => []
  { s with node := node, inFlight := rest, left := s.left ++ left }

/-- One step. The transitional configuration always contains the node itself. -/
def step (s : Local) : LocalEvent → Option Local
  | .init conn =>
    if conn ∈ s.used then none
    else some { s with node := s.node.cpgLibInitFn conn, used := conn :: s.used }
  | .join conn pid group =>
    s.request conn fun cpd =>
      let joined := s.node.libCpgJoin cpd pid group
      some { s with
        node := joined.1
        left := if joined.2 = .ok then s.left.filter fun left => left.1 != conn else s.left }
  | .leave conn pid group =>
    s.request conn fun cpd => some { s with node := (s.node.libCpgLeave cpd pid group).1 }
  | .finalize conn =>
    s.request conn fun cpd => some { s with node := s.node.libCpgFinalize cpd }
  | .exit conn =>
    (s.openCpd conn).map fun cpd => { s with node := s.node.cpgLibExitFn cpd }
  | .mcast conn message =>
    s.request conn fun cpd =>
      (s.node.libCpgMcast cpd message).map fun node => { s with node := node }
  | .partialMcast conn type msglen message =>
    s.request conn fun cpd =>
      (s.node.libCpgPartialMcast cpd type msglen message).map fun result =>
        { s with node := result.1 }
  | .transmit =>
    s.node.totem.transmit.map fun taken =>
      { s with
        node := { s.node with totem := taken.2 }
        inFlight := s.inFlight ++ [taken.1] }
  | .deliver =>
    match s.inFlight with
    | [] => none
    | message :: rest => some (s.deliverOwn message rest)
  | .foreign nodeid message =>
    if nodeid = s.node.nodeid then none
    else some { s with node := s.node.execHandler nodeid message }
  | .room room =>
    some { s with node := { s.node with totem := { s.node.totem with room := room } } }
  | .syncInit transList memberList =>
    if s.node.nodeid ∈ transList then
      some { s with
        node :=
          { s.node.cpgSyncInit transList memberList with
            totem := { s.node.totem with waitingTransAck := true } } }
    else
      none
  | .syncProcess => some { s with node := s.node.cpgSyncProcess.1 }
  | .syncAbort => some { s with node := s.node.cpgSyncAbort }
  | .syncActivate => s.node.cpgSyncActivate.map fun node => { s with node := node }
  | .syncCompleted =>
    some { s with
      node := { s.node with totem := { s.node.totem with waitingTransAck := false } } }

/-- A node without connections, processes and messages. -/
def start (nodeid : ℕ) : Local where
  node := ⟨nodeid, [], [], [], [], [], [], [], .downlist, ⟨true, [], [], true⟩, []⟩
  inFlight := []
  used := []
  left := []

end Local

end Corosync.Cpg
