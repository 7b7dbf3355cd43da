import Corosync.Library.Run
import Corosync.Votequorum.Config

/-!
# Nodes in rings

Every node is in one ring at a time. A ring has a list of members and one order of messages, which
its members follow, each at its own pace; a member that enters another ring has followed it up to
any point. The rings a node enters have increasing numbers. What a node multicasts waits in its
queue, also over a change of the ring, until it gets its place in the order of the ring the node is
in. A process that starts multicasts its `nodeinfo`. In every ring the nodes synchronise: each of
them multicasts its `nodeinfo` and behind it a barrier, and activates when the barriers of all
members are delivered to it. The queue of a node stands for both queues of totemsrp; that totemsrp
sends `new_message_queue_trans` first while it synchronises is left out.
-/

namespace Corosync.Votequorum

open Function

/-- What has a place in the order of a ring. -/
inductive Packet
  | message (message : Message)
  | barrier (ring : ℕ)
deriving DecidableEq, Repr

/-- What else can happen on a node. -/
inductive Action
  /-- `votequorum_refresh_config` -/
  | reload (config : Icmap)
  /-- `votequorum_last_man_standing_timer_fn` -/
  | lastManStandingTimer
  /-- `votequorum_exec_exit_fn` -/
  | exit
  | qdeviceRegister
  | qdeviceUnregister
  | qdevicePoll (castVote : Bool)
  | qdeviceMasterWins (allow : Bool)
  | qdeviceTimer
  | setexpected (expectedVotes : ℕ)
  | setvotes (nodeid : NodeId) (votes : ℕ)
  | cancelWaitForAll
deriving DecidableEq, Repr

/-- The node after an action, and what it multicasts. -/
def Node.act (n : Node) : Action → Node × List Message
  | .reload config => n.refreshConfig config
  | .lastManStandingTimer =>
    if n.lastManStandingTimerSet then (n.lastManStandingTimerFn, []) else (n, [])
  | .exit => n.execExitFn
  | .qdeviceRegister => n.qdeviceRegister
  | .qdeviceUnregister => n.qdeviceUnregister
  | .qdevicePoll castVote => n.qdevicePoll castVote
  | .qdeviceMasterWins allow => n.qdeviceAllowMasterWins allow
  | .qdeviceTimer => n.qdeviceTimerFn
  | .setexpected expectedVotes =>
    ((n.libSetexpected expectedVotes true).node, (n.libSetexpected expectedVotes true).sent)
  | .setvotes nodeid votes =>
    ((n.libSetvotes nodeid votes true).node, (n.libSetvotes nodeid votes true).sent)
  | .cancelWaitForAll => (n, [.reconfigure .cancelWfa])

/-- What can happen next. -/
inductive Event
  | start (a : NodeId) (config : Icmap) (r : ℕ)
  | enter (a : NodeId) (r : ℕ)
  /-- `votequorum_sync_process` is called. -/
  | process (a : NodeId)
  | transmit (a : NodeId)
  | deliver (a : NodeId)
  /-- `votequorum_sync_activate` is called. -/
  | activate (a : NodeId)
  | act (a : NodeId) (action : Action)
deriving DecidableEq, Repr

/-- The node an event happens on. -/
def Event.node : Event → NodeId
  | .start a _ _ => a
  | .enter a _ => a
  | .process a => a
  | .transmit a => a
  | .deliver a => a
  | .activate a => a
  | .act a _ => a

/-- Nothing is configured anew and the administrator sends no request. -/
def Action.quiet : Action → Bool
  | .reload _ => false
  | .setexpected _ => false
  | .setvotes _ _ => false
  | .cancelWaitForAll => false
  | _ => true

/-- Nodes start, form rings and synchronise, timers expire, nodes leave and a quorum device acts. -/
def Event.quiet : Event → Bool
  | .act _ action => action.quiet
  | _ => true

/-- The nodes and the orders of the rings. -/
structure System where
  nodes : NodeId → Node
  ring : NodeId → ℕ
  log : ℕ → List (NodeId × Packet)
  delivered : NodeId → ℕ
  queue : NodeId → List Packet
  /-- The ring of the last `votequorum_sync_activate` of a node; zero before the first one. -/
  activated : NodeId → ℕ
  entered : List ℕ

namespace System

variable (members : ℕ → List NodeId) (s : System)

/-- What a node has delivered in its ring. -/
def heard (a : NodeId) : List (NodeId × Packet) := (s.log (s.ring a)).take (s.delivered a)

/-- A node has changed its variables and multicasts. -/
def acted (a : NodeId) (n : Node) (packets : List Packet) : System :=
  { s with
    nodes := update s.nodes a n
    queue := update s.queue a (s.queue a ++ packets) }

/-- A node enters a ring. -/
def joined (a : NodeId) (r : ℕ) (n : Node) : System :=
  { s with
    nodes := update s.nodes a (n.syncInit (members r))
    ring := update s.ring a r
    delivered := update s.delivered a 0
    entered := r :: s.entered }

/-- A new process has multicast its first `nodeinfo` and activated nothing. -/
def reset (a : NodeId) (n : Node) : System :=
  { s with
    queue := update s.queue a [.message (.nodeinfo n.nodeinfo)]
    activated := update s.activated a 0 }

/-- A node has transmitted a packet. -/
def transmitted (a : NodeId) (packet : Packet) (rest : List Packet) : System :=
  { s with
    log := update s.log (s.ring a) (s.log (s.ring a) ++ [(a, packet)])
    queue := update s.queue a rest }

/-- A node has delivered a packet. -/
def handled (a : NodeId) (n : Node) : System :=
  { s with
    nodes := update s.nodes a n
    delivered := update s.delivered a (s.delivered a + 1) }

/-- A node has activated. -/
def settled (a : NodeId) : System :=
  { s with
    nodes := update s.nodes a (s.nodes a).syncActivate
    activated := update s.activated a (s.ring a) }

/-- A member of a ring can enter it. -/
def Joins (a : NodeId) (r : ℕ) : Prop :=
  s.ring a < r ∧ a ∈ members r ∧ (members r).Nodup ∧ (members r).length ≤ processorCountMax ∧
    qdeviceNodeid ∉ members r

instance (a : NodeId) (r : ℕ) : Decidable (s.Joins members a r) :=
  inferInstanceAs (Decidable (_ ∧ _))

/-- The packets of `votequorum_sync_process`; behind them the barrier, if it is done. -/
def processPackets (n : Node) (r : ℕ) : List Packet :=
  n.syncProcess.2.map .message ++ if n.syncProcess.1.syncProcessed then [.barrier r] else []

/-- The barriers of all members have been delivered to a node. -/
def Synchronised (a : NodeId) : Prop :=
  ∀ b ∈ members (s.ring a), (b, .barrier (s.ring a)) ∈ s.heard a

instance (a : NodeId) : Decidable (s.Synchronised members a) :=
  inferInstanceAs (Decidable (∀ b ∈ members (s.ring a), _))

/-- The node after the delivery of a packet. -/
def delivery (n : Node) (sender : NodeId) : Packet → Node
  | .message message => n.deliver sender message
  | .barrier _ => n

/-- One step. -/
def step : Event → Option System
  | .start a config r =>
    match Node.execInitFn config a (s.nodes a).evTrackingFile with
    | .ok n => if s.Joins members a r then some ((s.reset a n).joined members a r n) else none
    | .error _ => none
  | .enter a r =>
    if 0 < s.ring a ∧ s.Joins members a r then some (s.joined members a r (s.nodes a)) else none
  | .process a =>
    if 0 < s.ring a ∧ (s.nodes a).syncInProgress ∧ .barrier (s.ring a) ∉ s.queue a ∧
        (a, .barrier (s.ring a)) ∉ s.log (s.ring a) then
      some (s.acted a (s.nodes a).syncProcess.1 (processPackets (s.nodes a) (s.ring a)))
    else none
  | .transmit a =>
    match s.queue a with
    | packet :: rest => if 0 < s.ring a then some (s.transmitted a packet rest) else none
    | [] => none
  | .deliver a =>
    match (s.log (s.ring a))[s.delivered a]? with
    | some (sender, packet) =>
      if 0 < s.ring a then some (s.handled a (delivery (s.nodes a) sender packet)) else none
    | none => none
  | .activate a =>
    if 0 < s.ring a ∧ (s.nodes a).syncInProgress ∧ s.Synchronised members a then
      some (s.settled a)
    else none
  | .act a action =>
    if 0 < s.ring a then
      some (s.acted a ((s.nodes a).act action).1 (((s.nodes a).act action).2.map .message))
    else none

/-- No process has been started yet. -/
def cold : System where
  nodes a := .zero a none
  ring _ := 0
  log _ := []
  delivered _ := 0
  queue _ := []
  activated _ := 0
  entered := []

end System

end Corosync.Votequorum
