import Corosync.Cpg.Local

/-!
# The executives of one ring

The members of a ring deliver the same messages in the same order, each at its own pace. Each of
them takes part in the synchronisation that starts when the ring is formed: it is told of the
configuration, sends the joinlist of its processes and after it a barrier, and activates when the
barriers of all members are delivered. The connections come and go all the time.
-/

namespace Corosync.Cpg

open Function

/-- What has a place in the order. -/
inductive Content where
  | message (message : CpgMessage)
  | barrier
  deriving DecidableEq, Repr

/-- How far a member is in the synchronisation. -/
inductive SyncPhase where
  | waiting
  | started
  | processed
  | activated
  deriving DecidableEq, Repr

/-- The events of connections and of the room in the queues. -/
def LocalEvent.ofClient : LocalEvent → Bool
  | .init _ => true
  | .join _ _ _ => true
  | .leave _ _ _ => true
  | .finalize _ => true
  | .exit _ => true
  | .mcast _ _ => true
  | .partialMcast _ _ _ _ => true
  | .room _ => true
  | _ => false

/-- The members of a ring, and their state when it is formed. -/
structure Ring where
  members : List ℕ
  start : ℕ → Local
  nodeid_eq : ∀ i, (start i).node.nodeid = i
  inFlight : ∀ i, (start i).inFlight = []

/-- The members and the order. -/
structure RingState where
  locals : ℕ → Local
  phase : ℕ → SyncPhase
  ahead : ℕ → Option ℕ
  order : List (ℕ × Content)
  delivered : ℕ → ℕ

/-- What can happen. -/
inductive RingEvent where
  | client (i : ℕ) (event : LocalEvent)
  /-- `cpg_sync_init` is called with the transitional configuration of the member. -/
  | syncInit (i : ℕ) (transList : List ℕ)
  /-- `cpg_sync_process` is called. -/
  | syncProcess (i : ℕ)
  | syncCompleted (i : ℕ)
  | transmit (i : ℕ)
  | deliver (i : ℕ)
  deriving DecidableEq, Repr

namespace Ring

variable (ring : Ring)

/-- The barriers of all members. -/
def heardAll (items : List (ℕ × Content)) : Prop :=
  ∀ q ∈ ring.members, (q, Content.barrier) ∈ items

instance (items : List (ℕ × Content)) : Decidable (ring.heardAll items) :=
  inferInstanceAs (Decidable (∀ q ∈ ring.members, (q, Content.barrier) ∈ items))

/-- The ring is formed. -/
def begin : RingState where
  locals := ring.start
  phase := fun _ => .waiting
  ahead := fun _ => none
  order := []
  delivered := fun _ => 0

end Ring

namespace RingState

variable (ring : Ring) (s : RingState)

/-- The state of a node. -/
def node (i : ℕ) : CpgNode := (s.locals i).node

/-- A node takes a step. -/
def act (i : ℕ) (event : LocalEvent) : Option RingState :=
  ((s.locals i).step event).map fun l => { s with locals := update s.locals i l }

/-- What a node transmits next: the barrier when its turn has come. -/
def next (i : ℕ) : Option Content :=
  if s.ahead i = some 0 then some .barrier
  else (s.node i).totem.transmit.map fun taken => .message taken.1

/-- A node transmits. -/
def transmit (i : ℕ) : Option RingState :=
  (s.next i).bind fun content =>
    match content with
    | .barrier =>
      some { s with ahead := update s.ahead i none, order := s.order ++ [(i, .barrier)] }
    | .message message =>
      (s.act i .transmit).map fun s =>
        { s with
          ahead := update s.ahead i ((s.ahead i).map fun n => n - 1)
          order := s.order ++ [(i, .message message)] }

/-- A node delivers the next message of the order. A barrier activates when it is the last one. -/
def deliver (i : ℕ) : Option RingState :=
  match s.order[s.delivered i]? with
  | none => none
  | some (sender, content) =>
    let next := { s with delivered := update s.delivered i (s.delivered i + 1) }
    match content with
    | .message message =>
      if sender = i then next.act i .deliver else next.act i (.foreign sender message)
    | .barrier =>
      if s.phase i = .processed ∧ ring.heardAll (s.order.take (s.delivered i + 1)) then
        { next with phase := update s.phase i .activated }.act i .syncActivate
      else
        some next

/-- One step. -/
def step : RingEvent → Option RingState
  | .client i event => if i ∈ ring.members ∧ event.ofClient then s.act i event else none
  | .syncInit i transList =>
    if i ∈ ring.members ∧ s.phase i = .waiting then
      { s with phase := update s.phase i .started }.act i
        (.syncInit transList ring.members)
    else
      none
  | .syncProcess i =>
    if i ∈ ring.members ∧ s.phase i = .started then
      (s.act i .syncProcess).map fun next =>
        if (s.node i).cpgSyncProcess.2 then
          { next with
            phase := update s.phase i .processed
            ahead := update s.ahead i
              (some (next.node i).totem.newMessageQueueTrans.length) }
        else
          next
    else
      none
  | .syncCompleted i =>
    if i ∈ ring.members ∧ s.phase i = .activated then s.act i .syncCompleted else none
  | .transmit i => if i ∈ ring.members then s.transmit i else none
  | .deliver i => if i ∈ ring.members then s.deliver ring i else none

end RingState

end Corosync.Cpg
