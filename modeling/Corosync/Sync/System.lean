import Corosync.Library.Rounds
import Corosync.Library.Run
import Corosync.Sync.Node

/-!
# A ring that synchronises its services

The members of a ring receive one totally ordered stream of messages, each at its own pace. What a
node transmits gets its place in the order some time later. The stream may also contain messages
of older rings.
-/

namespace Corosync.Sync

open Totemsrp (RingId)

/-- What does not change: the ring, its members and the sorting function. -/
structure Ring where
  ringId : RingId
  members : List ℕ
  services : ℕ → Services
  qsort : List ServiceEntry → List ServiceEntry

/-- The members and the total order. -/
structure System where
  nodes : ℕ → SyncNode
  order : List (ℕ × SyncMessage)
  delivered : ℕ → ℕ

/-- What can happen. -/
inductive Event where
  | start (i : ℕ)
  | order (i : ℕ)
  | leftover (i : ℕ) (message : SyncMessage)
  | deliver (i : ℕ)
  /-- The work item of a node is called; `done` is what `sync_process` says. -/
  | work (i : ℕ) (done : Bool)

/-- One step. A node gets the configuration once, before the messages of the ring. -/
def System.step (ring : Ring) (s : System) : Event → Option System
  | .start i =>
    if i ∈ ring.members ∧ (s.nodes i).myRingId ≠ ring.ringId then
      some { s with
        nodes := Function.update s.nodes i
          ((s.nodes i).syncAbort.syncStart ring.members ring.ringId) }
    else
      none
  | .order i =>
    match (s.nodes i).outgoing with
    | [] => none
    | message :: rest =>
      some { s with
        nodes := Function.update s.nodes i { s.nodes i with outgoing := rest }
        order := s.order ++ [(i, message)] }
  | .leftover i message =>
    if message.ringId ≠ ring.ringId then some { s with order := s.order ++ [(i, message)] }
    else none
  | .deliver i =>
    match s.order[s.delivered i]? with
    | none => none
    | some (sender, message) =>
      if (s.nodes i).myRingId = ring.ringId then
        some { s with
          nodes := Function.update s.nodes i
            ((s.nodes i).syncDeliverFn ring.qsort sender message)
          delivered := Function.update s.delivered i (s.delivered i + 1) }
      else
        none
  | .work i done =>
    if (s.nodes i).schedwrk ∧ (s.nodes i).myRingId = ring.ringId then
      some { s with nodes := Function.update s.nodes i ((s.nodes i).schedwrkProcessor done) }
    else
      none

/-- Before the configuration of the ring: the nodes are where an older ring has left them, with
nothing recorded yet. -/
structure System.Initial (ring : Ring) (s : System) : Prop where
  ringId : ∀ i, (s.nodes i).myRingId ≠ ring.ringId
  services : ∀ i, (s.nodes i).services = ring.services i
  schedwrk : ∀ i, (s.nodes i).schedwrk = true → (s.nodes i).myState = .process
  outgoing : ∀ i, (s.nodes i).outgoing = []
  calls : ∀ i, (s.nodes i).calls = []
  order : s.order = []
  delivered : ∀ i, s.delivered i = 0

/-- The union of the services that the members announce, in the order of their ids. -/
def Ring.union (ring : Ring) : List ℕ :=
  (List.range servicesCountMax).filter fun id =>
    ring.members.any fun q => decide (id ∈ SyncNode.ownServices (ring.services q))

end Corosync.Sync
