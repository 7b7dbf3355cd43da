import Corosync.Libknet
import Corosync.Library.Run
import Corosync.Totempg.Calls
import Corosync.Totemsrp.Token

/-!
# Packing and assembly round trip

A node accepts messages, flushes its staging buffer when the token arrives and transmits what is
queued. As long as the choice of the queue does not change, a receiver that is fed the queued
packets hands over exactly the accepted messages whose last byte has left the staging buffer.
-/

namespace Corosync.Totempg

open List

open Totemsrp (Instance Mcast OrfToken orfTokenMcast)

/-- A message that `mcast_msg` accepted, with the value of `waiting_trans_ack` at that time. -/
structure Accepted where
  /-- `waiting_trans_ack`. -/
  trans : Bool
  message : List UInt8
  deriving DecidableEq, Repr

/-- A node with the history of its calls. -/
structure System where
  node : Node
  accepted : List Accepted
  transmitted : List QueuedPacket

/-- What can happen at the node. -/
inductive Event where
  /-- `mcast_msg` is called. -/
  | mcast (iovecs : List (List UInt8))
  /-- `callback_token_received_fn` is called. -/
  | tokenReceived
  /-- `orf_token_mcast` is called. -/
  | transmit (token : OrfToken) (allowed : ℕ)
  | other (inst : Instance)
  /-- `memb_state_operational_enter` sets `waiting_trans_ack`. -/
  | waitTransAck
  /-- `totemsrp_trans_ack` clears `waiting_trans_ack`. -/
  | transAck

/-- The application data of a message. -/
def payload : Mcast → List UInt8
  | .plain _ data => data
  | .encapsulated _ _ => []

/-- The packets that a call of `orf_token_mcast` took from an application queue. In recovery the
messages come from another queue. -/
def System.sentPackets (s : System) (srp : Instance) : List QueuedPacket :=
  if s.node.srp.membState = .recovery then []
  else
    (srp.mcastSent.drop s.node.srp.mcastSent.length).map fun message =>
      ⟨s.node.srp.waitingTransAck, payload message⟩

/-- One event. -/
def System.step (config : PgConfig) (s : System) : Event → Option System
  | .mcast iovecs => do
    let (node, taken) ← mcastMsg config s.node iovecs
    return { s with
      node := node
      accepted :=
        if taken && !iovecs.flatten.isEmpty then
          s.accepted ++ [⟨s.node.srp.waitingTransAck, iovecs.flatten⟩]
        else s.accepted }
  | .tokenReceived => (callbackTokenReceivedFn s.node).map fun node => { s with node := node }
  | .transmit token allowed => do
    let (srp, _, _) ← orfTokenMcast s.node.srp token allowed
    return { s with
      node := { s.node with srp := srp }
      transmitted := s.transmitted ++ s.sentPackets srp }
  | .other inst => some { s with node := { s.node with srp := { inst with
      newMessageQueue := s.node.srp.newMessageQueue
      newMessageQueueTrans := s.node.srp.newMessageQueueTrans
      waitingTransAck := s.node.srp.waitingTransAck } } }
  | .waitTransAck => some { s with node := { s.node with
      srp := { s.node.srp with waitingTransAck := true } } }
  | .transAck => some { s with node := { s.node with srp := s.node.srp.totemsrpTransAck } }

/-- A message has at most `max` bytes. -/
def Event.AtMost (max : ℕ) : Event → Prop
  | .mcast iovecs => iovecs.flatten.length ≤ max
  | _ => True

instance (max : ℕ) (e : Event) : Decidable (e.AtMost max) := by
  cases e <;> unfold Event.AtMost <;> infer_instance

/-- A node that has not been used, above any instance. -/
structure System.Fresh (s : System) : Prop where
  pg_eq : s.node.pg = .initial
  queued_eq : s.node.queued = []
  accepted_eq : s.accepted = []

/-- The messages that end within the first `flushed` bytes. -/
def completeMessages : ℕ → List (List UInt8) → List (List UInt8)
  | _, [] => []
  | flushed, message :: messages =>
    if message.length ≤ flushed then
      message :: completeMessages (flushed - message.length) messages
    else
      []

/-- The messages accepted so far. -/
def System.messages (s : System) : List (List UInt8) := s.accepted.map Accepted.message

/-- Bytes of accepted messages that have left the staging buffer. -/
def System.flushed (s : System) : ℕ :=
  s.messages.flatten.length - s.node.pg.fragmentationData.length

/-- Messages that are complete come first. -/
theorem completeMessages_append (messages rest : List (List UInt8)) (flushed : ℕ) :
    completeMessages (messages.flatten.length + flushed) (messages ++ rest) =
      messages ++ completeMessages flushed rest := by
  induction messages with
  | nil => simp
  | cons _ _ ih =>
    rw [flatten_cons, length_append, cons_append, completeMessages,
      if_pos (by omega), cons_append, ← ih]
    congr 2
    omega

/-- In a stream the staged bytes are the end of the accepted ones, and the delivered messages are
those that are flushed completely. -/
theorem Stream.flushed {config : PgConfig} {buffer : Buffer config} {pg : Staging}
    {packets accepted delivered : List (List UInt8)} {part : List UInt8}
    (hstream : Stream buffer pg packets accepted delivered part) :
    completeMessages (accepted.flatten.length - pg.fragmentationData.length) accepted = delivered ∧
      accepted.flatten.drop (accepted.flatten.length - pg.fragmentationData.length) =
        pg.fragmentationData := by
  have hpieces : (pg.packedMsgLens.splitLengths pg.fragmentationData).flatten =
      pg.fragmentationData := flatten_splitLengths _ _ hstream.sum_lens.ge
  cases hlens : pg.packedMsgLens with
  | nil =>
    have hstaged : pg.fragmentationData = [] := by rw [← hpieces, hlens]; rfl
    have haccepted := hstream.accepted_eq
    rw [hlens, splitLengths_nil, continued, append_nil] at haccepted
    subst haccepted
    have hcomplete := completeMessages_append accepted [] 0
    simp only [completeMessages, append_nil, Nat.add_zero] at hcomplete
    rw [hstaged, length_nil, Nat.sub_zero, drop_length]
    exact ⟨hcomplete, rfl⟩
  | cons len _ =>
    have hpos : 0 < len := hstream.lens_pos len (by simp [hlens])
    have hsum := hstream.sum_lens
    have haccepted := hstream.accepted_eq
    rw [hlens, sum_cons] at hsum
    rw [hlens, splitLengths_cons] at haccepted hpieces
    rw [continued] at haccepted
    have hflatten : accepted.flatten = delivered.flatten ++ part ++ pg.fragmentationData := by
      rw [haccepted, flatten_append, flatten_cons, append_assoc, append_assoc,
        ← flatten_cons, hpieces]
    have hlength : accepted.flatten.length - pg.fragmentationData.length =
        delivered.flatten.length + part.length := by
      rw [hflatten, length_append, length_append]
      omega
    rw [hlength]
    constructor
    · -- the first staged message has at least one byte in the staging buffer
      rw [haccepted, completeMessages_append, completeMessages, if_neg, append_nil]
      rw [length_append, length_take]
      omega
    · rw [hflatten, ← length_append, drop_left]

/-- What holds of the stream of all queued packets. -/
def System.Streams {config : PgConfig} (buffer : Buffer config) (s : System) : Prop :=
  ∃ delivered part, Stream buffer s.node.pg (s.node.queued.map QueuedPacket.bytes) s.messages
    delivered part

/-- The bytes of the queues with new packets. -/
theorem Appends.bytes {node node' : Node} {new : List (List UInt8)}
    (happ : Appends node node' new) :
    node'.queued.map QueuedPacket.bytes = node.queued.map QueuedPacket.bytes ++ new := by
  rw [happ.queued_eq, map_append, map_map]
  simp [Function.comp_def]

/-- Every step keeps the streams. -/
theorem System.Streams.step {config : PgConfig} {buffer : Buffer config} {s s' : System} {e : Event}
    (hsize : e.AtMost buffer.messageMax) (hstreams : s.Streams buffer)
    (hstep : s.step config e = some s') : s'.Streams buffer := by
  obtain ⟨delivered, part, hstream⟩ := hstreams
  cases e with
  | mcast _ =>
    obtain ⟨⟨node, taken⟩, hmcast, heq⟩ := Option.bind_eq_some_iff.mp hstep
    cases heq
    obtain ⟨new, delivered', part', happ, hstream'⟩ := hstream.mcastMsg hsize hmcast
    refine ⟨delivered', part', ?_⟩
    rw [happ.bytes]
    split at hstream'
    · next hbytes => simpa [System.messages, hbytes] using hstream'
    · next hbytes => simpa [System.messages, hbytes] using hstream'
  | tokenReceived =>
    obtain ⟨node, hcallback, rfl⟩ := Option.map_eq_some_iff.mp hstep
    obtain ⟨new, delivered', part', happ, hstream'⟩ :=
      hstream.callbackTokenReceivedFn hcallback
    exact ⟨delivered', part', by rw [happ.bytes]; exact hstream'⟩
  | transmit _ _ =>
    obtain ⟨⟨srp, _, _⟩, -, heq⟩ := Option.bind_eq_some_iff.mp hstep
    cases heq
    exact ⟨delivered, part, hstream⟩
  | other | waitTransAck | transAck =>
    cases hstep
    exact ⟨delivered, part, hstream⟩

/-- A stream without packets. -/
theorem Stream.nil {config : PgConfig} (buffer : Buffer config) :
    Stream buffer .initial [] [] [] [] where
  toDelivered := .nil buffer
  accepted_eq := rfl
  sum_lens := rfl
  lens_pos := by simp [Staging.initial]
  idle := fun _ => ⟨rfl, rfl⟩
  room := by
    have hbounds := config.packetSize_bounds
    simp only [Staging.initial, length_nil]
    omega

/-- A new system has such a stream. -/
theorem System.Fresh.stream {s : System} (hfresh : s.Fresh) {config : PgConfig}
    (buffer : Buffer config) : s.Streams buffer := by
  refine ⟨[], [], ?_⟩
  simp only [System.messages, hfresh.queued_eq, hfresh.accepted_eq, hfresh.pg_eq, map_nil]
  exact .nil buffer

/-- A receiver that is fed the queued packets in order, starting without an assembly, hands over
exactly the accepted messages whose last byte has been flushed, in order and byte for byte, and the
staged bytes are the rest of the accepted ones. -/
theorem deliverAll_queued {config : PgConfig} {knetMaxPacketSize : ℕ} {s s' : System}
    {events : List Event} (hmtu : config.netMtu ≤ knetMaxPacketSize) (hfresh : s.Fresh)
    (hsize : ∀ e ∈ events, e.AtMost messageSizeMax)
    (hrun : Library.run (System.step config) s events = some s') :
    (∃ inuse, deliverAll (messageSizeMax + knetMaxPacketSize) none
        (s'.node.queued.map QueuedPacket.bytes) =
      some (inuse, completeMessages s'.flushed s'.messages)) ∧
    s'.node.pg.fragmentationData = s'.messages.flatten.drop s'.flushed := by
  let buffer : Buffer config :=
    { size := messageSizeMax + knetMaxPacketSize
      messageMax := messageSizeMax
      pos := by decide
      fits := Nat.add_le_add_left hmtu _ }
  have hstreams : s'.Streams buffer := Library.run_invariant_of_forall
    (fun _ _ _ hsize hstreams hstep => hstreams.step hsize hstep) hsize (hfresh.stream buffer) hrun
  obtain ⟨delivered, part, hstream⟩ := hstreams
  obtain ⟨inuse, hdeliver, -⟩ := hstream.deliver
  obtain ⟨hcomplete, hstaged⟩ := hstream.flushed
  refine ⟨⟨inuse, hdeliver.trans ?_⟩, hstaged.symm⟩
  exact congrArg (fun messages => some (inuse, messages)) hcomplete.symm

/-- Packets of at most eight bytes. -/
def smallPackets : PgConfig where
  netMtu := 16
  lt_netMtu := by decide
  netMtu_lt := by decide

/-- An unused node above a new instance, which waits for the acknowledgement. -/
def newNode : System where
  node :=
    { pg := .initial
      srp := .totemsrpInitialize
        { maxMessages := 17, windowSize := 50, missCountConst := 5, failToRecvConst := 2500 } 1 8
        (by decide)
      queued := [] }
  accepted := []
  transmitted := []

/-- A message of two buffers, the second of which stays staged until the flush. -/
def shortRun : List Event :=
  [.mcast [[1, 2, 3, 4, 5, 6], [7]], .mcast [[8, 9]], .tokenReceived, .mcast [[10]]]

/-- The round trip of the short run. -/
theorem deliverAll_queued_shortRun :
    ∃ s, Library.run (System.step smallPackets) newNode shortRun = some s ∧
      (∃ inuse, deliverAll (messageSizeMax + knetMaxPacketSize) none
          (s.node.queued.map QueuedPacket.bytes) =
        some (inuse, completeMessages s.flushed s.messages)) ∧
      s.node.pg.fragmentationData = s.messages.flatten.drop s.flushed :=
  ⟨_, rfl, @deliverAll_queued smallPackets knetMaxPacketSize newNode _ shortRun (by decide)
    ⟨rfl, rfl, rfl⟩
    (by decide) rfl⟩

end Corosync.Totempg
