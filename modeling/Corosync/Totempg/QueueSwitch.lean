import Corosync.Totempg.RoundTrip
import Mathlib.Data.List.Chain

/-!
# The switch between the application queues

`waiting_trans_ack` selects the queue that packets go to and are sent from. The staging buffer is
shared by both queues, so the packets of one message stay together only when nothing is staged at
a switch, and packets are stranded unless the transitional queue is empty when it is left.
-/

namespace Corosync.Totemsrp

open List Option Instance

variable {inst inst' : Instance} {token token' : OrfToken}

/-- A header does not change the payload. -/
@[simp] theorem payload_withHeader (message : Mcast) (header : McastHeader) :
    Totempg.payload (message.withHeader header) = Totempg.payload message := by
  cases message <;> rfl

/-- Putting back the queue that is sent from changes nothing. -/
theorem Instance.toSendState_withMcastQueue_self (inst : Instance) :
    (inst.withMcastQueue inst.mcastQueue).toSendState = inst.toSendState := by
  unfold withMcastQueue mcastQueue
  by_cases hstate : inst.membState = .recovery <;> cases hwait : inst.waitingTransAck <;>
    simp only [hstate, if_true, if_false, ne_eq, not_true, not_false_iff, true_and, false_and,
      Bool.false_eq_true, Bool.not_true, Bool.not_false] <;> rw [← hwait]

/-- The queue that is sent from after one round of the sending loop. -/
theorem mcastQueue_mcastItem (message : Mcast) (queue : Sq Mcast) (rest : CsQueue Mcast) :
    (mcastItem inst message queue rest).mcastQueue = rest := by
  unfold mcastItem mcastQueue withMcastQueue mcastSend Instance.withSortQueue
  by_cases hstate : inst.membState = .recovery <;> cases hwait : inst.waitingTransAck <;>
    simp [hstate]

/-- Replacing the queue after one round replaces it before. -/
theorem toSendState_mcastItem (message : Mcast) (queue : Sq Mcast) (rest rest' : CsQueue Mcast) :
    ((mcastItem inst message queue rest).withMcastQueue rest').toSendState =
      (inst.withMcastQueue rest').toSendState := by
  unfold mcastItem withMcastQueue mcastSend Instance.withSortQueue
  by_cases hstate : inst.membState = .recovery <;> cases hwait : inst.waitingTransAck <;>
    simp [hstate]

/-- The messages `taken` left the front of the queue that is sent from, of which `rest` remains, and
were put on the ring in order as `messages`. -/
structure Takes (inst inst' : Instance) (taken messages : List Mcast) (rest : CsQueue Mcast) :
    Prop where
  items_eq : inst.mcastQueue.items = taken ++ rest.items
  send_eq : inst'.toSendState = (inst.withMcastQueue rest).toSendState
  sent_eq : inst'.mcastSent = inst.mcastSent ++ messages
  payload_eq : messages.map Totempg.payload = taken.map Totempg.payload

/-- Nothing is taken. -/
theorem Takes.nil (inst : Instance) : Takes inst inst [] [] inst.mcastQueue where
  items_eq := rfl
  send_eq := inst.toSendState_withMcastQueue_self.symm
  sent_eq := by simp
  payload_eq := rfl

/-- The sending loop takes messages from the front of its queue. -/
theorem mcastQueued_takes {allowed sent : ℕ}
    (hmcast : mcastQueued allowed inst token = some (inst', token', sent)) :
    ∃ taken messages rest, Takes inst inst' taken messages rest := by
  induction allowed generalizing inst token token' sent with
  | zero =>
    obtain ⟨rfl, -⟩ : inst = inst' ∧ _ := by simpa [mcastQueued] using hmcast
    exact ⟨_, _, _, .nil inst⟩
  | succ _ ih =>
    simp only [mcastQueued] at hmcast
    split at hmcast
    · obtain ⟨rfl, -⟩ : inst = inst' ∧ _ := by simpa using hmcast
      exact ⟨_, _, _, .nil inst⟩
    rename_i message rest htake
    obtain ⟨queue, -, hrest⟩ := bind_eq_some_iff.mp hmcast
    obtain ⟨⟨inst'', token'', sent'⟩, hloop, heq⟩ := bind_eq_some_iff.mp hrest
    obtain ⟨rfl, -⟩ : inst'' = inst' ∧ _ := by simpa using heq
    obtain ⟨taken, messages, rest', htakes⟩ := ih hloop
    refine ⟨message :: taken, stamp inst message (uadd token.seq 1) :: messages, rest',
      ⟨?_, ?_, ?_, ?_⟩⟩
    · have hitems := htakes.items_eq
      rw [mcastQueue_mcastItem] at hitems
      rw [(CsQueue.itemTake_eq_some htake).1, hitems, cons_append]
    · rw [htakes.send_eq, toSendState_mcastItem]
    · rw [htakes.sent_eq]
      simp [mcastItem, mcastSend, withMcastQueue, withSortQueue]
    · simp [stamp, htakes.payload_eq]

/-- `orf_token_mcast` does the same. -/
theorem orfTokenMcast_takes {allowed sent : ℕ}
    (hmcast : orfTokenMcast inst token allowed = some (inst', token', sent)) :
    ∃ taken messages rest, Takes inst inst' taken messages rest := by
  obtain ⟨⟨queued, token'', sent'⟩, hqueued, hrest⟩ := bind_eq_some_iff.mp hmcast
  obtain ⟨updated, hupdate, heq⟩ := bind_eq_some_iff.mp hrest
  obtain ⟨rfl, -⟩ : updated = inst' ∧ _ := by simpa using heq
  obtain ⟨received, -, heq'⟩ := bind_eq_some_iff.mp hupdate
  obtain rfl := some.inj heq'
  obtain ⟨taken, messages, rest, htakes⟩ := mcastQueued_takes hqueued
  exact ⟨taken, messages, rest, htakes.items_eq, htakes.send_eq, htakes.sent_eq, htakes.payload_eq⟩

end Corosync.Totemsrp

namespace Corosync.Totempg

open List Option

open Totemsrp (Instance Mcast OrfToken)

/-- Packets put in one of the queues so far, oldest first. -/
def Node.packets (node : Node) (trans : Bool) : List (List UInt8) :=
  (node.queued.filter fun packet => packet.trans == trans).map QueuedPacket.bytes

/-- One of the application queues. -/
def applicationQueueOf (inst : Instance) (trans : Bool) : CsQueue Mcast :=
  if trans then inst.newMessageQueueTrans else inst.newMessageQueue

namespace System

/-- Messages accepted while `waiting_trans_ack` had a given value, oldest first. -/
def acceptedIn (s : System) (trans : Bool) : List (List UInt8) :=
  (s.accepted.filter fun accepted => accepted.trans == trans).map Accepted.message

/-- Packets of one of the queues that were put on the ring, oldest first. -/
def transmittedIn (s : System) (trans : Bool) : List (List UInt8) :=
  (s.transmitted.filter fun packet => packet.trans == trans).map QueuedPacket.bytes

/-- Nothing is staged when `waiting_trans_ack` changes, and the transitional queue is empty when it
is left. -/
def SwitchReady (s : System) : Event → Prop
  | .waitTransAck => s.node.srp.waitingTransAck = true ∨ s.node.pg.packedMsgLens = []
  | .transAck => s.node.srp.waitingTransAck = false ∨
      s.node.pg.packedMsgLens = [] ∧ s.node.srp.newMessageQueueTrans.items = []
  | _ => True

instance (s : System) (e : Event) : Decidable (s.SwitchReady e) :=
  match e with
  | .waitTransAck => inferInstanceAs (Decidable (_ ∨ _))
  | .transAck => inferInstanceAs (Decidable (_ ∨ _ ∧ _))
  | .mcast _ | .tokenReceived | .transmit _ _ | .other _ => isTrue trivial

/-- A packet that continues a message is in the queue of the packet before. -/
def Unsplit (queued : List QueuedPacket) : Prop :=
  queued.IsChain fun packet next => fragmentedOf packet.bytes ≠ 0 → next.trans = packet.trans

instance (queued : List QueuedPacket) : Decidable (Unsplit queued) :=
  inferInstanceAs (Decidable (queued.IsChain _))

/-- What holds as long as nothing is staged at a switch. -/
structure SwitchInv {config : PgConfig} (buffer : Buffer config) (s : System) : Prop where
  current : ∃ delivered part, Stream buffer s.node.pg
    (s.node.packets s.node.srp.waitingTransAck) (s.acceptedIn s.node.srp.waitingTransAck)
    delivered part
  other : ∃ delivered part, Stream buffer .initial
    (s.node.packets !s.node.srp.waitingTransAck) (s.acceptedIn !s.node.srp.waitingTransAck)
    delivered part
  fifo : ∀ trans, s.transmittedIn trans ++
    (applicationQueueOf s.node.srp trans).items.map payload = s.node.packets trans
  unsplit : Unsplit s.node.queued
  last : ∀ packet ∈ s.node.queued.getLast?, fragmentedOf packet.bytes ≠ 0 →
    packet.trans = s.node.srp.waitingTransAck
  drained : s.node.srp.waitingTransAck = false → s.node.srp.newMessageQueueTrans.items = []

end System

section Appends

variable {node node' : Node} {new : List (List UInt8)}

/-- New packets go to the queue in use. -/
theorem Appends.packets (happ : Appends node node' new) :
    node'.packets node.srp.waitingTransAck = node.packets node.srp.waitingTransAck ++ new ∧
      node'.packets (!node.srp.waitingTransAck) = node.packets !node.srp.waitingTransAck := by
  have hin : (new.map (QueuedPacket.mk node.srp.waitingTransAck)).filter
      (fun packet => packet.trans == node.srp.waitingTransAck) =
      new.map (QueuedPacket.mk node.srp.waitingTransAck) := filter_eq_self.mpr (by simp)
  have hout : (new.map (QueuedPacket.mk node.srp.waitingTransAck)).filter
      (fun packet => packet.trans == !node.srp.waitingTransAck) = [] :=
    filter_eq_nil_iff.mpr (by simp)
  unfold Node.packets
  rw [happ.queued_eq]
  simp only [List.filter_append, List.map_append, hin, hout, List.map_map,
    List.append_nil, and_true]
  simp [Function.comp_def]

/-- Appended packets are behind those queued before. -/
theorem Appends.queueOf (happ : Appends node node' new) (trans : Bool) :
    (applicationQueueOf node'.srp trans).items.map payload =
      (applicationQueueOf node.srp trans).items.map payload ++
        if trans = node.srp.waitingTransAck then new else [] := by
  obtain ⟨q, hitems, hsrp⟩ := happ.srp_eq
  have hpayload : (new.map node.srp.applicationMessage).map payload = new := by
    simp [Function.comp_def, Instance.applicationMessage, payload]
  have hq : q.items.map payload = node.srp.applicationQueue.items.map payload ++ new := by
    rw [hitems, map_append, hpayload]
  rw [hsrp]
  unfold Instance.applicationQueue at hq
  unfold applicationQueueOf Instance.withApplicationQueue
  cases trans <;> cases hwait : node.srp.waitingTransAck <;>
    simp_all

/-- No message is split between the queues by new packets. -/
theorem Appends.unsplit (happ : Appends node node' new) (hunsplit : System.Unsplit node.queued)
    (hlast : ∀ packet ∈ node.queued.getLast?, fragmentedOf packet.bytes ≠ 0 →
      packet.trans = node.srp.waitingTransAck) :
    System.Unsplit node'.queued ∧ ∀ packet ∈ node'.queued.getLast?,
      fragmentedOf packet.bytes ≠ 0 → packet.trans = node.srp.waitingTransAck := by
  rw [happ.queued_eq]
  constructor
  · unfold System.Unsplit at hunsplit ⊢
    rw [isChain_append]
    refine ⟨hunsplit, ?_, ?_⟩
    · exact (isChain_map _).mpr (pairwise_of_forall fun _ _ _ => rfl).isChain
    · intro packet hpacket next hnext hfragmented
      obtain ⟨bytes, -, rfl⟩ := mem_map.mp (mem_of_mem_head? hnext)
      exact (hlast packet hpacket hfragmented).symm
  · intro packet hpacket hfragmented
    cases new with
    | nil => exact hlast packet (by simpa using hpacket) hfragmented
    | cons _ _ =>
      rw [getLast?_append_of_ne_nil _ (by simp)] at hpacket
      obtain ⟨bytes, -, rfl⟩ := mem_map.mp (mem_of_getLast? hpacket)
      rfl

end Appends

/-- A stream depends on the staging buffer and the continuation only. -/
theorem Stream.congr {config : PgConfig} {buffer : Buffer config} {pg pg' : Staging}
    {packets accepted delivered : List (List UInt8)} {part : List UInt8}
    (hstream : Stream buffer pg packets accepted delivered part)
    (hlens : pg'.packedMsgLens = pg.packedMsgLens)
    (hdata : pg'.fragmentationData = pg.fragmentationData)
    (hcont : pg'.fragmentContinuation = pg.fragmentContinuation) :
    Stream buffer pg' packets accepted delivered part := by
  obtain ⟨lens, data, cont, next⟩ := pg
  obtain ⟨lens', data', cont', next'⟩ := pg'
  subst hlens hdata hcont
  exact ⟨hstream.toDelivered, hstream.accepted_eq, hstream.sum_lens, hstream.lens_pos,
    hstream.idle, hstream.room⟩

/-- An empty staging buffer is in its initial state. -/
theorem Stream.initial_iff {config : PgConfig} {buffer : Buffer config} {pg : Staging}
    {packets accepted delivered : List (List UInt8)} {part : List UInt8}
    (hstream : Stream buffer pg packets accepted delivered part) (hlens : pg.packedMsgLens = []) :
    pg.packedMsgLens = Staging.initial.packedMsgLens ∧
      pg.fragmentationData = Staging.initial.fragmentationData ∧
      pg.fragmentContinuation = Staging.initial.fragmentContinuation := by
  have hsum := hstream.sum_lens
  rw [hlens, sum_nil] at hsum
  exact ⟨hlens, eq_nil_of_length_eq_zero hsum.symm, (hstream.idle hlens).2⟩

section Takes

open Totemsrp (Takes SendState)

variable {inst inst' : Instance} {taken messages : List Mcast} {rest : CsQueue Mcast}

/-- Sending does not switch the queues. -/
theorem waitingTransAck_of_takes (htakes : Takes inst inst' taken messages rest) :
    inst'.waitingTransAck = inst.waitingTransAck :=
  (congrArg SendState.waitingTransAck htakes.send_eq).trans rfl

/-- In recovery the application queues are left alone. -/
theorem queueOf_of_takes_recovery (htakes : Takes inst inst' taken messages rest)
    (hstate : inst.membState = .recovery) (trans : Bool) :
    applicationQueueOf inst' trans = applicationQueueOf inst trans := by
  have hnew := congrArg SendState.newMessageQueue htakes.send_eq
  have htrans := congrArg SendState.newMessageQueueTrans htakes.send_eq
  simp only [Instance.withMcastQueue, hstate, ne_eq, not_true, false_and, if_false] at hnew htrans
  unfold applicationQueueOf
  rw [hnew, htrans]

/-- Otherwise the queue in use loses the messages that were sent. -/
theorem queueOf_of_takes (htakes : Takes inst inst' taken messages rest)
    (hstate : inst.membState ≠ .recovery) (trans : Bool) :
    ((if trans = inst.waitingTransAck then messages.map payload else []) ++
      (applicationQueueOf inst' trans).items.map payload) =
        (applicationQueueOf inst trans).items.map payload := by
  have hnew := congrArg SendState.newMessageQueue htakes.send_eq
  have htrans := congrArg SendState.newMessageQueueTrans htakes.send_eq
  have hitems := htakes.items_eq
  have hpayload : messages.map payload ++ rest.items.map payload =
      (taken ++ rest.items).map payload := by
    rw [htakes.payload_eq, map_append]
  simp only [Instance.withMcastQueue, Instance.mcastQueue, hstate, ne_eq, not_false_iff, true_and,
    if_false] at hnew htrans hitems
  unfold applicationQueueOf
  rw [hnew, htrans]
  cases trans <;> cases hwait : inst.waitingTransAck <;> simp_all

end Takes

namespace System.SwitchInv

variable {config : PgConfig} {buffer : Buffer config} {s : System}

/-- New packets belong to the stream of the queue in use. -/
theorem append (hinv : s.SwitchInv buffer) {node : Node}
    {new : List (List UInt8)} {accepted : List Accepted} (happ : Appends s.node node new)
    (hcurrent : ∃ delivered part, Stream buffer node.pg
      (s.node.packets s.node.srp.waitingTransAck ++ new)
      ({ s with accepted := accepted }.acceptedIn s.node.srp.waitingTransAck) delivered part)
    (hother : { s with accepted := accepted }.acceptedIn (!s.node.srp.waitingTransAck) =
      s.acceptedIn !s.node.srp.waitingTransAck) :
    SwitchInv buffer { s with node := node, accepted := accepted } := by
  obtain ⟨hin, hout⟩ := happ.packets
  obtain ⟨hunsplit, hlast⟩ := happ.unsplit hinv.unsplit hinv.last
  constructor
  · simp only [happ.waitingTransAck, hin]
    exact hcurrent
  · simp only [happ.waitingTransAck, hout]
    obtain ⟨delivered, part, hstream⟩ := hinv.other
    exact ⟨delivered, part, hother ▸ hstream⟩
  · intro trans
    have hfifo := hinv.fifo trans
    dsimp only
    rw [happ.queueOf, ← append_assoc]
    change s.transmittedIn trans ++ _ ++ _ = node.packets trans
    rw [hfifo]
    by_cases htrans : trans = s.node.srp.waitingTransAck
    · rw [if_pos htrans, htrans, hin]
    · obtain rfl : trans = !s.node.srp.waitingTransAck := by
        cases trans <;> cases hwait : s.node.srp.waitingTransAck <;> simp_all
      rw [if_neg (by simp), hout, append_nil]
  · exact hunsplit
  · simpa only [happ.waitingTransAck] using hlast
  · intro hwait
    dsimp only at hwait ⊢
    rw [happ.waitingTransAck] at hwait
    obtain ⟨q, -, hsrp⟩ := happ.srp_eq
    rw [hsrp]
    simp only [Instance.withApplicationQueue, hwait, Bool.false_eq_true, if_false]
    exact hinv.drained hwait

/-- The invariant after a change of the instance that does not switch the queues. -/
theorem changeSrp (hinv : s.SwitchInv buffer) {srp : Instance} {transmitted : List QueuedPacket}
    (hwait : srp.waitingTransAck = s.node.srp.waitingTransAck)
    (hfifo : ∀ trans, { s with transmitted := transmitted }.transmittedIn trans ++
      (applicationQueueOf srp trans).items.map payload = s.node.packets trans)
    (hdrained : s.node.srp.waitingTransAck = false → srp.newMessageQueueTrans.items = []) :
    SwitchInv buffer
      { s with node := { s.node with srp := srp }, transmitted := transmitted } := by
  constructor
  · simp only [hwait]
    exact hinv.current
  · simp only [hwait]
    exact hinv.other
  · exact hfifo
  · exact hinv.unsplit
  · simp only [hwait]
    exact hinv.last
  · simp only [hwait]
    exact hdrained

/-- Packets that are sent leave their queue. -/
theorem transmit (hinv : s.SwitchInv buffer) {srp : Instance}
    {taken messages : List Mcast} {rest : CsQueue Mcast}
    (htakes : Totemsrp.Takes s.node.srp srp taken messages rest) :
    SwitchInv buffer { s with
      node := { s.node with srp := srp }
      transmitted := s.transmitted ++ s.sentPackets srp } := by
  have hwait := waitingTransAck_of_takes htakes
  have hsent : s.sentPackets srp = if s.node.srp.membState = .recovery then []
      else (messages.map payload).map (QueuedPacket.mk s.node.srp.waitingTransAck) := by
    unfold sentPackets
    rw [htakes.sent_eq, List.drop_left, List.map_map]
    rfl
  have hfifo : ∀ trans, (s.sentPackets srp |>.filter fun packet => packet.trans == trans).map
      QueuedPacket.bytes ++ (applicationQueueOf srp trans).items.map payload =
        (applicationQueueOf s.node.srp trans).items.map payload := by
    intro trans
    rw [hsent]
    by_cases hstate : s.node.srp.membState = .recovery
    · rw [if_pos hstate, queueOf_of_takes_recovery htakes hstate]
      rfl
    rw [if_neg hstate, ← queueOf_of_takes htakes hstate trans]
    congr 1
    by_cases htrans : trans = s.node.srp.waitingTransAck
    · rw [if_pos htrans, filter_eq_self.mpr (by simp [htrans])]
      simp [Function.comp_def]
    · rw [if_neg htrans, filter_eq_nil_iff.mpr (by simp [Ne.symm htrans])]
      rfl
  refine hinv.changeSrp hwait (fun trans => ?_) fun hfalse => ?_
  · rw [← hinv.fifo trans, ← hfifo trans, ← append_assoc]
    simp [transmittedIn, filter_append]
  · -- what remains of an empty queue is empty
    have hitems := hfifo true
    have hempty : (applicationQueueOf s.node.srp true).items = [] := hinv.drained hfalse
    rw [hempty, map_nil, append_eq_nil_iff] at hitems
    exact map_eq_nil_iff.mp hitems.2

/-- A switch of the queues with nothing staged. -/
theorem switch (hinv : s.SwitchInv buffer) (hlens : s.node.pg.packedMsgLens = [])
    (hdrained : s.node.srp.waitingTransAck = true → s.node.srp.newMessageQueueTrans.items = []) :
    SwitchInv buffer { s with node := { s.node with
      srp := { s.node.srp with waitingTransAck := !s.node.srp.waitingTransAck } } } := by
  obtain ⟨delivered, part, hcurrent⟩ := hinv.current
  obtain ⟨delivered', part', hother⟩ := hinv.other
  obtain ⟨hinitLens, hinitData, hinitCont⟩ := hcurrent.initial_iff hlens
  constructor
  · exact ⟨delivered', part', hother.congr hinitLens hinitData hinitCont⟩
  · simp only [Bool.not_not]
    exact ⟨delivered, part, hcurrent.congr hinitLens.symm hinitData.symm hinitCont.symm⟩
  · exact hinv.fifo
  · exact hinv.unsplit
  · intro packet hpacket hfragmented
    refine absurd ?_ hfragmented
    -- the last packet belongs to the queue that was in use, and nothing is continued there
    have hwait := hinv.last packet hpacket hfragmented
    have hlast : packet.bytes ∈ (s.node.packets s.node.srp.waitingTransAck).getLast? := by
      obtain ⟨front, hfront⟩ := getLast?_eq_some_iff.mp hpacket
      simp only [mem_def, Node.packets]
      rw [hfront, filter_append, map_append]
      simp [hwait]
    rw [hcurrent.last_eq packet.bytes hlast, hinitCont]
    rfl
  · intro hwait
    exact hdrained (by simpa using hwait)

/-- Every event keeps the invariant when the switches are ready. -/
theorem step {s' : System} {e : Event} (hinv : s.SwitchInv buffer)
    (hsize : e.AtMost buffer.messageMax) (hready : s.SwitchReady e)
    (hstep : s.step config e = some s') : s'.SwitchInv buffer := by
  obtain ⟨delivered, part, hcurrent⟩ := hinv.current
  cases e with
  | mcast _ =>
    obtain ⟨⟨node, taken⟩, hmcast, heq⟩ := bind_eq_some_iff.mp hstep
    cases heq
    obtain ⟨new, delivered', part', happ, hstream⟩ := hcurrent.mcastMsg hsize hmcast
    refine hinv.append happ ⟨delivered', part', ?_⟩ ?_
    · split at hstream
      · next hbytes => simpa [acceptedIn, hbytes] using hstream
      · next hbytes => simpa [acceptedIn, hbytes] using hstream
    · split
      · simp [acceptedIn, filter_append]
      · rfl
  | tokenReceived =>
    obtain ⟨node, hcallback, rfl⟩ := map_eq_some_iff.mp hstep
    obtain ⟨new, delivered', part', happ, hstream⟩ := hcurrent.callbackTokenReceivedFn hcallback
    exact hinv.append happ ⟨delivered', part', hstream⟩ rfl
  | transmit _ _ =>
    obtain ⟨⟨srp, token', sent⟩, hmcast, heq⟩ := bind_eq_some_iff.mp hstep
    cases heq
    obtain ⟨taken, messages, rest, htakes⟩ := Totemsrp.orfTokenMcast_takes hmcast
    exact hinv.transmit htakes
  | other _ =>
    cases hstep
    exact hinv.changeSrp rfl hinv.fifo hinv.drained
  | waitTransAck =>
    cases hstep
    by_cases hwait : s.node.srp.waitingTransAck = true
    · exact hinv.changeSrp hwait.symm hinv.fifo hinv.drained
    · have hnew := hinv.switch (hready.resolve_left hwait) fun htrue => absurd htrue hwait
      rw [Bool.eq_false_of_not_eq_true hwait] at hnew
      exact hnew
  | transAck =>
    cases hstep
    by_cases hwait : s.node.srp.waitingTransAck = false
    · exact hinv.changeSrp hwait.symm hinv.fifo hinv.drained
    · obtain ⟨hlens, hitems⟩ := hready.resolve_left hwait
      have hnew := hinv.switch hlens fun _ => hitems
      rw [Bool.eq_true_of_not_eq_false hwait] at hnew
      exact hnew

end System.SwitchInv

/-- A node that has not been used, above an instance with empty application queues. -/
structure System.Idle (s : System) : Prop extends s.Fresh where
  transmitted_eq : s.transmitted = []
  queues_eq : ∀ trans, (applicationQueueOf s.node.srp trans).items = []

/-- The invariant holds at the start. -/
theorem System.Idle.switchInv {s : System} (hidle : s.Idle) {config : PgConfig}
    (buffer : Buffer config) : s.SwitchInv buffer where
  current := by
    refine ⟨[], [], ?_⟩
    simp only [Node.packets, System.acceptedIn, hidle.queued_eq, hidle.accepted_eq, hidle.pg_eq]
    exact .nil buffer
  other := by
    refine ⟨[], [], ?_⟩
    simp only [Node.packets, System.acceptedIn, hidle.queued_eq, hidle.accepted_eq]
    exact .nil buffer
  fifo := by
    intro trans
    simp [System.transmittedIn, Node.packets, hidle.transmitted_eq, hidle.queues_eq,
      hidle.queued_eq]
  unsplit := by
    rw [hidle.queued_eq]
    exact List.IsChain.nil
  last := by simp [hidle.queued_eq]
  drained := fun _ => hidle.queues_eq true

/-- As long as nothing is staged when the queues are switched and the transitional queue is empty
when it is left: all packets of a message are in one queue, each queue is sent in order, the
transitional queue is empty whenever it is not in use, and a receiver with a large enough buffer
rebuilds from each queue the messages that were accepted for it, in order. -/
theorem switch_keeps_messages {config : PgConfig} (buffer : Buffer config) {s s' : System}
    {events : List Event} (hidle : s.Idle) (hsize : ∀ e ∈ events, e.AtMost buffer.messageMax)
    (hrun : Library.run (Library.restrict System.SwitchReady (System.step config)) s events =
      some s') :
    System.Unsplit s'.node.queued ∧
    (∀ trans, s'.transmittedIn trans ++ (applicationQueueOf s'.node.srp trans).items.map payload =
      s'.node.packets trans) ∧
    (s'.node.srp.waitingTransAck = false → s'.node.srp.newMessageQueueTrans.items = []) ∧
    ∀ trans, ∃ inuse delivered staged,
      deliverAll buffer.size none (s'.node.packets trans) = some (inuse, delivered) ∧
      s'.acceptedIn trans = delivered ++ staged ∧
      (staged = [] ∨ trans = s'.node.srp.waitingTransAck ∧ s'.node.pg.packedMsgLens ≠ []) := by
  have hinv : s'.SwitchInv buffer := Library.run_invariant_of_forall
    (fun _ _ _ hsize hinv hstep =>
      have hboth := Library.restrict_eq_some.mp hstep
      hinv.step hsize hboth.1 hboth.2) hsize (hidle.switchInv buffer) hrun
  refine ⟨hinv.unsplit, hinv.fifo, hinv.drained, fun trans => ?_⟩
  by_cases htrans : trans = s'.node.srp.waitingTransAck
  · obtain ⟨delivered, part, hstream⟩ := hinv.current
    obtain ⟨inuse, hdeliver, -⟩ := hstream.deliver
    rw [htrans]
    refine ⟨inuse, delivered, _, hdeliver, hstream.accepted_eq, ?_⟩
    by_cases hlens : s'.node.pg.packedMsgLens = []
    · left
      rw [hlens]
      rfl
    · exact Or.inr ⟨rfl, hlens⟩
  · obtain ⟨delivered, part, hstream⟩ := hinv.other
    obtain ⟨inuse, hdeliver, -⟩ := hstream.deliver
    obtain rfl : trans = !s'.node.srp.waitingTransAck := by
      cases trans <;> cases hwait : s'.node.srp.waitingTransAck <;> simp_all
    exact ⟨inuse, delivered, [], hdeliver, by simpa [Staging.initial, continued] using
      hstream.accepted_eq, Or.inl rfl⟩

/-- A receiver for small packets. -/
def smallBuffer : Buffer smallPackets where
  size := messageSizeMax + 16
  messageMax := messageSizeMax
  pos := by decide
  fits := le_rfl

/-- A token of a ring on which nothing was sent. -/
def firstToken : OrfToken where
  seq := 0
  tokenSeq := 0
  aru := 0
  aruAddr := 0
  ringId := ⟨0, 0⟩
  backlog := 0
  fcc := 0
  retransFlg := false
  rtrList := []

/-- A message is flushed and transmitted before the acknowledgement, another one after it. -/
def orderlySwitch : List Event :=
  [.mcast [[1, 2]], .tokenReceived, .transmit firstToken 10, .transAck, .mcast [[3]],
    .tokenReceived]

/-- An orderly switch keeps its messages. -/
theorem switch_keeps_messages_orderlySwitch :
    ∃ s, Library.run (Library.restrict System.SwitchReady (System.step smallPackets)) newNode
        orderlySwitch = some s ∧ System.Unsplit s.node.queued ∧
      (∀ trans, s.transmittedIn trans ++
        (applicationQueueOf s.node.srp trans).items.map payload = s.node.packets trans) ∧
      (s.node.srp.waitingTransAck = false → s.node.srp.newMessageQueueTrans.items = []) ∧
      ∀ trans, ∃ inuse delivered staged,
        deliverAll smallBuffer.size none (s.node.packets trans) = some (inuse, delivered) ∧
        s.acceptedIn trans = delivered ++ staged ∧
        (staged = [] ∨ trans = s.node.srp.waitingTransAck ∧ s.node.pg.packedMsgLens ≠ []) :=
  ⟨_, rfl, @switch_keeps_messages smallPackets smallBuffer newNode _ orderlySwitch
    ⟨⟨rfl, rfl, rfl⟩, rfl, by decide⟩ (by decide) rfl⟩

/-- The acknowledgement comes while a message is partly queued and partly staged. -/
def earlyAck : List Event := [.mcast [[1, 2, 3, 4, 5, 6], [7]], .transAck, .tokenReceived]

/-- The first packet is stranded in the transitional queue, and the rest of its message is in the
other one. -/
theorem earlyAck_splits_message :
    ∃ s, Library.run (System.step smallPackets) newNode earlyAck = some s ∧
      s.node.srp.waitingTransAck = false ∧ s.node.srp.newMessageQueueTrans.items ≠ [] ∧
      ¬System.Unsplit s.node.queued :=
  ⟨_, rfl, rfl, by decide, by decide⟩

end Corosync.Totempg
