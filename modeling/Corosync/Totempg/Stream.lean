import Corosync.Totempg.Assembly
import Corosync.Totempg.Mcast
import Mathlib.Algebra.Order.BigOperators.Group.List

/-!
# The stream of packets

The packets a node queues, fed to the assembly of a receiver, give back the accepted messages, up to
those that are still staged. `Stream` states this between two calls and `InProgress` inside the
loop of `mcast_msg`; every packet that is sent takes one `InProgress` state to the next.
-/

namespace Corosync.Totemsrp.Instance

open List Option

variable (inst : Instance)

/-- The message `totemsrp_mcast` makes of application data. -/
def applicationMessage (data : List UInt8) : Mcast :=
  .plain { nodeid := inst.myId, systemFrom := inst.myId, seq := 0, ringId := ⟨0, 0⟩ } data

/-- Replaces the queue `totemsrp_mcast` adds to. -/
def withApplicationQueue (q : CsQueue Mcast) : Instance :=
  { inst with
    newMessageQueueTrans := if inst.waitingTransAck then q else inst.newMessageQueueTrans
    newMessageQueue := if inst.waitingTransAck then inst.newMessageQueue else q }

/-- The queue that was put in. -/
@[simp] theorem applicationQueue_withApplicationQueue (q : CsQueue Mcast) :
    (inst.withApplicationQueue q).applicationQueue = q := by
  unfold applicationQueue withApplicationQueue
  dsimp only
  cases inst.waitingTransAck <;> rfl

/-- The last queue that is put in counts. -/
@[simp] theorem withApplicationQueue_withApplicationQueue (q q' : CsQueue Mcast) :
    (inst.withApplicationQueue q).withApplicationQueue q' = inst.withApplicationQueue q' := by
  unfold withApplicationQueue
  dsimp only
  cases inst.waitingTransAck <;> rfl

/-- Putting the same queue in changes nothing. -/
@[simp] theorem withApplicationQueue_self :
    inst.withApplicationQueue inst.applicationQueue = inst := by
  unfold withApplicationQueue applicationQueue
  split <;> rfl

/-- `totemsrp_mcast` adds a message to the queue unless it is full. -/
theorem totemsrpMcast_eq (data : List UInt8) :
    inst.totemsrpMcast data =
      if inst.applicationQueue.isFull then some inst
      else (inst.applicationQueue.itemAdd (inst.applicationMessage data)).map
        inst.withApplicationQueue := by
  unfold totemsrpMcast applicationQueue withApplicationQueue applicationMessage
  cases hwaiting : inst.waitingTransAck <;>
    simp only [Bool.false_eq_true, if_false, if_true, map_eq_bind] <;> rfl

/-- While a slot is available the message is appended to the queue. -/
theorem totemsrpMcast_of_avail {inst : Instance} {avail : ℕ} (data : List UInt8)
    (havail : inst.totemsrpAvail = some avail) (hpos : 0 < avail) :
    ¬inst.applicationQueue.isFull = true ∧
      ∃ q, q.items = inst.applicationQueue.items ++ [inst.applicationMessage data] ∧
        q.avail = some (avail - 1) ∧
        inst.totemsrpMcast data = some (inst.withApplicationQueue q) := by
  simp only [totemsrpAvail, CsQueue.avail, assertThat_bind_eq_some, Option.pure_def,
    Option.some.injEq] at havail
  obtain ⟨-, rfl⟩ := havail
  have hfull : ¬inst.applicationQueue.isFull = true := by
    simp only [CsQueue.isFull, beq_iff_eq]
    omega
  obtain ⟨q, hadd⟩ := CsQueue.itemAdd_isSome hfull (inst.applicationMessage data)
  obtain ⟨hitems, hsize⟩ := CsQueue.itemAdd_eq_some hadd
  refine ⟨hfull, q, hitems, ?_, by rw [totemsrpMcast_eq, if_neg hfull, hadd, Option.map_some]⟩
  have hused : q.used = inst.applicationQueue.used + 1 := by
    simp [CsQueue.used, hitems]
  simp only [CsQueue.avail, hused, hsize, Option.pure_def]
  rw [assertThat_bind_of_true (by omega), Nat.sub_sub, Nat.sub_sub, Nat.sub_sub]

end Corosync.Totemsrp.Instance

namespace Corosync.Totempg

open List Option

open Totemsrp (Instance)

/-- The packets `new` went to the queue of the application, and nothing else changed below. -/
structure Appends (node node' : Node) (new : List (List UInt8)) : Prop where
  queued_eq : node'.queued = node.queued ++ new.map (QueuedPacket.mk node.srp.waitingTransAck)
  srp_eq : ∃ q, q.items = node.srp.applicationQueue.items ++ new.map node.srp.applicationMessage ∧
    node'.srp = node.srp.withApplicationQueue q

/-- Nothing is appended as long as only the packing state changes. -/
theorem Appends.nil {node node' : Node} (hqueued : node'.queued = node.queued)
    (hsrp : node'.srp = node.srp) : Appends node node' [] where
  queued_eq := by simp [hqueued]
  srp_eq := ⟨node.srp.applicationQueue, by simp, by simp [hsrp]⟩

/-- New packets do not switch the queue. -/
theorem Appends.waitingTransAck {node node' : Node} {new : List (List UInt8)}
    (happ : Appends node node' new) : node'.srp.waitingTransAck = node.srp.waitingTransAck := by
  obtain ⟨q, -, hsrp⟩ := happ.srp_eq
  rw [hsrp]
  rfl

/-- Packets one after the other. -/
theorem Appends.trans {first second third : Node} {new new' : List (List UInt8)}
    (happ : Appends first second new) (happ' : Appends second third new') :
    Appends first third (new ++ new') := by
  obtain ⟨q, hitems, hsrp⟩ := happ.srp_eq
  obtain ⟨q', hitems', hsrp'⟩ := happ'.srp_eq
  refine ⟨?_, q', ?_, ?_⟩
  · rw [happ'.queued_eq, happ.queued_eq, happ.waitingTransAck, map_append, append_assoc]
  · rw [hitems', hsrp, Instance.applicationQueue_withApplicationQueue, hitems, map_append,
      append_assoc]
    rfl
  · rw [hsrp', hsrp, Instance.withApplicationQueue_withApplicationQueue]

/-- With a slot a packet is queued. -/
theorem Node.mcast_of_avail {node : Node} {avail : ℕ} (packet : Packet)
    (havail : node.srp.totemsrpAvail = some avail) (hpos : 0 < avail) :
    ∃ node', node.mcast packet = some (node', true) ∧ node'.pg = node.pg ∧
      node'.srp.totemsrpAvail = some (avail - 1) ∧ Appends node node' [packet.encode] := by
  obtain ⟨hfull, q, hitems, hleft, hmcast⟩ :=
    Instance.totemsrpMcast_of_avail packet.encode havail hpos
  refine ⟨{ node with
      srp := node.srp.withApplicationQueue q
      queued := node.queued ++ [⟨node.srp.waitingTransAck, packet.encode⟩] }, ?_, rfl, ?_, ?_⟩
  · simp only [Node.mcast, hmcast, Option.bind_eq_bind, Option.bind_some, if_neg hfull,
      Option.pure_def]
  · simpa [Instance.totemsrpAvail] using hleft
  · exact ⟨rfl, q, hitems, rfl⟩

section Messages

variable {part data x : List UInt8} {delivered accepted : List (List UInt8)}
  {lens : List ℕ} {current : ℕ}

/-- Bytes added to the last piece are added to the last message. -/
theorem continued_extend (chunk : List UInt8) {pieces : List (List UInt8)} {piece : List UInt8}
    (hmessages : delivered ++ continued part (pieces ++ [piece]) = accepted ++ [x]) :
    delivered ++ continued part (pieces ++ [piece ++ chunk]) = accepted ++ [x ++ chunk] := by
  cases pieces with
  | nil =>
    obtain ⟨rfl, hlast⟩ := append_inj' hmessages rfl
    rw [← singleton_inj.mp hlast]
    simp [continued]
  | cons _ _ =>
    simp only [cons_append, continued] at hmessages ⊢
    rw [← cons_append, ← append_assoc] at hmessages ⊢
    obtain ⟨rfl, hlast⟩ := append_inj' hmessages rfl
    rw [singleton_inj.mp hlast]

/-- Bytes that are packed at the end belong to the message that is being packed. -/
theorem messages_extend (chunk : List UInt8) (hsum : lens.sum + current = data.length)
    (hmessages : delivered ++ continued part ((lens ++ [current]).splitLengths data) =
      accepted ++ [x]) :
    delivered ++ continued part
        ((lens ++ [current + chunk.length]).splitLengths (data ++ chunk)) =
      accepted ++ [x ++ chunk] := by
  have hfront : lens.splitLengths (data ++ chunk) = lens.splitLengths data := by
    have hle : lens.sum ≤ data.length := by omega
    clear hmessages hsum
    induction lens generalizing data with
    | nil => rfl
    | cons _ _ ih =>
      rw [sum_cons] at hle
      rw [splitLengths_cons, splitLengths_cons, take_append_of_le_length (by omega),
        drop_append_of_le_length (by omega), ih (by simp; omega)]
  rw [splitLengths_append, splitLengths_cons, splitLengths_nil] at hmessages ⊢
  rw [hfront, drop_append_of_le_length (by omega), take_of_length_le (by simp; omega)]
  rw [take_of_length_le (by simp; omega)] at hmessages
  exact continued_extend chunk hmessages

end Messages

/-- An assembly buffer of `size` bytes holds a part of a message of at most `messageMax` bytes and
one more packet. -/
structure Buffer (config : PgConfig) where
  size : ℕ
  messageMax : ℕ
  pos : 0 < messageMax
  fits : messageMax + config.netMtu ≤ size

/-- Whether and how the last message of a packet is continued. -/
def fragmentedOf (bytes : List UInt8) : UInt8 :=
  match Packet.decode bytes with
  | none => 0
  | some packet => packet.fragmented

/-- A receiver that got `packets` has handed over the messages `delivered` and holds the bytes
`part` of the next one. -/
structure Delivered {config : PgConfig} (buffer : Buffer config)
    (packets delivered : List (List UInt8))
    (part : List UInt8) (last : UInt8) : Prop where
  deliver : ∃ inuse, deliverAll buffer.size none packets = some (inuse, delivered) ∧
    Holds inuse part last
  part_lt : part.length < buffer.messageMax
  last_eq : ∀ bytes ∈ packets.getLast?, fragmentedOf bytes = last

/-- Without packets nothing is delivered. -/
theorem Delivered.nil {config : PgConfig} (buffer : Buffer config) :
    Delivered buffer [] [] [] 0 where
  deliver := ⟨none, rfl, .fresh⟩
  part_lt := buffer.pos
  last_eq := by simp

section Delivered

variable {config : PgConfig} {buffer : Buffer config} {packets delivered : List (List UInt8)}
  {part : List UInt8}
  {packet : Packet}

/-- The header of a packet tells whether it ends in a fragment. -/
theorem fragmentedOf_encode (hwf : packet.WellFormed) :
    fragmentedOf packet.encode = packet.fragmented := by
  rw [fragmentedOf, Packet.decode_encode hwf]

/-- A packet whose last message is complete delivers all its messages. -/
theorem Delivered.complete
    (hdelivered : Delivered buffer packets delivered part packet.continuation)
    (hwf : packet.WellFormed) (hwhole : packet.fragmented = 0)
    (hfits : packet.encode.length ≤ config.netMtu) :
    Delivered buffer (packets ++ [packet.encode])
      (delivered ++ continued part (packet.lens.splitLengths packet.data)) [] 0 := by
  obtain ⟨inuse, hall, hholds⟩ := hdelivered.deliver
  have hroom : part.length + packet.encode.length < buffer.size :=
    (Nat.add_lt_add_of_lt_of_le hdelivered.part_lt hfits).trans_le buffer.fits
  have hmsg := hholds.deliver_complete hwf hwhole hroom
  refine ⟨⟨none, deliverAll_concat hall hmsg, .fresh⟩, buffer.pos, ?_⟩
  simp [fragmentedOf_encode hwf, hwhole]

/-- A packet whose last message is continued delivers the others. -/
theorem Delivered.fragment {messages : List (List UInt8)} {last : List UInt8}
    (hdelivered : Delivered buffer packets delivered part packet.continuation)
    (hwf : packet.WellFormed) (hfragment : packet.fragmented ≠ 0)
    (hmessages : continued part (packet.lens.splitLengths packet.data) = messages ++ [last])
    (hlast : last.length < buffer.messageMax) (hfits : packet.encode.length ≤ config.netMtu) :
    Delivered buffer (packets ++ [packet.encode]) (delivered ++ messages) last
      packet.fragmented := by
  obtain ⟨inuse, hall, hholds⟩ := hdelivered.deliver
  have hroom : part.length + packet.encode.length < buffer.size :=
    (Nat.add_lt_add_of_lt_of_le hdelivered.part_lt hfits).trans_le buffer.fits
  obtain ⟨next, hmsg, hnext⟩ := hholds.deliver_fragment hwf hfragment hmessages hroom
  refine ⟨⟨next, deliverAll_concat hall hmsg, hnext⟩, hlast, ?_⟩
  simp [fragmentedOf_encode hwf]

end Delivered

/-- The state between two calls: the accepted messages are the delivered ones and the staged
ones, the first of which may have bytes in the assembly. -/
structure Stream {config : PgConfig} (buffer : Buffer config) (pg : Staging)
    (packets accepted delivered : List (List UInt8)) (part : List UInt8) : Prop
    extends Delivered buffer packets delivered part pg.fragmentContinuation where
  accepted_eq :
    accepted = delivered ++ continued part (pg.packedMsgLens.splitLengths pg.fragmentationData)
  sum_lens : pg.packedMsgLens.sum = pg.fragmentationData.length
  lens_pos : ∀ len ∈ pg.packedMsgLens, 0 < len
  idle : pg.packedMsgLens = [] → part = [] ∧ pg.fragmentContinuation = 0
  room : pg.fragmentationData.length + 2 * (pg.packedMsgLens.length + 1) < config.packetSize

/-- The state inside the loop of `mcast_msg`: the bytes `x` of the current message are packed. -/
structure InProgress {config : PgConfig} (buffer : Buffer config) (st : Packing)
    (packets accepted delivered : List (List UInt8)) (part x : List UInt8) : Prop
    extends Delivered buffer packets delivered part
      st.node.pg.fragmentContinuation where
  messages_eq : delivered ++ continued part
      ((st.node.pg.packedMsgLens ++ [st.current]).splitLengths st.node.pg.fragmentationData) =
    accepted ++ [x]
  sum_lens : st.node.pg.packedMsgLens.sum + st.current = st.node.pg.fragmentationData.length
  lens_pos : ∀ len ∈ st.node.pg.packedMsgLens, 0 < len
  max_eq : st.maxPacketSize + 2 * (st.node.pg.packedMsgLens.length + 1) = config.packetSize
  room : st.fragmentSize < st.maxPacketSize

/-- The packet size is between 5 and 65535. -/
theorem PgConfig.packetSize_bounds (config : PgConfig) :
    4 < config.packetSize ∧ config.packetSize < 65536 ∧
      mcastHeaderSize + config.packetSize = config.netMtu := by
  have hlow := config.lt_netMtu
  have hhigh := config.netMtu_lt
  unfold PgConfig.packetSize
  omega

/-- A message begins. -/
theorem Stream.start {config : PgConfig} {buffer : Buffer config} {node : Node}
    {packets accepted delivered : List (List UInt8)} {part : List UInt8}
    (hstream : Stream buffer node.pg packets accepted delivered part) :
    InProgress buffer
      { node := node
        current := 0
        maxPacketSize := config.packetSize - 2 * (node.pg.packedMsgLens.length + 1) }
      packets accepted delivered part [] where
  toDelivered := hstream.toDelivered
  messages_eq := by
    rw [hstream.accepted_eq, append_assoc]
    congr 1
    by_cases hlens : node.pg.packedMsgLens = []
    · simp [hlens, (hstream.idle hlens).1, continued]
    · obtain ⟨len, lens, hcons⟩ := exists_cons_of_ne_nil hlens
      rw [splitLengths_append, hcons]
      simp [continued]
  sum_lens := hstream.sum_lens
  lens_pos := hstream.lens_pos
  max_eq := by
    have hroom := hstream.room
    dsimp only
    omega
  room := by
    have hroom := hstream.room
    unfold Packing.fragmentSize
    dsimp only
    omega

/-- The numbers of fragments are not zero. -/
theorem Packing.fragmentNumber_ne_zero (st : Packing) : st.fragmentNumber ≠ 0 := by
  unfold fragmentNumber
  split
  · next hzero => rw [hzero]; decide
  · next hne => exact hne

section InProgress

variable {config : PgConfig} {buffer : Buffer config} {st : Packing}
  {packets accepted delivered : List (List UInt8)} {part x : List UInt8} {bytes : List UInt8}

/-- The limit of the loop is at least two bytes. -/
theorem InProgress.two_le
    (hprogress : InProgress buffer st packets accepted delivered part x) :
    2 ≤ st.maxPacketSize := by
  have hmax := hprogress.max_eq
  have hroom := hprogress.room
  have hsum := hprogress.sum_lens
  have hbounds := config.packetSize_bounds
  cases hlens : st.node.pg.packedMsgLens with
  | nil =>
    rw [hlens, length_nil] at hmax
    omega
  | cons len _ =>
    have hpos := hprogress.lens_pos len (by simp [hlens])
    rw [hlens, sum_cons] at hsum
    unfold Packing.fragmentSize at hroom
    omega

/-- A subtraction that does not wrap. -/
theorem sizeSub_of_le {a b : ℕ} (hle : b ≤ a) (hlt : a < 2 ^ 64) : sizeSub a b = a - b := by
  unfold sizeSub
  omega

/-- The room of a packet does not wrap. -/
theorem InProgress.sizeSub_maxPacketSize
    (hprogress : InProgress buffer st packets accepted delivered part x) :
    sizeSub st.maxPacketSize 2 = st.maxPacketSize - 2 := by
  have hmax := hprogress.max_eq
  have hbounds := config.packetSize_bounds
  exact sizeSub_of_le hprogress.two_le (by omega)

/-- Bytes are staged. -/
theorem InProgress.stage (hprogress : InProgress buffer st packets accepted delivered part x)
    (hfits : bytes.length + st.fragmentSize + 2 < st.maxPacketSize) :
    InProgress buffer (st.stage bytes) packets accepted delivered part
      (x ++ bytes) := by
  have hsum := hprogress.sum_lens
  have hmax := hprogress.max_eq
  have hbounds := config.packetSize_bounds
  have hcurrent : (st.current + bytes.length) % 65536 = st.current + bytes.length := by
    unfold Packing.fragmentSize at hfits
    exact Nat.mod_eq_of_lt (by omega)
  exact {
    toDelivered := hprogress.toDelivered
    messages_eq := by
      simpa only [Packing.stage, hcurrent] using
        messages_extend bytes hsum hprogress.messages_eq
    sum_lens := by
      simp only [Packing.stage, hcurrent, length_append]
      omega
    lens_pos := hprogress.lens_pos
    max_eq := hmax
    room := by
      simp only [Packing.stage, Packing.fragmentSize, length_append] at hfits ⊢
      omega }

/-- How much is staged then. -/
@[simp] theorem Packing.fragmentSize_stage (st : Packing) (bytes : List UInt8) :
    (st.stage bytes).fragmentSize = st.fragmentSize + bytes.length := by
  simp [stage, fragmentSize]

section

variable (hprogress : InProgress buffer st packets accepted delivered part x)

include hprogress

/-- The message ends in the packet that is staged. -/
theorem InProgress.finish (hcurrent : st.current ≠ 0)
    (hroom : st.fragmentSize + 2 < st.maxPacketSize) :
    Stream buffer st.finish.pg packets (accepted ++ [x]) delivered part := by
  have hmax := hprogress.max_eq
  unfold Packing.finish
  rw [if_neg hcurrent]
  exact {
    toDelivered := hprogress.toDelivered
    accepted_eq := hprogress.messages_eq.symm
    sum_lens := by
      rw [sum_append, sum_singleton]
      exact hprogress.sum_lens
    lens_pos := by
      exact forall_mem_append.mpr ⟨hprogress.lens_pos,
        forall_mem_singleton.mpr (Nat.pos_of_ne_zero hcurrent)⟩
    idle := fun hnil => absurd hnil (by simp)
    room := by
      unfold Packing.fragmentSize at hroom
      simp only [length_append, length_singleton]
      omega }

/-- The packet that is sent consists of the staged bytes and the next `copyLen` ones. -/
theorem InProgress.packet {copyLen : ℕ} (hcopy : copyLen ≤ bytes.length)
    (hfits : copyLen + st.fragmentSize ≤ st.maxPacketSize) (more : Bool) :
    (st.packet bytes copyLen more).lens = st.node.pg.packedMsgLens ++ [st.current + copyLen] ∧
    (st.packet bytes copyLen more).data =
      st.node.pg.fragmentationData ++ bytes.take copyLen ∧
    (st.packet bytes copyLen more).WellFormed ∧
    (st.packet bytes copyLen more).encode.length ≤ config.netMtu := by
  have hsum := hprogress.sum_lens
  have hmax := hprogress.max_eq
  have hbounds := config.packetSize_bounds
  have hsize : st.fragmentSize = st.node.pg.fragmentationData.length := rfl
  have hlens : (st.packet bytes copyLen more).lens =
      st.node.pg.packedMsgLens ++ [st.current + copyLen] := by
    simp only [Packing.packet]
    rw [Nat.mod_eq_of_lt (by omega)]
  have hdata : (st.packet bytes copyLen more).data =
      st.node.pg.fragmentationData ++ bytes.take copyLen := by
    simp only [Packing.packet]
    split
    · next hwhole =>
      -- only an empty staging buffer leaves a whole packet to the iovec
      have hnil : st.node.pg.fragmentationData = [] :=
        eq_nil_of_length_eq_zero (by omega)
      simp [hsize, hnil]
    · rfl
  have hlength : (st.packet bytes copyLen more).data.length = st.fragmentSize + copyLen := by
    rw [hdata, length_append, length_take, Nat.min_eq_left hcopy, hsize]
  refine ⟨hlens, hdata, ⟨?_, ?_, ?_⟩, ?_⟩
  · rw [hlens, length_append, length_singleton]
    omega
  · intro len hlen
    have hle : len ≤ (st.packet bytes copyLen more).lens.sum := le_sum_of_mem hlen
    rw [hlens, sum_append, sum_singleton] at hle
    omega
  · rw [hlens, hlength, sum_append, sum_singleton]
    omega
  · rw [Packet.length_encode, hlength, hlens, length_append, length_singleton]
    omega

/-- The messages of a packet that is sent. -/
theorem InProgress.packet_messages {copyLen : ℕ} (hcopy : copyLen ≤ bytes.length)
    (hfits : copyLen + st.fragmentSize ≤ st.maxPacketSize) (more : Bool) :
    delivered ++ continued part ((st.packet bytes copyLen more).lens.splitLengths
        (st.packet bytes copyLen more).data) = accepted ++ [x ++ bytes.take copyLen] := by
  obtain ⟨hlens, hdata, -⟩ := hprogress.packet hcopy hfits more
  have hextend := messages_extend (bytes.take copyLen) hprogress.sum_lens hprogress.messages_eq
  rw [length_take, Nat.min_eq_left hcopy] at hextend
  rw [hlens, hdata, hextend]

/-- After a packet whose last message goes on, the assembly holds what is packed of it. -/
theorem InProgress.sendMore {copyLen : ℕ} {node : Node} (hcopy : copyLen ≤ bytes.length)
    (hfits : copyLen + st.fragmentSize ≤ st.maxPacketSize)
    (hlt : x.length + copyLen < buffer.messageMax)
    (hnode : node.pg = (st.sending (st.packet bytes copyLen true) true).pg) :
    InProgress buffer (.reset config node)
      (packets ++ [(st.packet bytes copyLen true).encode]) accepted accepted
      (x ++ bytes.take copyLen) (x ++ bytes.take copyLen) := by
  obtain ⟨hlens, hdata, hwf, hlength⟩ := hprogress.packet hcopy hfits true
  have hmessages := hprogress.packet_messages hcopy hfits true
  have hbounds := config.packetSize_bounds
  obtain hnil | ⟨messages, last, hlast⟩ := eq_nil_or_concat (continued part
    ((st.packet bytes copyLen true).lens.splitLengths (st.packet bytes copyLen true).data))
  · rw [hlens, splitLengths_append] at hnil
    cases hpieces : st.node.pg.packedMsgLens.splitLengths (st.packet bytes copyLen true).data <;>
      simp [hpieces, continued] at hnil
  rw [concat_eq_append] at hlast
  rw [hlast, ← append_assoc] at hmessages
  obtain ⟨hfront, hpart⟩ := append_inj' hmessages rfl
  rw [singleton_inj.mp hpart] at hlast
  have hnew := hprogress.toDelivered.fragment hwf st.fragmentNumber_ne_zero hlast
    (by rw [length_append, length_take, Nat.min_eq_left hcopy]; exact hlt)
    hlength
  rw [hfront] at hnew
  exact {
    toDelivered := by
      simpa only [Packing.reset, hnode, Packing.sending] using hnew
    messages_eq := by simp [Packing.reset, continued]
    sum_lens := rfl
    lens_pos := by simp [Packing.reset]
    max_eq := by simp only [Packing.reset, length_nil]; omega
    room := by simp only [Packing.reset, Packing.fragmentSize, length_nil]; omega }

/-- After a packet that ends with the message everything is delivered. -/
theorem InProgress.sendLast {copyLen : ℕ} {node : Node} (hcopy : copyLen ≤ bytes.length)
    (hfits : copyLen + st.fragmentSize ≤ st.maxPacketSize)
    (hnode : node.pg = (st.sending (st.packet bytes copyLen false) false).pg) :
    Stream buffer (Packing.reset config node).finish.pg
      (packets ++ [(st.packet bytes copyLen false).encode])
      (accepted ++ [x ++ bytes.take copyLen]) (accepted ++ [x ++ bytes.take copyLen]) [] := by
  obtain ⟨hlens, hdata, hwf, hlength⟩ := hprogress.packet hcopy hfits false
  have hbounds := config.packetSize_bounds
  have hnew := hprogress.toDelivered.complete hwf rfl hlength
  rw [hprogress.packet_messages hcopy hfits false] at hnew
  have hcontinuation : node.pg.fragmentContinuation = 0 := by
    rw [hnode]
    rfl
  have hfinish : (Packing.reset config node).finish = (Packing.reset config node).node := if_pos rfl
  rw [hfinish]
  exact {
    toDelivered := by simpa only [Packing.reset, hcontinuation] using hnew
    accepted_eq := by simp [Packing.reset, continued]
    sum_lens := rfl
    lens_pos := by simp [Packing.reset]
    idle := fun _ => ⟨rfl, hcontinuation⟩
    room := by simp only [Packing.reset, length_nil]; omega }

end

end InProgress

end Corosync.Totempg
