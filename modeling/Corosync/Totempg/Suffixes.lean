import Corosync.Libknet
import Corosync.Totempg.QueueSwitch
import Corosync.Totempg.Sizes

/-!
# The assembly buffer

`totempg_deliver_fn` asserts that a packet fits behind what its assembly buffer holds. A sender
limits a message by the free slots of its queue only, which are enough for messages several times
the size of the buffer. A receiver that misses the beginning of a message throws its packets away,
but still counts their bytes, and those of a packet with the fragment number one twice. So two
receivers of the same packets differ by a factor of two at most.
-/

namespace Corosync.Totempg

open List Option Assembly

/-- `sizeof (assembly->data)` -/
def assemblyDataSize : ℕ := messageSizeMax + knetMaxPacketSize

/-- `index` of the assembly in use for a node, if there is one. -/
def indexOf (inuse : Option Assembly) : ℕ := (inuse.getD .fresh).index

section Receivers

variable {dataSize dataSize' : ℕ} {inuse inuse' next : Option Assembly} {msg : List UInt8}
  {delivered : List (List UInt8)} {packet : Packet} {msgs : List (List UInt8)}

/-- When `totempg_deliver_fn` returns, and what. -/
theorem totempgDeliverFn_eq_some
    (h : totempgDeliverFn dataSize inuse msg = some (next, delivered)) :
    (Packet.decode msg = none ∧ next = some (inuse.getD .fresh) ∧ delivered = []) ∨
      ∃ packet, Packet.decode msg = some packet ∧ indexOf inuse + msg.length < dataSize ∧
        next = (if packet.fragmented = 0 then none
          else some (((inuse.getD .fresh).receive packet).1.keepFragment packet)) ∧
        delivered = ((inuse.getD .fresh).receive packet).2 := by
  unfold totempgDeliverFn at h
  dsimp only at h
  split at h
  · rename_i hdecode
    simp only [some.injEq, Prod.mk.injEq] at h
    exact .inl ⟨hdecode, h.1.symm, h.2.symm⟩
  rename_i packet hdecode
  obtain ⟨hroom, h⟩ := assertThat_bind_eq_some.mp h
  refine .inr ⟨packet, hdecode, hroom, ?_⟩
  split at h
  · rename_i hzero
    simp only [Option.pure_def, Option.some.injEq, Prod.mk.injEq] at h
    rw [if_pos hzero]
    exact ⟨h.1.symm, h.2.symm⟩
  · rename_i hne
    simp only [Option.pure_def, Option.some.injEq, Prod.mk.injEq] at h
    rw [if_neg hne]
    exact ⟨h.1.symm, h.2.symm⟩

/-- The bytes of a packet that is only a part of one message are counted once or twice. -/
theorem index_receive (assembly : Assembly) (hfragment : packet.fragmented ≠ 0)
    (hsingle : ¬1 < packet.lens.length) :
    assembly.index ≤ (assembly.receive packet).1.index ∧
      (assembly.receive packet).1.index ≤ assembly.index + packet.lens.headD 0 := by
  have hcount : completeCount packet = 0 := by
    rw [completeCount, if_neg hfragment]
    omega
  unfold receive
  dsimp only
  rw [hcount, take_zero, sum_nil]
  split
  · split <;> simp
  · split <;> simp

/-- The part of a message that is kept of a packet. -/
theorem getD_completeCount (hfragment : packet.fragmented ≠ 0) (hsingle : ¬1 < packet.lens.length) :
    packet.lens.getD (completeCount packet) 0 = packet.lens.headD 0 := by
  rw [completeCount, if_neg hfragment, Nat.sub_eq_zero_of_le (by omega)]
  cases packet.lens <;> rfl

/-- What two receivers hold of a message after the same packet. -/
theorem index_keepFragment_le {assembly assembly' : Assembly} (hfragment : packet.fragmented ≠ 0)
    (hle : assembly'.index ≤ 2 * assembly.index) :
    ((assembly'.receive packet).1.keepFragment packet).index ≤
      2 * ((assembly.receive packet).1.keepFragment packet).index := by
  unfold keepFragment
  dsimp only
  by_cases hsingle : 1 < packet.lens.length
  · rw [if_pos hsingle, if_pos hsingle]
    dsimp only
    omega
  · have hlow := (index_receive assembly hfragment hsingle).1
    have hhigh := (index_receive assembly' hfragment hsingle).2
    rw [if_neg hsingle, if_neg hsingle, getD_completeCount hfragment hsingle]
    dsimp only
    omega

/-- A receiver with twice the buffer, and at most twice as many bytes in it, takes the packet
too. -/
theorem totempgDeliverFn_of_le (hle : indexOf inuse' ≤ 2 * indexOf inuse)
    (hsize : 2 * dataSize ≤ dataSize')
    (h : totempgDeliverFn dataSize inuse msg = some (next, delivered)) :
    ∃ next' delivered', totempgDeliverFn dataSize' inuse' msg = some (next', delivered') ∧
      indexOf next' ≤ 2 * indexOf next := by
  rcases totempgDeliverFn_eq_some h with ⟨hdecode, rfl, -⟩ | ⟨packet, hdecode, hroom, rfl, -⟩
  · refine ⟨some (inuse'.getD .fresh), [], ?_, hle⟩
    unfold totempgDeliverFn
    rw [hdecode]
  have hroom' : (inuse'.getD .fresh).index + msg.length < dataSize' := by
    unfold indexOf at hroom hle
    omega
  unfold totempgDeliverFn
  rw [hdecode]
  dsimp only
  rw [assertThat_bind_of_true hroom']
  by_cases hzero : packet.fragmented = 0
  · rw [if_pos hzero, if_pos hzero]
    exact ⟨none, _, rfl, Nat.zero_le _⟩
  · rw [if_neg hzero, if_neg hzero]
    exact ⟨_, _, rfl, index_keepFragment_le hzero hle⟩

/-- Twice the buffer is enough for an assembly that is twice as full. -/
theorem deliverAll_isSome_of_le (hsize : 2 * dataSize ≤ dataSize')
    (hle : indexOf inuse' ≤ 2 * indexOf inuse) (h : (deliverAll dataSize inuse msgs).isSome) :
    (deliverAll dataSize' inuse' msgs).isSome := by
  induction msgs generalizing inuse inuse' with
  | nil => rfl
  | cons _ _ ih =>
    obtain ⟨result, hresult⟩ := isSome_iff_exists.mp h
    simp only [deliverAll, bind_eq_bind, bind_eq_some_iff] at hresult
    obtain ⟨⟨next, delivered⟩, hfirst, rest, hrest, -⟩ := hresult
    obtain ⟨next', delivered', hfirst', hle'⟩ := totempgDeliverFn_of_le hle hsize hfirst
    obtain ⟨rest', hrest'⟩ := isSome_iff_exists.mp
      (ih hle' (isSome_iff_exists.mpr ⟨rest, hrest⟩))
    simp [deliverAll, hfirst', hrest']

/-- A part of the packets and the rest. -/
theorem deliverAll_append {front back : List (List UInt8)}
    (h : (deliverAll dataSize inuse (front ++ back)).isSome) :
    ∃ mid delivered, deliverAll dataSize inuse front = some (mid, delivered) ∧
      (deliverAll dataSize mid back).isSome := by
  induction front generalizing inuse with
  | nil => exact ⟨inuse, [], rfl, h⟩
  | cons _ _ ih =>
    obtain ⟨result, hresult⟩ := isSome_iff_exists.mp h
    simp only [cons_append, deliverAll, bind_eq_bind,
      bind_eq_some_iff] at hresult
    obtain ⟨⟨next, delivered⟩, hfirst, rest, hrest, -⟩ := hresult
    obtain ⟨mid, others, hfront, hback⟩ := ih (isSome_iff_exists.mpr ⟨rest, hrest⟩)
    exact ⟨mid, delivered ++ others, by simp [deliverAll, hfirst, hfront], hback⟩

/-- Whoever gets some packets of a stream, from anywhere in it, needs at most twice the buffer of a
receiver that gets all of them. -/
theorem deliverAll_infix {msgs part : List (List UInt8)} (hsize : 2 * dataSize ≤ dataSize')
    (hwithin : part <:+: msgs) (h : (deliverAll dataSize none msgs).isSome) :
    (deliverAll dataSize' none part).isSome := by
  obtain ⟨front, back, rfl⟩ := hwithin
  obtain ⟨mid, delivered, hfront, -⟩ := deliverAll_append h
  obtain ⟨first, _, hfirst, hpart⟩ := deliverAll_append (isSome_iff_exists.mpr ⟨_, hfront⟩)
  exact deliverAll_isSome_of_le hsize (Nat.zero_le _) hpart

/-- A larger buffer changes nothing. -/
theorem totempgDeliverFn_mono (hle : dataSize ≤ dataSize')
    (h : totempgDeliverFn dataSize inuse msg = some (next, delivered)) :
    totempgDeliverFn dataSize' inuse msg = some (next, delivered) := by
  rcases totempgDeliverFn_eq_some h with ⟨hdecode, rfl, rfl⟩ | ⟨packet, hdecode, hroom, rfl, rfl⟩
  · unfold totempgDeliverFn
    rw [hdecode]
  have hroom' : (inuse.getD .fresh).index + msg.length < dataSize' :=
    Nat.lt_of_lt_of_le hroom hle
  unfold totempgDeliverFn
  rw [hdecode]
  dsimp only
  rw [assertThat_bind_of_true hroom']
  split <;> rfl

/-- The same for all packets. -/
theorem deliverAll_mono (hle : dataSize ≤ dataSize')
    (h : deliverAll dataSize inuse msgs = some (next, delivered)) :
    deliverAll dataSize' inuse msgs = some (next, delivered) := by
  induction msgs generalizing inuse delivered with
  | nil => exact h
  | cons _ _ ih =>
    simp only [deliverAll, bind_eq_bind, bind_eq_some_iff] at h ⊢
    obtain ⟨⟨mid, first⟩, hfirst, ⟨last, others⟩, hrest, heq⟩ := h
    simp only [Option.pure_def, Option.some.injEq, Prod.mk.injEq] at heq
    obtain ⟨rfl, rfl⟩ := heq
    exact ⟨_, totempgDeliverFn_mono hle hfirst, _, ih hrest, rfl⟩

/-- The messages of a packet fit in it. -/
theorem sum_lens_le_of_decode (h : Packet.decode msg = some packet) :
    packet.lens.sum ≤ msg.length := by
  unfold Packet.decode at h
  split at h
  · dsimp only at h
    split at h
    · exact absurd h nofun
    split at h
    · exact absurd h nofun
    · rename_i hlength
      cases h
      simp only [length_cons]
      omega
  · exact absurd h nofun

/-- A message is at most as long as the bytes of its packet. -/
theorem length_le_of_mem_deliverRest {data : ℕ → UInt8} {lens : List ℕ} {index : ℕ}
    {message : List UInt8} (hmem : message ∈ deliverRest data index lens) :
    message.length ≤ lens.sum := by
  induction lens generalizing index with
  | nil => cases hmem
  | cons _ _ ih =>
    rw [sum_cons]
    rcases mem_cons.mp hmem with rfl | hrest
    · rw [length_slice]
      omega
    · have hle := ih hrest
      omega

/-- A delivered message fits in the buffer. -/
theorem length_lt_of_mem_delivered
    (h : totempgDeliverFn dataSize inuse msg = some (next, delivered)) {message : List UInt8}
    (hmem : message ∈ delivered) : message.length < dataSize := by
  rcases totempgDeliverFn_eq_some h with ⟨-, -, rfl⟩ | ⟨packet, hdecode, hroom, -, rfl⟩
  · cases hmem
  have hsum := sum_lens_le_of_decode hdecode
  unfold indexOf at hroom
  unfold receive at hmem
  dsimp only at hmem
  split at hmem
  · split at hmem <;> cases hmem
  split at hmem
  · have hle : (packet.lens.take (completeCount packet)).sum ≤ packet.lens.sum :=
      (take_sublist _ _).sum_le_sum (by simp)
    cases hlens : packet.lens.take (completeCount packet) with
    | nil =>
      rw [hlens] at hmem
      cases hmem
    | cons _ _ =>
      rw [hlens] at hmem hle
      rw [sum_cons] at hle
      rcases mem_cons.mp hmem with rfl | hrest
      · rw [length_slice]
        omega
      · have hlast := length_le_of_mem_deliverRest hrest
        omega
  · cases hmem

/-- Even where its bytes are counted twice, a packet leaves less than twice the buffer. -/
theorem indexOf_lt (hindex : indexOf inuse < 2 * dataSize)
    (h : totempgDeliverFn dataSize inuse msg = some (next, delivered)) :
    indexOf next < 2 * dataSize := by
  rcases totempgDeliverFn_eq_some h with ⟨-, rfl, -⟩ | ⟨packet, hdecode, hroom, rfl, -⟩
  · exact hindex
  have hsum := sum_lens_le_of_decode hdecode
  by_cases hzero : packet.fragmented = 0
  · rw [if_pos hzero]
    exact Nat.zero_lt_of_lt hindex
  rw [if_neg hzero]
  unfold indexOf at hroom ⊢
  rw [getD_some, keepFragment]
  split
  · have hlen : packet.lens.getD (completeCount packet) 0 ≤ packet.lens.sum := by
      rw [getD_eq_getElem?_getD]
      cases hget : packet.lens[completeCount packet]? with
      | none => exact Nat.zero_le _
      | some len => exact single_le_sum (fun _ _ => Nat.zero_le _) len (mem_of_getElem? hget)
    dsimp only
    omega
  · rename_i hsingle
    have hlen : packet.lens.headD 0 ≤ packet.lens.sum := by
      cases packet.lens <;> simp
    have hhigh := (index_receive (inuse.getD .fresh) hzero hsingle).2
    rw [getD_completeCount hzero hsingle]
    dsimp only
    omega

/-- The same for any number of packets. -/
theorem deliverAll_bounds (hindex : indexOf inuse < 2 * dataSize)
    (h : deliverAll dataSize inuse msgs = some (next, delivered)) :
    indexOf next < 2 * dataSize ∧ ∀ message ∈ delivered, message.length < dataSize := by
  induction msgs generalizing inuse delivered with
  | nil =>
    simp only [deliverAll, some.injEq, Prod.mk.injEq] at h
    obtain ⟨rfl, rfl⟩ := h
    exact ⟨hindex, by simp⟩
  | cons _ _ ih =>
    simp only [deliverAll, bind_eq_bind, bind_eq_some_iff] at h
    obtain ⟨⟨mid, first⟩, hfirst, ⟨last, others⟩, hrest, heq⟩ := h
    simp only [Option.pure_def, Option.some.injEq, Prod.mk.injEq] at heq
    obtain ⟨rfl, rfl⟩ := heq
    obtain ⟨hlast, hothers⟩ := ih (indexOf_lt hindex hfirst) hrest
    refine ⟨hlast, fun message hmem => ?_⟩
    rcases mem_append.mp hmem with hmem | hmem
    · exact length_lt_of_mem_delivered hfirst hmem
    · exact hothers message hmem

end Receivers

/-- A message fits half of the assembly buffer, and a packet with it. -/
def Event.FitsHalf (config : PgConfig) : Event → Prop
  | .mcast iovecs => 2 * (iovecs.flatten.length + config.netMtu) ≤ assemblyDataSize
  | _ => True

instance (config : PgConfig) (e : Event) : Decidable (e.FitsHalf config) :=
  match e with
  | .mcast _ => inferInstanceAs (Decidable (_ ≤ _))
  | .tokenReceived | .transmit _ _ | .other _ | .waitTransAck | .transAck => isTrue trivial

/-- Messages are small, and the queues are switched as in `SwitchReady`. -/
def System.Careful (config : PgConfig) (s : System) (e : Event) : Prop :=
  s.SwitchReady e ∧ e.FitsHalf config

instance (config : PgConfig) (s : System) (e : Event) : Decidable (s.Careful config e) :=
  inferInstanceAs (Decidable (_ ∧ _))

/-- A buffer of half the size. -/
def halfBuffer (config : PgConfig) : Buffer config where
  size := assemblyDataSize / 2
  messageMax := assemblyDataSize / 2 - config.netMtu
  pos := by
    have hlt := config.netMtu_lt
    unfold assemblyDataSize messageSizeMax knetMaxPacketSize mcastHeaderSize at *
    omega
  fits := by
    have hlt := config.netMtu_lt
    unfold assemblyDataSize messageSizeMax knetMaxPacketSize mcastHeaderSize at *
    omega

/-- A message that fits in half of the buffer is one of the bounded ones. -/
theorem Event.FitsHalf.atMost {config : PgConfig} {e : Event} (h : e.FitsHalf config) :
    e.AtMost (halfBuffer config).messageMax := by
  cases e with
  | mcast _ =>
    simp only [FitsHalf] at h
    simp only [AtMost, halfBuffer]
    omega
  | tokenReceived | transmit | other | waitTransAck | transAck => trivial

/-- In every run in which the queues are switched carefully and every message, with a packet, fits
half of the assembly buffer: whatever part of the packets of a queue a receiver gets, from the
beginning of a message or from the middle of it, every packet fits behind what its assembly
holds. -/
theorem stream_parts_fit {config : PgConfig} {s s' : System} {events : List Event} (hidle : s.Idle)
    (hrun : Library.run (Library.restrict (System.Careful config) (System.step config)) s events =
      some s') {trans : Bool} {part : List (List UInt8)} (hpart : part <:+: s'.node.packets trans) :
    (deliverAll assemblyDataSize none part).isSome := by
  have hinv : s'.SwitchInv (halfBuffer config) := by
    refine Library.run_invariant (fun s e s' hinv hstep => ?_)
      (hidle.switchInv (halfBuffer config)) hrun
    obtain ⟨⟨hready, hfits⟩, hstep⟩ := Library.restrict_eq_some.mp hstep
    exact hinv.step hfits.atMost hready hstep
  have hall : (deliverAll (halfBuffer config).size none (s'.node.packets trans)).isSome := by
    by_cases htrans : trans = s'.node.srp.waitingTransAck
    · obtain ⟨delivered, rest, hstream⟩ := hinv.current
      obtain ⟨inuse, hdeliver, -⟩ := hstream.deliver
      rw [htrans, hdeliver]
      rfl
    · obtain ⟨delivered, rest, hstream⟩ := hinv.other
      obtain ⟨inuse, hdeliver, -⟩ := hstream.deliver
      rw [Bool.eq_not_of_ne htrans, hdeliver]
      rfl
  exact deliverAll_infix (Nat.mul_div_le _ _) hpart hall

/-- Packets for an Ethernet of 1500 bytes. -/
def ethernetPackets : PgConfig where
  netMtu := 1500
  lt_netMtu := by decide
  netMtu_lt := by decide

/-- An unused node whose queue has the size that the source gives it. -/
def ethernetNode : System where
  node :=
    { pg := .initial
      srp := .totemsrpInitialize
        { maxMessages := 17, windowSize := 50, missCountConst := 5, failToRecvConst := 2500 } 1
        (messageQueueMax 1500) (by decide)
      queued := [] }
  accepted := []
  transmitted := []

/-- The iovecs of a message for the group `a`. -/
def groupMessage (payload : List UInt8) : List (List UInt8) := [[1, 0, 1, 0], [97], payload]

/-- A buffer that is large enough for three million bytes. -/
def largeBuffer : Buffer ethernetPackets where
  size := 4000000
  messageMax := 3500000
  pos := by decide
  fits := by decide

/-- The queue of an unused node has room for a message of three million bytes. -/
theorem mcastMsg_long {payload : List UInt8} (hlen : payload.length = 3000000) :
    ∃ node, mcastMsg ethernetPackets ethernetNode.node (groupMessage payload) =
      some (node, true) := by
  let fill : Fill ethernetPackets.netMtu :=
    ⟨0, 0, 0, by decide, by decide, by decide, by decide⟩
  have hof : fill.Of ethernetNode.node := ⟨rfl, rfl, by rfl⟩
  have hmcast := hof.mcastMsg (.nil largeBuffer) (groupMessage payload)
  have hlens : (groupMessage payload).map List.length = [4, 1, 3000000] := by
    simp [groupMessage, hlen]
  rw [hlens, (fill.mcastMsg_eq_true_iff (by decide) (by decide) (by decide)).mpr
    (by decide +kernel)] at hmcast
  obtain ⟨⟨node, taken⟩, hnode, rfl⟩ := map_eq_some_iff.mp hmcast
  exact ⟨node, hnode⟩

/-- A message that is longer than twice the buffer and a packet does not get through. -/
theorem deliverAll_eq_none_of_long {config : PgConfig} {buffer : Buffer config} {pg : Staging}
    {packets delivered : List (List UInt8)} {message part : List UInt8} {dataSize : ℕ}
    (hstream : Stream buffer pg packets [message] delivered part) (hle : dataSize ≤ buffer.size)
    (hpos : 0 < dataSize) (hlong : 2 * dataSize + config.packetSize ≤ message.length) :
    deliverAll dataSize none packets = none := by
  by_contra hsome
  obtain ⟨⟨next, messages⟩, hdeliver⟩ := ne_none_iff_exists'.mp hsome
  obtain ⟨inuse, hall, hholds⟩ := hstream.deliver
  obtain ⟨rfl, rfl⟩ : next = inuse ∧ messages = delivered := by
    simpa using (deliverAll_mono hle hdeliver).symm.trans hall
  have hfresh : indexOf none < 2 * dataSize := by
    simp only [indexOf, getD_none, fresh]
    omega
  obtain ⟨hindex, hdelivered⟩ := deliverAll_bounds hfresh hdeliver
  have haccepted := hstream.accepted_eq
  have hroom := hstream.room
  have hpart : (next.getD .fresh).index = part.length := hholds.index_eq
  unfold indexOf at hindex
  cases messages with
  | cons _ _ =>
    -- the message was handed over
    obtain ⟨rfl, -⟩ := cons_eq_cons.mp haccepted
    have hlt := hdelivered message mem_cons_self
    omega
  | nil =>
    -- all but what is staged is in the buffer
    cases hlens : pg.packedMsgLens with
    | nil => simp [hlens, continued] at haccepted
    | cons _ _ =>
      rw [hlens, splitLengths_cons] at haccepted
      simp only [continued, nil_append, List.cons.injEq] at haccepted
      have hlength := congrArg List.length haccepted.1
      simp only [length_append, length_take] at hlength
      omega

/-- A message of three million bytes is accepted, since the queue of the sender has room for four
times `MESSAGE_SIZE_MAX`, and the assertion fails at the receiver. -/
theorem long_message_overflows :
    ∃ (payload : List UInt8) (s : System), payload.length = 3000000 ∧
      Library.run (System.step ethernetPackets) ethernetNode [.mcast (groupMessage payload)] =
        some s ∧ s.messages = [(groupMessage payload).flatten] ∧
      deliverAll assemblyDataSize none (s.node.packets s.node.srp.waitingTransAck) = none := by
  obtain ⟨payload, hlen⟩ : ∃ payload : List UInt8, payload.length = 3000000 :=
    ⟨List.replicate 3000000 0, length_replicate⟩
  obtain ⟨node, hmcast⟩ := mcastMsg_long hlen
  have hbytes : (groupMessage payload).flatten.length = 3000005 := by
    simp [groupMessage, hlen]
  obtain ⟨new, delivered, part, happ, hstream⟩ :=
    (Stream.nil largeBuffer).mcastMsg (by rw [hbytes]; decide) hmcast
  have hne : (groupMessage payload).flatten.isEmpty = false := by
    rw [isEmpty_eq_false_iff, ← length_pos_iff]
    omega
  rw [hne] at hstream
  have hpackets : node.packets node.srp.waitingTransAck = new := by
    rw [happ.waitingTransAck, happ.packets.1]
    rfl
  refine ⟨payload, { ethernetNode with
    node := node
    accepted := [⟨ethernetNode.node.srp.waitingTransAck, (groupMessage payload).flatten⟩] },
    hlen, ?_, rfl, ?_⟩
  · simp only [Library.run, System.step, hmcast, hne]
    rfl
  · rw [hpackets]
    refine deliverAll_eq_none_of_long hstream (by decide) (by decide) ?_
    rw [hbytes]
    decide

/-- Two messages of a few bytes in packets of at most eight bytes, the first in two of them. -/
def fewBytes : List Event :=
  [.mcast [[1, 2, 3, 4, 5, 6], [7]], .mcast [[8, 9]], .tokenReceived]

/-- A receiver that gets only the second packet of the first message has room for it. -/
theorem stream_parts_fit_fewBytes :
    ∃ s, Library.run (Library.restrict (System.Careful smallPackets) (System.step smallPackets))
        newNode fewBytes = some s ∧ (s.node.packets true).length = 2 ∧
      (deliverAll assemblyDataSize none ((s.node.packets true).drop 1)).isSome :=
  ⟨_, rfl, by decide, @stream_parts_fit smallPackets newNode _ fewBytes
    ⟨⟨rfl, rfl, rfl⟩, rfl, by decide⟩ rfl true _ (drop_suffix 1 _).isInfix⟩

end Corosync.Totempg
