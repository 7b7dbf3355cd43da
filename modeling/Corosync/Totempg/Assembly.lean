import Corosync.Totempg.Packet

/-!
# Assembly of received messages

`totempg_deliver_fn` keeps one assembly buffer per sending node and puts the fragments of a message
together in it. The model follows one sender. What an assembly buffer holds beyond `index` is never
handed over, so a fresh one is filled with zeros.
-/

namespace Corosync.Totempg

open List Option

/-- `struct assembly`. -/
structure Assembly where
  data : ℕ → UInt8
  index : ℕ
  lastFragNum : UInt8
  /-- `throw_away_mode == THROW_AWAY_ACTIVE`. -/
  throwAway : Bool

/-- A buffer as `assembly_ref` provides it for a node that has none in use. -/
def Assembly.fresh : Assembly where
  data := fun _ => 0
  index := 0
  lastFragNum := 0
  throwAway := false

/-- The bytes of a buffer from `base` on. -/
def slice (data : ℕ → UInt8) (base len : ℕ) : List UInt8 :=
  (List.range len).map fun k => data (base + k)

/-- `memcpy` of `bytes` to position `index`. -/
def copyAt (data : ℕ → UInt8) (index : ℕ) (bytes : List UInt8) : ℕ → UInt8 :=
  fun k => if index ≤ k ∧ k < index + bytes.length then bytes.getD (k - index) 0 else data k

/-- The delivery loop after its first round: each message begins where the one before ended. -/
def deliverRest (data : ℕ → UInt8) : ℕ → List ℕ → List (List UInt8)
  | _, [] => []
  | index, len :: lens => slice data index len :: deliverRest data (index + len) lens

/-- The delivery loop. The first message begins with the bytes kept from earlier packets. -/
def deliverPacked (data : ℕ → UInt8) (index : ℕ) : List ℕ → List (List UInt8)
  | [] => []
  | len :: lens => slice data 0 (index + len) :: deliverRest data (index + len) lens

namespace Assembly

/-- Number of complete messages in a packet. -/
def completeCount (packet : Packet) : ℕ :=
  if packet.fragmented = 0 then packet.lens.length else packet.lens.length - 1

/-- The part of `totempg_deliver_fn` that copies a packet and hands over its messages. -/
def receive (assembly : Assembly) (packet : Packet) : Assembly × List (List UInt8) :=
  let copied := { assembly with data := copyAt assembly.data assembly.index packet.data }
  if assembly.throwAway then
    if packet.fragmented = 0 ∨ packet.fragmented = 1 then
      ({ copied with throwAway := false, index := assembly.index + packet.lens.headD 0 }, [])
    else
      (copied, [])
  else if packet.continuation = assembly.lastFragNum then
    let complete := packet.lens.take (completeCount packet)
    ({ copied with lastFragNum := packet.fragmented, index := assembly.index + complete.sum },
      deliverPacked copied.data assembly.index complete)
  else
    ({ copied with throwAway := true }, [])

/-- What remains of the last message of a fragmented packet. -/
def keepFragment (assembly : Assembly) (packet : Packet) : Assembly :=
  let len := packet.lens.getD (completeCount packet) 0
  if 1 < packet.lens.length then
    { assembly with
      data := copyAt assembly.data 0 (slice assembly.data assembly.index len)
      index := len }
  else
    { assembly with index := assembly.index + len }

end Assembly

/-- `totempg_deliver_fn` for the packets of one node, whose assembly in use is given, if there is
one. Returns the assembly in use afterwards and the messages given to `app_deliver_fn`. The buffer
has `dataSize` bytes, which the code fixes to `MESSAGE_SIZE_MAX + KNET_MAX_PACKET_SIZE`. -/
def totempgDeliverFn (dataSize : ℕ) (inuse : Option Assembly) (msg : List UInt8) :
    Option (Option Assembly × List (List UInt8)) :=
  let assembly := inuse.getD .fresh
  match Packet.decode msg with
  | none => some (some assembly, [])
  | some packet => do
    assertThat (assembly.index + msg.length < dataSize)
    let (received, delivered) := assembly.receive packet
    if packet.fragmented = 0 then
      -- the assembly goes back to the free list
      return (none, delivered)
    else
      return (some (received.keepFragment packet), delivered)

/-- Feeds packets in order, and collects what is handed over. -/
def deliverAll (dataSize : ℕ) :
    Option Assembly → List (List UInt8) → Option (Option Assembly × List (List UInt8))
  | inuse, [] => some (inuse, [])
  | inuse, msg :: msgs => do
    let (next, delivered) ← totempgDeliverFn dataSize inuse msg
    let (last, others) ← deliverAll dataSize next msgs
    return (last, delivered ++ others)

/-- The messages in a packet's data, the first of which begins with `part`. -/
def continued (part : List UInt8) : List (List UInt8) → List (List UInt8)
  | [] => []
  | piece :: pieces => (part ++ piece) :: pieces

/-- The assembly holds the bytes `part` of an unfinished message and expects the fragment that
continues fragment `last`. -/
structure Holds (inuse : Option Assembly) (part : List UInt8) (last : UInt8) : Prop where
  index_eq : (inuse.getD .fresh).index = part.length
  data_eq : slice (inuse.getD .fresh).data 0 part.length = part
  last_eq : (inuse.getD .fresh).lastFragNum = last
  kept : (inuse.getD .fresh).throwAway = false

/-- Without an assembly nothing is held. -/
theorem Holds.fresh : Holds none [] 0 := ⟨rfl, rfl, rfl, rfl⟩

/-- The length of a slice. -/
@[simp] theorem length_slice (data : ℕ → UInt8) (base len : ℕ) :
    (slice data base len).length = len := by
  simp [slice]

variable {data : ℕ → UInt8} {len : ℕ}

/-- The bytes of a slice. -/
@[simp] theorem getElem_slice {base k : ℕ}
    (hk : k < (slice data base len).length) : (slice data base len)[k] = data (base + k) := by
  simp [slice]

variable {bytes : List UInt8}

/-- A slice of an array that begins with some bytes. -/
theorem slice_eq_take_drop {base : ℕ}
    (hbytes : slice data 0 bytes.length = bytes) (hle : base + len ≤ bytes.length) :
    slice data base len = (bytes.drop base).take len := by
  have hpart : slice data base len = ((slice data 0 bytes.length).drop base).take len :=
    ext_getElem (by simp; omega) fun k hk hk' => by simp
  rw [hpart, hbytes]

/-- A slice of a buffer up to where bytes were copied to, and through them. -/
theorem slice_copyAt (data : ℕ → UInt8) (index : ℕ) (bytes : List UInt8) :
    slice (copyAt data index bytes) 0 (index + bytes.length) = slice data 0 index ++ bytes := by
  refine ext_getElem (by simp) fun k hk hk' => ?_
  rw [length_slice] at hk
  rw [getElem_slice, Nat.zero_add]
  by_cases hbefore : k < index
  · rw [getElem_append_left (by simpa using hbefore), getElem_slice, Nat.zero_add]
    exact if_neg (by omega)
  · rw [getElem_append_right (by simpa using hbefore)]
    unfold copyAt
    rw [if_pos (by omega)]
    simp only [length_slice]
    rw [getD_eq_getElem?_getD, getElem?_eq_getElem (by omega), getD_some]

/-- The later rounds of the loop cut the known bytes into messages. -/
theorem deliverRest_eq (hbytes : slice data 0 bytes.length = bytes) (lens : List ℕ) :
    ∀ index, index + lens.sum ≤ bytes.length →
      deliverRest data index lens = lens.splitLengths (bytes.drop index) := by
  induction lens with
  | nil => intro index _; rfl
  | cons len _ ih =>
    intro index hle
    rw [sum_cons] at hle
    rw [deliverRest, slice_eq_take_drop hbytes (by omega), ih (index + len) (by omega),
      splitLengths_cons, drop_drop]

/-- The loop hands over the messages of the packet, the first after the bytes kept before. -/
theorem deliverPacked_eq {part : List UInt8}
    (hbytes : slice data 0 (part ++ bytes).length = part ++ bytes) {lens : List ℕ}
    (hle : lens.sum ≤ bytes.length) :
    deliverPacked data part.length lens = continued part (lens.splitLengths bytes) := by
  cases lens with
  | nil => rfl
  | cons _ lens =>
    rw [sum_cons] at hle
    rw [deliverPacked, slice_eq_take_drop hbytes (by simp; omega),
      deliverRest_eq hbytes lens _ (by simp; omega), splitLengths_cons, continued,
      drop_zero, take_length_add_append, drop_append, drop_eq_nil_of_le (by omega)]
    simp

/-- Cutting at the lengths of two lists, one after the other. -/
theorem splitLengths_append (front back : List ℕ) (bytes : List UInt8) :
    (front ++ back).splitLengths bytes =
      front.splitLengths bytes ++ back.splitLengths (bytes.drop front.sum) := by
  induction front generalizing bytes with
  | nil => simp
  | cons _ _ ih =>
    rw [cons_append, splitLengths_cons, ih, splitLengths_cons, drop_drop,
      sum_cons, cons_append]

section Deliver

variable {dataSize : ℕ} {inuse : Option Assembly} {part : List UInt8} {packet : Packet}

/-- An expected packet is copied behind the bytes kept before, and its complete messages are
handed over. -/
theorem Holds.receive (hholds : Holds inuse part packet.continuation) (hwf : packet.WellFormed) :
    let complete := packet.lens.take (Assembly.completeCount packet)
    ∃ data, slice data 0 (part ++ packet.data).length = part ++ packet.data ∧
      (inuse.getD .fresh).receive packet =
        ({ data := data, index := part.length + complete.sum, lastFragNum := packet.fragmented,
           throwAway := false }, continued part (complete.splitLengths packet.data)) := by
  intro complete
  have hle : complete.sum ≤ packet.data.length := by
    rw [← hwf.sum_lens, ← take_append_drop (Assembly.completeCount packet) packet.lens,
      sum_append]
    exact Nat.le_add_right _ _
  have hdata : slice (copyAt (inuse.getD .fresh).data part.length packet.data) 0
      (part ++ packet.data).length = part ++ packet.data := by
    rw [length_append, slice_copyAt, hholds.data_eq]
  refine ⟨_, hdata, ?_⟩
  unfold Assembly.receive
  rw [hholds.kept, hholds.last_eq, hholds.index_eq, if_neg Bool.false_ne_true, if_pos rfl]
  dsimp only
  rw [deliverPacked_eq hdata hle]

/-- What `totempg_deliver_fn` does with a well-formed packet for which there is room. -/
theorem totempgDeliverFn_encode (hwf : packet.WellFormed)
    (hroom : (inuse.getD .fresh).index + packet.encode.length < dataSize) :
    totempgDeliverFn dataSize inuse packet.encode =
      some (if packet.fragmented = 0 then none
        else some (((inuse.getD .fresh).receive packet).1.keepFragment packet),
        ((inuse.getD .fresh).receive packet).2) := by
  unfold totempgDeliverFn
  rw [Packet.decode_encode hwf]
  dsimp only
  rw [assertThat_bind_of_true hroom]
  split <;> rfl

/-- A packet whose last message is complete empties the assembly. -/
theorem Holds.deliver_complete (hholds : Holds inuse part packet.continuation)
    (hwf : packet.WellFormed) (hwhole : packet.fragmented = 0)
    (hroom : part.length + packet.encode.length < dataSize) :
    totempgDeliverFn dataSize inuse packet.encode =
      some (none, continued part (packet.lens.splitLengths packet.data)) := by
  obtain ⟨data, -, hreceive⟩ := hholds.receive hwf
  have hcount : packet.lens.take (Assembly.completeCount packet) = packet.lens := by
    rw [Assembly.completeCount, if_pos hwhole, take_length]
  rw [totempgDeliverFn_encode hwf (by rwa [hholds.index_eq]), hreceive, if_pos hwhole, hcount]

/-- The last piece of a fragmented packet stays at the beginning of the buffer. -/
theorem holds_keepFragment {front : List ℕ}
    (hdata : slice data 0 (part ++ packet.data).length = part ++ packet.data)
    (hlens : packet.lens = front ++ [len]) (hsum : front.sum + len = packet.data.length)
    (hfragment : packet.fragmented ≠ 0) :
    Holds (some (Assembly.keepFragment
        { data := data, index := part.length + front.sum, lastFragNum := packet.fragmented,
          throwAway := false } packet))
      (if front = [] then part ++ packet.data else packet.data.drop front.sum)
      packet.fragmented := by
  have hlen : packet.lens.getD (Assembly.completeCount packet) 0 = len := by
    rw [Assembly.completeCount, if_neg hfragment, hlens]
    simp
  unfold Assembly.keepFragment
  rw [hlen, hlens]
  by_cases hfront : front = []
  · -- the whole packet belongs to the unfinished message
    subst hfront
    rw [sum_nil, Nat.zero_add] at hsum
    rw [if_pos rfl, nil_append, if_neg (by simp), sum_nil]
    exact ⟨by simp [hsum], hdata, rfl, rfl⟩
  · rw [if_neg hfront, if_pos (by simpa [length_pos_iff] using hfront)]
    have hpiece : slice data (part.length + front.sum) len = packet.data.drop front.sum := by
      rw [slice_eq_take_drop hdata (by simp; omega), drop_append,
        drop_eq_nil_of_le (by omega), nil_append, Nat.add_sub_cancel_left,
        take_of_length_le (by simp; omega)]
    have hlength : (packet.data.drop front.sum).length = len := by simp; omega
    refine ⟨hlength.symm, ?_, rfl, rfl⟩
    have hcopied := slice_copyAt data 0 (packet.data.drop front.sum)
    rw [Nat.zero_add] at hcopied
    rw [← hpiece] at hcopied ⊢
    exact hcopied

/-- A packet whose last message is continued leaves that message in the assembly. -/
theorem Holds.deliver_fragment {messages : List (List UInt8)} {last : List UInt8}
    (hholds : Holds inuse part packet.continuation) (hwf : packet.WellFormed)
    (hfragment : packet.fragmented ≠ 0)
    (hmessages : continued part (packet.lens.splitLengths packet.data) = messages ++ [last])
    (hroom : part.length + packet.encode.length < dataSize) :
    ∃ next, totempgDeliverFn dataSize inuse packet.encode = some (next, messages) ∧
      Holds next last packet.fragmented := by
  obtain ⟨data, hdata, hreceive⟩ := hholds.receive hwf
  obtain hnil | ⟨front, len, hlens⟩ := eq_nil_or_concat packet.lens
  · simp [hnil, continued] at hmessages
  rw [concat_eq_append] at hlens
  have hcount : packet.lens.take (Assembly.completeCount packet) = front := by
    rw [Assembly.completeCount, if_neg hfragment, ← dropLast_eq_take, hlens,
      dropLast_concat]
  have hsum : front.sum + len = packet.data.length := by
    rw [← hwf.sum_lens, hlens, sum_append, sum_singleton]
  have hlast : continued part (packet.lens.splitLengths packet.data) =
      continued part (front.splitLengths packet.data) ++
        [if front = [] then part ++ packet.data else packet.data.drop front.sum] := by
    rw [hlens, splitLengths_append, splitLengths_cons, splitLengths_nil,
      take_of_length_le (by simp; omega)]
    cases front with
    | nil => simp [continued]
    | cons _ _ => simp [continued]
  rw [hlast] at hmessages
  obtain ⟨hdelivered, hpart⟩ := append_inj' hmessages rfl
  rw [totempgDeliverFn_encode hwf (by rwa [hholds.index_eq]), hreceive, if_neg hfragment, hcount,
    hdelivered, ← singleton_inj.mp hpart]
  exact ⟨_, rfl, holds_keepFragment hdata hlens hsum hfragment⟩

/-- One more packet is delivered. -/
theorem deliverAll_concat {next last : Option Assembly} {msgs delivered others : List (List UInt8)}
    {msg : List UInt8} (hmsgs : deliverAll dataSize inuse msgs = some (next, delivered))
    (hmsg : totempgDeliverFn dataSize next msg = some (last, others)) :
    deliverAll dataSize inuse (msgs ++ [msg]) = some (last, delivered ++ others) := by
  induction msgs generalizing inuse delivered with
  | nil =>
    simp only [deliverAll, some.injEq, Prod.mk.injEq] at hmsgs
    obtain ⟨rfl, rfl⟩ := hmsgs
    simp [deliverAll, hmsg]
  | cons _ _ ih =>
    simp only [deliverAll, bind_eq_bind, bind_eq_some_iff] at hmsgs
    obtain ⟨⟨mid, head⟩, hfirst, ⟨end', tail⟩, htail, hret⟩ := hmsgs
    simp only [Option.pure_def, some.injEq, Prod.mk.injEq] at hret
    obtain ⟨rfl, rfl⟩ := hret
    simp [deliverAll, hfirst, ih htail]

end Deliver

end Corosync.Totempg
