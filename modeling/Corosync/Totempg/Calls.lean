import Corosync.Totempg.Stream

/-!
# Calls of the process group layer

What `mcast_msg` and `callback_token_received_fn` do to the stream of packets: an accepted message
is appended to the stream, a flush delivers what is staged, and with enough room in the queue below
a message is accepted.
-/

namespace Corosync.Totempg

open List Option

/-- At the end of the iovecs the message is staged. -/
theorem mcastLoop_nil (config : PgConfig) (fuel copyBase : ℕ) (st : Packing) :
    mcastLoop config fuel [] copyBase st = some (st.finish, true) := by
  cases fuel <;> rfl

section Send

variable {config : PgConfig} {fuel copyBase copyLen avail : ℕ} {iov : List UInt8}
  {iovs : List (List UInt8)} {st : Packing} {more : Bool}

/-- One round of the loop that sends a packet, when the queue has a slot: the loop goes on with the
node that sent it. -/
theorem mcastLoop_of_avail (hfits : ¬iov.length + st.fragmentSize < sizeSub st.maxPacketSize 2)
    (hcopy : copyLen = min (iov.length - copyBase) (st.maxPacketSize - st.fragmentSize))
    (hmore : more = (!iovs.isEmpty || decide (copyBase + copyLen < iov.length)))
    (havail : st.node.srp.totemsrpAvail = some avail) (hpos : 0 < avail) :
    ∃ node, node.pg = (st.sending (st.packet (iov.drop copyBase) copyLen more) more).pg ∧
      node.srp.totemsrpAvail = some (avail - 1) ∧
      Appends st.node node [(st.packet (iov.drop copyBase) copyLen more).encode] ∧
      mcastLoop config (fuel + 1) (iov :: iovs) copyBase st =
        if copyBase + copyLen = iov.length then
          mcastLoop config fuel iovs 0 (.reset config node)
        else
          mcastLoop config fuel (iov :: iovs) (copyBase + copyLen) (.reset config node) := by
  have hnumber : more = true → (st.packet (iov.drop copyBase) copyLen more).fragmented ≠ 0 := by
    intro htrue
    simp only [Packing.packet, htrue, if_true]
    exact st.fragmentNumber_ne_zero
  obtain ⟨node, hmcast, hpg, hleft, happ⟩ := @Node.mcast_of_avail
    (st.sending (st.packet (iov.drop copyBase) copyLen more) more) avail
    (st.packet (iov.drop copyBase) copyLen more) havail hpos
  refine ⟨node, hpg, hleft, ⟨happ.queued_eq, happ.srp_eq⟩, ?_⟩
  rw [mcastLoop, if_neg hfits]
  simp only [← hcopy, ← hmore]
  rw [assertThat_bind_of_true hnumber, havail]
  change (assertThat (0 < avail) >>= _) = _
  rw [assertThat_bind_of_true hpos, hmcast]
  rfl

/-- A loop that returns has a slot for the packet. -/
theorem avail_of_mcastLoop {result : Node × Bool}
    (hfits : ¬iov.length + st.fragmentSize < sizeSub st.maxPacketSize 2)
    (hloop : mcastLoop config (fuel + 1) (iov :: iovs) copyBase st = some result) :
    ∃ avail, st.node.srp.totemsrpAvail = some avail ∧ 0 < avail := by
  rw [mcastLoop, if_neg hfits, assertThat_bind_eq_some] at hloop
  obtain ⟨avail, havail, hloop⟩ := bind_eq_some_iff.mp hloop.2
  rw [assertThat_bind_eq_some] at hloop
  exact ⟨avail, havail, hloop.1⟩

end Send

/-- The last iovec of a message, when it fits with room left over. -/
theorem InProgress.stageLast {config : PgConfig} {buffer : Buffer config} {st : Packing}
    {packets accepted delivered : List (List UInt8)} {part x bytes : List UInt8}
    (hprogress : InProgress buffer st packets accepted delivered part x)
    (hfits : bytes.length + st.fragmentSize + 2 < st.maxPacketSize) (hpos : 0 < bytes.length) :
    Appends st.node (st.stage bytes).finish [] ∧
      Stream buffer (st.stage bytes).finish.pg packets
        (accepted ++ [x ++ bytes]) delivered part := by
  have hstaged := hprogress.stage hfits
  have hsum := hprogress.sum_lens
  have hsum' := hstaged.sum_lens
  have hcurrent : (st.stage bytes).current ≠ 0 := by
    simp only [Packing.stage, length_append] at hsum' ⊢
    omega
  refine ⟨?_, hstaged.finish hcurrent ?_⟩
  · unfold Packing.finish
    rw [if_neg hcurrent]
    exact .nil rfl rfl
  · rw [Packing.fragmentSize_stage]
    change st.fragmentSize + bytes.length + 2 < st.maxPacketSize
    omega

/-- The loop of `mcast_msg` puts the rest of the message into the stream. -/
theorem mcastLoop_stream {config : PgConfig} {buffer : Buffer config} {node : Node} {taken : Bool} :
    ∀ {fuel copyBase : ℕ} {iov : List UInt8} {iovs : List (List UInt8)} {st : Packing}
      {packets accepted delivered : List (List UInt8)} {part x : List UInt8},
      InProgress buffer st packets accepted delivered part x →
      copyBase < iov.length → (∀ other ∈ iovs, other ≠ []) →
      (x ++ iov.drop copyBase ++ iovs.flatten).length ≤ buffer.messageMax →
      mcastLoop config fuel (iov :: iovs) copyBase st = some (node, taken) →
      taken = true ∧ ∃ new delivered' part', Appends st.node node new ∧
        Stream buffer node.pg (packets ++ new)
          (accepted ++ [x ++ iov.drop copyBase ++ iovs.flatten]) delivered' part' := by
  intro fuel
  induction fuel with
  | zero =>
    intro copyBase iov iovs st packets accepted delivered part x _ _ _ _ hloop
    simp [mcastLoop] at hloop
  | succ fuel ih =>
    intro copyBase iov iovs st packets accepted delivered part x hprogress hbase hne hsize hloop
    have hrest : 0 < (iov.drop copyBase).length := by simp; omega
    have hroom := hprogress.room
    simp only [length_append] at hsize
    by_cases hfits : iov.length + st.fragmentSize < sizeSub st.maxPacketSize 2
    · -- the rest of the iovec is staged
      rw [mcastLoop, if_pos hfits] at hloop
      rw [hprogress.sizeSub_maxPacketSize] at hfits
      have hstage : (iov.drop copyBase).length + st.fragmentSize + 2 < st.maxPacketSize := by
        simp only [length_drop]
        omega
      cases iovs with
      | nil =>
        simp only [mcastLoop_nil, some.injEq, Prod.mk.injEq] at hloop
        obtain ⟨rfl, rfl⟩ := hloop
        obtain ⟨happ, hstream⟩ := hprogress.stageLast hstage hrest
        exact ⟨rfl, [], delivered, part, happ, by simpa using hstream⟩
      | cons next _ =>
        have hnext : 0 < next.length := length_pos_iff.mpr (hne next mem_cons_self)
        obtain ⟨htaken, new, delivered', part', happ, hstream⟩ := ih (hprogress.stage hstage) hnext
          (fun other hother => hne other (mem_cons_of_mem _ hother))
          (by simp only [drop_zero, length_append]
              simp only [flatten_cons, length_append] at hsize
              omega) hloop
        refine ⟨htaken, new, delivered', part', ⟨happ.queued_eq, happ.srp_eq⟩, ?_⟩
        simpa [append_assoc] using hstream
    · -- a packet is sent
      obtain ⟨copyLen, hcopy⟩ : ∃ copyLen,
        copyLen = min (iov.length - copyBase) (st.maxPacketSize - st.fragmentSize) := ⟨_, rfl⟩
      obtain ⟨more, hmore⟩ : ∃ more,
        more = (!iovs.isEmpty || decide (copyBase + copyLen < iov.length)) := ⟨_, rfl⟩
      obtain ⟨avail, havail, hpos⟩ := avail_of_mcastLoop hfits hloop
      obtain ⟨sent, hpg, -, happ, hnext⟩ :=
        @mcastLoop_of_avail config fuel copyBase copyLen avail iov iovs st more hfits hcopy hmore
          havail hpos
      rw [hloop] at hnext
      replace hnext := hnext.symm
      have hle : copyLen ≤ (iov.drop copyBase).length := by
        simp only [length_drop]
        omega
      have hpacket : copyLen + st.fragmentSize ≤ st.maxPacketSize := by omega
      by_cases hend : copyBase + copyLen = iov.length
      · rw [if_pos hend] at hnext
        have htake : (iov.drop copyBase).take copyLen = iov.drop copyBase :=
          take_of_length_le (by simp only [length_drop]; omega)
        cases iovs with
        | nil =>
          -- the packet ends with the message
          obtain rfl : more = false := by simp [hmore, hend]
          simp only [mcastLoop_nil, some.injEq, Prod.mk.injEq] at hnext
          obtain ⟨rfl, rfl⟩ := hnext
          have hstream := hprogress.sendLast hle hpacket hpg
          rw [htake] at hstream
          exact ⟨rfl, _, _, _, ⟨happ.queued_eq, happ.srp_eq⟩, by simpa using hstream⟩
        | cons next _ =>
          obtain rfl : more = true := by simp [hmore]
          have hpos : 0 < next.length := length_pos_iff.mpr (hne next mem_cons_self)
          simp only [flatten_cons, length_append] at hsize
          have hprogress' := hprogress.sendMore hle hpacket (by omega) hpg
          rw [htake] at hprogress'
          obtain ⟨htaken, new, delivered', part', happ', hstream⟩ := ih hprogress' hpos
            (fun other hother => hne other (mem_cons_of_mem _ hother))
            (by simp only [drop_zero, length_append]; omega) hnext
          refine ⟨htaken, _, delivered', part', happ.trans ⟨happ'.queued_eq, happ'.srp_eq⟩, ?_⟩
          simpa [append_assoc] using hstream
      · rw [if_neg hend] at hnext
        have hlt : copyBase + copyLen < iov.length := by omega
        obtain rfl : more = true := by simp [hmore, hlt]
        have hcut : (iov.drop copyBase).take copyLen ++ iov.drop (copyBase + copyLen) =
            iov.drop copyBase := by
          rw [← drop_drop, take_append_drop]
        have hlengths := congrArg List.length hcut
        simp only [length_append, length_drop] at hlengths hsize
        have hprogress' := hprogress.sendMore hle hpacket (by omega) hpg
        obtain ⟨htaken, new, delivered', part', happ', hstream⟩ := ih hprogress' hlt hne
          (by simp only [length_append, length_drop]; omega) hnext
        rw [append_assoc x, hcut] at hstream
        refine ⟨htaken, _, delivered', part', happ.trans ⟨happ'.queued_eq, happ'.srp_eq⟩, ?_⟩
        simpa [append_assoc] using hstream

section Calls

variable {config : PgConfig} {buffer : Buffer config} {node node' : Node}
  {packets accepted delivered : List (List UInt8)} {part : List UInt8}

/-- An accepted message is added to the stream. One without bytes leaves no trace. -/
theorem Stream.mcastMsg {iovecIn : List (List UInt8)} {taken : Bool}
    (hstream : Stream buffer node.pg packets accepted delivered part)
    (hsize : iovecIn.flatten.length ≤ buffer.messageMax)
    (hmcast : Totempg.mcastMsg config node iovecIn = some (node', taken)) :
    ∃ new delivered' part', Appends node node' new ∧ Stream buffer node'.pg (packets ++ new)
        (accepted ++ if taken && !iovecIn.flatten.isEmpty then [iovecIn.flatten] else [])
        delivered' part' := by
  have hsame : Stream buffer node.pg (packets ++ []) (accepted ++ []) delivered part := by
    simpa using hstream
  simp only [Totempg.mcastMsg, assertThat_bind_eq_some] at hmcast
  obtain ⟨avail, havail, hmcast⟩ := bind_eq_some_iff.mp hmcast.2
  obtain ⟨sendOk, -, hmcast⟩ := bind_eq_some_iff.mp hmcast
  cases sendOk with
  | false =>
    obtain ⟨rfl, rfl⟩ : node = node' ∧ false = taken := by simpa using hmcast
    exact ⟨[], delivered, part, .nil rfl rfl, hsame⟩
  | true =>
    rw [if_neg (by simp)] at hmcast
    have hflatten : (iovecIn.filter fun iov => !iov.isEmpty).flatten = iovecIn.flatten :=
      flatten_filter_not_isEmpty
    have hne : ∀ iov ∈ iovecIn.filter (fun iov => !iov.isEmpty), iov ≠ [] := by
      intro iov hiov
      simpa using (mem_filter.mp hiov).2
    cases hiovec : iovecIn.filter fun iov => !iov.isEmpty with
    | nil =>
      rw [hiovec, flatten_nil] at hflatten
      rw [hiovec, mcastLoop_nil] at hmcast
      simp only [some.injEq, Prod.mk.injEq, Packing.finish, if_true] at hmcast
      obtain ⟨rfl, -⟩ := hmcast
      rw [← hflatten, isEmpty_nil, Bool.not_true, Bool.and_false]
      exact ⟨[], delivered, part, .nil rfl rfl, hsame⟩
    | cons iov _ =>
      rw [hiovec] at hmcast hflatten hne
      have hiov : 0 < iov.length := length_pos_iff.mpr (hne iov mem_cons_self)
      rw [flatten_cons] at hflatten
      obtain ⟨rfl, new, delivered', part', happ, hnew⟩ := mcastLoop_stream hstream.start
        hiov (fun other hother => hne other (mem_cons_of_mem _ hother))
        (by simpa [hflatten] using hsize) hmcast
      have hbytes : iovecIn.flatten.isEmpty = false := by
        rw [← hflatten, isEmpty_eq_false_iff]
        exact fun hnil => length_pos_iff.mp hiov (append_eq_nil_iff.mp hnil).1
      rw [hbytes]
      exact ⟨new, delivered', part', happ, by simpa [hflatten] using hnew⟩

/-- The callback sends what is staged. -/
theorem Stream.callbackTokenReceivedFn
    (hstream : Stream buffer node.pg packets accepted delivered part)
    (hcallback : Totempg.callbackTokenReceivedFn node = some node') :
    ∃ new delivered' part', Appends node node' new ∧
      Stream buffer node'.pg (packets ++ new) accepted delivered' part' := by
  have hsame : Stream buffer node.pg (packets ++ []) accepted delivered part := by
    simpa using hstream
  unfold Totempg.callbackTokenReceivedFn at hcallback
  split at hcallback
  · cases hcallback
    exact ⟨[], _, _, .nil rfl rfl, hsame⟩
  obtain ⟨avail, havail, hcallback⟩ := bind_eq_some_iff.mp hcallback
  split at hcallback
  · cases hcallback
    exact ⟨[], _, _, .nil rfl rfl, hsame⟩
  next hpos =>
  obtain ⟨sent, hmcast, hpg, -, happ⟩ := @Node.mcast_of_avail
    { node with pg := { node.pg with fragmentContinuation := 0 } } avail node.pg.packet
    havail (Nat.pos_of_ne_zero hpos)
  rw [hmcast] at hcallback
  cases hcallback
  have hroom := hstream.room
  have hbounds := config.packetSize_bounds
  have hwf : node.pg.packet.WellFormed := by
    refine ⟨?_, ?_, hstream.sum_lens⟩
    · change node.pg.packedMsgLens.length < 65536
      omega
    · intro len hlen
      have hle : len ≤ node.pg.packedMsgLens.sum := le_sum_of_mem hlen
      rw [hstream.sum_lens] at hle
      omega
  have hlength : node.pg.packet.encode.length ≤ config.netMtu := by
    rw [Packet.length_encode]
    change mcastHeaderSize + 2 * node.pg.packedMsgLens.length +
      node.pg.fragmentationData.length ≤ config.netMtu
    omega
  have hnew := hstream.toDelivered.complete hwf rfl hlength
  refine ⟨_, accepted, [], ⟨happ.queued_eq, happ.srp_eq⟩, ?_⟩
  exact {
    toDelivered := by
      have haccepted : delivered ++ continued part
          (node.pg.packet.lens.splitLengths node.pg.packet.data) = accepted :=
        hstream.accepted_eq.symm
      rw [haccepted] at hnew
      simpa only [hpg] using hnew
    accepted_eq := by simp [continued]
    sum_lens := rfl
    lens_pos := by simp
    idle := fun _ => ⟨rfl, by simp only [hpg]⟩
    room := by simp only [length_nil]; omega }

end Calls

end Corosync.Totempg
