import Corosync.Library.Pages
import Corosync.Totempg.Calls

/-!
# Packing seen as sizes

Whether `mcast_msg` returns, and what, depends on sizes only: how much is staged, how long the
iovecs are and how many packets the queue below takes. Here the loop is followed for every
`net_mtu`, also where `max_packet_size - sizeof (unsigned short)` wraps around and everything is
staged. A message lies behind what is staged as on pages of the size of a packet, which gives the
packets that it completes.
-/

namespace Corosync.Totempg

open Library List

/-- `max_packet_size` with so many packed messages, an `int`. -/
def maxPacketSizeOf (netMtu count : ℕ) : ℤ :=
  netMtu - mcastHeaderSize - 2 * (count + 1)

/-- `max_packet_size - sizeof (unsigned short)`, a `size_t`. -/
def stageLimit (maxPacketSize : ℤ) : ℕ :=
  ((maxPacketSize - 2) % 2 ^ 64).toNat

/-- The variables of the loop of `mcast_msg` that decide where it goes. -/
structure Filling where
  fragmentSize : ℕ
  maxPacketSize : ℤ
  avail : ℕ
  deriving DecidableEq, Repr

/-- The variables after a packet was sent. -/
def Filling.sent (netMtu : ℕ) (st : Filling) : Filling where
  fragmentSize := 0
  maxPacketSize := maxPacketSizeOf netMtu 0
  avail := st.avail - 1

/-- The loop of `mcast_msg` over the lengths of the iovecs, of which the first `copyBase` bytes are
done. With a slot in the queue `totemsrp_mcast` does not fail. -/
def fillLoop (netMtu : ℕ) : ℕ → List ℕ → ℕ → Filling → Option Filling
  | _, [], _, st => some st
  | 0, _ :: _, _, _ => none
  | fuel + 1, len :: lens, copyBase, st =>
    if len + st.fragmentSize < stageLimit st.maxPacketSize then
      fillLoop netMtu fuel lens 0 { st with fragmentSize := st.fragmentSize + (len - copyBase) }
    else do
      let copyLen := min (len - copyBase) (st.maxPacketSize - st.fragmentSize).toNat
      assertThat (0 < st.avail)
      if copyBase + copyLen = len then
        fillLoop netMtu fuel lens 0 (st.sent netMtu)
      else
        fillLoop netMtu fuel (len :: lens) (copyBase + copyLen) (st.sent netMtu)

/-! ### The lengths of a packing -/

/-- What can be staged in a packet with room. -/
theorem stageLimit_of_two_le {size : ℤ} (htwo : 2 ≤ size) (hlt : size < 2 ^ 63) :
    stageLimit size = size.toNat - 2 := by
  unfold stageLimit
  omega

/-- Without room the limit wraps around. -/
theorem le_stageLimit_of_le_one {size : ℤ} (hone : size ≤ 1) (hle : -2 ^ 62 ≤ size) :
    2 ^ 62 ≤ stageLimit size := by
  unfold stageLimit
  omega

/-- At the end of the iovecs nothing is left. -/
theorem fillLoop_nil (netMtu fuel copyBase : ℕ) (st : Filling) :
    fillLoop netMtu fuel [] copyBase st = some st := by
  cases fuel <;> rfl

/-- The sizes of the variables of the loop. -/
def Packing.filling (st : Packing) (avail : ℕ) : Filling where
  fragmentSize := st.fragmentSize
  maxPacketSize := st.maxPacketSize
  avail := avail

/-- A packet that is sent leaves an empty one. -/
theorem filling_reset (config : PgConfig) (node : Node) (st : Packing) (avail : ℕ) :
    (Packing.reset config node).filling (avail - 1) = (st.filling avail).sent config.netMtu := by
  have hlow := config.lt_netMtu
  simp only [Packing.filling, Packing.reset, Packing.fragmentSize, Filling.sent, maxPacketSizeOf,
    PgConfig.packetSize, length_nil, Filling.mk.injEq, true_and, and_true]
  omega

/-- The loop over bytes returns if and only if the loop over sizes does, and then all packets were
taken. -/
theorem mcastLoop_eq_fillLoop (config : PgConfig) :
    ∀ {fuel copyBase avail : ℕ} {iovs : List (List UInt8)} {st : Packing},
      2 ≤ st.maxPacketSize → st.maxPacketSize < 2 ^ 63 → st.fragmentSize < st.maxPacketSize →
      st.node.srp.totemsrpAvail = some avail →
      (mcastLoop config fuel iovs copyBase st).map Prod.snd =
        (fillLoop config.netMtu fuel (iovs.map List.length) copyBase (st.filling avail)).map
          fun _ => true := by
  intro fuel
  induction fuel with
  | zero =>
    intro copyBase avail iovs st _ _ _ _
    cases iovs <;> rfl
  | succ fuel ih =>
    intro copyBase avail iovs st htwo hlt hroom havail
    cases iovs with
    | nil => rfl
    | cons iov iovs =>
      have hlimit : stageLimit (st.filling avail).maxPacketSize = sizeSub st.maxPacketSize 2 := by
        rw [stageLimit_of_two_le (by simpa [Packing.filling] using htwo)
          (by simp only [Packing.filling]; omega), sizeSub_of_le htwo (by omega)]
        simp [Packing.filling]
      by_cases hfits : iov.length + st.fragmentSize < sizeSub st.maxPacketSize 2
      · have hstaged : (st.stage (iov.drop copyBase)).filling avail =
            { st.filling avail with
              fragmentSize := st.fragmentSize + (iov.length - copyBase) } := by
          rw [Packing.filling, Packing.fragmentSize_stage, length_drop]
          rfl
        rw [map_cons, mcastLoop, if_pos hfits, fillLoop, if_pos (hlimit ▸ hfits)]
        rw [sizeSub_of_le htwo (by omega)] at hfits
        have hroom' : (st.stage (iov.drop copyBase)).fragmentSize < st.maxPacketSize := by
          rw [Packing.fragmentSize_stage, length_drop]
          omega
        have hloop := @ih 0 avail iovs (st.stage (iov.drop copyBase)) htwo hlt hroom' havail
        rw [hloop, hstaged]
        rfl
      · obtain ⟨copyLen, hcopy⟩ : ∃ copyLen,
          copyLen = min (iov.length - copyBase) (st.maxPacketSize - st.fragmentSize) := ⟨_, rfl⟩
        have hcopy' : min (iov.length - copyBase)
            ((st.filling avail).maxPacketSize - (st.filling avail).fragmentSize).toNat =
              copyLen := by
          rw [hcopy]
          simp only [Packing.filling]
          omega
        rw [map_cons, fillLoop, if_neg (by rw [hlimit]; exact hfits)]
        simp only [hcopy']
        by_cases hpos : 0 < avail
        · obtain ⟨node, -, hleft, -, hloop⟩ :=
            @mcastLoop_of_avail config fuel copyBase copyLen avail iov iovs st _ hfits hcopy rfl
              havail hpos
          have hbounds := config.packetSize_bounds
          have hnext : ∀ lens base,
              (mcastLoop config fuel lens base (.reset config node)).map Prod.snd =
                (fillLoop config.netMtu fuel (lens.map List.length) base
                  ((st.filling avail).sent config.netMtu)).map fun _ => true := by
            intro lens base
            rw [← filling_reset config node]
            refine ih ?_ ?_ ?_ hleft
            · simp only [Packing.reset]
              omega
            · simp only [Packing.reset]
              omega
            · simp only [Packing.reset, Packing.fragmentSize, length_nil]
              omega
          have hpos' : 0 < (st.filling avail).avail := hpos
          rw [hloop, assertThat_bind_of_true hpos']
          split
          · exact hnext iovs 0
          · exact hnext (iov :: iovs) (copyBase + copyLen)
        · have hnone : mcastLoop config (fuel + 1) (iov :: iovs) copyBase st = none := by
            by_contra hsome
            obtain ⟨result, hresult⟩ := Option.ne_none_iff_exists'.mp hsome
            obtain ⟨other, hother, hpos'⟩ := avail_of_mcastLoop hfits hresult
            rw [havail] at hother
            exact hpos (Option.some.inj hother ▸ hpos')
          rw [hnone]
          simp [assertThat, Packing.filling, hpos]

/-! ### Counting packets -/

/-- What is left of the slots in the queue after a number of packets, if there are as many. -/
def slotsLeft (avail packets : ℕ) : Option ℕ :=
  if packets ≤ avail then some (avail - packets) else none

/-- One of the packets takes a slot. -/
theorem slotsLeft_pred {avail : ℕ} (hpos : 0 < avail) (packets : ℕ) :
    slotsLeft (avail - 1) packets = slotsLeft avail (1 + packets) := by
  unfold slotsLeft
  by_cases hle : 1 + packets ≤ avail
  · rw [if_pos hle, if_pos (by omega)]
    congr 1
    omega
  · rw [if_neg hle, if_neg (by omega)]

/-- So many bytes of a packet are taken: the lengths of the packed messages and what is staged. -/
structure Filling.At (netMtu size place : ℕ) (st : Filling) : Prop where
  netMtu : netMtu = size + 10
  two_le : 2 ≤ st.maxPacketSize
  lt : size < 2 ^ 32
  place_lt : place < size
  staged_le : st.fragmentSize ≤ place
  room : st.maxPacketSize + place = size + st.fragmentSize

namespace Filling.At

variable {netMtu size place : ℕ} {st : Filling}

/-- An iovec is staged if it leaves three bytes of the packet. -/
theorem staged_iff (h : st.At netMtu size place) (len : ℕ) :
    len + st.fragmentSize < stageLimit st.maxPacketSize ↔ place + len + 2 < size := by
  have htwo := h.two_le
  have hlt := h.lt
  have hstaged := h.staged_le
  have hroom := h.room
  unfold stageLimit
  omega

/-- After a packet was sent the next one is empty. -/
theorem sent (h : st.At netMtu size place) : (st.sent netMtu).At netMtu size 0 := by
  obtain ⟨hmtu, htwo, hlt, hplace, hstaged, hroom⟩ := h
  refine ⟨hmtu, ?_, hlt, by omega, Nat.le_refl 0, ?_⟩
  · simp only [Filling.sent, maxPacketSizeOf, mcastHeaderSize]
    omega
  · simp only [Filling.sent, maxPacketSizeOf, mcastHeaderSize]
    omega

end Filling.At

/-- The loop takes a slot in the queue for every packet that the message completes. It fails where
there are not enough. -/
theorem fillLoop_avail {netMtu size : ℕ} :
    ∀ {fuel copyBase len place : ℕ} {lens : List ℕ} {st : Filling},
      st.At netMtu size place → copyBase < len → copyBase = 0 ∨ place = 0 →
      (∀ other ∈ lens, 0 < other) → len - copyBase + lens.sum ≤ fuel →
      (fillLoop netMtu fuel (len :: lens) copyBase st).map Filling.avail =
        slotsLeft st.avail
          (itemsEnd size 2 (itemEnd size 2 len (place + (len - copyBase))) lens / size) := by
  intro fuel
  induction fuel with
  | zero =>
    intro copyBase len place lens st _ hbase _ _ hfuel
    omega
  | succ fuel ih =>
    intro copyBase len place lens st hat hbase hfirst hpos hfuel
    have hsize : 0 < size := Nat.zero_lt_of_lt hat.place_lt
    -- the loop goes on with the next iovec, or ends
    have hnext : ∀ {st' : Filling} {place' : ℕ}, lens.sum ≤ fuel → st'.At netMtu size place' →
        (fillLoop netMtu fuel lens 0 st').map Filling.avail =
          slotsLeft st'.avail (itemsEnd size 2 place' lens / size) := by
      intro st' place' hfuel' hat'
      cases lens with
      | nil => simp [fillLoop_nil, itemsEnd, Nat.div_eq_of_lt hat'.place_lt, slotsLeft]
      | cons other _ =>
        exact ih hat' (hpos other mem_cons_self) (.inl rfl)
          (fun third hthird => hpos third (mem_cons_of_mem _ hthird)) (by simpa using hfuel')
    by_cases hfits : len + st.fragmentSize < stageLimit st.maxPacketSize
    · have hroom := (hat.staged_iff len).mp hfits
      have hstop : itemEnd size 2 len (place + (len - copyBase)) = place + (len - copyBase) := by
        rw [itemEnd, Nat.mod_eq_of_lt (by omega), if_pos ⟨by omega, by omega⟩]
      rw [fillLoop, if_pos hfits, hstop]
      refine hnext (by omega) ⟨hat.netMtu, hat.two_le, hat.lt, by omega,
        Nat.add_le_add_right hat.staged_le _, ?_⟩
      have := hat.room
      simp only
      omega
    · have hfull : ¬place + len + 2 < size := fun h => hfits ((hat.staged_iff len).mpr h)
      have hroom : (st.maxPacketSize - st.fragmentSize).toNat = size - place := by
        have := hat.room
        omega
      rw [fillLoop, if_neg hfits, hroom]
      dsimp only
      -- what the loop does behind this packet, and how many packets there are
      suffices hsend : ∃ q,
          itemsEnd size 2 (itemEnd size 2 len (place + (len - copyBase))) lens / size = 1 + q ∧
          (if copyBase + min (len - copyBase) (size - place) = len then
              fillLoop netMtu fuel lens 0 (st.sent netMtu)
            else
              fillLoop netMtu fuel (len :: lens) (copyBase + min (len - copyBase) (size - place))
                (st.sent netMtu)).map Filling.avail = slotsLeft (st.avail - 1) q by
        obtain ⟨q, hq, hloop⟩ := hsend
        rw [hq]
        by_cases havail : 0 < st.avail
        · rw [assertThat_bind_of_true havail, hloop, slotsLeft_pred havail]
        · have hnone : slotsLeft st.avail (1 + q) = none := if_neg (by omega)
          rw [hnone, assertThat, if_neg havail]
          rfl
      by_cases hwhole : len - copyBase ≤ size - place
      · -- the iovec ends with this packet
        have hstop : itemEnd size 2 len (place + (len - copyBase)) = size := by
          have hpage : pageEnd size (place + (len - copyBase)) = size :=
            pageEnd_of_le (by omega) (by have := hat.place_lt; omega)
          unfold itemEnd
          split
          · rename_i hshort
            by_cases heq : place + (len - copyBase) = size
            · exact heq
            · rw [Nat.mod_eq_of_lt (by have := hat.place_lt; omega)] at hshort
              omega
          · exact hpage
        refine ⟨itemsEnd size 2 0 lens / size, ?_, ?_⟩
        · have hshift := itemsEnd_add_size hsize 2 0 lens
          rw [Nat.zero_add] at hshift
          rw [hstop, hshift, Nat.add_div_right _ hsize, Nat.add_comm]
        · rw [Nat.min_eq_left hwhole, if_pos (by omega)]
          exact hnext (by omega) hat.sent
      · have hplace := hat.place_lt
        have hleft : place + (len - copyBase) = len - (copyBase + (size - place)) + size := by omega
        refine
          ⟨itemsEnd size 2 (itemEnd size 2 len (len - (copyBase + (size - place)))) lens / size,
          ?_, ?_⟩
        · rw [hleft, itemEnd_add_size hsize, itemsEnd_add_size hsize, Nat.add_div_right _ hsize,
            Nat.add_comm]
        · rw [Nat.min_eq_right (by omega), if_neg (by omega),
            ih hat.sent (by omega) (.inr rfl) hpos (by omega), Nat.zero_add]
          rfl

/-- Where the limit wraps around everything is staged. -/
theorem fillLoop_staged {netMtu : ℕ} :
    ∀ {fuel : ℕ} {lens : List ℕ} {st : Filling}, (∀ len ∈ lens, 0 < len) → lens.sum ≤ fuel →
      st.maxPacketSize ≤ 1 → -2 ^ 62 ≤ st.maxPacketSize → st.fragmentSize + lens.sum < 2 ^ 62 →
      (fillLoop netMtu fuel lens 0 st).isSome := by
  intro fuel
  induction fuel with
  | zero =>
    intro lens st hpos hfuel _ _ _
    cases lens with
    | nil => rfl
    | cons len _ =>
      have := hpos len mem_cons_self
      rw [sum_cons] at hfuel
      omega
  | succ fuel ih =>
    intro lens st hpos hfuel hone hle hbytes
    cases lens with
    | nil => rfl
    | cons len rest =>
      have hlen := hpos len mem_cons_self
      have hlimit := le_stageLimit_of_le_one hone hle
      rw [sum_cons] at hfuel hbytes
      rw [fillLoop, if_pos (by omega)]
      exact ih (fun other hmem => hpos other (mem_cons_of_mem _ hmem)) (by omega) hone hle
        (by simp only; omega)

/-! ### Calls -/

/-- `MESSAGE_QUEUE_MAX` -/
def messageQueueMax (netMtu : ℕ) : ℕ := 4 * messageSizeMax / netMtu

/-- The staged messages and the queue below between two calls, as sizes. -/
structure Fill (netMtu : ℕ) where
  packedMsgCount : ℕ
  fragmentSize : ℕ
  /-- The packets in the queue that `totemsrp_mcast` adds to. -/
  used : ℕ
  used_le : used + 2 ≤ messageQueueMax netMtu
  count_le : packedMsgCount ≤ fragmentSize
  room : 12 ≤ netMtu → fragmentSize + 2 * (packedMsgCount + 1) + mcastHeaderSize < netMtu
  size_lt : fragmentSize < 2 ^ 31

/-- The packets for a number of bytes, as `byte_count_send_ok` and `send_reserve` compute them. The
division aborts for a `net_mtu` of 24. -/
def msgCount (netMtu byteCount : ℕ) : Option ℕ := do
  assertThat (sizeSub netMtu 24 ≠ 0)
  return (byteCount / sizeSub netMtu 24 + 1) % 2 ^ 32

namespace Fill

variable {netMtu : ℕ}

/-- `totemsrp_avail`. -/
def avail (fill : Fill netMtu) : ℕ := messageQueueMax netMtu - fill.used - 2

/-- `byte_count_send_ok`. -/
def byteCountSendOk (fill : Fill netMtu) (byteCount : ℕ) : Option Bool :=
  (msgCount netMtu byteCount).map fun count => decide (count ≤ fill.avail)

/-- The variables with which the loop of `mcast_msg` starts. -/
def filling (fill : Fill netMtu) : Filling where
  fragmentSize := fill.fragmentSize
  maxPacketSize := maxPacketSizeOf netMtu fill.packedMsgCount
  avail := fill.avail

/-- `mcast_msg` for the lengths of the iovecs. -/
def mcastMsg (fill : Fill netMtu) (iovecIn : List ℕ) : Option Bool := do
  assertThat (iovecIn.length < 64)
  let iovec := iovecIn.filter fun len => len ≠ 0
  let sendOk ← fill.byteCountSendOk (iovec.sum + 2 * fill.packedMsgCount)
  if !sendOk then
    return false
  else
    (fillLoop netMtu iovec.sum iovec 0 fill.filling).map fun _ => true

/-- The `net_mtu` is not zero and leaves room for at least two packets in the queue. -/
theorem netMtu_bounds (fill : Fill netMtu) : 0 < netMtu ∧ netMtu ≤ 2 ^ 21 := by
  have htwo : 2 ≤ 4 * messageSizeMax / netMtu :=
    Nat.le_trans (Nat.le_add_left 2 fill.used) fill.used_le
  have hpos : 0 < netMtu := by
    by_contra hzero
    rw [Nat.eq_zero_of_not_pos hzero, Nat.div_zero] at htwo
    omega
  refine ⟨hpos, ?_⟩
  rw [Nat.le_div_iff_mul_le hpos] at htwo
  unfold messageSizeMax at htwo
  omega

/-- The bytes of the packet in work that are taken: the lengths of the packed messages and what is
staged. -/
def place (fill : Fill netMtu) : ℕ := fill.fragmentSize + 2 * fill.packedMsgCount

/-- Put behind what is staged, on packets of `net_mtu - 10` bytes, the message ends before one more
packet than there are free ones is full. An iovec that alone fills a packet or leaves at most two
bytes of it ends the packet. Below a `net_mtu` of 12 everything is staged. -/
def Fits (fill : Fill netMtu) (lens : List ℕ) : Prop :=
  netMtu < 12 ∨ itemsEnd (netMtu - 10) 2 fill.place lens < (fill.avail + 1) * (netMtu - 10)

instance (fill : Fill netMtu) (lens : List ℕ) : Decidable (fill.Fits lens) :=
  inferInstanceAs (Decidable (_ ∨ _))

/-- The sizes of a loop that starts. -/
theorem filling_at (fill : Fill netMtu) (hmtu : 12 ≤ netMtu) :
    fill.filling.At netMtu (netMtu - 10) fill.place := by
  obtain ⟨hpos, hle⟩ := fill.netMtu_bounds
  have hcount := fill.count_le
  have hroom := fill.room hmtu
  unfold mcastHeaderSize at hroom
  refine ⟨by omega, ?_, by omega, ?_, Nat.le_add_right _ _, ?_⟩
  · simp only [filling, maxPacketSizeOf, mcastHeaderSize]
    omega
  · simp only [place]
    omega
  · simp only [filling, maxPacketSizeOf, mcastHeaderSize, place]
    omega

/-- The loop ends without a failed assertion if and only if the message fits. -/
theorem isSome_fillLoop_iff (fill : Fill netMtu) {lens : List ℕ} (hpos : ∀ len ∈ lens, 0 < len)
    (hbytes : lens.sum < 2 ^ 61) :
    (fillLoop netMtu lens.sum lens 0 fill.filling).isSome ↔ fill.Fits lens := by
  by_cases hmtu : 12 ≤ netMtu
  · have hat := fill.filling_at hmtu
    have hsize : 0 < netMtu - 10 := by omega
    have hslots : (fillLoop netMtu lens.sum lens 0 fill.filling).map Filling.avail =
        slotsLeft fill.avail (itemsEnd (netMtu - 10) 2 fill.place lens / (netMtu - 10)) := by
      cases lens with
      | nil => simp [fillLoop_nil, itemsEnd, Nat.div_eq_of_lt hat.place_lt, slotsLeft, filling]
      | cons len _ =>
        exact fillLoop_avail hat (hpos len mem_cons_self) (.inl rfl)
          (fun other hother => hpos other (mem_cons_of_mem _ hother)) (by simp)
    rw [← Option.isSome_map (f := Filling.avail), hslots, slotsLeft, Fits, or_iff_right (by omega),
      ← Nat.div_lt_iff_lt_mul hsize, Nat.lt_succ_iff]
    split
    · exact iff_of_true rfl ‹_›
    · exact iff_of_false (by simp) ‹_›
  · have hcount := fill.count_le
    have hsize := fill.size_lt
    refine iff_of_true (fillLoop_staged hpos (Nat.le_refl _) ?_ ?_ ?_) (.inl (by omega)) <;>
    · simp only [filling, maxPacketSizeOf, mcastHeaderSize]
      omega

/-- The number of packets that is estimated. -/
theorem msgCount_eq (fill : Fill netMtu) (hmtu : netMtu ≠ 24) {bytes : ℕ}
    (hbytes : bytes < 2 ^ 31) :
    msgCount netMtu (bytes + 2 * fill.packedMsgCount) =
      some ((bytes + 2 * fill.packedMsgCount) / sizeSub netMtu 24 + 1) := by
  obtain ⟨hpos, hle⟩ := fill.netMtu_bounds
  have hcount := fill.count_le
  have hsize := fill.size_lt
  have hdivisor : sizeSub netMtu 24 ≠ 0 := by
    unfold sizeSub
    omega
  rw [msgCount, assertThat_bind_of_true hdivisor]
  refine congrArg some (Nat.mod_eq_of_lt ?_)
  by_cases hsmall : netMtu < 24
  · -- the divisor wraps around, so one packet is enough
    have hlarge : 2 ^ 63 ≤ sizeSub netMtu 24 := by
      unfold sizeSub
      omega
    rw [Nat.div_eq_of_lt (by omega)]
    decide
  · have hroom := fill.room (by omega)
    have hquot := Nat.div_le_self (bytes + 2 * fill.packedMsgCount) (sizeSub netMtu 24)
    omega

/-- The call is accepted if and only if the queue has room for the bytes and the message fits. -/
theorem mcastMsg_eq_true_iff (fill : Fill netMtu) (hmtu : netMtu ≠ 24) {iovecIn : List ℕ}
    (hcount : iovecIn.length < 64) (hsum : (iovecIn.filter fun len => len ≠ 0).sum < 2 ^ 31) :
    fill.mcastMsg iovecIn = some true ↔
      ((iovecIn.filter fun len => len ≠ 0).sum + 2 * fill.packedMsgCount) / sizeSub netMtu 24 + 1 ≤
          fill.avail ∧ fill.Fits (iovecIn.filter fun len => len ≠ 0) := by
  have hpos : ∀ len ∈ iovecIn.filter (fun len => len ≠ 0), 0 < len := by
    intro len hlen
    have hne := (mem_filter.mp hlen).2
    simp only [decide_eq_true_eq] at hne
    omega
  rw [mcastMsg, assertThat_bind_of_true hcount]
  simp only [byteCountSendOk, fill.msgCount_eq hmtu hsum]
  generalize iovecIn.filter (fun len => len ≠ 0) = iovec at *
  rw [← fill.isSome_fillLoop_iff hpos (by omega)]
  by_cases hok : (iovec.sum + 2 * fill.packedMsgCount) / sizeSub netMtu 24 + 1 ≤ fill.avail
  · cases hfill : fillLoop netMtu iovec.sum iovec 0 fill.filling <;> simp [hok]
  · simp [hok]

/-- The sizes of a node. -/
structure Of (fill : Fill netMtu) (node : Node) : Prop where
  count : fill.packedMsgCount = node.pg.packedMsgLens.length
  size : fill.fragmentSize = node.pg.fragmentationData.length
  avail : node.srp.totemsrpAvail = some fill.avail

/-- Two ways to write the divisor of the estimate. -/
theorem sizeSub_packetSize (config : PgConfig) :
    sizeSub config.packetSize 16 = sizeSub config.netMtu 24 := by
  have hlow := config.lt_netMtu
  unfold sizeSub PgConfig.packetSize
  unfold mcastHeaderSize at *
  omega

/-- The admission of a node is the one of its sizes. -/
theorem byteCountSendOk_eq {config : PgConfig} (fill : Fill config.netMtu) (bytes : ℕ) :
    Totempg.byteCountSendOk config fill.avail bytes = fill.byteCountSendOk bytes := by
  unfold Totempg.byteCountSendOk byteCountSendOk msgCount
  rw [sizeSub_packetSize]
  generalize sizeSub config.netMtu 24 = divisor
  by_cases hzero : divisor ≠ 0
  · rw [assertThat_bind_of_true hzero, assertThat_bind_of_true hzero]
    rfl
  · simp only [assertThat, if_neg hzero]
    rfl

/-- For the staged bytes of a node the call does the same as `mcast_msg` with the bytes. -/
theorem Of.mcastMsg {config : PgConfig} {buffer : Buffer config} {node : Node}
    {packets accepted delivered : List (List UInt8)} {part : List UInt8}
    {fill : Fill config.netMtu} (hof : fill.Of node)
    (hstream : Stream buffer node.pg packets accepted delivered part)
    (iovecIn : List (List UInt8)) :
    (Totempg.mcastMsg config node iovecIn).map Prod.snd =
      fill.mcastMsg (iovecIn.map List.length) := by
  set iovec := iovecIn.filter fun iov => !iov.isEmpty with hiovec
  set st : Packing :=
    ⟨node, 0, config.packetSize - 2 * (node.pg.packedMsgLens.length + 1)⟩ with hst
  have hlens : (iovecIn.map List.length).filter (fun len => len ≠ 0) = iovec.map List.length := by
    rw [filter_map]
    congr 1
    refine filter_congr fun iov _ => ?_
    cases iov <;> simp
  have hsum : (iovec.map List.length).sum = iovec.flatten.length := length_flatten.symm
  have hfilling : st.filling fill.avail = fill.filling := by
    have hlow := config.lt_netMtu
    have hroom := hstream.room
    simp only [hst, Packing.filling, Packing.fragmentSize, filling, maxPacketSizeOf, hof.count,
      hof.size, Filling.mk.injEq, true_and, and_true]
    unfold PgConfig.packetSize at *
    omega
  have hsmall : st.maxPacketSize < 2 ^ 63 := by
    have hhigh := config.packetSize_bounds.2.1
    simp only [hst]
    omega
  have hloop := @mcastLoop_eq_fillLoop config iovec.flatten.length 0 fill.avail iovec st
    hstream.start.two_le hsmall hstream.start.room hof.avail
  rw [hfilling] at hloop
  by_cases hiov : iovecIn.length < 64
  · have hiov' : (iovecIn.map List.length).length < 64 := by rwa [length_map]
    rw [Totempg.mcastMsg, assertThat_bind_of_true hiov, hof.avail, Fill.mcastMsg,
      assertThat_bind_of_true hiov', hlens]
    dsimp only
    rw [hsum, hof.count, Option.bind_eq_bind, Option.bind_some, byteCountSendOk_eq, ← hiovec]
    cases fill.byteCountSendOk (iovec.flatten.length + 2 * node.pg.packedMsgLens.length) with
    | none => rfl
    | some sendOk =>
      cases sendOk with
      | false => rfl
      | true => exact hloop
  · have hiov' : ¬(iovecIn.map List.length).length < 64 := by rwa [length_map]
    rw [Totempg.mcastMsg, Fill.mcastMsg, assertThat, assertThat, if_neg hiov, if_neg hiov']
    rfl

end Fill

end Corosync.Totempg
