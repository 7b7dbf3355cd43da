import Corosync.Uint
import Mathlib.Data.List.SplitLengths

/-!
# Packets of the process group layer

A packet carries several messages, of which the first may continue a message of the packet before
and the last may be continued by the packet after. It consists of the header `totempg_mcast`, the
lengths of the messages and their bytes.
-/

namespace Corosync.Totempg

open List

/-- `MESSAGE_SIZE_MAX`. -/
def messageSizeMax : ℕ := 1024 * 1024

/-- `sizeof (struct totempg_mcast)`. -/
def mcastHeaderSize : ℕ := 8

/-- An `unsigned short` in memory, low byte first. -/
def encodeShort (n : ℕ) : List UInt8 := [UInt8.ofNat n, UInt8.ofNat (n / 256)]

/-- Reads an array of `unsigned short`. -/
def decodeShorts : List UInt8 → List ℕ
  | low :: high :: rest => (low.toNat + 256 * high.toNat) :: decodeShorts rest
  | _ => []

/-- The parts of a packet that the layer sets and reads. -/
structure Packet where
  /-- `fragmented`: not zero when the last message is continued. -/
  fragmented : UInt8
  /-- `continuation`: not zero when the first message continues another one. -/
  continuation : UInt8
  lens : List ℕ
  data : List UInt8
  deriving DecidableEq, Repr

namespace Packet

/-- The lengths fit their fields and add up to the bytes. -/
structure WellFormed (packet : Packet) : Prop where
  count_lt : packet.lens.length < 65536
  len_lt : ∀ len ∈ packet.lens, len < 65536
  sum_lens : packet.lens.sum = packet.data.length

/-- The three buffers handed to `totemsrp_mcast`, one after the other. Version and type are zero. -/
def encode (packet : Packet) : List UInt8 :=
  [0, 0, 0, 0, packet.fragmented, packet.continuation] ++ encodeShort packet.lens.length ++
    packet.lens.flatMap encodeShort ++ packet.data

/-- The checks on a received packet: one whose length is not the announced one is ignored. -/
def decode : List UInt8 → Option Packet
  | _ :: _ :: _ :: _ :: fragmented :: continuation :: low :: high :: rest =>
    let count := low.toNat + 256 * high.toNat
    if rest.length < 2 * count then
      none
    else
      let lens := decodeShorts (rest.take (2 * count))
      if rest.length ≠ 2 * count + lens.sum then
        none
      else
        some { fragmented, continuation, lens, data := rest.drop (2 * count) }
  | _ => none

end Packet

/-- A 16-bit number is the sum of its bytes. -/
theorem toNat_bytes {n : ℕ} (hlt : n < 65536) :
    (UInt8.ofNat n).toNat + 256 * (UInt8.ofNat (n / 256)).toNat = n := by
  rw [UInt8.toNat_ofNat', UInt8.toNat_ofNat']
  omega

/-- Each length takes two bytes. -/
@[simp] theorem length_flatMap_encodeShort (lens : List ℕ) :
    (lens.flatMap encodeShort).length = 2 * lens.length := by
  induction lens with
  | nil => rfl
  | cons _ _ ih =>
    rw [flatMap_cons, length_append, ih, length_cons]
    simp only [encodeShort, length_cons, length_nil]
    omega

/-- Reading an array of numbers gives the numbers that were written. -/
theorem decodeShorts_flatMap {lens : List ℕ} (hlt : ∀ len ∈ lens, len < 65536) :
    decodeShorts (lens.flatMap encodeShort) = lens := by
  induction lens with
  | nil => rfl
  | cons len lens ih =>
    have htail : decodeShorts (lens.flatMap encodeShort) = lens :=
      ih fun other hother => hlt other (mem_cons_of_mem _ hother)
    have hhead : len < 65536 := hlt len mem_cons_self
    simp only [flatMap_cons, encodeShort, cons_append, nil_append, decodeShorts,
      toNat_bytes hhead, htail]

namespace Packet

/-- The length of an encoded packet. -/
theorem length_encode (packet : Packet) :
    packet.encode.length = mcastHeaderSize + 2 * packet.lens.length + packet.data.length := by
  simp only [encode, encodeShort, length_append, length_cons, length_nil,
    length_flatMap_encodeShort, mcastHeaderSize]

/-- A well-formed packet is decoded as it was encoded. -/
theorem decode_encode {packet : Packet} (hwf : packet.WellFormed) :
    decode packet.encode = some packet := by
  have htake : (packet.lens.flatMap encodeShort ++ packet.data).take (2 * packet.lens.length) =
      packet.lens.flatMap encodeShort := by
    rw [← length_flatMap_encodeShort, take_left]
  have hdrop : (packet.lens.flatMap encodeShort ++ packet.data).drop (2 * packet.lens.length) =
      packet.data := by
    rw [← length_flatMap_encodeShort, drop_left]
  have hlength : (packet.lens.flatMap encodeShort ++ packet.data).length =
      2 * packet.lens.length + packet.lens.sum := by
    rw [length_append, length_flatMap_encodeShort, hwf.sum_lens]
  simp only [encode, encodeShort, cons_append, nil_append, decode,
    toNat_bytes hwf.count_lt, htake, hdrop, decodeShorts_flatMap hwf.len_lt, hlength]
  rw [if_neg (by omega), if_neg (by simp)]

end Packet

end Corosync.Totempg
