import Corosync.Totemsrp.Instance
import Corosync.Totempg.Packet

/-!
# Packing of messages

`mcast_msg` packs messages into the staging buffer `fragmentation_data` and hands every packet that
is full to `totemsrp_mcast`; `callback_token_received_fn` hands over what is staged when the token
arrives. The differences of sizes below are natural numbers: for packets of more than four bytes
none of them is negative, which `Packing.room` and `Stream.room` state.
-/

namespace Corosync.Totempg

open Totemsrp (Instance)

/-- The part of `totem_config` that the layer reads. -/
structure PgConfig where
  netMtu : ℕ
  lt_netMtu : mcastHeaderSize + 4 < netMtu
  netMtu_lt : netMtu < mcastHeaderSize + 65536

/-- `TOTEMPG_PACKET_SIZE`. -/
def PgConfig.packetSize (config : PgConfig) : ℕ := config.netMtu - mcastHeaderSize

/-- The packing state in the static variables of `totempg.c`. -/
structure Staging where
  /-- The first `mcast_packed_msg_count` entries of `mcast_packed_msg_lens`. -/
  packedMsgLens : List ℕ
  /-- The first `fragment_size` bytes of `fragmentation_data`. -/
  fragmentationData : List UInt8
  fragmentContinuation : UInt8
  nextFragment : UInt8
  deriving DecidableEq, Repr

/-- The initial values of the static variables. -/
def Staging.initial : Staging where
  packedMsgLens := []
  fragmentationData := []
  fragmentContinuation := 0
  nextFragment := 1

/-- A packet that `totemsrp_mcast` took, with the queue it was put in. -/
structure QueuedPacket where
  /-- Whether the packet went to `new_message_queue_trans`. -/
  trans : Bool
  bytes : List UInt8
  deriving DecidableEq, Repr

/-- The process group layer of one node above its `totemsrp` instance. -/
structure Node where
  pg : Staging
  srp : Instance
  /-- Packets taken by `totemsrp_mcast` so far, oldest first. -/
  queued : List QueuedPacket

/-- Subtraction of `size_t`. -/
def sizeSub (a b : ℕ) : ℕ := (a + 2 ^ 64 - b) % 2 ^ 64

/-- `byte_count_send_ok`. The division aborts for a packet size of 16. -/
def byteCountSendOk (config : PgConfig) (avail byteCount : ℕ) : Option Bool := do
  let divisor := sizeSub config.packetSize 16
  assertThat (divisor ≠ 0)
  return decide ((byteCount / divisor + 1) % 2 ^ 32 ≤ avail)

/-- The call of `totemsrp_mcast` with one packet. Returns whether the packet was taken. -/
def Node.mcast (node : Node) (packet : Packet) : Option (Node × Bool) := do
  let srp ← node.srp.totemsrpMcast packet.encode
  if node.srp.applicationQueue.isFull then
    return ({ node with srp := srp }, false)
  else
    return ({ node with
      srp := srp
      queued := node.queued ++ [⟨node.srp.waitingTransAck, packet.encode⟩] }, true)

/-- The variables of the loop of `mcast_msg`. -/
structure Packing where
  node : Node
  /-- `mcast_packed_msg_lens[mcast_packed_msg_count]`: staged bytes of the current message. -/
  current : ℕ
  maxPacketSize : ℕ

namespace Packing

/-- `fragment_size`. -/
def fragmentSize (st : Packing) : ℕ := st.node.pg.fragmentationData.length

/-- The rest of an iovec is copied to the staging buffer. -/
def stage (st : Packing) (bytes : List UInt8) : Packing :=
  { st with
    node := { st.node with pg := { st.node.pg with
      fragmentationData := st.node.pg.fragmentationData ++ bytes
      nextFragment := 1 } }
    current := (st.current + bytes.length) % 65536 }

/-- `next_fragment` as it is used for a fragment, which is never zero. -/
def fragmentNumber (st : Packing) : UInt8 :=
  if st.node.pg.nextFragment = 0 then st.node.pg.nextFragment + 1 else st.node.pg.nextFragment

/-- The packet made of the staged bytes and `copyLen` bytes of `bytes`; `more` says whether the
message goes on after it. -/
def packet (st : Packing) (bytes : List UInt8) (copyLen : ℕ) (more : Bool) : Packet where
  fragmented := if more then st.fragmentNumber else 0
  continuation := st.node.pg.fragmentContinuation
  lens := st.node.pg.packedMsgLens ++ [(st.current + copyLen) % 65536]
  data :=
    -- a packet without staged bytes is sent from the iovec itself
    if copyLen = st.maxPacketSize then bytes.take (st.fragmentSize + copyLen)
    else st.node.pg.fragmentationData ++ bytes.take copyLen

/-- The static variables when the packet is sent. -/
def sending (st : Packing) (packet : Packet) (more : Bool) : Node :=
  { st.node with pg := { st.node.pg with
    packedMsgLens := packet.lens
    fragmentContinuation := packet.fragmented
    nextFragment := if more then st.fragmentNumber + 1 else st.node.pg.nextFragment } }

/-- The variables after a packet was taken. -/
def reset (config : PgConfig) (node : Node) : Packing where
  node := { node with pg := { node.pg with packedMsgLens := [], fragmentationData := [] } }
  current := 0
  maxPacketSize := config.packetSize - 2

/-- A message that ends in the staging buffer is counted. -/
def finish (st : Packing) : Node :=
  if st.current = 0 then st.node
  else
    { st.node with pg := { st.node.pg with
      packedMsgLens := st.node.pg.packedMsgLens ++ [st.current] } }

end Packing

/-- The loop of `mcast_msg` over the iovecs, of which the first `copyBase` bytes are done. Returns
the node and whether all packets were taken. The first argument bounds the number of rounds. -/
def mcastLoop (config : PgConfig) :
    ℕ → List (List UInt8) → ℕ → Packing → Option (Node × Bool)
  | _, [], _, st => some (st.finish, true)
  | 0, _ :: _, _, _ => none
  | fuel + 1, iov :: iovs, copyBase, st =>
    if iov.length + st.fragmentSize < sizeSub st.maxPacketSize 2 then
      mcastLoop config fuel iovs 0 (st.stage (iov.drop copyBase))
    else do
      let copyLen := min (iov.length - copyBase) (st.maxPacketSize - st.fragmentSize)
      let more := !iovs.isEmpty || decide (copyBase + copyLen < iov.length)
      let packet := st.packet (iov.drop copyBase) copyLen more
      assertThat (more = true → packet.fragmented ≠ 0)
      let avail ← st.node.srp.totemsrpAvail
      assertThat (0 < avail)
      let (node, taken) ← (st.sending packet more).mcast packet
      if !taken then
        return (node, false)
      else if copyBase + copyLen = iov.length then
        mcastLoop config fuel iovs 0 (.reset config node)
      else
        mcastLoop config fuel (iov :: iovs) (copyBase + copyLen) (.reset config node)

/-- `mcast_msg`. Returns the node and whether the message was accepted. Every round takes at least
one byte, so the loop ends within as many rounds as the message has bytes. -/
def mcastMsg (config : PgConfig) (node : Node) (iovecIn : List (List UInt8)) :
    Option (Node × Bool) := do
  assertThat (iovecIn.length < 64)
  let iovec := iovecIn.filter fun iov => !iov.isEmpty
  let totalSize := iovec.flatten.length
  let avail ← node.srp.totemsrpAvail
  let sendOk ← byteCountSendOk config avail (totalSize + 2 * node.pg.packedMsgLens.length)
  if !sendOk then
    return (node, false)
  else
    mcastLoop config totalSize iovec 0
      { node := node
        current := 0
        maxPacketSize := config.packetSize - 2 * (node.pg.packedMsgLens.length + 1) }

/-- The packet made of what is staged. -/
def Staging.packet (pg : Staging) : Packet where
  fragmented := 0
  continuation := pg.fragmentContinuation
  lens := pg.packedMsgLens
  data := pg.fragmentationData

/-- `callback_token_received_fn`. -/
def callbackTokenReceivedFn (node : Node) : Option Node :=
  if node.pg.packedMsgLens.isEmpty then
    some node
  else do
    let avail ← node.srp.totemsrpAvail
    if avail = 0 then
      return node
    else
      let (sent, _) ← { node with pg := { node.pg with
        fragmentContinuation := 0 } }.mcast node.pg.packet
      return { sent with pg := { sent.pg with packedMsgLens := [], fragmentationData := [] } }

end Corosync.Totempg
