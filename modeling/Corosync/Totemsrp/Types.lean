import Corosync.CsQueue
import Corosync.Libknet
import Corosync.Sq

/-!
# Data of the single ring protocol

The messages, the tokens and the per-node instance of `totemsrp.c`, with the fields that the
modelled handlers read or write. A message payload is a list of bytes; the byte order and the
buffers behind the messages are not represented.
-/

namespace Corosync.Totemsrp

/-- `FRAME_SIZE_MAX`, the length of the longest packet. -/
def frameSizeMax : ℕ := knetMaxPacketSize

/-- `QUEUE_RTR_ITEMS_SIZE_MAX`, the number of slots of a sort queue. -/
def queueRtrItemsSizeMax : ℕ := 16384

/-- `RETRANS_MESSAGE_QUEUE_SIZE_MAX`. -/
def retransMessageQueueSizeMax : ℕ := 16384

/-- `RETRANSMIT_ENTRIES_MAX`, the length limit of a token's retransmit list. -/
def retransmitEntriesMax : ℕ := 30

/-- `SEQNO_START_MSG`. -/
def seqnoStartMsg : ℕ := 0

/-- `SEQNO_START_TOKEN`. -/
def seqnoStartToken : ℕ := 0

/-- `PROCESSOR_COUNT_MAX`. -/
def processorCountMax : ℕ := 384

/-- A ring id: its representative and its sequence number. -/
structure RingId where
  rep : ℕ
  seq : ℕ
  deriving DecidableEq, Repr

/-- The header fields of a multicast message. -/
structure McastHeader where
  nodeid : ℕ
  systemFrom : ℕ
  seq : ℕ
  ringId : RingId
  deriving DecidableEq, Repr

/-- A multicast message. An encapsulated one carries a message of an older ring. -/
inductive Mcast where
  /-- `MESSAGE_NOT_ENCAPSULATED`: application data. -/
  | plain (header : McastHeader) (data : List UInt8)
  /-- `MESSAGE_ENCAPSULATED`: a message recovered from an old ring. -/
  | encapsulated (header : McastHeader) (message : Mcast)
  deriving DecidableEq, Repr

namespace Mcast

/-- The length of the packet; `struct mcast` has 45 bytes. -/
def msgLen : Mcast → ℕ
  | plain _ data => 45 + data.length
  | encapsulated _ message => 45 + message.msgLen

/-- The outer header. -/
def header : Mcast → McastHeader
  | plain header _ => header
  | encapsulated header _ => header

/-- The message with another outer header. -/
def withHeader : Mcast → McastHeader → Mcast
  | plain _ data, header => plain header data
  | encapsulated _ message, header => encapsulated header message

/-- `header.encapsulated == MESSAGE_ENCAPSULATED`. -/
def isEncapsulated : Mcast → Bool
  | plain _ _ => false
  | encapsulated _ _ => true

end Mcast

/-- One entry of a token's retransmit list. -/
structure RtrItem where
  ringId : RingId
  seq : ℕ
  deriving DecidableEq, Repr

/-- The regular token. -/
structure OrfToken where
  seq : ℕ
  tokenSeq : ℕ
  aru : ℕ
  /-- Node that lowered `aru`, or zero. -/
  aruAddr : ℕ
  ringId : RingId
  backlog : ℕ
  fcc : ℕ
  retransFlg : Bool
  rtrList : List RtrItem
  deriving DecidableEq, Repr

/-- What a member reports of its old ring in a commit token. -/
structure MembEntry where
  ringId : RingId
  aru : ℕ
  highDelivered : ℕ
  receivedFlg : Bool
  deriving DecidableEq, Repr

/-- The commit token. -/
structure CommitToken where
  tokenSeq : ℕ
  ringId : RingId
  membIndex : ℤ
  addr : List ℕ
  membList : List MembEntry
  deriving DecidableEq, Repr

/-- What `orf_token_retransmit` holds: both kinds of token are kept there. -/
inductive TokenBuffer where
  | orf (token : OrfToken)
  | commit (token : CommitToken)
  deriving DecidableEq, Repr

/-- `memb_state`. -/
inductive MembState where
  | operational
  | gather
  | commit
  | recovery
  deriving DecidableEq, Repr

/-- The configuration the handlers read. -/
structure TotemConfig where
  maxMessages : ℕ
  windowSize : ℕ
  missCountConst : ℕ
  failToRecvConst : ℕ
  deriving DecidableEq, Repr

end Corosync.Totemsrp
