import Corosync.Totempg.Capacity

/-!
# Admission of requests

Before a request of a client is handled, `corosync_sending_allowed` reserves packets for it from the
size of the request. The handler of `cpg` multicasts another message for it, with the headers of the
executive and of the group in front and behind what is staged already, and asserts that the call
succeeds. That needs the packets that were not reserved, for the headers, and a message that fits.
-/

namespace Corosync.Cpg

open Totempg (Fill messageQueueMax msgCount nonemptyLens sizeSub)

/-- `max_msg_size` of the library: it sends a larger message as several requests. -/
def maxMsgSize : ℕ := 8192 * 128 - 1024

/-- The requests for which the handlers multicast a message. -/
inductive Request
  | join
  | leave
  | mcast (msglen : Fin (maxMsgSize + 1))
  | partialMcast (fraglen : Fin (maxMsgSize + 1))
deriving DecidableEq, Repr

namespace Request

/-- `header.size`, with the sizes of `req_lib_cpg_join` and the other structures. -/
def size : Request → ℕ
  | .join => 168
  | .leave => 160
  | .mcast msglen => 40 + msglen
  | .partialMcast fraglen => 56 + fraglen

/-- The iovecs of the handler, with the sizes of `req_exec_cpg_procjoin`, `req_exec_cpg_mcast` and
`req_exec_cpg_partial_mcast`. -/
def iovec : Request → List ℕ
  | .join | .leave => [168]
  | .mcast msglen => [184, msglen]
  | .partialMcast fraglen => [200, fraglen]

/-- What the message has more than the request: the number of groups, the length of the name and the
difference of the headers. -/
def headers : Request → ℕ
  | .join => 4
  | .leave => 12
  | .mcast _ | .partialMcast _ => 148

end Request

/-- The length of the group name `a`. -/
def groupLen : ℕ := 1

/-- The bytes that are reserved for a request. -/
def Request.counted (request : Request) : ℕ := groupLen + request.size

variable {netMtu : ℕ}

/-- `totempg_size_limit`, computed while the queue is empty. -/
def sizeLimit (netMtu : ℕ) : ℕ :=
  (((messageQueueMax netMtu : ℤ) - 3) * (netMtu - 24) % 2 ^ 32).toNat

/-- `totempg_groups_joined_reserve`. -/
def joinedReserve (fill : Fill netMtu) (request : Request) : Option ℤ := do
  let size := request.counted
  if sizeLimit netMtu ≤ size then
    return -1
  else
    let sendOk ← fill.byteCountSendOk size
    if sendOk then
      let count ← msgCount netMtu size
      return count
    else
      return 0

/-- `corosync_sending_allowed`. The requests need flow control and are allowed without quorum. -/
def sendingAllowed (fill : Fill netMtu) (syncInProcess : Bool) (request : Request) :
    Option Bool := do
  let reservedMsgs ← joinedReserve fill request
  return reservedMsgs ≠ -1 && reservedMsgs ≠ 0 && !syncInProcess

/-- The iovecs of the message: the number of groups and the length of the name, the name, and the
iovecs of the handler. -/
def Request.message (request : Request) : List ℕ := [4, groupLen] ++ request.iovec

/-- `totempg_groups_mcast_joined` -/
def mcastJoined (fill : Fill netMtu) (request : Request) : Option Bool :=
  fill.mcastMsg request.message

/-- The packets that are reserved for a request. -/
def reservedPackets (netMtu : ℕ) (request : Request) : ℕ :=
  request.counted / sizeSub netMtu 24 + 1

/-- The packets that the headers and the lengths of the packed messages need besides. -/
def morePackets (fill : Fill netMtu) (request : Request) : ℕ :=
  (request.counted % sizeSub netMtu 24 + request.headers + 2 * fill.packedMsgCount) /
    sizeSub netMtu 24

/-- Nothing is needed besides what is reserved, or it is free as well; and no iovec alone fills a
packet, or the place where the message ends is within the free packets. -/
def Holds (fill : Fill netMtu) (request : Request) : Prop :=
  (morePackets fill request = 0 ∨
      reservedPackets netMtu request + morePackets fill request ≤ fill.avail) ∧
    (Fill.Short netMtu request.message ∨ fill.Fits (nonemptyLens request.message))

instance (fill : Fill netMtu) (request : Request) : Decidable (Holds fill request) :=
  inferInstanceAs (Decidable (_ ∧ _))

/-- The message has the bytes of the request and of the headers. -/
theorem Request.sum_message (request : Request) :
    (nonemptyLens request.message).sum = request.counted + request.headers ∧
      request.counted + request.headers < 2 ^ 31 := by
  have hsum : (nonemptyLens request.message).sum = request.message.sum := by
    cases request with
    | join | leave => rfl
    | mcast len | partialMcast len =>
      by_cases hzero : (len : ℕ) = 0 <;>
        simp [nonemptyLens, message, iovec, groupLen, hzero]
  rw [hsum]
  cases request with
  | join | leave => decide
  | mcast len | partialMcast len =>
    have hlt := len.isLt
    simp only [message, iovec, counted, size, headers, groupLen, List.cons_append, List.nil_append,
      List.sum_cons, List.sum_nil]
    unfold maxMsgSize at hlt
    omega

/-- An admitted request has its packets reserved. The division by zero comes before. -/
theorem reserved_of_sendingAllowed {fill : Fill netMtu} {syncInProcess : Bool} {request : Request}
    (hallowed : sendingAllowed fill syncInProcess request = some true) :
    netMtu ≠ 24 ∧ reservedPackets netMtu request ≤ fill.avail := by
  have hbytes := request.sum_message.2
  rw [sendingAllowed, Option.bind_eq_bind, Option.bind_eq_some_iff] at hallowed
  obtain ⟨reserved, hreserved, hresult⟩ := hallowed
  simp only [joinedReserve] at hreserved
  split at hreserved
  · cases hreserved
    simp at hresult
  rw [Option.bind_eq_bind, Option.bind_eq_some_iff] at hreserved
  obtain ⟨sendOk, hsendOk, hreserved⟩ := hreserved
  cases sendOk with
  | false =>
    cases hreserved
    simp at hresult
  | true =>
    obtain ⟨count, hcount, hle⟩ := Option.map_eq_some_iff.mp hsendOk
    have hquot := Nat.div_le_self request.counted (sizeSub netMtu 24)
    rw [msgCount, Option.bind_eq_bind, Option.bind_eq_some_iff] at hcount
    obtain ⟨_, hdivisor, hcount⟩ := hcount
    constructor
    · rintro rfl
      simp [assertThat, sizeSub] at hdivisor
    · have hmod : count = request.counted / sizeSub netMtu 24 + 1 := by
        rw [← Option.some.inj hcount]
        exact Nat.mod_eq_of_lt (by omega)
      rw [reservedPackets, ← hmod]
      exact of_decide_eq_true hle

/-- The packets that `byte_count_send_ok` counts for the message. -/
theorem reserved_add_more (fill : Fill netMtu) (request : Request) (hmtu : netMtu ≠ 24) :
    ((nonemptyLens request.message).sum + 2 * fill.packedMsgCount) / sizeSub netMtu 24 + 1 =
      reservedPackets netMtu request + morePackets fill request := by
  obtain ⟨hpos, hle⟩ := fill.netMtu_bounds
  have hdivisor : 0 < sizeSub netMtu 24 := by
    unfold sizeSub
    omega
  have hsplit := Nat.div_add_mod request.counted (sizeSub netMtu 24)
  have hbytes : request.counted + request.headers + 2 * fill.packedMsgCount =
      (request.counted % sizeSub netMtu 24 + request.headers + 2 * fill.packedMsgCount) +
        sizeSub netMtu 24 * (request.counted / sizeSub netMtu 24) := by
    omega
  rw [request.sum_message.1, hbytes, Nat.add_mul_div_left _ _ hdivisor]
  unfold reservedPackets morePackets
  omega

/-- For every `net_mtu`, whatever is staged and queued: the message for an admitted request is
accepted and no assertion fails if and only if the packets for what the reservation leaves out are
free, and no iovec alone fills a packet or the message ends within the free packets. -/
theorem admitted_request_multicast_iff (fill : Fill netMtu) (syncInProcess : Bool)
    (request : Request) :
    (sendingAllowed fill syncInProcess request = some true →
        mcastJoined fill request = some true) ↔
      (sendingAllowed fill syncInProcess request = some true → Holds fill request) := by
  refine forall_congr' fun hallowed => ?_
  obtain ⟨hmtu, hreserved⟩ := reserved_of_sendingAllowed hallowed
  have hcount : request.message.length < 64 := by
    cases request <;> simp [Request.message, Request.iovec]
  have hbytes : (nonemptyLens request.message).sum < 2 ^ 31 :=
    request.sum_message.1 ▸ request.sum_message.2
  have hsent : mcastJoined fill request = some true ↔
      ((nonemptyLens request.message).sum + 2 * fill.packedMsgCount) / sizeSub netMtu 24 + 1 ≤
        fill.avail ∧ fill.Fits (nonemptyLens request.message) :=
    fill.mcastMsg_eq_true_iff hmtu hcount hbytes
  rw [hsent, reserved_add_more fill request hmtu]
  have hmore : reservedPackets netMtu request + morePackets fill request ≤ fill.avail ↔
      morePackets fill request = 0 ∨
        reservedPackets netMtu request + morePackets fill request ≤ fill.avail := by
    omega
  refine (and_congr_left' hmore).trans (and_congr_right fun hfree => ?_)
  refine ⟨.inr, fun h => h.elim (fun hshort => ?_) id⟩
  refine fill.fits_of_short hshort hcount ?_
  have hmtu' : sizeSub netMtu 24 = netMtu - 24 := by
    have := hshort.1
    have := fill.netMtu_bounds.2
    exact Totempg.sizeSub_of_le (by omega) (by omega)
  rw [fill.estimate_of_short hshort hcount, ← hmtu', reserved_add_more fill request hmtu]
  exact hmore.mpr hfree

/-- One packet is left in the queue and 900 bytes are sent: they are admitted, since the request has
941 bytes with the group, but the message has 1089 bytes, for which two packets are needed. -/
theorem admitted_request_refused :
    ∃ fill : Fill 1000, sendingAllowed fill false (.mcast 900) = some true ∧
      mcastJoined fill (.mcast 900) = some false :=
  ⟨⟨0, 0, 4191, by decide, by decide, by decide, by decide⟩, by decide +kernel, by decide +kernel⟩

-- Here the bytes are counted as two packets, but the message completes three.
example : ∃ fill : Fill 1000, sendingAllowed fill false (.mcast 988) = some true ∧
    mcastJoined fill (.mcast 988) = none :=
  ⟨⟨1, 984, 4190, by decide, by decide, by decide, by decide⟩, by decide +kernel, by decide +kernel⟩

end Corosync.Cpg
