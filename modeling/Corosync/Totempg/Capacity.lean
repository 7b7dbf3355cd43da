import Corosync.Totempg.Sizes
import Mathlib.Algebra.Group.Action.Defs

/-!
# Admission and capacity

`byte_count_send_ok` divides the bytes of a message by a packet size that is 14 bytes smaller than
what fits, and adds one. This leaves room for what is staged already and for the bytes that stay
free at the end of a packet, as long as no iovec fills a packet alone. The rest of an iovec that
does is sent in a packet of its own, and the estimate does not know of it: then the place where the
message ends decides.
-/

namespace Corosync.Totempg

open Library

/-- The parameter `int byte_count` of `byte_count_send_ok`, as the `size_t` it is in the
division. -/
def byteCount (bytes : ℕ) : ℕ := ((bytes : ℤ).bmod (2 ^ 32) % 2 ^ 64).toNat

/-- The lengths of the iovecs that are not empty. -/
def nonemptyLens (iovecIn : List ℕ) : List ℕ := iovecIn.filter fun len => len ≠ 0

/-- A number of bytes that is an `int` stays what it is. -/
theorem byteCount_of_lt {bytes : ℕ} (hlt : bytes < 2 ^ 31) : byteCount bytes = bytes := by
  unfold byteCount
  rw [Int.bmod_def]
  omega

/-- The lengths that count are positive. -/
theorem pos_of_mem_nonemptyLens {iovecIn : List ℕ} {len : ℕ} (hmem : len ∈ nonemptyLens iovecIn) :
    0 < len := by
  have hne := (List.mem_filter.mp hmem).2
  simp only [decide_eq_true_eq] at hne
  omega

/-- The lengths are an `int`, and there are at most 63 of them. -/
theorem sum_nonemptyLens_lt {iovecIn : List ℕ} (hint : ∀ len ∈ iovecIn, len < 2 ^ 31)
    (hcount : iovecIn.length < 64) : (nonemptyLens iovecIn).sum < 2 ^ 61 := by
  have hall : ∀ len ∈ nonemptyLens iovecIn, len ≤ 2 ^ 31 := fun len hmem =>
    Nat.le_of_lt (hint len (List.mem_of_mem_filter hmem))
  have hsum := List.sum_le_card_nsmul (nonemptyLens iovecIn) (2 ^ 31) hall
  have hlength := List.length_filter_le (fun len => decide (len ≠ 0)) iovecIn
  unfold nonemptyLens at hsum ⊢
  simp only [smul_eq_mul] at hsum
  omega

namespace Fill

variable {netMtu : ℕ}

/-- `byte_count_send_ok` is called for the message in `mcast_msg` and accepts it. -/
def Accepts (fill : Fill netMtu) (iovecIn : List ℕ) : Prop :=
  iovecIn.length < 64 ∧
    fill.byteCountSendOk (byteCount ((nonemptyLens iovecIn).sum + 2 * fill.packedMsgCount)) =
      some true

/-- The calls of `totemsrp_mcast` in the loop of `mcast_msg`; `none` where the assertion
`totemsrp_avail > 0` fails. -/
def mcastCalls (fill : Fill netMtu) (iovecIn : List ℕ) : Option ℕ :=
  (fillLoop netMtu (nonemptyLens iovecIn).sum (nonemptyLens iovecIn) 0 fill.filling).map
    fun st => fill.avail - st.avail

/-- The packets that `byte_count_send_ok` counts for a message. -/
def estimate (fill : Fill netMtu) (iovecIn : List ℕ) : ℕ :=
  (byteCount ((nonemptyLens iovecIn).sum + 2 * fill.packedMsgCount) / sizeSub netMtu 24 + 1) %
    2 ^ 32

/-- The check compares the estimate with the free slots. For a `net_mtu` of 24 it divides by
zero. -/
theorem accepts_iff (fill : Fill netMtu) (iovecIn : List ℕ) :
    fill.Accepts iovecIn ↔
      iovecIn.length < 64 ∧ netMtu ≠ 24 ∧ fill.estimate iovecIn ≤ fill.avail := by
  obtain ⟨hpos, hle⟩ := fill.netMtu_bounds
  have hdivisor : sizeSub netMtu 24 ≠ 0 ↔ netMtu ≠ 24 := by
    unfold sizeSub
    omega
  unfold Accepts byteCountSendOk msgCount
  refine and_congr_right fun _ => ?_
  by_cases hmtu : netMtu = 24
  · subst hmtu
    simp [assertThat, sizeSub]
  · rw [assertThat_bind_of_true (hdivisor.mpr hmtu)]
    simp [hmtu, estimate]

/-- No iovec alone fills a packet. -/
def Short (netMtu : ℕ) (iovecIn : List ℕ) : Prop :=
  24 < netMtu ∧ ∀ len ∈ iovecIn, len + 12 < netMtu

instance (iovecIn : List ℕ) : Decidable (Short netMtu iovecIn) :=
  inferInstanceAs (Decidable (_ ∧ _))

/-- The bytes of a message without long iovecs are counted as they are. -/
theorem estimate_of_short (fill : Fill netMtu) {iovecIn : List ℕ} (hshort : Short netMtu iovecIn)
    (hcount : iovecIn.length < 64) :
    fill.estimate iovecIn =
      ((nonemptyLens iovecIn).sum + 2 * fill.packedMsgCount) / (netMtu - 24) + 1 := by
  obtain ⟨hmtu, hshort⟩ := hshort
  obtain ⟨-, hle⟩ := fill.netMtu_bounds
  have hroom := fill.room (by omega)
  have hall : ∀ len ∈ nonemptyLens iovecIn, len ≤ 2 ^ 21 := fun len hmem => by
    have := hshort len (List.mem_of_mem_filter hmem)
    omega
  have hsum := List.sum_le_card_nsmul (nonemptyLens iovecIn) (2 ^ 21) hall
  have hlength := List.length_filter_le (fun len => decide (len ≠ 0)) iovecIn
  rw [smul_eq_mul] at hsum
  have hbytes : (nonemptyLens iovecIn).sum + 2 * fill.packedMsgCount < 2 ^ 28 := by
    unfold nonemptyLens at hsum ⊢
    omega
  have hdivisor : sizeSub netMtu 24 = netMtu - 24 := sizeSub_of_le (by omega) (by omega)
  have hquot := Nat.div_le_self ((nonemptyLens iovecIn).sum + 2 * fill.packedMsgCount) (netMtu - 24)
  rw [estimate, byteCount_of_lt (by omega), hdivisor, Nat.mod_eq_of_lt (by omega)]

/-- A message without long iovecs fits if it is accepted: the packets of the estimate are twelve
bytes smaller than what is filled of a packet at least. -/
theorem fits_of_short (fill : Fill netMtu) {iovecIn : List ℕ} (hshort : Short netMtu iovecIn)
    (hcount : iovecIn.length < 64) (havail : fill.estimate iovecIn ≤ fill.avail) :
    fill.Fits (nonemptyLens iovecIn) := by
  rw [fill.estimate_of_short hshort hcount] at havail
  obtain ⟨hmtu, hshort⟩ := hshort
  have hroom := fill.room (by omega)
  unfold mcastHeaderSize at hroom
  have hplace : fill.place < netMtu - 10 := by
    unfold place
    omega
  have hfilled : (netMtu - 10 - 2) *
      (itemsEnd (netMtu - 10) 2 fill.place (nonemptyLens iovecIn) / (netMtu - 10)) ≤ _ :=
    mul_div_le_of_short
      (fun len hmem => by have := hshort len (List.mem_of_mem_filter hmem); omega) hplace
  refine .inr ((Nat.div_lt_iff_lt_mul (by omega)).mp (Nat.lt_succ_of_le ?_))
  generalize (nonemptyLens iovecIn).sum = bytes at *
  generalize itemsEnd (netMtu - 10) 2 fill.place (nonemptyLens iovecIn) / (netMtu - 10) = packets
    at *
  refine Nat.le_trans ?_ havail
  rcases packets with _ | _ | q
  · exact Nat.zero_le _
  · exact Nat.le_add_left 1 _
  · refine Nat.succ_le_succ ((Nat.le_div_iff_mul_le (by omega)).mpr ?_)
    obtain ⟨size, rfl⟩ : ∃ size, netMtu = 24 + size := ⟨netMtu - 24, by omega⟩
    unfold place at hfilled
    have hsizes : 24 + size - 10 - 2 = size + 12 := by omega
    rw [hsizes, Nat.add_mul, Nat.mul_add] at hfilled
    rw [Nat.add_sub_cancel_left, Nat.mul_comm]
    omega

/-- An accepted message is sent as a whole, with at most as many calls of `totemsrp_mcast` as there
were free slots, if and only if no iovec alone fills a packet or the place where the message ends is
within the free packets. The other cases are those in which it is not accepted. -/
theorem accepted_message_fits_iff (fill : Fill netMtu) (iovecIn : List ℕ)
    (hint : ∀ len ∈ iovecIn, len < 2 ^ 31) :
    (fill.Accepts iovecIn →
        ∃ calls, fill.mcastCalls iovecIn = some calls ∧ calls ≤ fill.avail) ↔
      (64 ≤ iovecIn.length ∨ netMtu = 24 ∨ fill.avail < fill.estimate iovecIn ∨
        Short netMtu iovecIn ∨ fill.Fits (nonemptyLens iovecIn)) := by
  rw [accepts_iff]
  by_cases hcount : iovecIn.length < 64
  · have hsent : (∃ calls, fill.mcastCalls iovecIn = some calls ∧ calls ≤ fill.avail) ↔
        fill.Fits (nonemptyLens iovecIn) := by
      rw [← fill.isSome_fillLoop_iff (fun len => pos_of_mem_nonemptyLens)
        (sum_nonemptyLens_lt hint hcount), mcastCalls, Option.isSome_iff_exists]
      simp only [Option.map_eq_some_iff]
      constructor
      · rintro ⟨_, ⟨st, hst, -⟩, -⟩
        exact ⟨st, hst⟩
      · rintro ⟨st, hst⟩
        exact ⟨_, ⟨st, hst, rfl⟩, Nat.sub_le _ _⟩
    have hshort := @fits_of_short _ fill iovecIn
    rw [hsent]
    by_cases hfits : fill.Fits (nonemptyLens iovecIn)
    · exact iff_of_true (fun _ => hfits) (.inr (.inr (.inr (.inr hfits))))
    · have hlong : Short netMtu iovecIn → fill.avail < fill.estimate iovecIn := fun h =>
        Nat.lt_of_not_le fun havail => hfits (hshort h hcount havail)
      constructor
      · intro h
        have : ¬(netMtu ≠ 24 ∧ fill.estimate iovecIn ≤ fill.avail) :=
          fun h' => hfits (h ⟨hcount, h'⟩)
        omega
      · rintro (h | h | h | h | h) ⟨-, hmtu, havail⟩
        · omega
        · exact absurd h hmtu
        · omega
        · have := hlong h
          omega
        · exact h
  · omega

/-- Two packets are free and 987 bytes are staged, one less than fits. A message of 992 bytes is
counted as two packets; it completes the staged one and one of its own, and since its iovec fills a
packet alone the last byte needs a third. -/
theorem accepted_message_cut_off :
    ∃ fill : Fill 1000, fill.avail = 2 ∧ fill.Accepts [992] ∧ fill.mcastCalls [992] = none := by
  refine ⟨⟨1, 987, 4190, by decide, by decide, by decide, by decide⟩, by decide, ?_, ?_⟩
  · exact (accepts_iff _ _).mpr (by decide +kernel)
  · decide +kernel

/-- With three free packets the same message is sent. -/
theorem accepted_message_fits_iff_three :
    ∃ fill : Fill 1000, fill.Accepts [992] ∧
      ∃ calls, fill.mcastCalls [992] = some calls ∧ calls ≤ fill.avail := by
  refine ⟨⟨1, 987, 4189, by decide, by decide, by decide, by decide⟩, ?_, ?_⟩
  · exact (accepts_iff _ _).mpr (by decide +kernel)
  · refine (accepted_message_fits_iff _ [992] (by decide)).mpr (by decide +kernel) ?_
    exact (accepts_iff _ _).mpr (by decide +kernel)

end Fill

end Corosync.Totempg
