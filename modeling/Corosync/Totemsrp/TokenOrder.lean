import Corosync.Library.Rotation
import Corosync.Totemsrp.Ring

/-!
# The order of the tokens

Tokens are numbered consecutively around the ring, so a member accepts what its predecessor passed
on exactly once: when it is the newest token. Everything else that arrives from the predecessor is
a retransmission that the member rejects.
-/

namespace Corosync.Totemsrp

open Function Library

variable {n : ℕ} [NeZero n]

/-- `v` tokens have been passed on after the initial one, which station `rep` sent; the `k`-th is
in the buffer of station `rep + k`. -/
structure TokenOrder (rep v : ℕ) (nodes : Fin n → Instance) : Prop where
  passed : ∀ k ≤ v, v < k + n → ∃ token,
    (nodes (station n (rep + k))).orfTokenRetransmit = some (.orf token) ∧
      token.tokenSeq = k % 2 ^ 32
  seen : ∀ k ≤ v, v < k + n → (nodes (station n (rep + k))).myTokenSeq = usub k 1
  waiting : ∀ k, v < k → k < n → ∀ token,
    (nodes (station n (rep + k))).orfTokenRetransmit ≠ some (.orf token)
  unseen : ∀ k, v < k → k < n → (nodes (station n (rep + k))).myTokenSeq = usub 0 1

variable {rep v : ℕ} {s : Ring n} {i : Fin n} {token : OrfToken} {inst : Instance}

/-- The token a member receives is in the buffer of its predecessor. -/
theorem Ring.incoming_eq_some (hincoming : s.incoming i = some token) :
    (s.nodes (i - 1)).orfTokenRetransmit = some (.orf token) := by
  unfold Ring.incoming at hincoming
  split at hincoming
  · rename_i token' hbuffer
    rw [hbuffer, Option.some.inj hincoming]
  · simp at hincoming

namespace TokenOrder

/-- Only the successor of the newest token's sender accepts a token from its predecessor. -/
theorem inFlight (horder : TokenOrder rep v s.nodes) (hflight : s.InFlight i token) :
    i = station n (rep + v + 1) ∧ token.tokenSeq = v % 2 ^ 32 ∧
      (s.nodes (station n (rep + v))).orfTokenRetransmit = some (.orf token) := by
  obtain ⟨hincoming, haccept⟩ := hflight
  have hbuffer := Ring.incoming_eq_some hincoming
  obtain ⟨k, hstation, hturn⟩ := exists_turn rep v (i - 1)
  rw [← hstation] at hbuffer
  have hi := eq_station_succ hstation
  rcases hturn with ⟨hle, hlt⟩ | ⟨hgt, hkn⟩
  · obtain ⟨token', hbuffer', hseq⟩ := horder.passed k hle hlt
    obtain rfl : token' = token := by
      rw [hbuffer'] at hbuffer
      exact TokenBuffer.orf.inj (Option.some.inj hbuffer)
    by_cases hnewest : k = v
    · subst hnewest
      exact ⟨hi, hseq, hbuffer⟩
    -- an older token is the one the member saw last
    have hseen := horder.seen (k + 1) (by omega) (by omega)
    rw [← Nat.add_assoc, ← hi] at hseen
    have hsame : (s.nodes i).myTokenSeq = token'.tokenSeq := by
      rw [hseen, hseq]
      unfold usub
      omega
    have hdiscarded : tokenDiscarded (s.nodes i) token' = true := by
      rw [tokenDiscarded, hsame, sqLteCompare_self, Bool.or_true]
    rw [tokenRejected, hdiscarded, Bool.or_true] at haccept
    simp at haccept
  · exact absurd hbuffer (horder.waiting k hgt hkn token)

/-- The order depends on the buffers and the token numbers only. -/
theorem congr {nodes nodes' : Fin n → Instance} (horder : TokenOrder rep v nodes)
    (hbuffer : ∀ j, (nodes' j).orfTokenRetransmit = (nodes j).orfTokenRetransmit)
    (hseq : ∀ j, (nodes' j).myTokenSeq = (nodes j).myTokenSeq) : TokenOrder rep v nodes' where
  passed := by simpa only [hbuffer] using horder.passed
  seen := by simpa only [hseq] using horder.seen
  waiting := by simpa only [hbuffer] using horder.waiting
  unseen := by simpa only [hseq] using horder.unseen

/-- A member that keeps its buffer and token number keeps the order. -/
theorem update_same {nodes : Fin n → Instance} (horder : TokenOrder rep v nodes)
    (hbuffer : inst.orfTokenRetransmit = (nodes i).orfTokenRetransmit)
    (hseq : inst.myTokenSeq = (nodes i).myTokenSeq) :
    TokenOrder rep v (Function.update nodes i inst) := by
  refine horder.congr (fun j => ?_) (fun j => ?_)
  · by_cases hj : j = i
    · subst hj
      rw [update_self, hbuffer]
    · rw [update_of_ne hj]
  · by_cases hj : j = i
    · subst hj
      rw [update_self, hseq]
    · rw [update_of_ne hj]

/-- The successor that accepts the newest token passes on the next one. -/
theorem update_next {nodes : Fin n → Instance} (horder : TokenOrder rep v nodes)
    {next : OrfToken} (hbuffer : inst.orfTokenRetransmit = some (.orf next))
    (hnext : next.tokenSeq = (v + 1) % 2 ^ 32) (hseq : inst.myTokenSeq = v % 2 ^ 32) :
    TokenOrder rep (v + 1) (Function.update nodes (station n (rep + v + 1)) inst) := by
  have hn : 0 < n := Nat.pos_of_ne_zero (NeZero.ne n)
  have hother : ∀ k, k ≠ v + 1 → k < v + 1 + n → v + 1 < k + n →
      station n (rep + k) ≠ station n (rep + v + 1) := by
    intro k hne hhigh hlow heq
    rcases Nat.lt_or_ge k (v + 1) with hlt | hge
    · have := station_inj heq (by omega) (by omega)
      omega
    · have := station_inj heq.symm (by omega) (by omega)
      omega
  exact {
    passed := by
      intro k hle hlt
      by_cases hk : k = v + 1
      · subst hk
        rw [← Nat.add_assoc, update_self]
        exact ⟨next, hbuffer, hnext⟩
      · rw [update_of_ne (hother k hk (by omega) hlt)]
        exact horder.passed k (by omega) (by omega)
    seen := by
      intro k hle hlt
      by_cases hk : k = v + 1
      · subst hk
        rw [← Nat.add_assoc, update_self, hseq]
        unfold usub
        omega
      · rw [update_of_ne (hother k hk (by omega) hlt)]
        exact horder.seen k (by omega) (by omega)
    waiting := by
      intro k hgt hkn
      rw [update_of_ne (hother k (by omega) (by omega) (by omega))]
      exact horder.waiting k (by omega) hkn
    unseen := by
      intro k hgt hkn
      rw [update_of_ne (hother k (by omega) (by omega) (by omega))]
      exact horder.unseen k (by omega) hkn }

end TokenOrder

end Corosync.Totemsrp
