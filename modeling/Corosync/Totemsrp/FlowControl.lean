import Corosync.Totemsrp.TokenOrder
import Mathlib.Algebra.Order.BigOperators.Group.Finset

/-!
# Flow control accounting

On a ring that starts from the initial token, the token in flight always carries the exact sums of
the members' contributions, and no rotation sends more than the window.
-/

namespace Corosync.Totemsrp

open Function Library

/-- `MESSAGE_SIZE_MAX`; a message queue has `(4 * MESSAGE_SIZE_MAX) / net_mtu` slots. -/
def messageSizeMax : ℕ := 1024 * 1024

/-- The message queues of a node are no longer than the code allocates them. -/
structure QueuesBounded (inst : Instance) : Prop where
  newSize : inst.newMessageQueue.size ≤ 4 * messageSizeMax
  transSize : inst.newMessageQueueTrans.size ≤ 4 * messageSizeMax
  retransSize : inst.retransMessageQueue.size ≤ 4 * messageSizeMax

/-- The backlog is bounded by the sizes of the queues. -/
theorem QueuesBounded.backlogGet_le {inst : Instance} (hbounded : QueuesBounded inst) :
    backlogGet inst ≤ 4 * messageSizeMax := by
  have hnew := inst.newMessageQueue.bounded
  have htrans := inst.newMessageQueueTrans.bounded
  have hretrans := inst.retransMessageQueue.bounded
  obtain ⟨hnewSize, htransSize, hretransSize⟩ := hbounded
  unfold backlogGet CsQueue.used
  split
  · split <;> omega
  · omega
  · omega
  · omega

variable {n : ℕ} [NeZero n]

/-- A ring on which the initial token has just been sent, by member `rep`. -/
structure FlowStart (window : ℕ) (rep : Fin n) (s : Ring n) : Prop where
  windows : ∀ i, (s.nodes i).config.windowSize = window
  trc : ∀ i, (s.nodes i).myTrc = 0
  pbl : ∀ i, (s.nodes i).myPbl = 0
  tokenSeq : ∀ i, (s.nodes i).myTokenSeq = usub seqnoStartToken 1
  queues : ∀ i, QueuesBounded (s.nodes i)
  /-- The initial token, as `orf_token_send_initial` leaves it. -/
  token : ∃ token, (s.nodes rep).orfTokenRetransmit = some (.orf token) ∧
    token.fcc = 0 ∧ token.backlog = 0 ∧ token.tokenSeq = seqnoStartToken
  others : ∀ i, i ≠ rep → ∀ token, (s.nodes i).orfTokenRetransmit ≠ some (.orf token)
  visits : s.visits = []

/-- What holds of the members' counters at every point of a run. -/
structure FlowSums (window rep : ℕ) (s : Ring n) : Prop where
  windows : ∀ i, (s.nodes i).config.windowSize = window
  queues : ∀ i, QueuesBounded (s.nodes i)
  pbl : ∀ i, (s.nodes i).myPbl ≤ 4 * messageSizeMax
  tracks : Tracks (rep + 1) (fun i => (s.nodes i).myTrc) s.visits
  total : ∑ i, (s.nodes i).myTrc ≤ window
  bound : ∀ w, w <:+: s.visits → w.length = n → w.sum ≤ window

/-- What holds at every point of a run: the newest token carries the sums, or it was dropped by
the member that would have passed it on. -/
structure FlowInv (window rep v : ℕ) (s : Ring n) : Prop extends FlowSums window rep s where
  order : TokenOrder rep v s.nodes
  token : (s.visits.length = v ∧ ∃ token,
      (s.nodes (station n (rep + v))).orfTokenRetransmit = some (.orf token) ∧
        token.fcc = ∑ i, (s.nodes i).myTrc ∧ token.backlog = ∑ i, (s.nodes i).myPbl) ∨
    (s.nodes (station n (rep + v + 1))).orfTokenDiscard = true

/-- A token in flight carries the sums of the members' contributions. -/
theorem FlowInv.inFlight {window rep v : ℕ} {s : Ring n} (hinv : FlowInv window rep v s)
    {i : Fin n} {token : OrfToken} (hflight : s.InFlight i token) :
    i = station n (rep + v + 1) ∧ token.tokenSeq = v % 2 ^ 32 ∧ s.visits.length = v ∧
      token.fcc = ∑ j, (s.nodes j).myTrc ∧ token.backlog = ∑ j, (s.nodes j).myPbl := by
  obtain ⟨hi, hseq, hbuffer⟩ := hinv.order.inFlight hflight
  rcases hinv.token with ⟨hlen, token', hbuffer', hfcc, hbacklog⟩ | hdiscard
  · rw [hbuffer'] at hbuffer
    obtain rfl := TokenBuffer.orf.inj (Option.some.inj hbuffer)
    exact ⟨hi, hseq, hlen, hfcc, hbacklog⟩
  · have haccept := hflight.2
    rw [← hi] at hdiscard
    simp [tokenRejected, tokenIgnored, hdiscard] at haccept

/-- The announced backlogs of a ring fit in an unsigned number, with room for one more. -/
theorem FlowSums.pbl_sum_le {window rep : ℕ} {s : Ring n} (hsums : FlowSums window rep s)
    (hn : n ≤ processorCountMax) : ∑ i, (s.nodes i).myPbl ≤ 384 * (4 * messageSizeMax) := by
  calc
    ∑ i, (s.nodes i).myPbl ≤ ∑ _i : Fin n, 4 * messageSizeMax :=
      Finset.sum_le_sum fun i _ => hsums.pbl i
    _ = n * (4 * messageSizeMax) := by simp
    _ ≤ 384 * (4 * messageSizeMax) := Nat.mul_le_mul_right _ hn

/-- The flow control of a new ring. -/
theorem FlowStart.inv {window : ℕ} {rep : Fin n} {s : Ring n} (hstart : FlowStart window rep s) :
    FlowInv window rep 0 s := by
  have hrep : station n (rep.val + 0) = rep := by simp [station]
  obtain ⟨token, hbuffer, hfcc, hbacklog, hseq⟩ := hstart.token
  have htrc : (fun i => (s.nodes i).myTrc) = fun _ => 0 := funext hstart.trc
  exact {
    windows := hstart.windows
    queues := hstart.queues
    pbl := fun i => by rw [hstart.pbl i]; omega
    tracks := by rw [htrc, hstart.visits]; exact Tracks.init _
    total := by simp [hstart.trc]
    bound := by
      intro w hw hlen
      rw [hstart.visits] at hw
      rw [List.eq_nil_of_infix_nil hw]
      exact Nat.zero_le _
    order := {
      passed := by
        intro k hk _
        obtain rfl : k = 0 := by omega
        rw [hrep]
        exact ⟨token, hbuffer, hseq⟩
      seen := by
        intro k hk _
        obtain rfl : k = 0 := by omega
        rw [hstart.tokenSeq]
        rfl
      waiting := by
        intro k hpos hlt token'
        refine hstart.others _ (fun heq => ?_) token'
        have hzero := station_inj (hrep.trans heq.symm) (by omega) (by omega)
        omega
      unseen := fun k _ _ => hstart.tokenSeq _ }
    token := .inl ⟨by rw [hstart.visits]; rfl, token, by rw [hrep]; exact hbuffer,
      by simp [hfcc, hstart.trc], by simp [hbacklog, hstart.pbl]⟩ }

section Step

variable {window rep v : ℕ} {s : Ring n} {i : Fin n} {inst : Instance}

/-- A step that leaves flow control alone. -/
theorem FlowInv.keeps (hinv : FlowInv window rep v s) (hkeeps : Keeps (s.nodes i) inst) :
    FlowInv window rep v (s.set i inst) := by
  have hconfig := apply_update_same Instance.config s.nodes i inst hkeeps.config
  have htrc := apply_update_same (fun node => node.myTrc) s.nodes i inst (by rw [hkeeps.flow])
  have hpbl := apply_update_same (fun node => node.myPbl) s.nodes i inst (by rw [hkeeps.flow])
  have hbuffer := apply_update_same (fun node => node.orfTokenRetransmit) s.nodes i inst
    hkeeps.buffer
  exact {
    windows := fun j => by rw [Ring.set_nodes, hconfig]; exact hinv.windows j
    queues := by
      have hqueues := hinv.queues i
      rw [Ring.set_nodes, forall_update_iff s.nodes fun _ node => QueuesBounded node]
      exact ⟨⟨hkeeps.newSize ▸ hqueues.newSize, hkeeps.transSize ▸ hqueues.transSize,
        hkeeps.retransSize ▸ hqueues.retransSize⟩, fun j _ => hinv.queues j⟩
    pbl := fun j => by rw [Ring.set_nodes, hpbl]; exact hinv.pbl j
    tracks := by simpa only [Ring.set_nodes, Ring.set_visits, htrc] using hinv.tracks
    total := by simpa only [Ring.set_nodes, htrc] using hinv.total
    bound := hinv.bound
    order := hinv.order.update_same hkeeps.buffer hkeeps.tokenSeq
    token := by
      rcases hinv.token with htoken | hdiscard
      · exact .inl (by
          simpa only [Ring.set_nodes, Ring.set_visits, htrc, hpbl, hbuffer] using htoken)
      refine .inr ?_
      rw [Ring.set_nodes]
      by_cases hj : station n (rep + v + 1) = i
      · rw [hj] at hdiscard
        rw [hj, update_self]
        exact hkeeps.discard hdiscard
      · rw [update_of_ne hj]
        exact hdiscard }

/-- Exchanging a summand in unsigned arithmetic, when neither sum wraps. -/
private theorem uadd_usub_exchange {total old new : ℕ} (hold : old ≤ total)
    (hsum : total + new - old < 2 ^ 32) (hnew : new < 2 ^ 32) :
    uadd total (usub new old) = total + new - old := by
  unfold uadd usub
  omega

omit [NeZero n] in
/-- A term of a sum is at most the sum. -/
private theorem le_sum (f : Fin n → ℕ) (i : Fin n) : f i ≤ ∑ j, f j :=
  Finset.single_le_sum (fun _ _ => Nat.zero_le _) (Finset.mem_univ i)

variable {token : OrfToken} {messages : List Mcast}

omit [NeZero n] in
/-- The backlogs after a visit of the token. -/
theorem pbl_sum_update (hvisits : Visits (s.nodes i) token messages inst) :
    ∑ j, (Function.update s.nodes i inst j).myPbl =
      ∑ j, (s.nodes j).myPbl + backlogGet (s.nodes i) - (s.nodes i).myPbl := by
  have hsum := sum_update_add (fun j => (s.nodes j).myPbl) i inst.myPbl
  rw [← apply_update_eq (fun node => node.myPbl) s.nodes i inst, hvisits.pbl] at hsum
  dsimp only at hsum
  omega

section

variable (hwindow : window < 2 ^ 32) (hinv : FlowInv window rep v s) (hflight : s.InFlight i token)
  (hvisits : Visits (s.nodes i) token messages inst)

include hwindow hinv hflight hvisits

/-- The transmissions after a visit of the token, which stay within the window. -/
theorem FlowInv.trc_sum :
    ∑ j, (Function.update s.nodes i inst j).myTrc =
        ∑ j, (s.nodes j).myTrc + messages.length - (s.nodes i).myTrc ∧
      ∑ j, (s.nodes j).myTrc + messages.length ≤ window := by
  obtain ⟨-, -, -, hfcc, -⟩ := hinv.inFlight hflight
  have hsum := sum_update_add (fun j => (s.nodes j).myTrc) i inst.myTrc
  rw [← apply_update_eq (fun node => node.myTrc) s.nodes i inst, hvisits.trc] at hsum
  dsimp only at hsum
  have htotal := hinv.total
  have hbudget := hvisits.budget
  rw [hinv.windows i, hfcc, usub_of_le htotal hwindow] at hbudget
  constructor <;> omega

/-- The token has the sums after a visit. -/
theorem FlowInv.visit_sums : FlowSums window rep (s.visited i inst messages.length) := by
  obtain ⟨hi, -, hlen, -, -⟩ := hinv.inFlight hflight
  obtain ⟨htrcsum, hle⟩ := hinv.trc_sum hwindow hflight hvisits
  have htotal : ∑ j, (Function.update s.nodes i inst j).myTrc ≤ window := by omega
  have htracks : Tracks (rep + 1) (fun j => (Function.update s.nodes i inst j).myTrc)
      (s.visits ++ [messages.length]) := by
    have hvisit := hinv.tracks.visit messages.length
    rw [hlen, show rep + 1 + v = rep + v + 1 by omega, ← hi] at hvisit
    rw [apply_update_eq (fun node => node.myTrc) s.nodes i inst, hvisits.trc]
    exact hvisit
  have hqueues := hinv.queues i
  exact {
    windows := by
      rw [Ring.visited_nodes,
        forall_update_iff s.nodes fun _ node => node.config.windowSize = window]
      exact ⟨hvisits.config ▸ hinv.windows i, fun j _ => hinv.windows j⟩
    queues := by
      rw [Ring.visited_nodes, forall_update_iff s.nodes fun _ node => QueuesBounded node]
      exact ⟨⟨hvisits.newSize ▸ hqueues.newSize, hvisits.transSize ▸ hqueues.transSize,
        hvisits.retransSize ▸ hqueues.retransSize⟩, fun j _ => hinv.queues j⟩
    pbl := by
      rw [Ring.visited_nodes,
        forall_update_iff s.nodes fun _ node => node.myPbl ≤ 4 * messageSizeMax]
      exact ⟨hvisits.pbl ▸ hqueues.backlogGet_le, fun j _ => hinv.pbl j⟩
    tracks := htracks
    total := htotal
    bound := fun w hw hlength => htracks.infix_le htotal hinv.bound hw hlength }

/-- A token visit of a member that gives up and drops the token. -/
theorem FlowInv.visit_dropped (hdrop : inst.orfTokenDiscard = true)
    (hseq : inst.myTokenSeq = (s.nodes i).myTokenSeq)
    (hbuffer : inst.orfTokenRetransmit = (s.nodes i).orfTokenRetransmit) :
    FlowInv window rep v (s.visited i inst messages.length) where
  toFlowSums := hinv.visit_sums hwindow hflight hvisits
  order := hinv.order.update_same hbuffer hseq
  token := .inr (by
    rw [← (hinv.inFlight hflight).1, Ring.visited_nodes, update_self]
    exact hdrop)

/-- The token that is passed on has the sums. -/
theorem FlowInv.visit_passed (hn : n ≤ processorCountMax)
    (hnumber : inst.myTokenSeq = token.tokenSeq)
    {next : OrfToken} (hbuffer : inst.orfTokenRetransmit = some (.orf next))
    (hnext : NextToken (s.nodes i) token messages next) :
    FlowInv window rep (v + 1) (s.visited i inst messages.length) := by
  obtain ⟨hi, hseq, hlen, hfcc, hbacklog⟩ := hinv.inFlight hflight
  have hsums := hinv.visit_sums hwindow hflight hvisits
  refine { hsums with order := ?_, token := .inl ⟨?_, next, ?_, ?_, ?_⟩ }
  · rw [hi]
    refine hinv.order.update_next hbuffer ?_ (hnumber.trans hseq)
    rw [hnext.tokenSeq, hseq]
    unfold uadd
    omega
  · rw [Ring.visited_visits, List.length_append, hlen, List.length_singleton]
  · rw [← Nat.add_assoc, ← hi, Ring.visited_nodes, update_self]
    exact hbuffer
  · obtain ⟨htrcsum, hle⟩ := hinv.trc_sum hwindow hflight hvisits
    rw [hnext.fcc, hfcc, Ring.visited_nodes, htrcsum]
    exact uadd_usub_exchange (le_sum (fun j => (s.nodes j).myTrc) i) (by omega) (by omega)
  · have hle := hinv.pbl_sum_le hn
    have hbacklogle := (hinv.queues i).backlogGet_le
    unfold messageSizeMax at hle hbacklogle
    rw [hnext.backlog, hbacklog, Ring.visited_nodes, pbl_sum_update hvisits]
    exact uadd_usub_exchange (le_sum (fun j => (s.nodes j).myPbl) i) (by omega) (by omega)

end

/-- Every step keeps the accounts of flow control. -/
theorem FlowInv.step (hn : n ≤ processorCountMax) (hwindow : window < 2 ^ 32)
    (hinv : ∃ v, FlowInv window rep v s) {event : RingEvent n} {s' : Ring n}
    (hstep : s.step event = some s') : ∃ v, FlowInv window rep v s' := by
  obtain ⟨v, hinv⟩ := hinv
  rcases Ring.step_cases hstep with
    ⟨i, token, messages, inst, -, hflight, -, hvisits, rfl⟩ | ⟨i, inst, hkeeps, rfl⟩
  · rcases hvisits.outcome with ⟨hdrop, hseq, hbuffer⟩ | ⟨hnumber, next, hbuffer, hnext⟩
    · exact ⟨v, hinv.visit_dropped hwindow hflight hvisits hdrop hseq hbuffer⟩
    · exact ⟨v + 1, hinv.visit_passed hwindow hflight hvisits hn hnumber hbuffer hnext⟩
  · exact ⟨v, hinv.keeps hkeeps⟩

/-- A token in flight to member `i`, checked against the members of the ring. -/
structure Accounted (window : ℕ) (s : Ring n) (i : Fin n) (token : OrfToken) : Prop where
  fcc : token.fcc = ∑ j, (s.nodes j).myTrc
  backlog : token.backlog = ∑ j, (s.nodes j).myPbl
  fcc_le : token.fcc ≤ window
  /-- The denominator of `fcc_calculate` is the backlog of the member and of all the others. -/
  denominator : totalBacklog token (backlogGet (s.nodes i)) (s.nodes i).myPbl =
    backlogGet (s.nodes i) + ∑ j ∈ Finset.univ.erase i, (s.nodes j).myPbl

/-- A token in flight is accounted for. -/
theorem FlowInv.accounted (hn : n ≤ processorCountMax) (hinv : FlowInv window rep v s)
    (hflight : s.InFlight i token) : Accounted window s i token := by
  obtain ⟨-, -, -, hfcc, hbacklog⟩ := hinv.inFlight hflight
  have hsum := Finset.add_sum_erase Finset.univ (fun j => (s.nodes j).myPbl) (Finset.mem_univ i)
  have hle := hinv.pbl_sum_le hn
  have hbacklogle := (hinv.queues i).backlogGet_le
  unfold messageSizeMax at hle hbacklogle
  refine ⟨hfcc, hbacklog, hfcc ▸ hinv.total, ?_⟩
  rw [totalBacklog, hbacklog, uadd_of_lt (by omega), usub_of_le (by omega) (by omega)]
  omega

end Step

/-- On every run from the initial token, a token in flight carries the sums of the members'
counters, and any `n` consecutive token visits multicast at most `window_size` packets. -/
theorem flowControl_accounting {window : ℕ} {rep : Fin n} {s₀ s : Ring n}
    {events : List (RingEvent n)}
    (hn : n ≤ processorCountMax) (hwindow : window < 2 ^ 32) (hstart : FlowStart window rep s₀)
    (hrun : run Ring.step s₀ events = some s) :
    (∀ i token, s.InFlight i token → Accounted window s i token) ∧
      ∀ w, w <:+: s.visits → w.length = n → w.sum ≤ window := by
  have hinv : ∃ v, FlowInv window rep v s :=
    run_invariant (P := fun s => ∃ v, FlowInv window rep v s)
      (fun _ _ _ hinv hstep => FlowInv.step hn hwindow hinv hstep) ⟨0, hstart.inv⟩ hrun
  obtain ⟨v, hinv⟩ := hinv
  exact ⟨fun i token hflight => hinv.accounted hn hflight, hinv.bound⟩

/-- Two members in recovery; the first has just sent the initial token. -/
def initialTokenRing : Ring 2 where
  nodes := fun i =>
    { Instance.totemsrpInitialize ⟨17, 50, 5, 2500⟩ (i.val + 1) exampleQueueMax
        exampleQueueMax_pos with
      membState := .recovery
      myRingId := ⟨1, 4⟩
      orfTokenRetransmit :=
        if i = 0 then
          some (.orf {
            seq := 0, tokenSeq := 0, aru := usub 0 1, aruAddr := 1, ringId := ⟨1, 4⟩
            backlog := 0, fcc := 0, retransFlg := false, rtrList := [] })
        else none }
  visits := []

/-- The accounting on a run with two rotations and a retransmitted token. -/
theorem flowControl_accounting_initialTokenRing :
    ∃ s, run Ring.step initialTokenRing
        [.token 1, .token 0, .token 0, .token 1, .queue 1 [7], .token 0] = some s ∧
      (∀ i token, s.InFlight i token → Accounted 50 s i token) ∧
      ∀ w, w <:+: s.visits → w.length = 2 → w.sum ≤ 50 := by
  have hsome : (run Ring.step initialTokenRing
      [.token 1, .token 0, .token 0, .token 1, .queue 1 [7], .token 0]).isSome = true := by
    decide
  obtain ⟨s, hrun⟩ := Option.isSome_iff_exists.mp hsome
  refine ⟨s, hrun, @flowControl_accounting 2 _ 50 0 _ _ _ (by decide) (by decide) ?_ hrun⟩
  exact {
    windows := fun i => rfl
    trc := fun i => rfl
    pbl := fun i => rfl
    tokenSeq := fun i => rfl
    queues := fun i => ⟨show 16 ≤ 4 * messageSizeMax by decide,
      show 16 ≤ 4 * messageSizeMax by decide, show 16384 ≤ 4 * messageSizeMax by decide⟩
    token := ⟨_, rfl, rfl, rfl, rfl⟩
    others := by
      intro i hi token
      have hbuffer : (initialTokenRing.nodes i).orfTokenRetransmit = none := by
        simp [initialTokenRing, hi]
      simp [hbuffer]
    visits := rfl }

end Corosync.Totemsrp
