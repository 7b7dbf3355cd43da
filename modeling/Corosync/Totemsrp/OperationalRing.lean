import Corosync.Totemsrp.SafeRelease

/-!
# Runs of an operational ring

A ring that has just been installed satisfies the invariant of the previous module. As long as no
discarded token makes a member release messages, no member ever releases a message that another one
misses, and no assertion about the sort queues fails. A retransmitted token that is discarded too
late breaks both: `messages_free` runs before the token is recognised as a duplicate, and counts
one visit twice.
-/

namespace Corosync.Totemsrp

open Library

variable {n : ℕ} [NeZero n]

/-- A ring all of whose members are operational and have received exactly the `base` messages of
its recovery. -/
structure OperationalStart (ring : RingId) (window rep v base : ℕ) (s : Ring n) : Prop where
  flow : FlowInv window rep v s
  ids : Function.Injective fun i => (s.nodes i).myId
  idPos : ∀ i, (s.nodes i).myId ≠ 0
  state : ∀ i, (s.nodes i).membState = .operational
  ringId : ∀ i, (s.nodes i).myRingId = ring
  aru : ∀ i, (s.nodes i).myAru = base
  high : ∀ i, (s.nodes i).myHighSeqReceived = base
  highDelivered : ∀ i, (s.nodes i).myHighDelivered = base
  released : ∀ i, (s.nodes i).lastReleased = base
  head : ∀ i, (s.nodes i).regularSortQueue.headSeqid = base + 1
  size : ∀ i, (s.nodes i).regularSortQueue.size = queueRtrItemsSizeMax
  empty : ∀ i t, ¬(s.nodes i).regularSortQueue.Has t
  recovered : ∀ i t, 0 < t → t ≤ base → (s.nodes i).recoverySortQueue.itemInuse t = true
  lastAru : ∀ i, (s.nodes i).myLastAru ≤ base ∧ base ≤ (s.nodes i).myLastAru + queueRtrItemsSizeMax
  sent : ∀ i, ∀ m ∈ (s.nodes i).mcastSent, Late ring base m
  delivered : ∀ i, (s.nodes i).delivered = []
  queued : ∀ i, ∀ m ∈ (s.nodes i).newMessageQueue.items ++ (s.nodes i).newMessageQueueTrans.items,
    m.isEncapsulated = false
  token : ∃ token, (s.nodes (station n (rep + v))).orfTokenRetransmit = some (.orf token) ∧
    token.seq = base ∧ token.aru = base ∧
    (token.aruAddr = 0 ∨ ∃ r, token.aruAddr = (s.nodes r).myId) ∧
    ∀ item ∈ token.rtrList, item.seq < 2 ^ 32
  below : base + queueRtrItemsSizeMax + 1 < 2 ^ 32

/-- An installed ring satisfies the invariant. -/
theorem OperationalStart.holding {ring : RingId} {window rep v base : ℕ} {s : Ring n}
    (hstart : OperationalStart ring window rep v base s) :
    ReleaseInv.Holding ring window rep base s := by
  obtain ⟨token, hbuffer, hseq, haru, haddr, hrtr⟩ := hstart.token
  obtain ⟨owner, howner⟩ : ∃ owner, token.aruAddr = ownerAddr s owner := by
    rcases haddr with hzero | ⟨r, hr⟩
    · exact ⟨none, hzero⟩
    · exact ⟨some r, hr⟩
  choose turn hlow hhigh hturn using exists_next_turn (n := n) rep v
  have hmax : queueRtrItemsSizeMax = 2 ^ 14 := rfl
  have hbelow := hstart.below
  have hlast := hstart.lastAru
  have hn : 0 < n := Nat.pos_of_ne_zero (NeZero.ne n)
  set a : StableRing n := {
    stations := fun i => stationOf (s.nodes i)
    turn := turn
    seq := base
    bound := base
    owner := owner } with ha
  have hreceived : ∀ p, (a.stations p).received = base := hstart.aru
  have hreleased : ∀ p, (a.stations p).released = base := hstart.released
  have hnoted : ∀ p, (a.stations p).noted ≤ base := fun p => (hlast p).1
  refine ⟨v, a, hstart.flow, {
    ids := hstart.ids
    idPos := hstart.idPos
    member := fun i => ?_
    stations := fun _ => rfl
    inv := {
      received_le := fun p => (hreceived p).le
      base_le := fun p => (hreleased p).ge
      bound_le := le_rfl
      noted_le := hnoted
      unowned := fun _ => rfl
      owned := fun _ _ p _ => hnoted p
      since_received := fun p q _ => by rw [hreceived]; exact min_le_right ..
      since_noted := fun p q _ => le_trans (min_le_right ..) (le_max_left ..)
      safe := fun p q => by rw [hreleased, hreceived]
      released_bound := fun p => (hreleased p).le
      released_noted := fun p q => by rw [hreleased]; exact le_max_left ..
      latest := fun h _ => ⟨fun p => by rw [hreleased, hreleased], by
        rw [hreleased]
        exact Nat.add_le_add_left (le_max_right ..) _⟩
      noted_room := fun p => by
        rw [hreleased]
        exact Nat.add_le_add (hnoted p) (le_max_right ..)
      room := fun p => by
        rw [hreleased]
        exact le_trans (Nat.add_le_add_left (le_max_right ..) _) (Nat.le_add_right ..)
      total := hstart.flow.total }
    narrow := .inr rfl
    lastAru := fun i => (hlast i).2
    newest := ⟨⟨0, hn⟩, hstart.high _⟩
    token := .inl ⟨token, hbuffer, hseq, haru, howner, hrtr, ?_⟩ }⟩
  · have hempty := hstart.empty i
    have hfits : (s.nodes i).regularSortQueue.Fits :=
      ⟨by rw [hstart.size]; omega, by rw [hstart.size, hstart.head]; omega⟩
    exact {
      ringId := hstart.ringId i
      notRecovery := by rw [hstart.state]; simp
      leaves := fun hstate => absurd (hstart.state i) hstate
      holds := {
        fits := hfits
        head_le := by rw [hstart.head, hstart.released]
        low_le := by rw [hstart.released, hstart.aru]
        aru_le := by rw [hstart.aru, hstart.high]
        high_lt := by rw [hstart.head, hstart.size, hstart.high]; omega
        held := fun t h h' => by rw [hstart.released] at h; rw [hstart.aru] at h'; omega
        le_high := fun t ht => absurd ht (hempty t)
        item := fun t ht => absurd ht (hempty t) }
      head := by rw [hstart.head, hstart.released]
      size := hstart.size i
      hole := hempty _
      base_le := (hstart.released i).ge
      released_le := by rw [hstart.released, hstart.highDelivered]
      delivered_le := by rw [hstart.highDelivered, hstart.aru]
      high_le := (hstart.high i).le
      recovered := hstart.recovered i
      sent := fun m hm => .inr (hstart.sent i m hm)
      queued := hstart.queued i
      current := fun _ => by rw [hstart.highDelivered, hstart.aru] }
  · intro k hvk hkn
    change turn (station n (rep + k)) = k
    have hstation := hturn (station n (rep + k))
    have hturnLow := hlow (station n (rep + k))
    have hturnHigh := hhigh (station n (rep + k))
    rcases Nat.le_total (turn (station n (rep + k))) k with hle | hle
    · have := station_inj hstation (by omega) (by omega)
      omega
    · have := station_inj hstation.symm (by omega) (by omega)
      omega

/-- The event happens below the wrap and every token it discards is harmless. -/
def CleanEvent (s : Ring n) (event : RingEvent n) : Prop :=
  BelowWrap s ∧ DiscardsHarmless s event

instance (s : Ring n) (event : RingEvent n) : Decidable (CleanEvent s event) :=
  inferInstanceAs (Decidable (_ ∧ _))

/-- The invariant holds on every run of clean events. -/
theorem OperationalStart.run_holding {ring : RingId} {window rep v base : ℕ} {s₀ s : Ring n}
    {events : List (RingEvent n)} (hn : n ≤ processorCountMax) (hwindow : window ≤ 2 ^ 30)
    (hstart : OperationalStart ring window rep v base s₀)
    (hrun : run (restrict CleanEvent Ring.step) s₀ events = some s) :
    ReleaseInv.Holding ring window rep base s := by
  refine run_invariant (P := ReleaseInv.Holding ring window rep base)
    (fun s event s' hinv hstep => ?_)
    hstart.holding hrun
  obtain ⟨⟨hbelow, hharmless⟩, hstep⟩ := restrict_eq_some.mp hstep
  exact ReleaseInv.step hn hwindow hinv hbelow hharmless hstep

/-- On every run of clean events, what a member has released every member has received. -/
theorem lastReleased_le_myAru {ring : RingId} {window rep v base : ℕ} {s₀ s : Ring n}
    {events : List (RingEvent n)} (hn : n ≤ processorCountMax) (hwindow : window ≤ 2 ^ 30)
    (hstart : OperationalStart ring window rep v base s₀)
    (hrun : run (restrict CleanEvent Ring.step) s₀ events = some s) (p q : Fin n) :
    (s.nodes p).lastReleased ≤ (s.nodes q).myAru := by
  obtain ⟨v', a, -, hinv⟩ := hstart.run_holding hn hwindow hrun
  have hsafe := hinv.inv.safe p q
  rwa [hinv.stations, hinv.stations] at hsafe

/-- Three operational members; the last one has just passed on the initial token. -/
def threeMembers : Ring 3 where
  nodes := fun i =>
    { Instance.totemsrpInitialize ⟨17, 50, 5, 2500⟩ (i.val + 1) exampleQueueMax
        exampleQueueMax_pos with
      regularSortQueue := .init queueRtrItemsSizeMax 1 queueRtrItemsSizeMax_pos
      myRingId := ⟨1, 4⟩
      orfTokenRetransmit :=
        if i = 2 then
          some (.orf {
            seq := 0, tokenSeq := 0, aru := 0, aruAddr := 0, ringId := ⟨1, 4⟩
            backlog := 0, fcc := 0, retransFlg := false, rtrList := [] })
        else none }
  visits := []

/-- Three members can start so. -/
theorem threeMembers_start : OperationalStart ⟨1, 4⟩ 50 2 0 0 threeMembers where
  flow := @FlowStart.inv 3 _ 50 2 threeMembers {
    windows := fun _ => rfl
    trc := fun _ => rfl
    pbl := fun _ => rfl
    tokenSeq := fun _ => rfl
    queues := fun _ => ⟨show 16 ≤ 4 * messageSizeMax by decide,
      show 16 ≤ 4 * messageSizeMax by decide, show 16384 ≤ 4 * messageSizeMax by decide⟩
    token := ⟨_, rfl, rfl, rfl, rfl⟩
    others := by
      intro i hi token
      have hbuffer : (threeMembers.nodes i).orfTokenRetransmit = none := by
        simp [threeMembers, hi]
      simp [hbuffer]
    visits := rfl }
  ids := by
    intro i j heq
    exact Fin.ext (Nat.succ.inj heq)
  idPos := fun i => Nat.succ_ne_zero i.val
  state := fun _ => rfl
  ringId := fun _ => rfl
  aru := fun _ => rfl
  high := fun _ => rfl
  highDelivered := fun _ => rfl
  released := fun _ => rfl
  head := fun _ => rfl
  size := fun _ => rfl
  empty := fun _ _ hhas => hhas.2 rfl
  recovered := fun _ t hpos hle => absurd hle (by omega)
  lastAru := fun _ => ⟨le_rfl, Nat.zero_le _⟩
  sent := fun _ m hm => absurd hm List.not_mem_nil
  delivered := fun _ => rfl
  queued := fun _ m hm => absurd hm List.not_mem_nil
  token := ⟨_, rfl, rfl, rfl, .inl rfl, nofun⟩
  below := by decide

/-- A message of the first member, as it is multicast. -/
def firstMessage : Mcast :=
  .plain { nodeid := 1, systemFrom := 1, seq := 1, ringId := ⟨1, 4⟩ } [7]

/-- The release on a run with a retransmitted token that comes too early to do harm. -/
theorem lastReleased_le_myAru_threeMembers :
    ∃ s, run (restrict CleanEvent Ring.step) threeMembers
        [.queue 0 [7], .token 0, .mcast 1 firstMessage, .token 1, .token 2, .mcast 2 firstMessage,
          .token 0, .token 0, .token 1, .token 2, .token 0, .token 1, .token 2, .token 0] = some s ∧
      ∀ p q, (s.nodes p).lastReleased ≤ (s.nodes q).myAru := by
  have hsome : (run (restrict CleanEvent Ring.step) threeMembers
      [.queue 0 [7], .token 0, .mcast 1 firstMessage, .token 1, .token 2, .mcast 2 firstMessage,
        .token 0, .token 0, .token 1, .token 2, .token 0, .token 1, .token 2, .token 0]).isSome =
      true := by
    decide
  obtain ⟨s, hrun⟩ := Option.isSome_iff_exists.mp hsome
  exact ⟨s, hrun, lastReleased_le_myAru (by decide) (by decide) threeMembers_start hrun⟩

/-- The second member has received the message and the token. When the token is retransmitted to
it, it releases the message, which the third member has not received. -/
theorem retransmitted_token_releases_early :
    OperationalStart ⟨1, 4⟩ 50 2 0 0 threeMembers ∧
    ∃ s, run Ring.step threeMembers
        [.queue 0 [7], .token 0, .mcast 1 firstMessage, .token 1, .token 1] = some s ∧
      (s.nodes 2).myAru < (s.nodes 1).lastReleased := by
  refine ⟨threeMembers_start, ?_⟩
  have hvalues : (run Ring.step threeMembers
      [.queue 0 [7], .token 0, .mcast 1 firstMessage, .token 1, .token 1]).map
        (fun s => ((s.nodes 2).myAru, (s.nodes 1).lastReleased)) = some (0, 1) := by
    decide
  obtain ⟨s, hrun, heq⟩ := Option.map_eq_some_iff.mp hvalues
  refine ⟨s, hrun, ?_⟩
  rw [(Prod.mk.inj heq).1, (Prod.mk.inj heq).2]
  decide

/-! ### Assertions -/

/-- No assertion fails whatever the ring does next, as long as a discarded token is harmless. -/
structure AssertionsHold (s : Ring n) : Prop where
  range : ∀ i token, s.InFlight i token →
    usub token.seq (s.nodes i).myAru < queueRtrItemsSizeMax
  accepted : ∀ i token, s.InFlight i token → ∃ inst,
    messageHandlerOrfToken (s.nodes i) token = some inst
  discarded : ∀ i token, tokenRejected (s.nodes i) token = true → Harmless (s.nodes i) token →
    ∃ inst, messageHandlerOrfToken (s.nodes i) token = some inst
  mcast : ∀ i j, ∀ m ∈ (s.nodes j).mcastSent, m.msgLen ≤ frameSizeMax →
    ∃ inst, messageHandlerMcast (s.nodes i) m = some inst
  queue : ∀ i data, ∃ inst, (s.nodes i).totemsrpMcast data = some inst

/-- No step changes a configuration. -/
theorem Ring.step_config {s s' : Ring n} {event : RingEvent n} (hstep : s.step event = some s')
    (i : Fin n) : (s'.nodes i).config = (s.nodes i).config := by
  rcases Ring.step_cases hstep with
    ⟨j, token, messages, inst, -, -, -, hvisits, rfl⟩ | ⟨j, inst, hkeeps, rfl⟩
  · exact apply_update_same Instance.config s.nodes j inst hvisits.config i
  · exact apply_update_same Instance.config s.nodes j inst hkeeps.config i

/-- On every run of clean events of a ring whose window fits in the sort queue, no assertion
fails. -/
theorem assertions_hold {ring : RingId} {window maxMessages rep v base : ℕ} {s₀ s : Ring n}
    {events : List (RingEvent n)} (hn : n ≤ processorCountMax)
    (hfits : window + min window maxMessages ≤ queueRtrItemsSizeMax)
    (hconfig : ∀ i, (s₀.nodes i).config.maxMessages = maxMessages)
    (hstart : OperationalStart ring window rep v base s₀)
    (hrun : run (restrict CleanEvent Ring.step) s₀ events = some s) (hbelow : BelowWrap s) :
    AssertionsHold s := by
  have hmax : queueRtrItemsSizeMax = 2 ^ 14 := rfl
  have hwindow : window ≤ 2 ^ 30 := by omega
  obtain ⟨v', a, hflow, hinv⟩ := hstart.run_holding hn hwindow hrun
  have hconfig' : ∀ i, (s.nodes i).config.maxMessages = maxMessages := by
    refine run_invariant (P := fun s : Ring n => ∀ i, (s.nodes i).config.maxMessages = maxMessages)
      (fun s event s' hold hstep i => ?_) hconfig hrun
    rw [Ring.step_config (restrict_eq_some.mp hstep).2]
    exact hold i
  have hseq := hinv.below hbelow
  exact {
    range := fun i token hflight => by
      obtain ⟨htoken, -⟩ := hinv.inFlight hflow.order hflight
      have haru := le_trans (hinv.member i).holds.aru_le (hinv.member i).high_le
      have hnear := hinv.near i
      rw [htoken.seq, usub_of_le haru (by omega)]
      omega
    accepted := fun i token hflight => by
      rcases hinv.handle hflow hwindow hbelow hflight with
        ⟨-, hwide⟩ | ⟨queue, resent, count, inst, hsome, -⟩
      · rw [hconfig'] at hwide
        omega
      · exact ⟨inst, hsome⟩
    discarded := fun i token hreject hharmless => by
      obtain ⟨inst, hsome, -⟩ := hinv.reject hbelow hreject hharmless
      exact ⟨inst, hsome⟩
    mcast := fun i j m hm hlen => by
      obtain ⟨inst, hsome, -⟩ := @ReleaseInv.mcast _ _ _ _ _ _ _ _ _ i hinv m j hm hlen
      exact ⟨inst, hsome⟩
    queue := fun i data => by
      obtain ⟨inst, hsome, -⟩ := @ReleaseInv.queue _ _ _ _ _ _ _ _ _ i hinv data
      exact ⟨inst, hsome⟩ }

/-- Three members, of which one sends a message. -/
theorem assertions_hold_threeMembers :
    ∃ s, run (restrict CleanEvent Ring.step) threeMembers
        [.queue 0 [7], .token 0, .mcast 1 firstMessage] = some s ∧ AssertionsHold s :=
  exists_run_imp BelowWrap (by decide) fun _ hrun hbelow =>
    assertions_hold (by decide) (by decide) (fun _ => rfl) threeMembers_start hrun hbelow

end Corosync.Totemsrp
