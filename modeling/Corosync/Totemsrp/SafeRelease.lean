import Corosync.Library.StableRing
import Corosync.Totemsrp.FlowControl
import Corosync.Totemsrp.MemberVisit

/-!
# Safe release of messages

On an operational ring the received, noted and released numbers of the members behave like the
stations of `Library.StableRing`: the token's aru is the bound and its `aru_addr` the owner. A
member that releases only at its own token visits therefore never discards a message that another
member still misses, and the sort queues of all members stay within one window.
-/

namespace Corosync.Totemsrp

open Function Library Option StableRing

variable {n : ℕ}

/-- The numbers of a member that the argument is about. -/
def stationOf (inst : Instance) : Station where
  received := inst.myAru
  noted := inst.myLastAru
  released := inst.lastReleased
  sent := inst.myTrc

/-- The `aru_addr` of a token whose aru was lowered by `owner`. -/
def ownerAddr (s : Ring n) : Option (Fin n) → ℕ
  | none => 0
  | some r => (s.nodes r).myId

variable [NeZero n]

/-- The token in flight, as the abstract ring sees it. -/
structure TokenMatches (rep v : ℕ) (a : StableRing n) (s : Ring n) (token : OrfToken) : Prop where
  buffer : (s.nodes (station n (rep + v))).orfTokenRetransmit = some (.orf token)
  seq : token.seq = a.seq
  aru : token.aru = a.bound
  addr : token.aruAddr = ownerAddr s a.owner
  rtr : ∀ item ∈ token.rtrList, item.seq < 2 ^ 32
  turns : ∀ k, v < k → k ≤ v + n → a.turn (station n (rep + k)) = k

/-- What holds at every point of a run of an operational ring, `a` being its abstraction. -/
structure ReleaseInv (ring : RingId) (window rep v base : ℕ) (a : StableRing n) (s : Ring n) :
    Prop where
  ids : Function.Injective fun i => (s.nodes i).myId
  idPos : ∀ i, (s.nodes i).myId ≠ 0
  member : ∀ i, Member ring base a.seq (s.nodes i)
  stations : ∀ i, a.stations i = stationOf (s.nodes i)
  inv : a.Inv base window (max queueRtrItemsSizeMax window)
  narrow : (1 ≤ window ∧ window ≤ queueRtrItemsSizeMax) ∨ a.seq = base
  lastAru : ∀ i, base ≤ (s.nodes i).myLastAru + queueRtrItemsSizeMax
  newest : ∃ i, (s.nodes i).myHighSeqReceived = a.seq
  token : (∃ token, TokenMatches rep v a s token) ∨
    (s.nodes (station n (rep + v + 1))).orfTokenDiscard = true

/-- The windows of the sort queues end below the `2 ^ 32` wrap. -/
def BelowWrap (s : Ring n) : Prop :=
  ∀ i, (s.nodes i).myHighSeqReceived + queueRtrItemsSizeMax + 1 < 2 ^ 32

instance (s : Ring n) : Decidable (BelowWrap s) :=
  inferInstanceAs (Decidable (∀ _, _))

namespace ReleaseInv

variable {ring : RingId} {window rep v base : ℕ} {a : StableRing n} {s : Ring n} {i : Fin n}
  {inst : Instance} {token : OrfToken}

section

variable (hinv : ReleaseInv ring window rep v base a s)

include hinv

/-- The newest number is within the window of every member's `my_aru`. -/
theorem near (p : Fin n) : a.seq < (s.nodes p).myAru + queueRtrItemsSizeMax := by
  rcases hinv.narrow with ⟨hpos, hle⟩ | hbase
  · have hwindow := hinv.inv.seq_add_window_le p
    rw [hinv.stations, max_eq_left hle] at hwindow
    change _ ≤ (s.nodes p).myAru + _ at hwindow
    omega
  · have hlow := (hinv.member p).holds.low_le
    have hreleased := (hinv.member p).base_le
    unfold queueRtrItemsSizeMax
    omega

/-- The numbers given out fit in the sort queues. -/
theorem room (p : Fin n) : a.seq ≤ (s.nodes p).lastReleased + queueRtrItemsSizeMax := by
  rcases hinv.narrow with ⟨-, hle⟩ | hbase
  · have hseq := hinv.inv.seq_le p
    rw [hinv.stations, max_eq_left hle] at hseq
    exact hseq
  · have hreleased := (hinv.member p).base_le
    omega

/-- What is noted for release is in the sort queue. -/
theorem noted_lt (p : Fin n) (aru : ℕ) :
    min aru (min (s.nodes p).myLastAru (s.nodes p).myHighDelivered) <
      (s.nodes p).lastReleased + queueRtrItemsSizeMax := by
  rcases hinv.narrow with ⟨hpos, hle⟩ | hbase
  · have hnoted := hinv.inv.noted_room p
    rw [hinv.stations, max_eq_left hle] at hnoted
    change (s.nodes p).myLastAru + _ ≤ (s.nodes p).lastReleased + _ at hnoted
    omega
  · have hreleased := (hinv.member p).base_le
    have hdelivered := (hinv.member p).delivered_le
    have haru := (hinv.member p).holds.aru_le
    have hhigh := (hinv.member p).high_le
    unfold queueRtrItemsSizeMax
    omega

/-- The numbers are below the wrap. -/
theorem below (hbelow : BelowWrap s) : a.seq + queueRtrItemsSizeMax + 1 < 2 ^ 32 := by
  obtain ⟨i, hi⟩ := hinv.newest
  rw [← hi]
  exact hbelow i

/-- The noted number of a member is close to its released number. -/
theorem lastAru_near (p : Fin n) :
    (s.nodes p).myLastAru ≤ a.seq ∧ Near (s.nodes p).myLastAru (s.nodes p).lastReleased := by
  have hnoted := hinv.inv.noted_le p
  have hreleased := hinv.inv.released_noted p p
  rw [hinv.stations] at hnoted hreleased
  change (s.nodes p).myLastAru ≤ _ at hnoted
  change (s.nodes p).lastReleased ≤ max base (s.nodes p).myLastAru at hreleased
  have hroom := hinv.room p
  have hlast := hinv.lastAru p
  unfold Near queueRtrItemsSizeMax at *
  omega

/-- A member receives messages. -/
theorem receive (hmember : Member ring base a.seq inst) (haru : (s.nodes i).myAru ≤ inst.myAru)
    (hhigh : (s.nodes i).myHighSeqReceived ≤ inst.myHighSeqReceived)
    (harus : inst.toAruState.myLastAru = (s.nodes i).myLastAru)
    (hreleased : inst.lastReleased = (s.nodes i).lastReleased)
    (hkeeps : Keeps (s.nodes i) inst) :
    ReleaseInv ring window rep v base (a.receive i inst.myAru) (s.set i inst) := by
  have hids := apply_update_same Instance.myId s.nodes i inst hkeeps.myId
  have hlast := apply_update_same (fun node => node.myLastAru) s.nodes i inst harus
  have hbuffer := apply_update_same (fun node => node.orfTokenRetransmit) s.nodes i inst
    hkeeps.buffer
  have hinstAru := le_trans hmember.holds.aru_le hmember.high_le
  exact {
    ids := by simpa only [Ring.set_nodes, hids] using hinv.ids
    idPos := by simpa only [Ring.set_nodes, hids] using hinv.idPos
    member := by
      rw [Ring.set_nodes, (receive_rest _ _ _).2.2.2,
        forall_update_iff s.nodes fun _ node => Member ring base a.seq node]
      exact ⟨hmember, fun j _ => hinv.member j⟩
    stations := by
      intro j
      rw [Ring.set_nodes]
      by_cases hj : j = i
      · subst hj
        rw [update_self, receive_self, hinv.stations]
        simp only [stationOf, hreleased, harus, hkeeps.flow]
      · rw [update_of_ne hj, receive_of_ne _ _ hj]
        exact hinv.stations j
    inv := by
      refine hinv.inv.receive ?_ hinstAru
      rw [hinv.stations]
      exact haru
    narrow := hinv.narrow
    lastAru := by simpa only [Ring.set_nodes, hlast] using hinv.lastAru
    newest := by
      obtain ⟨j, hj⟩ := hinv.newest
      refine ⟨j, ?_⟩
      rw [Ring.set_nodes]
      by_cases hji : j = i
      · subst hji
        rw [update_self]
        exact le_antisymm hmember.high_le (hj ▸ hhigh)
      · rw [update_of_ne hji]
        exact hj
    token := by
      rcases hinv.token with ⟨token, htoken⟩ | hdiscard
      · refine .inl ⟨token, ⟨?_, htoken.seq, htoken.aru, ?_, htoken.rtr, htoken.turns⟩⟩
        · rw [Ring.set_nodes, hbuffer]
          exact htoken.buffer
        · rw [htoken.addr]
          change ownerAddr s a.owner = ownerAddr (s.set i inst) a.owner
          cases a.owner with
          | none => rfl
          | some r => exact (hids r).symm
      · refine .inr ?_
        rw [Ring.set_nodes]
        by_cases hj : station n (rep + v + 1) = i
        · rw [hj] at hdiscard
          rw [hj, update_self]
          exact hkeeps.discard hdiscard
        · rw [update_of_ne hj]
          exact hdiscard }

/-- The token in flight has the numbers of the ring. -/
theorem inFlight (horder : TokenOrder rep v s.nodes) (hflight : s.InFlight i token) :
    TokenMatches rep v a s token ∧ (s.nodes i).membState = .operational := by
  obtain ⟨hi, -, hbuffer⟩ := horder.inFlight hflight
  have haccept := hflight.2
  have hdiscard : ¬(s.nodes i).orfTokenDiscard = true := fun hdiscard => by
    simp [tokenRejected, tokenIgnored, hdiscard] at haccept
  constructor
  · rcases hinv.token with ⟨token', htoken⟩ | hdropped
    · have hsame := htoken.buffer
      rw [hbuffer] at hsame
      obtain rfl := TokenBuffer.orf.inj (some.inj hsame)
      exact htoken
    · rw [← hi] at hdropped
      exact absurd hdropped hdiscard
  · by_contra hstate
    exact hdiscard ((hinv.member i).leaves hstate)

/-- What an accepted token does to the member: it releases up to where the abstract ring says, and
the rest is a visit, unless the window does not fit in the sort queue. -/
theorem handle (hflow : FlowInv window rep v s) (hwindow : window ≤ 2 ^ 30) (hbelow : BelowWrap s)
    (hflight : s.InFlight i token) :
    (messageHandlerOrfToken (s.nodes i) token = none ∧ queueRtrItemsSizeMax <
      window + min window (s.nodes i).config.maxMessages) ∨
    ∃ queue resent count inst', messageHandlerOrfToken (s.nodes i) token = some inst' ∧
      Visited ring base a.seq
        { s.nodes i with regularSortQueue := queue, lastReleased := a.release i }
        token resent count inst' := by
  obtain ⟨htoken, hstate⟩ := hinv.inFlight hflow.order hflight
  obtain ⟨-, -, -, hfcc, -⟩ := hflow.inFlight hflight
  have hmember := hinv.member i
  have hwin := hflow.windows i
  obtain ⟨hlastLe, hnearLast⟩ := hinv.lastAru_near i
  have hreleasedBound := hinv.inv.released_bound i
  rw [hinv.stations] at hreleasedBound
  have hrelease : max (s.nodes i).lastReleased (min token.aru
      (min (s.nodes i).myLastAru (s.nodes i).myHighDelivered)) = a.release i := by
    rw [release, hinv.stations, htoken.aru, hmember.current hstate]
    rfl
  have hreceivable : Receivable a.seq (s.nodes i) token := {
    tokenSeq := htoken.seq
    room := hinv.room i
    near := hinv.near i
    window := hwin ▸ hwindow
    fcc := by rw [hfcc, hwin]; exact hflow.total
    rtr := htoken.rtr }
  have hhandle := hmember.handleToken hstate hflight.2 hreceivable (hinv.below hbelow)
    (by rw [htoken.aru]; exact hreleasedBound) (by rw [htoken.aru]; exact hinv.inv.bound_le)
    hlastLe hnearLast (hinv.noted_lt i token.aru)
  rwa [hrelease, hwin] at hhandle

end

/-- The station whose turn it is had its last turn longest ago. -/
theorem turn_lt (htoken : TokenMatches rep v a s token) {j : Fin n}
    (hj : j ≠ station n (rep + v + 1)) : a.turn (station n (rep + v + 1)) < a.turn j := by
  have hn : 0 < n := Nat.pos_of_ne_zero (NeZero.ne n)
  obtain ⟨k, hlow, hhigh, rfl⟩ := exists_next_turn rep v j
  have hfirst := htoken.turns (v + 1) (by omega) (by omega)
  rw [← Nat.add_assoc] at hfirst
  rw [hfirst, htoken.turns k hlow hhigh]
  have : k ≠ v + 1 := fun heq => hj (by rw [heq, Nat.add_assoc])
  omega

/-- A token visit is a turn of the abstract ring. -/
theorem mayVisit (hinv : ReleaseInv ring window rep v base a s)
    (hflow : FlowInv window rep v s) (hwindow : window ≤ 2 ^ 30)
    (hflight : s.InFlight i token) {queue : Sq Mcast} {resent count : ℕ} {messages : List Mcast}
    (hvisits : Visits (s.nodes i) token messages inst)
    (hvisited : Visited ring base a.seq
      { s.nodes i with regularSortQueue := queue, lastReleased := a.release i }
      token resent count inst) :
    a.MayVisit window (max queueRtrItemsSizeMax window) i count (resent + count) inst.myAru
      (v + 1 + n) := by
  obtain ⟨htoken, -⟩ := hinv.inFlight hflow.order hflight
  obtain ⟨hi, -⟩ := hflow.inFlight hflight
  have hwin := hflow.windows i
  have hsum := (hflow.trc_sum (by omega) hflight hvisits).2
  have htrc : messages.length = resent + count := hvisits.trc.symm.trans hvisited.trc
  refine {
    oldest := fun j hj => by rw [hi] at hj ⊢; exact turn_lt htoken hj
    later := fun j => ?_
    received_le := by rw [hinv.stations]; exact hvisited.aru_le
    le_seq := le_trans hvisited.member.holds.aru_le hvisited.member.high_le
    count_le := Nat.le_add_left ..
    total := ?_
    room := ?_ }
  · obtain ⟨k, hlow, hhigh, rfl⟩ := exists_next_turn rep v j
    rw [htoken.turns k hlow hhigh]
    omega
  · have hstations : ∑ j, (a.stations j).sent = ∑ j, (s.nodes j).myTrc :=
      Finset.sum_congr rfl fun j _ => by rw [hinv.stations]; rfl
    rw [hstations]
    omega
  · have hroom := hvisited.room
    dsimp only at hroom
    rw [hwin] at hroom
    omega

/-- Whether a member writes the token's aru is decided by the owner of the bound. -/
theorem writes_iff (hinv : ReleaseInv ring window rep v base a s)
    (htoken : TokenMatches rep v a s token) {node : Instance}
    (hid : node.myId = (s.nodes i).myId) (r : ℕ) : WritesAru node token r ↔ a.Writes i r := by
  unfold WritesAru StableRing.Writes
  rw [htoken.aru, htoken.addr, hid]
  refine or_congr_right ?_
  cases a.owner with
  | none => simp [ownerAddr]
  | some j =>
    have hpos := hinv.idPos j
    constructor
    · rintro (heq | hzero)
      · exact .inl (congrArg some (hinv.ids heq).symm)
      · exact absurd hzero hpos
    · rintro (heq | hnone)
      · rw [some.inj heq]
        exact .inl rfl
      · simp at hnone

/-- The token passed on after a visit is the one of the abstract ring. -/
theorem matches_next (hinv : ReleaseInv ring window rep v base a s)
    (htoken : TokenMatches rep v a s token) (hi : i = station n (rep + v + 1))
    {node : Instance} (hnode : node.myId = (s.nodes i).myId) (hid : inst.myId = (s.nodes i).myId)
    {count sent visits : ℕ} {next : OrfToken} (hbuffer : inst.orfTokenRetransmit = some (.orf next))
    (hseq : next.seq = a.seq + count)
    (haru : next.aru = if WritesAru node token inst.myAru then inst.myAru else token.aru)
    (haddr : next.aruAddr = if WritesAru node token inst.myAru then
      if inst.myAru = a.seq + count then 0 else node.myId else token.aruAddr)
    (hrtr : ∀ item ∈ next.rtrList, item.seq < 2 ^ 32) :
    TokenMatches rep (v + 1) (a.visit i count sent inst.myAru (v + 1 + n))
      (s.visited i inst visits) next := by
  have hids := apply_update_same Instance.myId s.nodes i inst hid
  have howner : ∀ owner, ownerAddr (s.visited i inst visits) owner = ownerAddr s owner := by
    intro owner
    cases owner with
    | none => rfl
    | some r => exact hids r
  simp only [hinv.writes_iff htoken hnode] at haru haddr
  refine ⟨?_, hseq, ?_, ?_, hrtr, ?_⟩
  · rw [← Nat.add_assoc, ← hi, Ring.visited_nodes, update_self]
    exact hbuffer
  · rw [haru, htoken.aru]
    rfl
  · rw [howner, haddr, htoken.addr, hnode]
    simp only [visit]
    split
    · split <;> rfl
    · rfl
  · intro k hlow hhigh
    by_cases hlast : k = v + 1 + n
    · subst hlast
      rw [← Nat.add_assoc, ← Nat.add_assoc, station_add_self, ← hi, visit_turn_self]
    · have hne : station n (rep + k) ≠ i := by
        rw [hi, Nat.add_assoc]
        intro heq
        have := station_inj heq.symm (by omega) (by omega)
        omega
      rw [visit_turn_of_ne hne]
      exact htoken.turns k (by omega) (by omega)

/-- The token visits a member. -/
theorem visit (hn : n ≤ processorCountMax) (hwindow : window ≤ 2 ^ 30)
    (hinv : ReleaseInv ring window rep v base a s) (hflow : FlowInv window rep v s)
    (hbelow : BelowWrap s) (hflight : s.InFlight i token) {messages : List Mcast}
    (hhandle : messageHandlerOrfToken (s.nodes i) token = some inst)
    (hvisits : Visits (s.nodes i) token messages inst) :
    ∃ v' a', FlowInv window rep v' (s.visited i inst messages.length) ∧
      ReleaseInv ring window rep v' base a' (s.visited i inst messages.length) := by
  rcases hinv.handle hflow hwindow hbelow hflight with
    ⟨hnone, -⟩ | ⟨queue, resent, count, inst', hsome, hvisited⟩
  · rw [hnone] at hhandle
    simp at hhandle
  obtain rfl : inst' = inst := some.inj (hsome.symm.trans hhandle)
  obtain ⟨htoken, -⟩ := hinv.inFlight hflow.order hflight
  obtain ⟨hi, -⟩ := hflow.inFlight hflight
  have hwin := hflow.windows i
  have hmay := hinv.mayVisit hflow hwindow hflight hvisits hvisited
  have hids := apply_update_same Instance.myId s.nodes i inst' hvisited.myId
  -- all of the invariant but the token
  have hall : ∀ v', ((∃ next, TokenMatches rep v'
        (a.visit i count (resent + count) inst'.myAru (v + 1 + n))
        (s.visited i inst' messages.length) next) ∨
      ((s.visited i inst' messages.length).nodes
        (station n (rep + v' + 1))).orfTokenDiscard = true) →
      ReleaseInv ring window rep v' base
        (a.visit i count (resent + count) inst'.myAru (v + 1 + n))
        (s.visited i inst' messages.length) := by
    intro v' hnext
    exact {
      ids := by simpa only [Ring.visited_nodes, hids] using hinv.ids
      idPos := by simpa only [Ring.visited_nodes, hids] using hinv.idPos
      member := by
        intro j
        rw [Ring.visited_nodes]
        by_cases hj : j = i
        · subst hj
          rw [update_self]
          exact hvisited.member
        · rw [update_of_ne hj]
          exact (hinv.member j).mono (Nat.le_add_right ..)
      stations := by
        intro j
        rw [Ring.visited_nodes]
        by_cases hj : j = i
        · subst hj
          rw [update_self, visit_self, stationOf, hvisited.lastAru,
            hvisited.released, hvisited.trc, htoken.aru]
        · rw [update_of_ne hj, visit_of_ne hj]
          exact hinv.stations j
      inv := hinv.inv.visit hmay
      narrow := by
        by_cases hzero : count = 0
        · subst hzero
          exact hinv.narrow
        · have hle := hvisited.window
          have hsum := (hflow.trc_sum (by omega) hflight hvisits).2
          have htrc : messages.length = resent + count := hvisits.trc.symm.trans hvisited.trc
          dsimp only at hle
          exact .inl ⟨by omega, by omega⟩
      lastAru := by
        rw [Ring.visited_nodes, forall_update_iff s.nodes fun _ node =>
          base ≤ node.myLastAru + queueRtrItemsSizeMax]
        refine ⟨?_, fun j _ => hinv.lastAru j⟩
        have hreleased := hinv.inv.released_bound i
        have hbase := hinv.inv.base_le i
        rw [hvisited.lastAru, htoken.aru]
        omega
      newest := by
        rcases hvisited.high with ⟨rfl, hsame⟩ | hhigh
        · obtain ⟨j, hj⟩ := hinv.newest
          refine ⟨j, ?_⟩
          rw [Ring.visited_nodes]
          by_cases hji : j = i
          · subst hji
            rw [update_self]
            exact hsame.trans hj
          · rw [update_of_ne hji]
            exact hj
        · refine ⟨i, ?_⟩
          rw [Ring.visited_nodes, update_self]
          exact hhigh
      token := hnext }
  -- an accepted token has another number than the last one
  have hnumber : token.tokenSeq ≠ (s.nodes i).myTokenSeq := by
    intro hsame
    have haccept := hflight.2
    simp [tokenRejected, tokenDiscarded, hsame, sqLteCompare_self] at haccept
  rcases hvisits.outcome with ⟨hdrop, hseq, hbuffer⟩ | ⟨hseq, next, hbuffer, hnext⟩
  · refine ⟨v, _,
      hflow.visit_dropped (by omega) hflight hvisits hdrop hseq hbuffer, hall v (.inr ?_)⟩
    rw [← hi, Ring.visited_nodes, update_self]
    exact hdrop
  · rcases hvisited.outcome with ⟨-, hold⟩ | ⟨-, next', hbuffer', hnextSeq, haru, haddr, hrtr⟩
    · exact absurd (hseq.symm.trans hold) hnumber
    · refine ⟨v + 1, _,
        hflow.visit_passed (by omega) hflight hvisits hn hseq hbuffer hnext,
        hall (v + 1) (.inl ⟨next', ?_⟩)⟩
      exact hinv.matches_next htoken hi rfl hvisited.myId hbuffer' hnextSeq haru haddr hrtr

end ReleaseInv

/-! ### Events other than token visits -/

/-- `messages_free` finds nothing to release: one of the numbers it looks at is not above
`last_released`, and the token's aru is close enough to compare. -/
def NothingToFree (inst : Instance) (aru : ℕ) : Prop :=
  aru < 2 ^ 32 ∧ aru ≤ inst.lastReleased + 2 ^ 29 ∧ inst.lastReleased ≤ aru + 2 ^ 29 ∧
    (aru ≤ inst.lastReleased ∨ inst.myLastAru ≤ inst.lastReleased ∨
      inst.myHighDelivered ≤ inst.lastReleased)

instance (inst : Instance) (aru : ℕ) : Decidable (NothingToFree inst aru) :=
  inferInstanceAs (Decidable (_ ∧ _ ∧ _ ∧ _))

/-- A token that is discarded only after `messages_free` has run leaves nothing to release. -/
def Harmless (inst : Instance) (token : OrfToken) : Prop :=
  tokenIgnored inst token = false → tokenDiscarded inst token = true →
    NothingToFree inst token.aru

instance (inst : Instance) (token : OrfToken) : Decidable (Harmless inst token) :=
  inferInstanceAs (Decidable (_ → _ → _))

/-- Every token that the event discards is harmless. -/
def DiscardsHarmless (s : Ring n) : RingEvent n → Prop
  | .token i => ∀ token ∈ s.incoming i, Harmless (s.nodes i) token
  | .stale i token => Harmless (s.nodes i) token
  | .mcast _ _ => True
  | .queue _ _ => True
  | .transAck _ => True

instance (s : Ring n) (event : RingEvent n) : Decidable (DiscardsHarmless s event) := by
  cases event <;> dsimp only [DiscardsHarmless] <;> infer_instance

namespace ReleaseInv

variable {ring : RingId} {window rep v base : ℕ} {a : StableRing n} {s : Ring n} {i : Fin n}
  {inst : Instance} {token : OrfToken}

/-- A harmless token that is rejected changes nothing. -/
theorem reject (hinv : ReleaseInv ring window rep v base a s) (hbelow : BelowWrap s)
    (hreject : tokenRejected (s.nodes i) token = true) (hharmless : Harmless (s.nodes i) token) :
    ∃ inst, messageHandlerOrfToken (s.nodes i) token = some inst ∧ Keeps (s.nodes i) inst ∧
      ReleaseInv ring window rep v base (a.receive i inst.myAru) (s.set i inst) := by
  have hmember := hinv.member i
  cases hignored : tokenIgnored (s.nodes i) token with
  | true =>
    refine ⟨s.nodes i, ?_, Keeps.refl _,
      hinv.receive hmember le_rfl le_rfl rfl rfl (Keeps.refl _)⟩
    rw [messageHandlerOrfToken, if_pos hignored]
  | false =>
    have hdiscarded : tokenDiscarded (s.nodes i) token = true := by
      simpa [tokenRejected, hignored] using hreject
    have hstate : (s.nodes i).membState = .operational := by
      by_contra hstate
      have := hmember.leaves hstate
      simp [tokenIgnored, this] at hignored
    obtain ⟨hunsigned, hnear, hnear', hcovered⟩ := hharmless hignored hdiscarded
    obtain ⟨hlastLe, hnearLast⟩ := hinv.lastAru_near i
    have hseqBelow := hinv.below hbelow
    have hdelivered := hmember.delivered_le
    have haru := hmember.holds.aru_le
    have hhigh := hmember.high_le
    obtain ⟨queue, freed, hfree, hfreed, hmember'⟩ := @Member.messagesFree (s.nodes i) ring
      base a.seq hmember token.aru (by omega) hunsigned (by omega) ⟨hnear, hnear'⟩ hnearLast
      (hinv.noted_lt i token.aru)
    have hkeeps := messagesFree_keeps hfree
    have hreleased : freed.lastReleased = (s.nodes i).lastReleased := by
      rw [hfreed]
      dsimp only
      omega
    have hsame : tokenDiscarded freed token = true := by rw [hfreed]; exact hdiscarded
    refine ⟨freed, ?_, hkeeps, ?_⟩
    · unfold messageHandlerOrfToken tokenFree
      simp only [hignored, hstate, hfree, hsame, if_true, bind_eq_bind, bind_some,
        Bool.false_eq_true, if_false]
      rfl
    · refine hinv.receive hmember' ?_ ?_ ?_ hreleased hkeeps
      all_goals rw [hfreed]

/-- A packet is received. -/
theorem mcast (hinv : ReleaseInv ring window rep v base a s) {m : Mcast} {j : Fin n}
    (hm : m ∈ (s.nodes j).mcastSent) (hlen : m.msgLen ≤ frameSizeMax) :
    ∃ inst, messageHandlerMcast (s.nodes i) m = some inst ∧
      ReleaseInv ring window rep v base (a.receive i inst.myAru) (s.set i inst) := by
  obtain ⟨inst, queue, high, aru, delivered, messages, hhandle, hinst, haru, hhigh, hmember⟩ :=
    (hinv.member i).mcast (hinv.room i) (hinv.near i) ((hinv.member j).sent m hm) hlen
  refine ⟨inst, hhandle, ?_⟩
  have hkeeps := messageHandlerMcast_keeps hhandle
  subst hinst
  exact hinv.receive hmember haru hhigh rfl rfl hkeeps

/-- Queueing a message never fails and does not concern the ring. -/
theorem queue (hinv : ReleaseInv ring window rep v base a s) (data : List UInt8) :
    ∃ inst, (s.nodes i).totemsrpMcast data = some inst ∧
      ReleaseInv ring window rep v base (a.receive i inst.myAru) (s.set i inst) := by
  have hmember := hinv.member i
  -- what changes is at the end of one of the two message queues
  have hqueued : ∃ new trans : CsQueue Mcast,
      (s.nodes i).totemsrpMcast data = some { s.nodes i with
        newMessageQueue := new
        newMessageQueueTrans := trans } ∧
      ∀ m ∈ new.items ++ trans.items, m.isEncapsulated = false := by
    have hold := hmember.queued
    simp only [List.mem_append] at hold ⊢
    simp only [Instance.totemsrpMcast]
    split
    · split
      · exact ⟨_, _, rfl, hold⟩
      · rename_i hfull
        obtain ⟨trans, hadd⟩ := CsQueue.itemAdd_isSome hfull _
        refine ⟨_, trans, by rw [hadd]; rfl, fun m hm => ?_⟩
        rw [(CsQueue.itemAdd_eq_some hadd).1, List.mem_append, List.mem_singleton] at hm
        rcases hm with hm | hm | rfl
        · exact hold m (.inl hm)
        · exact hold m (.inr hm)
        · rfl
    · split
      · exact ⟨_, _, rfl, hold⟩
      · rename_i hfull
        obtain ⟨new, hadd⟩ := CsQueue.itemAdd_isSome hfull _
        refine ⟨new, _, by rw [hadd]; rfl, fun m hm => ?_⟩
        rw [(CsQueue.itemAdd_eq_some hadd).1, List.mem_append, List.mem_singleton] at hm
        rcases hm with (hm | rfl) | hm
        · exact hold m (.inl hm)
        · rfl
        · exact hold m (.inr hm)
  obtain ⟨new, trans, hsome, hplain⟩ := hqueued
  refine ⟨_, hsome, ?_⟩
  exact hinv.receive { hmember with queued := hplain } le_rfl le_rfl rfl rfl
    (totemsrpMcast_keeps hsome)

/-- What holds at every point of a run, whatever the token's position. -/
def Holding (ring : RingId) (window rep base : ℕ) (s : Ring n) : Prop :=
  ∃ v a, FlowInv window rep v s ∧ ReleaseInv ring window rep v base a s

/-- Every event keeps the invariant while the discarded tokens are harmless. -/
theorem step (hn : n ≤ processorCountMax) (hwindow : window ≤ 2 ^ 30)
    (hinv : Holding ring window rep base s) (hbelow : BelowWrap s) {event : RingEvent n}
    (hharmless : DiscardsHarmless s event) {s' : Ring n} (hstep : s.step event = some s') :
    Holding ring window rep base s' := by
  obtain ⟨v, a, hflow, hinv⟩ := hinv
  -- a member that keeps its flow control state and only receives
  have hkept : ∀ {i inst}, Keeps (s.nodes i) inst →
      ReleaseInv ring window rep v base (a.receive i inst.myAru) (s.set i inst) →
      Holding ring window rep base (s.set i inst) :=
    fun hkeeps hinv' => ⟨v, _, hflow.keeps hkeeps, hinv'⟩
  have hrejected : ∀ {i token}, tokenRejected (s.nodes i) token = true →
      Harmless (s.nodes i) token → ∀ {inst}, messageHandlerOrfToken (s.nodes i) token = some inst →
      Holding ring window rep base (s.handled i token inst) := by
    intro i token hreject hharm inst hhandle
    obtain ⟨inst', hsome, hkeeps, hinv'⟩ := hinv.reject hbelow hreject hharm
    obtain rfl : inst' = inst := some.inj (hsome.symm.trans hhandle)
    rw [Ring.handled, if_pos hreject]
    exact hkept hkeeps hinv'
  cases event with
  | token i =>
    obtain ⟨token, hincoming, hrest⟩ := bind_eq_some_iff.mp hstep
    obtain ⟨inst, hhandle, heq⟩ := bind_eq_some_iff.mp hrest
    cases heq
    rcases messageHandlerOrfToken_cases hhandle with ⟨hreject, -⟩ | ⟨haccept, messages, hvisits⟩
    · exact hrejected hreject (hharmless token hincoming) hhandle
    · obtain ⟨v', a', hflow', hinv'⟩ :=
        hinv.visit hn hwindow hflow hbelow ⟨hincoming, haccept⟩ hhandle hvisits
      have hhandled : s.handled i token inst = s.visited i inst messages.length := by
        simp [Ring.handled, haccept, hvisits.mcastSent]
      rw [hhandled]
      exact ⟨v', a', hflow', hinv'⟩
  | stale _ _ =>
    simp only [Ring.step] at hstep
    split at hstep
    · rename_i hreject
      obtain ⟨inst, hhandle, rfl⟩ := map_eq_some_iff.mp hstep
      exact hrejected hreject hharmless hhandle
    · simp at hstep
  | mcast i m =>
    simp only [Ring.step] at hstep
    split at hstep
    · rename_i hsent
      obtain ⟨j, hm⟩ := hsent
      obtain ⟨inst, hhandle, rfl⟩ := map_eq_some_iff.mp hstep
      obtain ⟨inst', hsome, hinv'⟩ :=
        @mcast _ _ _ _ _ _ _ _ _ i hinv m j hm (messageHandlerMcast_msgLen hhandle)
      obtain rfl : inst' = inst := some.inj (hsome.symm.trans hhandle)
      exact hkept (messageHandlerMcast_keeps hhandle) hinv'
    · simp at hstep
  | queue i data =>
    obtain ⟨inst, hqueue, rfl⟩ := map_eq_some_iff.mp hstep
    obtain ⟨inst', hsome, hinv'⟩ := @queue _ _ _ _ _ _ _ _ _ i hinv data
    obtain rfl : inst' = inst := some.inj (hsome.symm.trans hqueue)
    exact hkept (totemsrpMcast_keeps hqueue) hinv'
  | transAck i =>
    cases hstep
    have hkeeps : Keeps (s.nodes i) (s.nodes i).totemsrpTransAck :=
      { Keeps.refl _ with }
    exact hkept hkeeps
      (hinv.receive { hinv.member i with } le_rfl le_rfl rfl rfl hkeeps)

end ReleaseInv

end Corosync.Totemsrp
