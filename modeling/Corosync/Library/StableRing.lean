import Corosync.Library.Rotation
import Mathlib.Algebra.Order.BigOperators.Group.Finset
import Mathlib.Data.Fintype.Lattice

/-!
# Stable items on a token ring

Stations number items with a circulating token and receive the items of the others in any order.
The token carries a bound on what everybody has received: a station that is behind lowers it, and
only the station that lowered it, or any station once nobody owns it, may raise it again. The bound
alone is not safe, since it may exceed what some station has received. The smaller of its values
at two consecutive visits is: a station that discards only items up to there never discards an item
that another station still misses. A station that, in addition, numbers new items only while they
fit in a window above what it has discarded keeps all stations within that window.
-/

namespace Corosync.Library

open Function Finset

/-- What the argument needs of a station. -/
structure Station where
  received : ℕ
  noted : ℕ
  released : ℕ
  sent : ℕ

/-- A ring of stations with its token. -/
structure StableRing (n : ℕ) where
  stations : Fin n → Station
  turn : Fin n → ℕ
  seq : ℕ
  bound : ℕ
  owner : Option (Fin n)

namespace StableRing

variable {n : ℕ}

/-- How far a station may discard at its turn. -/
def release (s : StableRing n) (i : Fin n) : ℕ :=
  max (s.stations i).released
    (min s.bound (min (s.stations i).noted (s.stations i).received))

/-- Whether a station that has received up to `r` writes the bound. -/
def Writes (s : StableRing n) (i : Fin n) (r : ℕ) : Prop :=
  r < s.bound ∨ s.owner = some i ∨ s.owner = none

instance (s : StableRing n) (i : Fin n) (r : ℕ) : Decidable (s.Writes i r) := by
  unfold Writes
  infer_instance

/-- The ring after station `i` received items. -/
def receive (s : StableRing n) (i : Fin n) (r : ℕ) : StableRing n :=
  { s with stations := Function.update s.stations i { s.stations i with received := r } }

/-- The station that receives. -/
@[simp] theorem receive_self (s : StableRing n) (i : Fin n) (r : ℕ) :
    (s.receive i r).stations i = { s.stations i with received := r } :=
  update_self ..

/-- The other stations stay as they are. -/
@[simp] theorem receive_of_ne (s : StableRing n) {i p : Fin n} (r : ℕ) (hp : p ≠ i) :
    (s.receive i r).stations p = s.stations p :=
  update_of_ne hp ..

/-- The token stays as it is. -/
@[simp] theorem receive_rest (s : StableRing n) (i : Fin n) (r : ℕ) :
    (s.receive i r).turn = s.turn ∧ (s.receive i r).bound = s.bound ∧
      (s.receive i r).owner = s.owner ∧ (s.receive i r).seq = s.seq := by
  simp [receive]

/-- The ring after a turn of station `i` at time `t`: it has sent `sent` items, `count` of them
new, and has received up to `r`. -/
def visit (s : StableRing n) (i : Fin n) (count sent r t : ℕ) : StableRing n where
  stations := Function.update s.stations i
    { received := r, noted := s.bound, released := s.release i, sent := sent }
  turn := Function.update s.turn i t
  seq := s.seq + count
  bound := if s.Writes i r then r else s.bound
  owner := if s.Writes i r then (if r = s.seq + count then none else some i) else s.owner

/-- When a turn may take place. -/
structure MayVisit (window capacity : ℕ) (s : StableRing n) (i : Fin n) (count sent r t : ℕ) :
    Prop where
  oldest : ∀ j, j ≠ i → s.turn i < s.turn j
  later : ∀ j, s.turn j < t
  received_le : (s.stations i).received ≤ r
  le_seq : r ≤ s.seq + count
  count_le : count ≤ sent
  total : ∑ j, (s.stations j).sent + sent ≤ window + (s.stations i).sent
  room : count = 0 ∨ s.seq + count + window ≤ s.release i + capacity

/-- What holds on every run that starts with everything up to `base` received, noted at most and
discarded at most. -/
structure Inv (base window capacity : ℕ) (s : StableRing n) : Prop where
  received_le : ∀ p, (s.stations p).received ≤ s.seq
  base_le : ∀ p, base ≤ (s.stations p).released
  bound_le : s.bound ≤ s.seq
  noted_le : ∀ p, (s.stations p).noted ≤ s.seq
  unowned : s.owner = none → s.bound = s.seq
  owned : ∀ r, s.owner = some r → ∀ p, s.turn r < s.turn p → (s.stations p).noted ≤ s.bound
  /-- Stations that had their turn after `p` have received what `p` noted and the bound covers. -/
  since_received : ∀ p q, s.turn p < s.turn q →
    min (s.stations p).noted s.bound ≤ (s.stations q).received
  since_noted : ∀ p q, s.turn p < s.turn q →
    min (s.stations p).noted s.bound ≤ max base (s.stations q).noted
  safe : ∀ p q, (s.stations p).released ≤ (s.stations q).received
  released_bound : ∀ p, (s.stations p).released ≤ s.bound
  released_noted : ∀ p q, (s.stations p).released ≤ max base (s.stations q).noted
  latest : ∀ h, (∀ p, s.turn p ≤ s.turn h) →
    (∀ p, (s.stations p).released ≤ (s.stations h).released) ∧
      s.seq + window ≤ (s.stations h).released + capacity
  noted_room : ∀ p, (s.stations p).noted + window ≤ (s.stations p).released + capacity
  room : ∀ p, s.seq + window ≤ (s.stations p).released + capacity +
    ∑ q with s.turn p < s.turn q, (s.stations q).sent
  total : ∑ q, (s.stations q).sent ≤ window

variable {base window capacity : ℕ} {s : StableRing n}

/-- A station receives. -/
theorem Inv.receive (hinv : Inv base window capacity s) {i : Fin n} {r : ℕ}
    (hreceived : (s.stations i).received ≤ r) (hseq : r ≤ s.seq) :
    Inv base window capacity (s.receive i r) := by
  have hnoted : ∀ p, ((s.receive i r).stations p).noted = (s.stations p).noted :=
    apply_update_same Station.noted s.stations i _ rfl
  have hreleased : ∀ p, ((s.receive i r).stations p).released = (s.stations p).released :=
    apply_update_same Station.released s.stations i _ rfl
  have hsent : ∀ p, ((s.receive i r).stations p).sent = (s.stations p).sent :=
    apply_update_same Station.sent s.stations i _ rfl
  have hgrows : ∀ p, (s.stations p).received ≤ ((s.receive i r).stations p).received := by
    intro p
    by_cases hp : p = i
    · subst hp
      rwa [receive_self]
    · rw [receive_of_ne s r hp]
  have hle : ∀ p, ((s.receive i r).stations p).received ≤ s.seq := by
    intro p
    by_cases hp : p = i
    · subst hp
      rwa [receive_self]
    · rw [receive_of_ne s r hp]
      exact hinv.received_le p
  exact {
    received_le := hle
    base_le := by simpa only [hreleased] using hinv.base_le
    bound_le := hinv.bound_le
    noted_le := by simpa [hnoted] using hinv.noted_le
    unowned := hinv.unowned
    owned := by simpa [hnoted] using hinv.owned
    since_received := by
      intro p q hturn
      rw [hnoted]
      exact le_trans (hinv.since_received p q hturn) (hgrows q)
    since_noted := by simpa [hnoted] using hinv.since_noted
    safe := by
      intro p q
      rw [hreleased]
      exact le_trans (hinv.safe p q) (hgrows q)
    released_bound := by simpa [hreleased] using hinv.released_bound
    released_noted := by simpa only [hreleased, hnoted] using hinv.released_noted
    latest := by simpa [hreleased] using hinv.latest
    noted_room := by simpa [hreleased, hnoted] using hinv.noted_room
    room := by
      intro p
      rw [hreleased]
      simp only [hsent]
      exact hinv.room p
    total := by simpa only [hsent] using hinv.total }

/-! ### A turn -/

variable {i : Fin n} {count sent r t : ℕ} {p : Fin n}

/-- The station that is visited. -/
@[simp] theorem visit_self : (s.visit i count sent r t).stations i =
    { received := r, noted := s.bound, released := s.release i, sent := sent } :=
  update_self ..

/-- The other stations stay as they are. -/
@[simp] theorem visit_of_ne (hp : p ≠ i) : (s.visit i count sent r t).stations p = s.stations p :=
  update_of_ne hp ..

/-- The turn of the visited station. -/
@[simp] theorem visit_turn_self : (s.visit i count sent r t).turn i = t :=
  update_self ..

/-- The turns of the others stay as they are. -/
@[simp] theorem visit_turn_of_ne (hp : p ≠ i) : (s.visit i count sent r t).turn p = s.turn p :=
  update_of_ne hp ..

/-- After a turn one has to look at the visited station and at the others as they were. -/
theorem forall_visit (P : Fin n → Station → Prop)
    (hself : P i { received := r, noted := s.bound, released := s.release i, sent := sent })
    (hothers : ∀ p, p ≠ i → P p (s.stations p)) (p : Fin n) :
    P p ((s.visit i count sent r t).stations p) :=
  (forall_update_iff s.stations P).mpr ⟨hself, hothers⟩ p

section

variable (hinv : Inv base window capacity s)

include hinv

/-- What a station discards at its turn was received by everybody. -/
theorem Inv.release_le_received (hvisit : MayVisit window capacity s i count sent r t) (q : Fin n) :
    s.release i ≤ (s.stations q).received := by
  have hsafe := hinv.safe i q
  unfold release
  by_cases hq : q = i
  · subst hq
    omega
  · have hsince := hinv.since_received i q (hvisit.oldest q hq)
    omega

/-- What is released has been noted by all. -/
theorem Inv.release_le_noted (hvisit : MayVisit window capacity s i count sent r t) (q : Fin n) :
    s.release i ≤ max base (s.stations q).noted := by
  have hreleased := hinv.released_noted i q
  unfold release
  by_cases hq : q = i
  · subst hq
    omega
  · have hsince := hinv.since_noted i q (hvisit.oldest q hq)
    omega

/-- Nobody has discarded more than the station whose turn it is. -/
theorem Inv.released_le_release (p : Fin n) : (s.stations p).released ≤ s.release i := by
  have hbase := hinv.base_le i
  have hbound := hinv.released_bound p
  have hnoted := hinv.released_noted p i
  have hreceived := hinv.safe p i
  unfold release
  omega

/-- A station that raises the bound is the last to do so: all others have noted at most the
old one. -/
theorem Inv.noted_le_bound (hvisit : MayVisit window capacity s i count sent r t)
    (hwrites : s.Writes i r)
    (hraises : s.bound < r) (hp : p ≠ i) : (s.stations p).noted ≤ s.bound := by
  rcases hwrites with hlower | howner | howner
  · omega
  · exact hinv.owned i howner p (hvisit.oldest p hp)
  · rw [hinv.unowned howner]
    exact hinv.noted_le p

/-- Whatever the turn does to the bound, what it newly covers was not noted by others. -/
theorem Inv.min_visit_bound_le (hvisit : MayVisit window capacity s i count sent r t) (hp : p ≠ i) :
    min (s.stations p).noted (s.visit i count sent r t).bound ≤
      min (s.stations p).noted s.bound := by
  simp only [visit]
  split
  · rename_i hwrites
    by_cases hraises : s.bound < r
    · have := hinv.noted_le_bound hvisit hwrites hraises hp
      omega
    · omega
  · exact le_rfl

end

/-- The bound of the token has been received. -/
theorem visit_bound_le_received : (s.visit i count sent r t).bound ≤ r := by
  simp only [visit]
  split
  · exact le_rfl
  · rename_i hwrites
    exact not_lt.mp fun hlower => hwrites (.inl hlower)

/-- The new bound covers what everybody but the visited station may rely on. -/
theorem le_visit_bound (hvisit : MayVisit window capacity s i count sent r t)
    {a : ℕ} (hbound : a ≤ s.bound) (hreceived : a ≤ (s.stations i).received) :
    a ≤ (s.visit i count sent r t).bound := by
  have := hvisit.received_le
  simp only [visit]
  split <;> omega

/-- What was sent since the turn of `p` grows by what is sent now. -/
theorem sum_visit_sent (hvisit : MayVisit window capacity s i count sent r t) (hp : p ≠ i) :
    ∑ q with (s.visit i count sent r t).turn p < (s.visit i count sent r t).turn q,
        ((s.visit i count sent r t).stations q).sent =
      sent + ∑ q with s.turn p < s.turn q, (s.stations q).sent := by
  have hfilter : univ.filter
        (fun q => (s.visit i count sent r t).turn p < (s.visit i count sent r t).turn q) =
      insert i (univ.filter fun q => s.turn p < s.turn q) := by
    ext q
    rw [mem_insert, mem_filter_univ, mem_filter_univ, visit_turn_of_ne hp]
    by_cases hq : q = i
    · subst hq
      simpa using hvisit.later p
    · simp [hq]
  have hnotMem : i ∉ univ.filter fun q => s.turn p < s.turn q := by
    simpa using (hvisit.oldest p hp).le
  rw [hfilter, sum_insert hnotMem, visit_self]
  congr 1
  refine sum_congr rfl fun q hq => ?_
  rw [visit_of_ne]
  rintro rfl
  exact hnotMem hq

section

variable (hinv : Inv base window capacity s)

include hinv

/-- The numbers given out fit behind what is released. -/
theorem Inv.room_release (hvisit : MayVisit window capacity s i count sent r t) :
    s.seq + count + window ≤ s.release i + capacity := by
  rcases hvisit.room with hcount | hroom
  · have : Nonempty (Fin n) := ⟨i⟩
    obtain ⟨h, hlatest⟩ := Finite.exists_max s.turn
    have := (hinv.latest h hlatest).2
    have := hinv.released_le_release (i := i) h
    omega
  · exact hroom

/-- The token visits a station. -/
theorem Inv.visit (hvisit : MayVisit window capacity s i count sent r t) :
    Inv base window capacity (s.visit i count sent r t) := by
  have hroom := hinv.room_release hvisit
  have hgrows := @forall_visit _ s i count sent r t
    (fun q x => (s.stations q).received ≤ x.received) hvisit.received_le fun _ _ => le_rfl
  have hreleased := @forall_visit _ s i count sent r t (fun _ x => x.released ≤ s.release i)
    le_rfl fun p _ => hinv.released_le_release p
  have hbound : s.release i ≤ s.bound := by
    have := hinv.released_bound i
    unfold release
    omega
  have hnoted := @forall_visit _ s i count sent r t (fun _ x => s.release i ≤ max base x.noted)
    (le_trans hbound (le_max_right ..)) fun q _ => hinv.release_le_noted hvisit q
  have hnewest : ∀ q, ¬ t < (s.visit i count sent r t).turn q :=
    (forall_update_iff s.turn fun _ turn => ¬ t < turn).mpr
      ⟨lt_irrefl t, fun q _ => (hvisit.later q).le.not_gt⟩
  refine
    { received_le := forall_visit (fun _ x => x.received ≤ s.seq + count) hvisit.le_seq
        fun p _ => le_trans (hinv.received_le p) (Nat.le_add_right ..)
      base_le := forall_visit (fun _ x => base ≤ x.released)
        (le_trans (hinv.base_le i) (le_max_left ..)) fun p _ => hinv.base_le p
      bound_le := le_trans visit_bound_le_received hvisit.le_seq
      noted_le := forall_visit (fun _ x => x.noted ≤ s.seq + count)
        (le_trans hinv.bound_le (Nat.le_add_right ..))
        fun p _ => le_trans (hinv.noted_le p) (Nat.le_add_right ..)
      unowned := ?unowned, owned := ?owned
      since_received := ?since_received, since_noted := ?since_noted
      safe := fun p q => le_trans (hreleased p)
        (le_trans (hinv.release_le_received hvisit q) (hgrows q))
      released_bound := fun p => le_trans (hreleased p)
        (le_visit_bound hvisit hbound (hinv.release_le_received hvisit i))
      released_noted := fun p q => le_trans (hreleased p) (hnoted q)
      latest := ?latest
      noted_room := forall_visit (fun _ x => x.noted + window ≤ x.released + capacity)
        (by have := hinv.bound_le; dsimp only; omega) fun p _ => hinv.noted_room p
      room := ?room, total := ?total }
  case unowned =>
    by_cases hwrites : s.Writes i r
    · simp only [StableRing.visit, if_pos hwrites]
      split
      · intro; assumption
      · simp
    · simp only [StableRing.visit, if_neg hwrites]
      intro hnone
      exact absurd (.inr (.inr hnone)) hwrites
  case owned =>
    intro j howner p hturn
    by_cases hwrites : s.Writes i r
    · -- the visited station is the owner, and nobody had a turn since
      obtain rfl : i = j := by
        simp only [StableRing.visit, if_pos hwrites] at howner
        split at howner
        · simp at howner
        · exact Option.some.inj howner
      rw [visit_turn_self] at hturn
      exact absurd hturn (hnewest p)
    · simp only [StableRing.visit, if_neg hwrites] at howner
      have hj : j ≠ i := by
        rintro rfl
        exact hwrites (.inr (.inl howner))
      have hsame : (s.visit i count sent r t).bound = s.bound := by
        simp only [StableRing.visit, if_neg hwrites]
      rw [hsame]
      by_cases hp : p = i
      · subst hp
        rw [visit_self]
      · rw [visit_of_ne hp]
        rw [visit_turn_of_ne hj, visit_turn_of_ne hp] at hturn
        exact hinv.owned j howner p hturn
  case since_received =>
    intro p q hturn
    by_cases hp : p = i
    · subst hp
      rw [visit_turn_self] at hturn
      exact absurd hturn (hnewest q)
    by_cases hq : q = i
    · subst hq
      rw [visit_self]
      exact le_trans (min_le_right ..) visit_bound_le_received
    · rw [visit_turn_of_ne hp, visit_turn_of_ne hq] at hturn
      rw [visit_of_ne hp, visit_of_ne hq]
      exact le_trans (hinv.min_visit_bound_le hvisit hp) (hinv.since_received p q hturn)
  case since_noted =>
    intro p q hturn
    by_cases hp : p = i
    · subst hp
      rw [visit_turn_self] at hturn
      exact absurd hturn (hnewest q)
    rw [visit_of_ne hp]
    refine le_trans (hinv.min_visit_bound_le hvisit hp) ?_
    by_cases hq : q = i
    · subst hq
      rw [visit_self]
      exact le_trans (min_le_right ..) (le_max_right ..)
    · rw [visit_turn_of_ne hp, visit_turn_of_ne hq] at hturn
      rw [visit_of_ne hq]
      exact hinv.since_noted p q hturn
  case latest =>
    intro h hlatest
    obtain rfl : h = i := by
      by_contra hne
      have := hlatest i
      rw [visit_turn_self, visit_turn_of_ne hne] at this
      exact absurd (hvisit.later h) this.not_gt
    rw [visit_self]
    exact ⟨hreleased, hroom⟩
  case room =>
    intro p
    by_cases hp : p = i
    · subst hp
      rw [visit_self]
      exact le_trans hroom (Nat.le_add_right ..)
    · rw [sum_visit_sent hvisit hp, visit_of_ne hp]
      have := hinv.room p
      have := hvisit.count_le
      simp only [StableRing.visit]
      omega
  case total =>
    have hsum := sum_update_add (fun q => (s.stations q).sent) i sent
    have hupdate := apply_update_eq Station.sent s.stations i
      { received := r, noted := s.bound, released := s.release i, sent := sent }
    have := hvisit.total
    rw [← hupdate] at hsum
    dsimp only at hsum
    simp only [StableRing.visit]
    omega

/-- The numbers given out fit in every station. -/
theorem Inv.seq_le (p : Fin n) : s.seq ≤ (s.stations p).released + capacity := by
  have hroom := hinv.room p
  have hsum : ∑ q with s.turn p < s.turn q, (s.stations q).sent ≤
      ∑ q, (s.stations q).sent := sum_le_sum_of_subset (filter_subset ..)
  have := hinv.total
  omega

/-- Every station has received the items that a rotation may leave behind. -/
theorem Inv.seq_add_window_le (p : Fin n) :
    s.seq + window ≤ (s.stations p).received + capacity := by
  have : Nonempty (Fin n) := ⟨p⟩
  obtain ⟨h, hlatest⟩ := Finite.exists_max s.turn
  have := (hinv.latest h hlatest).2
  have := hinv.safe h p
  omega

end

end StableRing

end Corosync.Library
