import Corosync.Cpg.ProcessView

/-!
# What the members of a ring know

A member follows its own processes through the order at all times, stores the joinlists until it
activates, and follows all processes from then on. Its joinlist has the processes of the time of
its snapshot, and none of its joins and leaves comes between the snapshot and the last barrier.
-/

namespace Corosync.Cpg

open List

namespace Ring

variable (ring : Ring)

/-- No joinlist of an older ring is stored or queued. -/
def Fresh : Prop :=
  ∀ i ∈ ring.members, (ring.start i).node.joinlistMessages = [] ∧
    ∀ message ∈ (ring.start i).node.totem.queued, message.isJoinlist = false

instance : Decidable ring.Fresh :=
  inferInstanceAs (Decidable (∀ i ∈ ring.members, (ring.start i).node.joinlistMessages = [] ∧
    ∀ message ∈ (ring.start i).node.totem.queued, message.isJoinlist = false))

/-- What the members have of their own processes when the ring is formed. -/
def initially (a : Process) : Bool :=
  decide (a.nodeid ∈ ring.members) && (ring.start a.nodeid).node.lists a

/-- These processes after some messages of the order. -/
def view (items : List (ℕ × Content)) (a : Process) : Bool := a.track (ring.initially a) items

end Ring

/-- What is known of one member. -/
structure Member where
  node : Local
  phase : SyncPhase
  ahead : Option ℕ
  delivered : ℕ

/-- The messages that it transmits during the synchronisation. -/
def Member.queue (m : Member) : List CpgMessage := m.node.node.totem.newMessageQueueTrans

/-- One member of the ring. -/
def RingState.member (s : RingState) (i : ℕ) : Member :=
  ⟨s.locals i, s.phase i, s.ahead i, s.delivered i⟩

/-- The messages of a node. -/
def ownMessages (i : ℕ) (items : List (ℕ × Content)) : List CpgMessage :=
  items.filterMap fun item =>
    match item with
    | (sender, .message message) => if sender = i then some message else none
    | (_, .barrier) => none

section

variable (ring : Ring) (i : ℕ) (m : Member) (order : List (ℕ × Content))

/-- A member that has not taken its snapshot. -/
structure Unprocessed : Prop where
  joinlist : ∀ item ∈ order, item.1 = i → item.2.isJoinlist = false
  queue : ∀ message ∈ m.queue, message.isJoinlist = false
  barrier : (i, Content.barrier) ∉ order
  ahead : m.ahead = none

/-- A member that has taken its snapshot after `d` messages. -/
structure Snapshot (d : ℕ) : Prop where
  le : d ≤ m.delivered
  entries : ∀ a : Process, a.nodeid = i →
    (order.any a.inJoinlist || m.queue.any fun message => a.inJoinlist (i, .message message)) =
      ring.view (order.take d) a
  settled : ∀ (k : ℕ) (content : Content), d ≤ k → order[k]? = some (i, content) →
    content.announces = true → ring.heardAll (order.take k)
  queued : ∀ message ∈ m.queue.drop (m.ahead.getD 0), message.isJoinlist = false
  ahead : ∀ n, m.ahead = some n → n ≤ m.queue.length ∧ (i, Content.barrier) ∉ order
  barrier : ∀ k, order[k]? = some (i, .barrier) →
    d ≤ k ∧ ∀ item ∈ order.drop k, item.1 = i → item.2.isJoinlist = false

/-- What holds of every member. -/
structure MemberInv : Prop where
  nodeid : m.node.node.nodeid = i
  delivered : m.delivered ≤ order.length
  inFlight : m.node.inFlight = ownMessages i (order.drop m.delivered)
  main : ∀ message ∈ m.node.node.totem.newMessageQueue, message.isJoinlist = false
  downlist : m.phase ≠ .waiting → i ∉ m.node.node.downlist
  waiting : m.phase = .started ∨ m.phase = .processed →
    m.node.node.totem.waitingTransAck = true
  own : ∀ a : Process, a.nodeid = i →
    m.node.node.lists a = ring.view (order.take m.delivered) a
  stores : m.phase ≠ .activated → ∀ a : Process, a.nodeid ≠ i →
    m.node.node.stores a = (order.take m.delivered).any a.inJoinlist
  lists : m.phase = .activated → ∀ a : Process,
    m.node.node.lists a = ring.view (order.take m.delivered) a
  activated : m.phase = .activated ↔ ring.heardAll (order.take m.delivered)
  unprocessed : m.phase = .waiting ∨ m.phase = .started → Unprocessed i m order
  snapshot : m.phase = .processed ∨ m.phase = .activated → ∃ d, Snapshot ring i m order d

end

/-- What holds in every state of such a run. -/
structure AgreeInv (ring : Ring) (s : RingState) : Prop where
  senders : ∀ item ∈ s.order, item.1 ∈ ring.members
  member : ∀ i ∈ ring.members, MemberInv ring i (s.member i) s.order

variable {ring : Ring} {i : ℕ} {m : Member} {order : List (ℕ × Content)} {s s' : RingState}

section Order

variable {k : ℕ} {item : ℕ × Content} {a : Process}

/-- The first messages and one more. -/
theorem take_succ_eq (hitem : order[k]? = some item) :
    order.take (k + 1) = order.take k ++ [item] := by
  rw [take_add_one, hitem]
  rfl

/-- A position with an item. -/
theorem lt_of_getElem? (hitem : order[k]? = some item) : k < order.length :=
  (List.getElem?_eq_some_iff.mp hitem).1

/-- The messages after the first ones, and one less. -/
theorem drop_eq_cons (hitem : order[k]? = some item) :
    order.drop k = item :: order.drop (k + 1) := by
  obtain ⟨hlt, rfl⟩ := List.getElem?_eq_some_iff.mp hitem
  exact List.drop_eq_getElem_cons hlt

/-- The view after one more item. -/
theorem Ring.view_succ (hitem : order[k]? = some item) :
    ring.view (order.take (k + 1)) a = a.after (ring.view (order.take k) a) item := by
  rw [take_succ_eq hitem, Ring.view, Process.track_append]
  rfl

/-- More items have the same barriers. -/
theorem Ring.heardAll.mono {items items' : List (ℕ × Content)} (h : ring.heardAll items)
    (hsub : items ⊆ items') : ring.heardAll items' :=
  fun q hq => hsub (h q hq)

/-- A message does not complete the barriers. -/
theorem Ring.heardAll_take_succ {sender : ℕ} {message : CpgMessage}
    (hitem : order[k]? = some (sender, .message message)) :
    ring.heardAll (order.take (k + 1)) ↔ ring.heardAll (order.take k) := by
  rw [take_succ_eq hitem]
  constructor
  · intro h q hq
    rcases mem_append.mp (h q hq) with hmem | hmem
    · exact hmem
    · exact absurd (mem_singleton.mp hmem) (by simp)
  · exact fun h => h.mono (subset_append_left _ _)

/-- Messages after the first ones have places there. -/
theorem exists_of_mem_take_drop {d n : ℕ} (hmem : item ∈ (order.drop d).take n) :
    ∃ j, d ≤ j ∧ j < d + n ∧ order[j]? = some item := by
  obtain ⟨j, hj, hget⟩ := mem_iff_getElem.mp hmem
  rw [length_take] at hj
  rw [List.getElem_take, List.getElem_drop] at hget
  exact ⟨d + j, Nat.le_add_right d j, by omega, List.getElem?_eq_some_iff.mpr ⟨_, hget⟩⟩

/-- A view only depends on the joins and leaves of the node. -/
theorem Ring.view_take_eq {d : ℕ} (hd : d ≤ k)
    (hquiet : ∀ (j : ℕ) (content : Content), d ≤ j → j < k →
      order[j]? = some (a.nodeid, content) → content.announces = false) :
    ring.view (order.take k) a = ring.view (order.take d) a := by
  have hsplit : order.take k = order.take d ++ (order.drop d).take (k - d) := by
    rw [← take_add]
    congr 1
    omega
  rw [hsplit, Ring.view, Process.track_append]
  refine Process.track_eq fun item hitem hsender => ?_
  obtain ⟨j, hdj, hjk, hget⟩ := exists_of_mem_take_drop hitem
  obtain ⟨sender, content⟩ := item
  obtain rfl : sender = a.nodeid := hsender
  exact hquiet j content hdj (by omega) hget

/-- A view of a node that is no member. -/
theorem Ring.view_eq_false (hnot : a.nodeid ∉ ring.members)
    (hsenders : ∀ item ∈ order, item.1 ∈ ring.members) : ring.view order a = false := by
  rw [Ring.view, Process.track_eq fun item hitem hsender =>
    absurd (hsender ▸ hsenders item hitem) hnot]
  simp [Ring.initially, hnot]

/-- The own messages of two parts. -/
theorem ownMessages_append (i : ℕ) (first second : List (ℕ × Content)) :
    ownMessages i (first ++ second) = ownMessages i first ++ ownMessages i second :=
  filterMap_append

/-- Items of another node are not own messages. -/
theorem ownMessages_singleton_of_ne {content : Content} {sender : ℕ} (hne : sender ≠ i) :
    ownMessages i [(sender, content)] = [] := by
  cases content with
  | message _ => simp [ownMessages, hne]
  | barrier => rfl

end Order

section Append

variable {content : Content} {sender d : ℕ}

/-- A message at the end of the order, or before. -/
theorem getElem?_append_singleton_cases {k : ℕ} {item item' : ℕ × Content}
    (h : (order ++ [item])[k]? = some item') :
    (k < order.length ∧ order[k]? = some item') ∨ (k = order.length ∧ item = item') := by
  rcases Nat.lt_or_ge k order.length with hlt | hge
  · rw [getElem?_append_left hlt] at h
    exact Or.inl ⟨hlt, h⟩
  · rw [getElem?_append_right hge, getElem?_singleton] at h
    split at h
    · exact Or.inr ⟨by omega, Option.some.inj h⟩
    · cases h

/-- An own item is not the one another node has added. -/
theorem getElem?_append_singleton_of_ne {k : ℕ} {content' : Content} (hne : sender ≠ i)
    (h : (order ++ [(sender, content)])[k]? = some (i, content')) :
    order[k]? = some (i, content') := by
  rcases getElem?_append_singleton_cases h with ⟨-, hget⟩ | ⟨-, heq⟩
  · exact hget
  · exact absurd (Prod.mk.inj heq).1 hne

/-- Another node adds an item. -/
theorem Unprocessed.append (h : Unprocessed i m order) (hne : sender ≠ i) :
    Unprocessed i m (order ++ [(sender, content)]) where
  joinlist := by
    intro item hitem hsender
    rcases mem_append.mp hitem with hitem | hitem
    · exact h.joinlist item hitem hsender
    · rw [mem_singleton.mp hitem] at hsender
      exact absurd hsender hne
  queue := h.queue
  barrier := by
    intro hmem
    rcases mem_append.mp hmem with hmem | hmem
    · exact h.barrier hmem
    · exact hne (Prod.mk.inj (mem_singleton.mp hmem)).1.symm
  ahead := h.ahead

/-- The same for a member with a snapshot. -/
theorem Snapshot.append (h : Snapshot ring i m order d) (hne : sender ≠ i)
    (hle : m.delivered ≤ order.length) : Snapshot ring i m (order ++ [(sender, content)]) d where
  le := h.le
  entries := by
    intro a ha
    have hfalse : a.inJoinlist (sender, content) = false :=
      Process.inJoinlist_eq_false fun hsender => absurd (hsender.trans ha) hne
    rw [any_append, any_cons, any_nil, hfalse, Bool.or_false, Bool.or_false,
      take_append_of_le_length (Nat.le_trans h.le hle)]
    exact h.entries a ha
  settled := by
    intro k content' hk hget hannounces
    have hget' := getElem?_append_singleton_of_ne hne hget
    rw [take_append_of_le_length (Nat.le_of_lt (lt_of_getElem? hget'))]
    exact h.settled k content' hk hget' hannounces
  queued := h.queued
  ahead := by
    intro n hn
    refine ⟨(h.ahead n hn).1, fun hmem => ?_⟩
    rcases mem_append.mp hmem with hmem | hmem
    · exact (h.ahead n hn).2 hmem
    · exact hne (Prod.mk.inj (mem_singleton.mp hmem)).1.symm
  barrier := by
    intro k hget
    have hget' := getElem?_append_singleton_of_ne hne hget
    refine ⟨(h.barrier k hget').1, fun item hitem hsender => ?_⟩
    rw [drop_append_of_le_length (Nat.le_of_lt (lt_of_getElem? hget'))] at hitem
    rcases mem_append.mp hitem with hitem | hitem
    · exact (h.barrier k hget').2 item hitem hsender
    · rw [mem_singleton.mp hitem] at hsender
      exact absurd hsender hne

/-- The order gets one more message. -/
theorem MemberInv.extend (h : MemberInv ring i m order) {m' : Member} {item : ℕ × Content}
    (hnode : m'.node.node = { m.node.node with totem := m'.node.node.totem })
    (hphase : m'.phase = m.phase) (hdelivered : m'.delivered = m.delivered)
    (hinFlight : m'.node.inFlight = m.node.inFlight ++ ownMessages i [item])
    (hmain : m'.node.node.totem.newMessageQueue ⊆ m.node.node.totem.newMessageQueue)
    (hwaiting : m'.node.node.totem.waitingTransAck = m.node.node.totem.waitingTransAck)
    (hunprocessed : m.phase = .waiting ∨ m.phase = .started → Unprocessed i m' (order ++ [item]))
    (hsnapshot : m.phase = .processed ∨ m.phase = .activated →
      ∃ d, Snapshot ring i m' (order ++ [item]) d) :
    MemberInv ring i m' (order ++ [item]) := by
  have htake : (order ++ [item]).take m'.delivered = order.take m.delivered := by
    rw [hdelivered, take_append_of_le_length h.delivered]
  have hlists : ∀ a, m'.node.node.lists a = m.node.node.lists a := by
    intro a
    rw [hnode]
    rfl
  refine ⟨?_, ?_, ?_, fun message hmessage => h.main message (hmain hmessage), ?_, ?_, ?_, ?_, ?_,
    ?_, hphase ▸ hunprocessed, hphase ▸ hsnapshot⟩
  · rw [hnode]
    exact h.nodeid
  · rw [hdelivered, length_append]
    exact Nat.le_add_right_of_le h.delivered
  · rw [hinFlight, hdelivered, drop_append_of_le_length h.delivered, ownMessages_append,
      h.inFlight]
  · rw [hphase, hnode]
    exact h.downlist
  · rw [hphase, hwaiting]
    exact h.waiting
  · rw [htake]
    exact fun a ha => (hlists a).trans (h.own a ha)
  · rw [htake, hphase, hnode]
    exact h.stores
  · rw [htake, hphase]
    exact fun hphase a => (hlists a).trans (h.lists hphase a)
  · rw [htake, hphase]
    exact h.activated

/-- The same for every member. -/
theorem MemberInv.append (h : MemberInv ring i m order) (hne : sender ≠ i) :
    MemberInv ring i m (order ++ [(sender, content)]) := by
  refine h.extend rfl rfl rfl ?_ (List.Subset.refl _) rfl
    (fun hphase => (h.unprocessed hphase).append hne) fun hphase => ?_
  · rw [ownMessages_singleton_of_ne hne, append_nil]
  · obtain ⟨d, hd⟩ := h.snapshot hphase
    exact ⟨d, hd.append hne h.delivered⟩

end Append

end Corosync.Cpg
