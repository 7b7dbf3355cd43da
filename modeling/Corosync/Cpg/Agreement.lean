import Corosync.Cpg.Snapshot

/-!
# The members of a ring agree on the processes

A joinlist is a snapshot. The other members replace what they know about the processes of its
sender by it when they activate, while the sender keeps its own list. A join or leave of the sender
that takes its place in the order between the snapshot and the activation is therefore lost by the
others. Without such messages all members have, from their activation on, the processes that each
node had of its own when the ring was formed, followed through the whole order.
-/

namespace Corosync.Cpg

open Library List Option RingState Function Process

namespace RingState

variable (ring : Ring) (s : RingState)

/-- The members agree on the processes. -/
structure Agreed : Prop where
  /-- Members that have delivered the same messages have the same processes once one of them is
  activated, and then the others are. -/
  equal : ∀ p ∈ ring.members, ∀ q ∈ ring.members, s.phase p = .activated →
    s.delivered q = s.delivered p →
    s.phase q = .activated ∧ ∀ a, (s.node q).lists a = (s.node p).lists a
  left : ∀ p ∈ ring.members, s.phase p = .activated →
    ∀ (k sender pid : ℕ) (group : CpgName) (reason : Reason), k < s.delivered p →
      s.order[k]? = some (sender, .message (.procleave group pid reason)) →
      (∀ (j : ℕ) (group' : CpgName), k < j → j < s.delivered p → group'.bytes = group.bytes →
        s.order[j]? ≠ some (sender, .message (.procjoin group' pid))) →
      (s.node p).lists ⟨sender, pid, group.bytes⟩ = false

/-- When a member takes the snapshot of its processes it has delivered all joins and leaves of its
own that have a place in the order, and it gives none a place until the barriers of all members
have theirs. -/
def Settled : RingEvent → Prop
  | .syncProcess i =>
    ∀ item ∈ s.order.drop (s.delivered i), item.1 = i → item.2.announces = false
  | .transmit i =>
    s.phase i = .processed → ¬ ring.heardAll s.order → (s.next i).any Content.announces = false
  | _ => True

instance (event : RingEvent) : Decidable (s.Settled ring event) := by
  cases event <;> dsimp only [RingState.Settled] <;> infer_instance

end RingState

variable {ring : Ring} {i : ℕ} {m : Member} {order : List (ℕ × Content)} {s s' : RingState}

section Deliver

variable {sender : ℕ} {message : CpgMessage}

/-- A member handles a message. -/
theorem MemberInv.deliver (h : MemberInv ring i m order)
    (hitem : order[m.delivered]? = some (sender, .message message)) {l : Local}
    (hnode : l.node = m.node.node.execHandler sender message)
    (hinFlight : l.inFlight = ownMessages i (order.drop (m.delivered + 1))) :
    MemberInv ring i { m with node := l, delivered := m.delivered + 1 } order := by
  obtain ⟨hnodeid, htotem, hdownlist⟩ := Local.execHandler_frame m.node.node sender message
  rw [← hnode] at hnodeid htotem hdownlist
  have hlists : ∀ a : Process, l.node.lists a =
      a.after (m.node.node.lists a) (sender, .message message) := by
    intro a
    rw [hnode]
    exact lists_execHandler sender message
  refine ⟨hnodeid.trans h.nodeid, lt_of_getElem? hitem, hinFlight, ?_, ?_, ?_, fun a ha => ?_,
    fun hphase a ha => ?_, fun hphase a => ?_, ?_,
    fun hphase => (h.unprocessed hphase).same ?_ rfl, fun hphase => ?_⟩
  · rw [htotem]
    exact h.main
  · rw [hdownlist]
    exact h.downlist
  · rw [htotem]
    exact h.waiting
  · rw [hlists, Ring.view_succ hitem, h.own a ha]
  · rw [take_succ_eq hitem, any_append, any_cons, any_nil, Bool.or_false,
      ← h.stores hphase a ha]
    change l.node.stores a = _
    rw [hnode]
    exact stores_execHandler sender message (fun hsame => ha (hsame.trans h.nodeid))
  · rw [hlists, Ring.view_succ hitem, h.lists hphase a]
  · exact h.activated.trans (Ring.heardAll_take_succ hitem).symm
  · exact congrArg Totem.newMessageQueueTrans htotem
  · obtain ⟨d, hd⟩ := h.snapshot hphase
    exact ⟨d, hd.same (congrArg Totem.newMessageQueueTrans htotem) rfl (Nat.le_succ _)⟩

/-- A delivery is one of the member's own messages or of a foreign one. -/
theorem MemberInv.deliver_step (h : MemberInv ring i m order)
    (hitem : order[m.delivered]? = some (sender, .message message)) {l : Local}
    (hstep : (if sender = i then m.node.step .deliver else m.node.step (.foreign sender message)) =
      some l) :
    l.node = m.node.node.execHandler sender message ∧
      l.inFlight = ownMessages i (order.drop (m.delivered + 1)) := by
  have hinFlight := h.inFlight
  rw [drop_eq_cons hitem] at hinFlight
  split at hstep
  · rename_i hown
    have hcons : m.node.inFlight = message :: ownMessages i (order.drop (m.delivered + 1)) := by
      rw [hinFlight]
      simp [ownMessages, hown]
    simp only [Local.step, hcons] at hstep
    cases hstep
    refine ⟨?_, rfl⟩
    change m.node.node.execHandler m.node.node.nodeid message = _
    rw [h.nodeid, hown]
  · rename_i hother
    obtain ⟨_, hstep⟩ := ite_none_left_eq_some.mp hstep
    cases hstep
    refine ⟨rfl, hinFlight.trans ?_⟩
    simp [ownMessages, hother]

/-- A barrier leaves the view as it is. -/
theorem Ring.view_barrier {k : ℕ} {a : Process} (hitem : order[k]? = some (sender, .barrier)) :
    ring.view (order.take (k + 1)) a = ring.view (order.take k) a := by
  rw [Ring.view_succ hitem]
  rfl

/-- A barrier is no list of processes. -/
theorem any_barrier {k : ℕ} {a : Process} (hitem : order[k]? = some (sender, .barrier)) :
    (order.take (k + 1)).any a.inJoinlist = (order.take k).any a.inJoinlist := by
  rw [take_succ_eq hitem, any_append]
  exact Bool.or_false _

/-- A barrier is not one of the own messages. -/
theorem ownMessages_barrier {k : ℕ} (hitem : order[k]? = some (sender, .barrier)) :
    ownMessages i (order.drop k) = ownMessages i (order.drop (k + 1)) := by
  rw [drop_eq_cons hitem]
  rfl

/-- A barrier that is not the last one. -/
theorem MemberInv.pass (h : MemberInv ring i m order) (hmember : i ∈ ring.members)
    (hitem : order[m.delivered]? = some (sender, .barrier))
    (hnot : ¬ (m.phase = .processed ∧ ring.heardAll (order.take (m.delivered + 1)))) :
    MemberInv ring i { m with delivered := m.delivered + 1 } order := by
  refine ⟨h.nodeid, lt_of_getElem? hitem, h.inFlight.trans (ownMessages_barrier hitem), h.main,
    h.downlist, h.waiting, fun a ha => ?_, fun hphase a ha => ?_, fun hphase a => ?_,
    ⟨fun hphase => ?_, fun hall => ?_⟩, fun hphase => (h.unprocessed hphase).same rfl rfl,
    fun hphase => ?_⟩
  · rw [Ring.view_barrier hitem]
    exact h.own a ha
  · rw [any_barrier hitem]
    exact h.stores hphase a ha
  · rw [Ring.view_barrier hitem]
    exact h.lists hphase a
  · refine (h.activated.mp hphase).mono ?_
    rw [take_succ_eq hitem]
    exact subset_append_left _ _
  · have hbarrier : (i, Content.barrier) ∈ order := mem_of_mem_take (hall i hmember)
    change m.phase = .activated
    cases hphase : m.phase with
    | waiting => exact absurd hbarrier (h.unprocessed (.inl hphase)).barrier
    | started => exact absurd hbarrier (h.unprocessed (.inr hphase)).barrier
    | processed => exact absurd ⟨hphase, hall⟩ hnot
    | activated => rfl
  · obtain ⟨d, hd⟩ := h.snapshot hphase
    exact ⟨d, hd.same rfl rfl (Nat.le_succ _)⟩

/-- At the last barrier the joinlists have the processes of the other members as they are. -/
theorem AgreeInv.stored_eq_view (hinv : AgreeInv ring s) {k : ℕ}
    (hnot : ¬ ring.heardAll (s.order.take k)) (hall : ring.heardAll (s.order.take (k + 1)))
    (a : Process) : (s.order.take k).any a.inJoinlist = ring.view (s.order.take k) a := by
  by_cases hmember : a.nodeid ∈ ring.members
  · have hq := hinv.member a.nodeid hmember
    -- the barrier of the node is one of the first messages
    obtain ⟨j, hj, hget⟩ := mem_take_iff_getElem.mp (hall a.nodeid hmember)
    have hbarrier : s.order[j]? = some (a.nodeid, .barrier) :=
      List.getElem?_eq_some_iff.mpr ⟨by omega, hget⟩
    have hphase : (s.member a.nodeid).phase = .processed ∨
        (s.member a.nodeid).phase = .activated := by
      have hmem : (a.nodeid, Content.barrier) ∈ s.order := mem_of_getElem? hbarrier
      cases hphase : (s.member a.nodeid).phase with
      | waiting => exact absurd hmem (hq.unprocessed (.inl hphase)).barrier
      | started => exact absurd hmem (hq.unprocessed (.inr hphase)).barrier
      | processed => exact .inl rfl
      | activated => exact .inr rfl
    obtain ⟨d, hd⟩ := hq.snapshot hphase
    obtain ⟨hdj, hbehind⟩ := hd.barrier j hbarrier
    have hahead : (s.member a.nodeid).ahead = none := by
      cases hahead : (s.member a.nodeid).ahead with
      | none => rfl
      | some n => exact absurd (mem_of_getElem? hbarrier) (hd.ahead n hahead).2
    have hqueue : ((s.member a.nodeid).queue.any
        fun message => a.inJoinlist (a.nodeid, .message message)) = false := by
      have hqueued := hd.queued
      rw [hahead] at hqueued
      exact any_queue_eq_false a.nodeid hqueued
    have hrest : (s.order.drop k).any a.inJoinlist = false :=
      any_inJoinlist_eq_false fun item hitem =>
        hbehind item (drop_subset_drop_left s.order (by omega) hitem)
    calc (s.order.take k).any a.inJoinlist
        = s.order.any a.inJoinlist := by
          conv_rhs => rw [← take_append_drop k s.order]
          rw [any_append, hrest, Bool.or_false]
      _ = ring.view (s.order.take d) a := by
          rw [← hd.entries a rfl, hqueue, Bool.or_false]
      _ = ring.view (s.order.take k) a := by
          refine (Ring.view_take_eq (by omega) fun n content hdn hnk hget => ?_).symm
          cases hannounces : content.announces with
          | false => rfl
          | true =>
            refine absurd ((hd.settled n content hdn hget hannounces).mono ?_) hnot
            exact take_subset_take_left s.order (Nat.le_of_lt hnk)
  · have hsenders : ∀ item ∈ s.order.take k, item.1 ∈ ring.members :=
      fun item hitem => hinv.senders item (mem_of_mem_take hitem)
    rw [Ring.view_eq_false hmember hsenders]
    exact any_inJoinlist_eq_false fun item hitem hsender =>
      absurd (hsender ▸ hsenders item hitem) hmember

/-- A member with all barriers activates what it has stored. -/
theorem MemberInv.activate (hinv : AgreeInv ring s) (hmember : i ∈ ring.members)
    (hitem : s.order[s.delivered i]? = some (sender, .barrier)) (hphase : s.phase i = .processed)
    (hall : ring.heardAll (s.order.take (s.delivered i + 1))) {l : Local}
    (hstep : (s.locals i).step .syncActivate = some l) :
    MemberInv ring i
      { s.member i with node := l, phase := .activated, delivered := s.delivered i + 1 }
      s.order := by
  have h := hinv.member i hmember
  obtain ⟨node, hnode, rfl⟩ := map_eq_some_iff.mp hstep
  have hinforms := cpgSyncActivate_informs hnode
  have hnot : (s.member i).phase ≠ .activated := by
    change s.phase i ≠ .activated
    rw [hphase]
    exact SyncPhase.noConfusion
  have hnotAll : ¬ ring.heardAll (s.order.take (s.delivered i)) :=
    fun hall => hnot (h.activated.mpr hall)
  have hdown : i ∉ (s.locals i).node.downlist := by
    refine h.downlist ?_
    change s.phase i ≠ .waiting
    rw [hphase]
    exact SyncPhase.noConfusion
  have hlists : ∀ a : Process, node.lists a = ring.view (s.order.take (s.delivered i)) a := by
    intro a
    have hnodeid : (s.locals i).node.nodeid = i := h.nodeid
    rw [CpgNode.lists, cpgSyncActivate_has hnode (by rw [hnodeid]; exact hdown), hnodeid]
    split
    · rename_i hown
      exact h.own a hown
    · rename_i hother
      exact (h.stores hnot a hother).trans (hinv.stored_eq_view hnotAll hall a)
  have htotem : node.totem = (s.locals i).node.totem := by
    rw [hinforms.eq]
  refine ⟨?_, lt_of_getElem? hitem, h.inFlight.trans (ownMessages_barrier hitem), ?_, fun _ => ?_,
    ?_, fun a _ => ?_, fun hother => absurd rfl hother, fun _ a => ?_,
    ⟨fun _ => hall, fun _ => rfl⟩, ?_, fun _ => ?_⟩
  · rw [hinforms.eq]
    exact h.nodeid
  · rw [htotem]
    exact h.main
  · rw [hinforms.eq]
    exact hdown
  · rintro (hother | hother)
    · cases hother
    · cases hother
  · rw [Ring.view_barrier hitem]
    exact hlists a
  · rw [Ring.view_barrier hitem]
    exact hlists a
  · rintro (hother | hother)
    · cases hother
    · cases hother
  · obtain ⟨d, hd⟩ := h.snapshot (.inl hphase)
    exact ⟨d, hd.same (congrArg Totem.newMessageQueueTrans htotem) rfl (Nat.le_succ _)⟩

end Deliver

section Steps

/-- One member acts and puts at most one message into the order. -/
theorem AgreeInv.acting (hinv : AgreeInv ring s) (hmember : i ∈ ring.members)
    (horder : s'.order = s.order ∨ ∃ content, s'.order = s.order ++ [(i, content)])
    (hother : ∀ j, j ≠ i → s'.member j = s.member j)
    (hself : MemberInv ring i (s'.member i) s'.order) : AgreeInv ring s' where
  senders := by
    intro item hitem
    rcases horder with horder | ⟨content, horder⟩
    · rw [horder] at hitem
      exact hinv.senders item hitem
    · rw [horder] at hitem
      rcases mem_append.mp hitem with hitem | hitem
      · exact hinv.senders item hitem
      · rw [mem_singleton.mp hitem]
        exact hmember
  member := by
    intro j hj
    by_cases hsame : j = i
    · rw [hsame]
      exact hself
    rw [hother j hsame]
    rcases horder with horder | ⟨content, horder⟩
    · rw [horder]
      exact hinv.member j hj
    · rw [horder]
      exact (hinv.member j hj).append (Ne.symm hsame)

/-- A state in which one member is changed. -/
def RingState.Changes (s s' : RingState) (i : ℕ) (m : Member) : Prop :=
  ∀ j, s'.member j = if j = i then m else s.member j

/-- A member that is not changed. -/
theorem keep {α : Type*} (f : ℕ → α) (i : ℕ) : f = update f i (f i) :=
  (update_eq_self i f).symm

/-- The change of one member, component by component. -/
theorem RingState.changes_of (hlocals : s'.locals = update s.locals i m.node)
    (hphase : s'.phase = update s.phase i m.phase)
    (hahead : s'.ahead = update s.ahead i m.ahead)
    (hdelivered : s'.delivered = update s.delivered i m.delivered) :
    s.Changes s' i m := by
  intro j
  simp only [member, hlocals, hphase, hahead, hdelivered, update_apply]
  split <;> rfl

/-- One member changes and keeps its invariant. -/
theorem AgreeInv.changes (hinv : AgreeInv ring s) (hmember : i ∈ ring.members)
    (horder : s'.order = s.order ∨ ∃ content, s'.order = s.order ++ [(i, content)])
    (hchanges : s.Changes s' i m) (hself : MemberInv ring i m s'.order) : AgreeInv ring s' := by
  refine hinv.acting hmember horder (fun j hj => ?_) ?_
  · rw [hchanges j, if_neg hj]
  · rw [hchanges i, if_pos rfl]
    exact hself

/-- A request of a client. -/
theorem AgreeInv.client {event : LocalEvent} (hinv : AgreeInv ring s)
    (hstep : s.step ring (.client i event) = some s') : AgreeInv ring s' := by
  obtain ⟨⟨hmember, hclient⟩, hact⟩ := ite_none_right_eq_some.mp hstep
  obtain ⟨l, hl, rfl⟩ := map_eq_some_iff.mp hact
  refine hinv.changes hmember (.inl rfl) (changes_of rfl (keep s.phase i)
    (keep s.ahead i) (keep s.delivered i))
    ((hinv.member i hmember).client (Local.clientFrame hclient hl))

/-- A member begins to synchronise. -/
theorem AgreeInv.syncInit {transList : List ℕ} (hinv : AgreeInv ring s)
    (hstep : s.step ring (.syncInit i transList) = some s') : AgreeInv ring s' := by
  obtain ⟨⟨hmember, hphase⟩, hact⟩ := ite_none_right_eq_some.mp hstep
  obtain ⟨l, hl, rfl⟩ := map_eq_some_iff.mp hact
  refine hinv.changes hmember (.inl rfl) (changes_of rfl rfl (keep s.ahead i)
    (keep s.delivered i)) ((hinv.member i hmember).syncInit hphase hl)

/-- A member sends its lists. -/
theorem AgreeInv.syncProcess (hinv : AgreeInv ring s)
    (hsettled : ∀ item ∈ s.order.drop (s.delivered i), item.1 = i → item.2.announces = false)
    (hstep : s.step ring (.syncProcess i) = some s') : AgreeInv ring s' := by
  obtain ⟨⟨hmember, hphase⟩, hmap⟩ := ite_none_right_eq_some.mp hstep
  obtain ⟨next, hact, rfl⟩ := map_eq_some_iff.mp hmap
  obtain ⟨l, hl, rfl⟩ := map_eq_some_iff.mp hact
  have hnode : node { s with locals := update s.locals i l } i = l.node := by
    simp only [node, update_self]
  split
  · rename_i hdone
    rw [hnode]
    refine hinv.changes hmember (.inl rfl) (changes_of rfl rfl rfl
      (keep s.delivered i)) ((hinv.member i hmember).syncProcess hphase hl hdone hsettled)
  · rename_i hfailed
    rw [Bool.not_eq_true] at hfailed
    refine hinv.changes hmember (.inl rfl) (changes_of rfl (keep s.phase i)
      (keep s.ahead i) (keep s.delivered i))
      ((hinv.member i hmember).syncProcess_failed hphase hl hfailed)

/-- The synchronisation of all services is over. -/
theorem AgreeInv.syncCompleted (hinv : AgreeInv ring s)
    (hstep : s.step ring (.syncCompleted i) = some s') : AgreeInv ring s' := by
  obtain ⟨⟨hmember, hphase⟩, hact⟩ := ite_none_right_eq_some.mp hstep
  obtain ⟨l, hl, rfl⟩ := map_eq_some_iff.mp hact
  refine hinv.changes hmember (.inl rfl) (changes_of rfl (keep s.phase i)
    (keep s.ahead i) (keep s.delivered i)) ((hinv.member i hmember).syncCompleted hphase hl)

/-- A member sends what is queued. -/
theorem AgreeInv.transmit (hinv : AgreeInv ring s)
    (hsettled : s.phase i = .processed → ¬ ring.heardAll s.order →
      (s.next i).any Content.announces = false)
    (hstep : s.step ring (.transmit i) = some s') : AgreeInv ring s' := by
  obtain ⟨hmember, hstep⟩ := ite_none_right_eq_some.mp hstep
  obtain ⟨content, hnext, hstep⟩ := bind_eq_some_iff.mp hstep
  rw [hnext] at hsettled
  unfold RingState.next at hnext
  split at hnext
  · rename_i hahead
    cases hnext
    cases hstep
    refine hinv.changes hmember (.inr ⟨.barrier, rfl⟩) (changes_of (keep s.locals i)
      (keep s.phase i) rfl (keep s.delivered i)) ((hinv.member i hmember).sendBarrier hahead)
  · rename_i hahead
    obtain ⟨⟨message, totem⟩, htransmit, rfl⟩ := map_eq_some_iff.mp hnext
    obtain ⟨next, hact, rfl⟩ := map_eq_some_iff.mp hstep
    obtain ⟨l, hl, rfl⟩ := map_eq_some_iff.mp hact
    have hlocal : (s.locals i).node.totem.transmit = some (message, totem) := htransmit
    simp only [Local.step, hlocal, map_some] at hl
    cases hl
    refine hinv.changes hmember (.inr ⟨.message message, rfl⟩) (changes_of
      rfl (keep s.phase i) rfl (keep s.delivered i))
      ((hinv.member i hmember).send hmember hahead htransmit hsettled)

/-- A member delivers what is next. -/
theorem AgreeInv.deliver (hinv : AgreeInv ring s)
    (hstep : s.step ring (.deliver i) = some s') : AgreeInv ring s' := by
  obtain ⟨hmember, hstep⟩ := ite_none_right_eq_some.mp hstep
  unfold RingState.deliver at hstep
  split at hstep
  · cases hstep
  rename_i sender content hitem
  have h := hinv.member i hmember
  cases content with
  | message message =>
    have hact : ∃ l, (if sender = i then (s.locals i).step .deliver
        else (s.locals i).step (.foreign sender message)) = some l ∧
        s' = { s with
          locals := update s.locals i l
          delivered := update s.delivered i (s.delivered i + 1) } := by
      dsimp only at hstep
      split at hstep
      · rename_i hown
        obtain ⟨l, hl, rfl⟩ := map_eq_some_iff.mp hstep
        exact ⟨l, by rw [if_pos hown]; exact hl, rfl⟩
      · rename_i hother
        obtain ⟨l, hl, rfl⟩ := map_eq_some_iff.mp hstep
        exact ⟨l, by rw [if_neg hother]; exact hl, rfl⟩
    obtain ⟨l, hl, rfl⟩ := hact
    obtain ⟨hnode, hinFlight⟩ := h.deliver_step hitem hl
    refine hinv.changes hmember (.inl rfl) (changes_of rfl (keep s.phase i)
      (keep s.ahead i) rfl) (h.deliver hitem hnode hinFlight)
  | barrier =>
    dsimp only at hstep
    split at hstep
    · rename_i hlast
      obtain ⟨l, hl, rfl⟩ := map_eq_some_iff.mp hstep
      refine hinv.changes hmember (.inl rfl) (changes_of rfl rfl (keep s.ahead i)
        rfl) (MemberInv.activate hinv hmember hitem hlast.1 hlast.2 hl)
    · rename_i hnot
      cases hstep
      refine hinv.changes hmember (.inl rfl) (changes_of (keep s.locals i)
        (keep s.phase i) (keep s.ahead i) rfl) (h.pass hmember hitem hnot)

/-- Every settled step keeps the agreement. -/
theorem AgreeInv.step (hinv : AgreeInv ring s) {event : RingEvent}
    (hsettled : s.Settled ring event) (hstep : s.step ring event = some s') : AgreeInv ring s' := by
  cases event with
  | client _ _ => exact hinv.client hstep
  | syncInit _ _ => exact hinv.syncInit hstep
  | syncProcess _ => exact hinv.syncProcess hsettled hstep
  | syncCompleted _ => exact hinv.syncCompleted hstep
  | transmit _ => exact hinv.transmit hsettled hstep
  | deliver _ => exact hinv.deliver hstep

/-- The members of a new ring. -/
theorem AgreeInv.begin (hfresh : ring.Fresh) : AgreeInv ring ring.begin where
  senders := nofun
  member := by
    intro i hmember
    obtain ⟨hstored, hqueued⟩ := hfresh i hmember
    refine ⟨ring.nodeid_eq i, Nat.le_refl _, ring.inFlight i, fun message hmessage => ?_,
      fun hphase => absurd rfl hphase, ?_, fun a ha => ?_, fun _ a _ => ?_,
      nofun, ⟨nofun,
        fun hall => ?_⟩, fun _ => ⟨?_, fun message hmessage => ?_, ?_, rfl⟩, ?_⟩
    · exact hqueued message (mem_append_right _ hmessage)
    · rintro (hphase | hphase)
      · cases hphase
      · cases hphase
    · change (ring.start i).node.lists a = (decide (a.nodeid ∈ ring.members) && _)
      rw [ha, decide_eq_true hmember, Bool.true_and]
    · change (ring.start i).node.stores a = false
      simp only [CpgNode.stores, CpgNode.stored, hstored, any_nil]
    · exact absurd (hall i hmember) not_mem_nil
    · exact fun item hitem => absurd hitem not_mem_nil
    · exact hqueued message (mem_append_left _ hmessage)
    · exact not_mem_nil
    · rintro (hphase | hphase)
      · cases hphase
      · cases hphase

/-- Members that have activated the ring agree. -/
theorem AgreeInv.agreed (hinv : AgreeInv ring s) : s.Agreed ring where
  equal := by
    intro p hp q hq hactivated hsame
    have hmp := hinv.member p hp
    have hmq := hinv.member q hq
    have hphase : s.phase q = .activated := by
      refine hmq.activated.mpr ?_
      change ring.heardAll (s.order.take (s.delivered q))
      rw [hsame]
      exact hmp.activated.mp hactivated
    refine ⟨hphase, fun a => (hmq.lists hphase a).trans ?_⟩
    change ring.view (s.order.take (s.delivered q)) a = _
    rw [hsame]
    exact (hmp.lists hactivated a).symm
  left := by
    intro p hp hactivated k sender pid group reason hk hitem hnojoin
    refine ((hinv.member p hp).lists hactivated _).trans ?_
    change ring.view (s.order.take (s.delivered p)) ⟨sender, pid, group.bytes⟩ = false
    have hsplit : s.order.take (s.delivered p) =
        s.order.take (k + 1) ++ (s.order.drop (k + 1)).take (s.delivered p - (k + 1)) := by
      rw [← take_add]
      congr 1
      omega
    rw [hsplit, Ring.view, track_append]
    change track _ (ring.view (s.order.take (k + 1)) _) _ = false
    have hleft : ring.view (s.order.take (k + 1)) ⟨sender, pid, group.bytes⟩ = false := by
      rw [Ring.view_succ hitem]
      simp [Process.after, Process.is]
    rw [hleft]
    refine track_false fun item hmem group' => ?_
    by_cases hbytes : group'.bytes = group.bytes
    · left
      rintro rfl
      obtain ⟨j, hkj, hj, hget⟩ := exists_of_mem_take_drop hmem
      exact hnojoin j group' (by omega) (by omega) hbytes hget
    · exact .inr hbytes

/-- In every settled run the members of a ring agree on the processes. -/
theorem views_agree (hfresh : ring.Fresh) {events : List RingEvent}
    (hrun : run (restrict (RingState.Settled ring) (RingState.step ring)) ring.begin events =
      some s) : s.Agreed ring := by
  have hinv : AgreeInv ring s := by
    refine run_invariant (fun s event s' hinv hstep => ?_) (AgreeInv.begin hfresh) hrun
    obtain ⟨hsettled, hstep⟩ := restrict_eq_some.mp hstep
    exact hinv.step hsettled hstep
  exact hinv.agreed

/-- The name of a group. -/
def groupH : CpgName := ⟨[104], List.replicate 127 0⟩

/-- A node on which a process has joined the group, alone in its ring. -/
def joinedAlone (i : ℕ) : Local :=
  ((run Local.step (Local.start i) [.syncCompleted, .init 1, .join 1 10 groupH, .transmit,
    .deliver]).getD (Local.start i))

/-- Two such nodes form a ring. -/
def mergedRing : Ring where
  members := [1, 2]
  start := joinedAlone
  nodeid_eq := fun _ => rfl
  inFlight := fun _ => rfl

/-- Both synchronise, and then the first process leaves. -/
def mergeThenLeave : List RingEvent :=
  [.syncInit 1 [1], .syncInit 2 [2], .syncProcess 1, .syncProcess 2, .transmit 1, .transmit 2,
    .transmit 1, .transmit 2, .transmit 1, .transmit 2, .deliver 1, .deliver 1, .deliver 1,
    .deliver 1, .deliver 1, .deliver 1, .deliver 2, .deliver 2, .deliver 2, .deliver 2, .deliver 2,
    .deliver 2, .syncCompleted 1, .client 1 (.exit 1), .transmit 1, .deliver 1, .deliver 2]

/-- They agree. -/
theorem views_agree_mergedRing :
    ∃ s, run (restrict (RingState.Settled mergedRing) (RingState.step mergedRing))
        mergedRing.begin mergeThenLeave = some s ∧ s.Agreed mergedRing ∧
      s.phase 1 = .activated ∧ s.phase 2 = .activated ∧ s.delivered 1 = 7 ∧ s.delivered 2 = 7 ∧
      (s.node 1).processInfoList = [⟨2, 10, groupH⟩] :=
  ⟨_, rfl, @views_agree mergedRing _ (by decide) mergeThenLeave rfl, rfl, rfl, rfl, rfl, rfl⟩

/-- The first process leaves after the snapshot of its node: the other node has it again after
the activation. -/
theorem leave_after_snapshot :
    ∃ s, run (RingState.step mergedRing) mergedRing.begin
        [.syncInit 1 [1], .syncInit 2 [2], .syncProcess 1, .client 1 (.exit 1), .syncProcess 2,
          .transmit 1, .transmit 1, .transmit 1, .transmit 1, .transmit 2, .transmit 2,
          .transmit 2, .deliver 1, .deliver 1, .deliver 1, .deliver 1, .deliver 1, .deliver 1,
          .deliver 1, .deliver 2, .deliver 2, .deliver 2, .deliver 2, .deliver 2, .deliver 2,
          .deliver 2] = some s ∧
      s.phase 1 = .activated ∧ s.phase 2 = .activated ∧ s.delivered 1 = s.delivered 2 ∧
      s.order[3]? = some (1, .message (.procleave groupH 10 .procdown)) ∧
      (s.node 1).processInfoList = [⟨2, 10, groupH⟩] ∧
      (s.node 2).processInfoList = [⟨1, 10, groupH⟩, ⟨2, 10, groupH⟩] ∧ ¬ s.Agreed mergedRing := by
  refine ⟨_, rfl, rfl, rfl, rfl, rfl, rfl, rfl, fun h => ?_⟩
  have hsame := (h.equal 1 (by decide) 2 (by decide) rfl rfl).2 ⟨1, 10, groupH.bytes⟩
  exact absurd hsame (by decide)

end Steps

end Corosync.Cpg
