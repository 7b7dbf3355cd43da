import Corosync.Cpg.RingInvariant

/-!
# Snapshots and what is transmitted

What a member does apart from delivering messages: its connections add to the queues, the snapshot
is queued with the barrier behind it, and messages get their place in the order.
-/

namespace Corosync.Cpg

open List CpgNode SyncPhase

variable {ring : Ring} {i : ℕ} {m : Member} {order : List (ℕ × Content)} {l : Local}

section Acting

variable {d : ℕ} {m' : Member}

/-- The queue of a member grows by messages that are no joinlists. -/
theorem Unprocessed.adds (h : Unprocessed i m order) {added : List CpgMessage}
    (hqueue : m'.queue = m.queue ++ added)
    (hadded : ∀ message ∈ added, message.isJoinlist = false) (hahead : m'.ahead = m.ahead) :
    Unprocessed i m' order where
  joinlist := h.joinlist
  queue := by
    intro message hmessage
    rw [hqueue] at hmessage
    rcases mem_append.mp hmessage with hmessage | hmessage
    · exact h.queue message hmessage
    · exact hadded message hmessage
  barrier := h.barrier
  ahead := hahead.trans h.ahead

/-- Other messages than lists are queued. -/
theorem Snapshot.adds (h : Snapshot ring i m order d) {added : List CpgMessage}
    (hqueue : m'.queue = m.queue ++ added)
    (hadded : ∀ message ∈ added, message.isJoinlist = false) (hahead : m'.ahead = m.ahead)
    (hdelivered : m.delivered ≤ m'.delivered) : Snapshot ring i m' order d where
  le := Nat.le_trans h.le hdelivered
  entries := by
    intro a ha
    rw [hqueue, any_append, Process.any_queue_eq_false i hadded, Bool.or_false]
    exact h.entries a ha
  settled := h.settled
  queued := by
    intro message hmessage
    have hle : m.ahead.getD 0 ≤ m.queue.length := by
      cases hahead : m.ahead with
      | none => exact Nat.zero_le _
      | some n => exact (h.ahead n hahead).1
    rw [hqueue, hahead, drop_append_of_le_length hle] at hmessage
    rcases mem_append.mp hmessage with hmessage | hmessage
    · exact h.queued message hmessage
    · exact hadded message hmessage
  ahead := by
    intro n hn
    rw [hahead] at hn
    rw [hqueue, length_append]
    exact ⟨Nat.le_add_right_of_le (h.ahead n hn).1, (h.ahead n hn).2⟩
  barrier := h.barrier

/-- The queues stay as they are. -/
theorem Unprocessed.same (h : Unprocessed i m order) (hqueue : m'.queue = m.queue)
    (hahead : m'.ahead = m.ahead) : Unprocessed i m' order :=
  h.adds (hqueue.trans (append_nil _).symm) nofun hahead

/-- The same with a snapshot. -/
theorem Snapshot.same (h : Snapshot ring i m order d) (hqueue : m'.queue = m.queue)
    (hahead : m'.ahead = m.ahead) (hdelivered : m.delivered ≤ m'.delivered) :
    Snapshot ring i m' order d :=
  h.adds (hqueue.trans (append_nil _).symm) nofun hahead
    hdelivered

/-- A request of a client. -/
theorem MemberInv.client (h : MemberInv ring i m order)
    (hframe : m.node.ClientFrame l) : MemberInv ring i { m with node := l } order := by
  obtain ⟨trans, htrans, htransAdded⟩ := hframe.totem.trans
  obtain ⟨main, hmain, hmainAdded⟩ := hframe.totem.main
  have hlists : ∀ a : Process, l.node.lists a = m.node.node.lists a := by
    intro a
    simp only [CpgNode.lists, CpgNode.has, hframe.processes]
  have hstores : ∀ a : Process, l.node.stores a = m.node.node.stores a := by
    intro a
    simp only [CpgNode.stores, CpgNode.stored, hframe.joinlists, hframe.nodeid]
  refine ⟨hframe.nodeid.trans h.nodeid, h.delivered, hframe.inFlight.trans h.inFlight, ?_, ?_, ?_,
    fun a ha => (hlists a).trans (h.own a ha),
    fun hphase a ha => (hstores a).trans (h.stores hphase a ha),
    fun hphase a => (hlists a).trans (h.lists hphase a), h.activated,
    fun hphase => (h.unprocessed hphase).adds htrans htransAdded rfl, fun hphase => ?_⟩
  · intro message hmessage
    rw [hmain] at hmessage
    rcases mem_append.mp hmessage with hmessage | hmessage
    · exact h.main message hmessage
    · exact hmainAdded message hmessage
  · rw [hframe.downlist]
    exact h.downlist
  · rw [hframe.totem.waiting]
    exact h.waiting
  · obtain ⟨d, hd⟩ := h.snapshot hphase
    exact ⟨d, hd.adds htrans htransAdded rfl (Nat.le_refl _)⟩

/-- The member begins to synchronise. -/
theorem MemberInv.syncInit (h : MemberInv ring i m order) (hphase : m.phase = .waiting)
    {transList memberList : List ℕ}
    (hstep : m.node.step (.syncInit transList memberList) = some l) :
    MemberInv ring i { m with node := l, phase := .started } order := by
  obtain ⟨hown, hstep⟩ := Option.ite_none_right_eq_some.mp hstep
  cases hstep
  have hnot : m.phase ≠ .activated := by
    rw [hphase]
    exact noConfusion
  refine ⟨h.nodeid, h.delivered, h.inFlight, h.main, fun _ hmem => ?_, fun _ => rfl, h.own,
    fun _ => h.stores hnot, fun hphase => noConfusion hphase,
    ⟨fun hphase => noConfusion hphase,
      fun hall => absurd (h.activated.mpr hall) hnot⟩, fun _ => ?_, fun hphase => ?_⟩
  · simp only [cpgSyncInit, mem_filter, decide_eq_true_eq] at hmem
    exact hmem.2 (h.nodeid ▸ hown)
  · exact (h.unprocessed (.inl hphase)).same rfl rfl
  · rcases hphase with hphase | hphase
    · cases hphase
    · cases hphase

/-- The synchronisation of all services is over. -/
theorem MemberInv.syncCompleted (h : MemberInv ring i m order) (hphase : m.phase = .activated)
    (hstep : m.node.step .syncCompleted = some l) :
    MemberInv ring i { m with node := l } order := by
  cases hstep
  refine ⟨h.nodeid, h.delivered, h.inFlight, h.main, h.downlist, ?_, h.own, h.stores, h.lists,
    h.activated, ?_, fun hphase => ?_⟩
  · rintro (hother | hother)
    · exact noConfusion (hphase.symm.trans hother)
    · exact noConfusion (hphase.symm.trans hother)
  · rintro (hother | hother)
    · exact noConfusion (hphase.symm.trans hother)
    · exact noConfusion (hphase.symm.trans hother)
  · obtain ⟨d, hd⟩ := h.snapshot hphase
    exact ⟨d, hd.same rfl rfl (Nat.le_refl _)⟩

end Acting

section Process

variable {node : CpgNode} {a : Process}

/-- The joinlist of a node has its own processes. -/
theorem any_ownProcesses (ha : a.nodeid = node.nodeid) :
    (node.ownProcesses.any fun entry => entry.1 == a.pid && entry.2.bytes == a.bytes) =
      node.lists a := by
  rw [Bool.eq_iff_iff, lists, has_iff, any_eq_true]
  simp only [ownProcesses, mem_map, mem_filter, Bool.and_eq_true, beq_iff_eq]
  constructor
  · rintro ⟨entry, ⟨pi, ⟨hpi, hnodeid⟩, rfl⟩, hpid, hbytes⟩
    exact ⟨pi, hpi, hpid, hnodeid.trans ha.symm, hbytes⟩
  · rintro ⟨pi, hpi, hpid, hnodeid, hbytes⟩
    exact ⟨_, ⟨pi, ⟨hpi, hnodeid.trans ha⟩, rfl⟩, hpid, hbytes⟩

/-- What `cpg_sync_process` adds to the queue. -/
structure Queues (node node' : CpgNode) (added : List CpgMessage) : Prop where
  eq : node' = { node with
    mySyncState := node'.mySyncState
    totem := { node.totem with
      newMessageQueueTrans := node.totem.newMessageQueueTrans ++ added } }

/-- Nothing is queued. -/
theorem Queues.nil (node : CpgNode) : Queues node node [] where
  eq := by rw [append_nil]

section

variable (hwaiting : node.totem.waitingTransAck = true)

include hwaiting

/-- A message is queued or refused. -/
theorem Queues.totemMcast (message : CpgMessage) :
    ((node.totemMcast message).2 = true ∧ Queues node (node.totemMcast message).1 [message]) ∨
      ((node.totemMcast message).2 = false ∧ Queues node (node.totemMcast message).1 []) := by
  unfold CpgNode.totemMcast Totem.mcast
  split
  · exact .inl ⟨rfl, ⟨rfl⟩⟩
  · exact .inr ⟨rfl, Queues.nil node⟩

/-- A downlist is queued at most. -/
theorem queues_sendDownlist :
    ∃ added, Queues node node.cpgExecSendDownlist.1 added ∧
      ∀ message ∈ added, message.isJoinlist = false := by
  unfold cpgExecSendDownlist
  split
  · rcases Queues.totemMcast hwaiting .downlist with ⟨-, hqueues⟩ | ⟨-, hqueues⟩
    · exact ⟨_, hqueues, by simp [CpgMessage.isJoinlist]⟩
    · exact ⟨_, hqueues, by simp⟩
  · exact ⟨[], Queues.nil node, by simp⟩

/-- The joinlist is sent when there are processes. -/
theorem queues_sendJoinlist :
    ∃ added, Queues node node.cpgExecSendJoinlist.1 added ∧
      (node.cpgExecSendJoinlist.2 = false → added = []) ∧
      (node.cpgExecSendJoinlist.2 = true → ∀ a : Process, a.nodeid = node.nodeid →
        (added.any fun message => a.inJoinlist (node.nodeid, .message message)) =
          node.lists a) := by
  unfold cpgExecSendJoinlist
  split
  · rename_i hnone
    refine ⟨[], Queues.nil node, fun _ => rfl, fun _ a ha => ?_⟩
    rw [← any_ownProcesses ha, hnone]
    rfl
  · rcases Queues.totemMcast hwaiting (.joinlist node.ownProcesses) with
      ⟨hdone, hqueues⟩ | ⟨hdone, hqueues⟩
    · refine ⟨_, hqueues, fun hfailed => absurd (hdone.symm.trans hfailed) (by simp),
        fun _ a ha => ?_⟩
      rw [← any_ownProcesses ha]
      simp [Process.inJoinlist, ha]
    · exact ⟨_, hqueues, fun _ => rfl, fun hok => absurd (hok.symm.trans hdone) (by simp)⟩

/-- `cpg_sync_process`: the joinlist is queued when it is done. -/
theorem queues_syncProcess :
    ∃ added, Queues node node.cpgSyncProcess.1 added ∧
      (node.cpgSyncProcess.2 = false → ∀ message ∈ added, message.isJoinlist = false) ∧
      (node.cpgSyncProcess.2 = true → ∀ a : Process, a.nodeid = node.nodeid →
        (added.any fun message => a.inJoinlist (node.nodeid, .message message)) =
          node.lists a) := by
  obtain ⟨first, hfirst, hnone⟩ := queues_sendDownlist hwaiting
  unfold cpgSyncProcess
  split
  · have hwaiting' : ({ node.cpgExecSendDownlist.1 with mySyncState := .joinlist } :
        CpgNode).totem.waitingTransAck = true := by
      rw [hfirst.eq]
      exact hwaiting
    obtain ⟨second, hsecond, hfailed, hdone⟩ := queues_sendJoinlist hwaiting'
    refine ⟨first ++ second, ⟨?_⟩, fun hresult => ?_, fun hresult a ha => ?_⟩
    · rw [hsecond.eq, hfirst.eq, ← append_assoc]
    · rw [hfailed hresult, append_nil]
      exact hnone
    · have hsame : ({ node.cpgExecSendDownlist.1 with mySyncState := .joinlist } :
          CpgNode).nodeid = node.nodeid := by
        rw [hfirst.eq]
      have hlists : ({ node.cpgExecSendDownlist.1 with mySyncState := .joinlist } :
          CpgNode).lists a = node.lists a := by
        rw [hfirst.eq]
        rfl
      have hsecondAny := hdone hresult a (ha.trans hsame.symm)
      rw [hsame, hlists] at hsecondAny
      rw [any_append, Process.any_queue_eq_false node.nodeid hnone, Bool.false_or]
      exact hsecondAny
  · exact ⟨first, hfirst, fun _ => hnone, fun hdone => absurd hdone (by simp)⟩

end

end Process

section Snapshots

/-- The lists could not be queued. -/
theorem MemberInv.syncProcess_failed (h : MemberInv ring i m order) (hphase : m.phase = .started)
    (hstep : m.node.step .syncProcess = some l) (hfailed : m.node.node.cpgSyncProcess.2 = false) :
    MemberInv ring i { m with node := l } order := by
  cases hstep
  obtain ⟨added, hqueues, hnone, -⟩ := queues_syncProcess (h.waiting (.inl hphase))
  have htotem : m.node.node.cpgSyncProcess.1.totem = { m.node.node.totem with
      newMessageQueueTrans := m.node.node.totem.newMessageQueueTrans ++ added } := by
    rw [hqueues.eq]
  refine h.client ⟨?_, ?_, ?_, ?_, rfl, ?_, ?_⟩
  · rw [hqueues.eq]
  · rw [hqueues.eq]
  · rw [hqueues.eq]
  · rw [hqueues.eq]
  · rw [hqueues.eq]
  · rw [htotem]
    exact ⟨rfl, ⟨added, rfl, hnone hfailed⟩, [], by simp⟩

/-- The lists are queued: the table is the snapshot. -/
theorem MemberInv.syncProcess (h : MemberInv ring i m order) (hphase : m.phase = .started)
    (hstep : m.node.step .syncProcess = some l) (hdone : m.node.node.cpgSyncProcess.2 = true)
    (hsettled : ∀ item ∈ order.drop m.delivered, item.1 = i → item.2.announces = false) :
    MemberInv ring i { m with
      node := l
      phase := .processed
      ahead := some l.node.totem.newMessageQueueTrans.length } order := by
  cases hstep
  obtain ⟨added, hqueues, -, hentries⟩ := queues_syncProcess (h.waiting (.inl hphase))
  have htotem : m.node.node.cpgSyncProcess.1.totem = { m.node.node.totem with
      newMessageQueueTrans := m.node.node.totem.newMessageQueueTrans ++ added } := by
    rw [hqueues.eq]
  have hlists : ∀ a : Process, m.node.node.cpgSyncProcess.1.lists a = m.node.node.lists a := by
    intro a
    rw [hqueues.eq]
    rfl
  have hstores : ∀ a : Process, m.node.node.cpgSyncProcess.1.stores a = m.node.node.stores a := by
    intro a
    rw [hqueues.eq]
    rfl
  have hnot : m.phase ≠ .activated := by
    rw [hphase]
    exact noConfusion
  have hbefore := h.unprocessed (.inr hphase)
  refine ⟨?_, h.delivered, h.inFlight, ?_, fun _ => ?_, fun _ => ?_,
    fun a ha => (hlists a).trans (h.own a ha), fun _ a ha => (hstores a).trans (h.stores hnot a ha),
    nofun,
    ⟨nofun,
      fun hall => absurd (h.activated.mpr hall) hnot⟩, ?_, fun _ => ⟨m.delivered, ?_⟩⟩
  · rw [hqueues.eq]
    exact h.nodeid
  · rw [htotem]
    exact h.main
  · rw [hqueues.eq]
    exact h.downlist (by rw [hphase]; exact noConfusion)
  · rw [htotem]
    exact h.waiting (.inl hphase)
  · rintro (hother | hother)
    · cases hother
    · cases hother
  · refine ⟨Nat.le_refl _, fun a ha => ?_, fun k content hk hget hannounces => ?_, ?_, ?_, ?_⟩
    · have hnoneOrder : order.any a.inJoinlist = false := Process.any_inJoinlist_eq_false
        fun item hitem hsender => hbefore.joinlist item hitem (hsender.trans ha)
      have hnoneQueue := @Process.any_queue_eq_false a m.queue i hbefore.queue
      have hadded := hentries hdone a (ha.trans h.nodeid.symm)
      rw [h.nodeid] at hadded
      simp only [Member.queue] at hnoneQueue ⊢
      rw [htotem]
      dsimp only
      rw [hnoneOrder, Bool.false_or, any_append, hnoneQueue, Bool.false_or, hadded]
      exact h.own a ha
    · have hmem : (i, content) ∈ order.drop m.delivered := by
        obtain ⟨hlt, hget⟩ := List.getElem?_eq_some_iff.mp hget
        refine List.mem_drop_iff_getElem.mpr ⟨k - m.delivered, ?_, ?_⟩
        · omega
        · simpa only [Nat.add_sub_cancel' hk] using hget
      exact absurd (hsettled _ hmem rfl) (by simp [hannounces])
    · intro message hmessage
      simp [Member.queue] at hmessage
    · intro n hn
      cases hn
      exact ⟨Nat.le_refl _, hbefore.barrier⟩
    · intro k hget
      exact absurd (mem_of_getElem? hget) hbefore.barrier

end Snapshots

section Transmit

variable {d : ℕ}

/-- Where a transmitted message comes from. -/
theorem Totem.transmit_cases {totem totem' : Totem} {message : CpgMessage}
    (h : totem.transmit = some (message, totem')) :
    totem'.waitingTransAck = totem.waitingTransAck ∧
      ((totem.waitingTransAck = true ∧
          totem.newMessageQueueTrans = message :: totem'.newMessageQueueTrans ∧
          totem'.newMessageQueue = totem.newMessageQueue) ∨ (totem.waitingTransAck = false ∧
          totem.newMessageQueue = message :: totem'.newMessageQueue ∧
          totem'.newMessageQueueTrans = totem.newMessageQueueTrans)) := by
  unfold Totem.transmit at h
  split at h
  · rename_i hwaiting
    split at h
    · cases h
    · rename_i hqueue
      cases h
      exact ⟨rfl, .inl ⟨hwaiting, hqueue, rfl⟩⟩
  · rename_i hwaiting
    split at h
    · cases h
    · rename_i hqueue
      cases h
      exact ⟨rfl, .inr ⟨by simpa using hwaiting, hqueue, rfl⟩⟩

/-- The barrier is sent. -/
theorem Snapshot.sendBarrier (h : Snapshot ring i m order d) (hahead : m.ahead = some 0)
    (hle : m.delivered ≤ order.length) :
    Snapshot ring i { m with ahead := none } (order ++ [(i, .barrier)]) d where
  le := h.le
  entries := by
    intro a ha
    have hfalse : a.inJoinlist (i, .barrier) = false := rfl
    rw [any_append, any_cons, any_nil, hfalse, Bool.or_false, Bool.or_false,
      take_append_of_le_length (Nat.le_trans h.le hle)]
    exact h.entries a ha
  settled := by
    intro k content hk hget hannounces
    rcases getElem?_append_singleton_cases hget with ⟨hlt, hget⟩ | ⟨-, heq⟩
    · rw [take_append_of_le_length (Nat.le_of_lt hlt)]
      exact h.settled k content hk hget hannounces
    · rw [← (Prod.mk.inj heq).2] at hannounces
      exact absurd hannounces Bool.false_ne_true
  queued := by
    have hqueued := h.queued
    rw [hahead] at hqueued
    exact hqueued
  ahead := fun _ hn => absurd hn (by simp)
  barrier := by
    intro k hget
    rcases getElem?_append_singleton_cases hget with ⟨-, hget⟩ | ⟨rfl, -⟩
    · exact absurd (mem_of_getElem? hget) (h.ahead 0 hahead).2
    · refine ⟨Nat.le_trans h.le hle, fun item hitem _ => ?_⟩
      rw [drop_left] at hitem
      rw [mem_singleton.mp hitem]
      rfl

/-- The same for the member. -/
theorem MemberInv.sendBarrier (h : MemberInv ring i m order) (hahead : m.ahead = some 0) :
    MemberInv ring i { m with ahead := none } (order ++ [(i, .barrier)]) := by
  refine h.extend rfl rfl rfl (append_nil _).symm (List.Subset.refl _) rfl
    (fun hphase => ?_) fun hphase => ?_
  · exact absurd (hahead.symm.trans (h.unprocessed hphase).ahead) (by simp)
  · obtain ⟨d, hd⟩ := h.snapshot hphase
    exact ⟨d, hd.sendBarrier hahead h.delivered⟩

/-- A member after it has transmitted a message. -/
def Member.sent (m : Member) (message : CpgMessage) (totem : Totem) : Member :=
  { m with
    node := { m.node with
      node := { m.node.node with totem := totem }
      inFlight := m.node.inFlight ++ [message] }
    ahead := m.ahead.map fun n => n - 1 }

variable {message : CpgMessage} {totem : Totem}

/-- When the barrier of a member is in the order it has no joinlist to send. -/
theorem MemberInv.no_joinlist (h : MemberInv ring i m order)
    (htransmit : m.node.node.totem.transmit = some (message, totem))
    (hqueue : ∀ message ∈ m.queue, message.isJoinlist = false) : message.isJoinlist = false := by
  rcases (Totem.transmit_cases htransmit).2 with ⟨-, htrans, -⟩ | ⟨-, hmain, -⟩
  · refine hqueue message ?_
    rw [Member.queue, htrans]
    exact mem_cons_self
  · refine h.main message ?_
    rw [hmain]
    exact mem_cons_self

/-- A message is sent before the snapshot. -/
theorem Unprocessed.send (h : Unprocessed i m order) (hinv : MemberInv ring i m order)
    (htransmit : m.node.node.totem.transmit = some (message, totem)) :
    Unprocessed i (m.sent message totem) (order ++ [(i, .message message)]) where
  joinlist := by
    intro item hitem hsender
    rcases mem_append.mp hitem with hitem | hitem
    · exact h.joinlist item hitem hsender
    · rw [mem_singleton.mp hitem]
      exact hinv.no_joinlist htransmit h.queue
  queue := by
    intro other hother
    rcases (Totem.transmit_cases htransmit).2 with ⟨-, htrans, -⟩ | ⟨-, -, htrans⟩
    · refine h.queue other ?_
      rw [Member.queue, htrans]
      exact mem_cons_of_mem _ hother
    · refine h.queue other ?_
      rw [Member.queue, ← htrans]
      exact hother
  barrier := by
    intro hmem
    rcases mem_append.mp hmem with hmem | hmem
    · exact h.barrier hmem
    · exact absurd (mem_singleton.mp hmem) (by simp)
  ahead := by
    change m.ahead.map _ = none
    rw [h.ahead]
    rfl

/-- A message is sent after the snapshot. -/
theorem Snapshot.send (h : Snapshot ring i m order d) (hinv : MemberInv ring i m order)
    (hmember : i ∈ ring.members) (hphase : m.phase = .processed ∨ m.phase = .activated)
    (hahead : m.ahead ≠ some 0) (htransmit : m.node.node.totem.transmit = some (message, totem))
    (hsettled : m.phase = .processed → ¬ ring.heardAll order → message.announces = false) :
    Snapshot ring i (m.sent message totem) (order ++ [(i, .message message)]) d := by
  have hle := hinv.delivered
  -- with another queue the member is activated, and its barrier has its place
  have hbarrier : (i, Content.barrier) ∈ order → m.ahead = none := by
    intro hmem
    cases hahead' : m.ahead with
    | none => rfl
    | some n => exact absurd hmem (h.ahead n hahead').2
  have hnone : m.ahead = none → ∀ message ∈ m.queue, message.isJoinlist = false := by
    intro hahead'
    have hqueued := h.queued
    rwa [hahead'] at hqueued
  have hall : m.phase = .activated → ring.heardAll order := fun hactivated =>
    (hinv.activated.mp hactivated).mono (take_subset _ _)
  have hsource : (m.queue = message :: totem.newMessageQueueTrans) ∨
      (message.isJoinlist = false ∧ totem.newMessageQueueTrans = m.queue ∧ m.ahead = none) := by
    rcases (Totem.transmit_cases htransmit).2 with ⟨-, htrans, -⟩ | ⟨hwaiting, hmain, htrans⟩
    · exact .inl htrans
    · refine .inr ⟨hinv.main message (by rw [hmain]; exact mem_cons_self), htrans, ?_⟩
      rcases hphase with hphase | hphase
      · exact absurd (hinv.waiting (.inr hphase)) (by simp [hwaiting])
      · exact hbarrier (hall hphase i hmember)
  refine ⟨h.le, fun a ha => ?_, fun k content hk hget hannounces => ?_, ?_, fun n hn => ?_,
    fun k hget => ?_⟩
  · rw [any_append, any_cons, any_nil, Bool.or_false,
      take_append_of_le_length (Nat.le_trans h.le hle), ← h.entries a ha, Bool.or_assoc]
    congr 1
    rcases hsource with hqueue | ⟨hmessage, hqueue, -⟩
    · rw [hqueue, any_cons]
      rfl
    · have hfalse : a.inJoinlist (i, .message message) = false :=
        Process.inJoinlist_eq_false fun _ => hmessage
      rw [hfalse, Bool.false_or, ← hqueue]
      rfl
  · rcases getElem?_append_singleton_cases hget with ⟨hlt, hget⟩ | ⟨rfl, heq⟩
    · rw [take_append_of_le_length (Nat.le_of_lt hlt)]
      exact h.settled k content hk hget hannounces
    rw [take_left]
    rcases hphase with hphase | hphase
    · by_contra hnot
      rw [← (Prod.mk.inj heq).2] at hannounces
      exact absurd ((hsettled hphase hnot).symm.trans hannounces) (by simp)
    · exact hall hphase
  · intro other hother
    change other ∈ totem.newMessageQueueTrans.drop ((m.ahead.map fun n => n - 1).getD 0) at hother
    rcases hsource with hqueue | ⟨-, hqueue, hahead'⟩
    · refine h.queued other ?_
      rw [hqueue]
      cases hahead' : m.ahead with
      | none =>
        rw [hahead'] at hother
        exact mem_cons_of_mem _ hother
      | some n =>
        rw [hahead'] at hother
        obtain ⟨n, rfl⟩ : ∃ n', n = n' + 1 := by
          refine Nat.exists_eq_succ_of_ne_zero ?_
          rintro rfl
          exact hahead hahead'
        exact hother
    · rw [hahead'] at hother
      refine hnone hahead' other ?_
      rw [← hqueue]
      exact hother
  · change m.ahead.map _ = some n at hn
    obtain ⟨n', hahead', rfl⟩ := Option.map_eq_some_iff.mp hn
    obtain ⟨hlength, hnot⟩ := h.ahead n' hahead'
    refine ⟨?_, fun hmem => ?_⟩
    · change _ ≤ totem.newMessageQueueTrans.length
      rcases hsource with hqueue | ⟨-, -, hnone'⟩
      · rw [hqueue, length_cons] at hlength
        omega
      · exact absurd (hahead'.symm.trans hnone') (by simp)
    · rcases mem_append.mp hmem with hmem | hmem
      · exact hnot hmem
      · exact absurd (mem_singleton.mp hmem) (by simp)
  · rcases getElem?_append_singleton_cases hget with ⟨hlt, hget⟩ | ⟨-, heq⟩
    · refine ⟨(h.barrier k hget).1, fun item hitem hsender => ?_⟩
      rw [drop_append_of_le_length (Nat.le_of_lt hlt)] at hitem
      rcases mem_append.mp hitem with hitem | hitem
      · exact (h.barrier k hget).2 item hitem hsender
      · rw [mem_singleton.mp hitem]
        exact hinv.no_joinlist htransmit (hnone (hbarrier (mem_of_getElem? hget)))
    · cases heq

/-- The same for every member. -/
theorem MemberInv.send (h : MemberInv ring i m order) (hmember : i ∈ ring.members)
    (hahead : m.ahead ≠ some 0) (htransmit : m.node.node.totem.transmit = some (message, totem))
    (hsettled : m.phase = .processed → ¬ ring.heardAll order → message.announces = false) :
    MemberInv ring i (m.sent message totem) (order ++ [(i, .message message)]) := by
  obtain ⟨hwaiting, hcases⟩ := Totem.transmit_cases htransmit
  refine h.extend rfl rfl rfl ?_ ?_ hwaiting (fun hphase => (h.unprocessed hphase).send h htransmit)
    fun hphase => ?_
  · simp [ownMessages, Member.sent]
  · change totem.newMessageQueue ⊆ _
    rcases hcases with ⟨-, -, hmain⟩ | ⟨-, hmain, -⟩
    · rw [hmain]
      exact List.Subset.refl _
    · rw [hmain]
      exact subset_cons_self _ _
  · obtain ⟨d, hd⟩ := h.snapshot hphase
    exact ⟨d, hd.send h hmember hphase hahead htransmit hsettled⟩

end Transmit

end Corosync.Cpg
