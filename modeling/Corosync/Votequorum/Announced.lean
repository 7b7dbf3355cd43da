import Corosync.Votequorum.Roster

/-!
# A node has heard of all members when it activates

The barrier of a node follows its `nodeinfo` in the queue, and so in the order of the ring. A node
that has delivered the barriers of all members has delivered their `nodeinfo` messages before.
-/

namespace Corosync.Votequorum

open Function List

/-- A `nodeinfo` message about a node. -/
def Announces (b : NodeId) (packet : Packet) : Prop :=
  ∃ info : Nodeinfo, info.nodeid = b ∧ packet = .message (.nodeinfo info)

/-- A node multicasts `nodeinfo` messages about itself and about the quorum device. -/
def Owned (b : NodeId) (message : Message) : Prop :=
  ∀ info, message = .nodeinfo info → info.nodeid = b ∨ info.nodeid = qdeviceNodeid

/-- The barrier of a ring follows the `nodeinfo` of a node in some packets. -/
def Guarded (b : NodeId) (r : ℕ) (packets : List Packet) : Prop :=
  ∀ first second, packets = first ++ .barrier r :: second → ∃ packet ∈ first, Announces b packet

/-- The packets of a node in an order. -/
def own (b : NodeId) (log : List (NodeId × Packet)) : List Packet :=
  (log.filter (·.1 = b)).map (·.2)

/-- What a node has multicast in its ring, transmitted or not. -/
def System.stream (s : System) (a : NodeId) : List Packet :=
  own a (s.log (s.ring a)) ++ s.queue a

/-- What holds of the nodes, the queues and the orders in every run. -/
structure Sound (members : ℕ → List NodeId) (s : System) : Prop where
  everywhere : Everywhere members (fun a ring n => IsRing a ring ∧ Roster a ring n) Owned s
  delivered : ∀ a, s.delivered a ≤ (s.log (s.ring a)).length
  sender : ∀ r, ∀ entry ∈ s.log r, entry.1 ∈ members r ∧ r ≤ s.ring entry.1
  barrier : ∀ a r, .barrier r ∈ s.queue a → r ≤ s.ring a
  /-- A node that has sent its `nodeinfo` has it in its stream. -/
  sent : ∀ a, 0 < s.ring a → (s.nodes a).syncNodeinfoSent = true →
    ∃ packet ∈ s.stream a, Announces a packet
  stream : ∀ a, Guarded a (s.ring a) (s.stream a)
  logged : ∀ r b, Guarded b r (own b (s.log r))
  settled : ∀ a, 0 < s.ring a → (s.nodes a).syncInProgress = false →
    s.Synchronised members a ∧ s.activated a = s.ring a

namespace Guarded

variable {b : NodeId} {r : ℕ} {packets rest : List Packet}

/-- Without packets there is no barrier. -/
theorem nil (b : NodeId) (r : ℕ) : Guarded b r [] :=
  fun _ _ heq => absurd heq (by simp)

/-- A part from the beginning is guarded as well. -/
theorem of_append (hguarded : Guarded b r (packets ++ rest)) : Guarded b r packets := by
  intro first second heq
  refine hguarded first (second ++ rest) ?_
  rw [heq, append_assoc, cons_append]

/-- One more packet, which is the barrier only if the `nodeinfo` is there. -/
theorem concat (hguarded : Guarded b r packets) {packet : Packet}
    (hpacket : packet = .barrier r → ∃ packet ∈ packets, Announces b packet) :
    Guarded b r (packets ++ [packet]) := by
  intro first second heq
  obtain rfl | ⟨init, last, rfl⟩ := eq_nil_or_concat second
  · obtain ⟨rfl, hlast⟩ := append_inj' heq rfl
    exact hpacket (singleton_inj.mp hlast)
  · rw [concat_eq_append, ← cons_append, ← append_assoc] at heq
    obtain ⟨heq, -⟩ := append_inj' heq rfl
    exact hguarded first init heq

/-- Packets other than the barrier can follow. -/
theorem append (hguarded : Guarded b r packets) (hrest : .barrier r ∉ rest) :
    Guarded b r (packets ++ rest) := by
  induction rest generalizing packets with
  | nil => rwa [append_nil]
  | cons _ _ ih =>
    rw [mem_cons, not_or] at hrest
    rw [append_cons]
    exact ih (hguarded.concat fun heq => absurd heq.symm hrest.1) hrest.2

/-- Without the barrier packets are guarded. -/
theorem of_not_mem (hbarrier : .barrier r ∉ packets) : Guarded b r packets :=
  (nil b r).append hbarrier

end Guarded

/-- The packets of a node in two parts of an order. -/
theorem own_append (b : NodeId) (log more : List (NodeId × Packet)) :
    own b (log ++ more) = own b log ++ own b more := by
  simp [own]

/-- The packets of a node are those it has sent. -/
@[simp] theorem mem_own {b : NodeId} {packet : Packet} {log : List (NodeId × Packet)} :
    packet ∈ own b log ↔ (b, packet) ∈ log := by
  simp [own]

variable {members : ℕ → List NodeId} {s s' : System} {e : Event}

/-- The `nodeinfo` message of a node is about it. -/
theorem owned_nodeinfo {n : Node} {b : NodeId} (hid : n.us.nodeId = b) :
    Owned b (.nodeinfo n.nodeinfo) := by
  intro info hinfo
  obtain rfl := Message.nodeinfo.inj hinfo
  exact .inl hid

/-- The other `nodeinfo` message is about the quorum device. -/
theorem owned_qdeviceNodeinfo (n : Node) (b : NodeId) : Owned b (.nodeinfo n.qdeviceNodeinfo) := by
  intro info hinfo
  obtain rfl := Message.nodeinfo.inj hinfo
  exact .inr rfl


/-- The delivery of a packet does not touch the synchronisation. -/
theorem delivery_sameSync (n : Node) (sender : NodeId) (packet : Packet) :
    SameSync n (System.delivery n sender packet) := by
  cases packet with
  | message message => exact SameSync.deliver n sender message
  | barrier _ => exact (SameRoll.refl n).toSameSync

namespace Sound

/-- Before the first start nothing is sent. -/
theorem cold : Sound members System.cold where
  everywhere := Everywhere.cold
  delivered _ := Nat.le_refl 0
  sender _ _ hmem := absurd hmem not_mem_nil
  barrier _ _ hmem := absurd hmem not_mem_nil
  sent _ hring := absurd hring (Nat.lt_irrefl 0)
  stream a := Guarded.nil a 0
  logged r b := Guarded.nil b r
  settled _ hring := absurd hring (Nat.lt_irrefl 0)

section

variable (hsound : Sound members s) (hstep : System.Step members s e s')

include hsound hstep

/-- No node delivers more than the order has. -/
theorem step_delivered (b : NodeId) : s'.delivered b ≤ (s'.log (s'.ring b)).length := by
  by_cases hb : b = e.node
  · subst hb
    have hold := hsound.delivered e.node
    cases hstep with
    | start | enter => simp [System.joined, Event.node]
    | transmit _ _ =>
      simp only [System.transmitted, Event.node, update_self, length_append] at hold ⊢
      omega
    | deliver _ hnext =>
      obtain ⟨hlt, -⟩ := List.getElem?_eq_some_iff.mp hnext
      simp only [System.handled, Event.node, Function.update_self]
      exact hlt
    | _ => exact hold
  · have huntouched := hstep.untouched hb
    rw [huntouched.delivered, huntouched.ring]
    exact Nat.le_trans (hsound.delivered b) (hstep.log_grows _).length_le

/-- Senders are members of the ring and have not left it for an older one. -/
theorem step_sender (r : ℕ) : ∀ entry ∈ s'.log r, entry.1 ∈ members r ∧ r ≤ s'.ring entry.1 := by
  intro entry hmem
  have hle := hstep.ring_le entry.1
  obtain hmem | ⟨rfl, hring, hsender, -⟩ := hstep.mem_log hmem
  · obtain ⟨hmember, hold⟩ := hsound.sender r entry hmem
    exact ⟨hmember, Nat.le_trans hold hle⟩
  · rw [hsender] at hle ⊢
    exact ⟨(hsound.everywhere.node _ hring).1.mem, hle⟩

/-- No node has the barrier of a later ring to send. -/
theorem step_barrier (b : NodeId) (r : ℕ) (hmem : .barrier r ∈ s'.queue b) : r ≤ s'.ring b := by
  have hle := hstep.ring_le b
  by_cases hb : b = e.node
  · subst hb
    cases hstep with
    | start _ _ => exact absurd hmem (by simp [System.joined, System.reset, Event.node])
    | enter _ _ => exact Nat.le_trans (hsound.barrier _ r hmem) hle
    | process _ _ _ _ =>
      simp only [System.acted, System.processPackets, Event.node, update_self,
        mem_append, mem_map] at hmem
      obtain hmem | ⟨_, -, hbarrier⟩ | hmem := hmem
      · exact hsound.barrier _ r hmem
      · cases hbarrier
      · split at hmem
        · rw [mem_singleton] at hmem
          obtain rfl := Packet.barrier.inj hmem
          exact Nat.le_refl _
        · cases hmem
    | transmit _ hqueue =>
      simp only [System.transmitted, Event.node, update_self] at hmem ⊢
      exact hsound.barrier _ r (hqueue ▸ mem_cons_of_mem _ hmem)
    | act _ =>
      simp only [System.acted, Event.node, update_self, mem_append,
        mem_map] at hmem
      obtain hmem | ⟨_, -, hbarrier⟩ := hmem
      · exact hsound.barrier _ r hmem
      · cases hbarrier
    | _ => exact hsound.barrier _ r hmem
  · have huntouched := hstep.untouched hb
    rw [huntouched.queue] at hmem
    exact Nat.le_trans (hsound.barrier b r hmem) hle

end

/-- The stream of a node that stays in its ring grows by what it multicasts. -/
theorem stream_acted (a : NodeId) (n : Node) (packets : List Packet) :
    (s.acted a n packets).stream a = s.stream a ++ packets := by
  simp [System.stream, System.acted]

/-- Transmitting a packet leaves the stream as it is. -/
theorem stream_transmitted {a : NodeId} {packet : Packet} {rest : List Packet}
    (hqueue : s.queue a = packet :: rest) :
    (s.transmitted a packet rest).stream a = s.stream a := by
  simp [System.stream, System.transmitted, own, hqueue]

/-- The streams of the other nodes stay as they are. -/
theorem stream_untouched (hstep : System.Step members s e s') {b : NodeId} (hb : b ≠ e.node) :
    s'.stream b = s.stream b := by
  have huntouched := hstep.untouched hb
  unfold System.stream
  rw [huntouched.ring, huntouched.queue]
  obtain heq | ⟨-, -, packet, rest, -, heq⟩ := hstep.log_cases (s.ring b)
  · rw [heq]
  · rw [heq, own_append]
    simp [own, hb.symm]

section

variable (hsound : Sound members s)

include hsound

/-- A node has sent nothing in a ring it has not entered. -/
theorem own_eq_nil {a : NodeId} {r : ℕ} (hlt : s.ring a < r) : own a (s.log r) = [] := by
  refine eq_nil_iff_forall_not_mem.mpr fun packet hmem => ?_
  exact absurd (hsound.sender r _ (mem_own.mp hmem)).2 (Nat.not_le.mpr hlt)

/-- A node that has called `votequorum_sync_process` has its `nodeinfo` in its stream. -/
theorem announced_process {a : NodeId} (hring : 0 < s.ring a) :
    ∃ packet ∈ s.stream a ++ (s.nodes a).syncProcess.2.map .message, Announces a packet := by
  obtain ⟨hsent, -⟩ | ⟨-, hprocess⟩ := (s.nodes a).syncProcess_cases
  · obtain ⟨packet, hmem, hannounces⟩ := hsound.sent a hring hsent
    exact ⟨packet, mem_append_left _ hmem, hannounces⟩
  · refine ⟨.message (.nodeinfo (s.nodes a).nodeinfo), ?_, _,
      (hsound.everywhere.node a hring).2.nodeId, rfl⟩
    rw [hprocess]
    simp

/-- In a stream the barrier follows a `nodeinfo` message. -/
theorem step_stream (hstep : System.Step members s e s') (b : NodeId) :
    Guarded b (s'.ring b) (s'.stream b) := by
  by_cases hb : b = e.node
  · subst hb
    have hold := hsound.stream e.node
    cases hstep with
    | @start a _ r n _ hjoins =>
      have hstream : ((s.reset a n).joined members a r n).stream a =
          [.message (.nodeinfo n.nodeinfo)] := by
        have hown := hsound.own_eq_nil hjoins.1
        simp [System.stream, System.joined, System.reset, hown]
      rw [Event.node, hstream]
      exact Guarded.of_not_mem (by simp)
    | @enter a r _ hjoins =>
      have hstream : (s.joined members a r (s.nodes a)).stream a = s.queue a := by
        have hown := hsound.own_eq_nil hjoins.1
        simp [System.stream, System.joined, hown]
      have hring : (s.joined members a r (s.nodes a)).ring a = r := by simp [System.joined]
      rw [Event.node, hstream, hring]
      refine Guarded.of_not_mem fun hmem => ?_
      exact absurd (hsound.barrier a r hmem) (Nat.not_le.mpr hjoins.1)
    | @process a hring _ _ _ =>
      rw [Event.node, stream_acted, System.processPackets, ← append_assoc]
      have hmessages : Guarded a (s.ring a)
          (s.stream a ++ (s.nodes a).syncProcess.2.map .message) := hold.append (by simp)
      split
      · exact hmessages.concat fun _ => hsound.announced_process hring
      · rw [append_nil (s.stream a ++ _)]
        exact hmessages
    | transmit _ hqueue =>
      rw [Event.node, stream_transmitted hqueue]
      exact hold
    | act _ =>
      rw [Event.node, stream_acted]
      exact hold.append (by simp)
    | _ => exact hold
  · rw [stream_untouched hstep hb, (hstep.untouched hb).ring]
    exact hsound.stream b

/-- In an order the barrier of a node follows its `nodeinfo` message. -/
theorem step_logged (hstep : System.Step members s e s') (r : ℕ)
    (b : NodeId) : Guarded b r (own b (s'.log r)) := by
  obtain heq | ⟨rfl, -, packet, rest, hqueue, heq⟩ := hstep.log_cases r
  · rw [heq]
    exact hsound.logged r b
  rw [heq, own_append]
  by_cases hb : b = e.node
  · subst hb
    have hstream := hsound.stream e.node
    rw [System.stream, hqueue, append_cons] at hstream
    have hown : own e.node [(e.node, packet)] = [packet] := by simp [own]
    rw [hown]
    exact hstream.of_append
  · have hown : own b [(e.node, packet)] = [] := by simp [own, Ne.symm hb]
    rw [hown, append_nil]
    exact hsound.logged _ b

/-- A node that is still in its ring has its `nodeinfo` in its stream after a step. -/
theorem step_sent (hstep : System.Step members s e s') (b : NodeId)
    (hring : 0 < s'.ring b) (hsent : (s'.nodes b).syncNodeinfoSent = true) :
    ∃ packet ∈ s'.stream b, Announces b packet := by
  by_cases hb : b = e.node
  · subst hb
    have hold := hsound.sent e.node
    cases hstep with
    | start | enter =>
      simp [System.joined, Event.node, (Entering.syncInit _ _).syncNodeinfoSent] at hsent
    | @process _ hring _ _ _ =>
      obtain ⟨packet, hmem, hannounces⟩ := hsound.announced_process hring
      rw [Event.node, stream_acted, System.processPackets, ← append_assoc]
      exact ⟨packet, mem_append_left _ hmem, hannounces⟩
    | transmit _ hqueue =>
      rw [Event.node, stream_transmitted hqueue]
      exact hold hring hsent
    | @deliver a sender packet _ _ =>
      refine hold hring ?_
      simp only [System.handled, Event.node, update_self] at hsent
      exact (delivery_sameSync (s.nodes a) sender packet).syncNodeinfoSent ▸ hsent
    | @activate a _ _ _ =>
      refine hold hring ?_
      simp only [System.settled, Event.node, update_self] at hsent
      exact (SameRoll.recalculate (s.nodes a) false false).syncNodeinfoSent ▸ hsent
    | @act a action _ =>
      simp only [System.acted, Event.node, update_self] at hsent
      rw [(SameRoll.act (s.nodes a) action).syncNodeinfoSent] at hsent
      obtain ⟨packet, hmem, hannounces⟩ := hold hring hsent
      rw [Event.node, stream_acted]
      exact ⟨packet, mem_append_left _ hmem, hannounces⟩
  · have huntouched := hstep.untouched hb
    rw [huntouched.ring] at hring
    rw [huntouched.nodes] at hsent
    rw [stream_untouched hstep hb]
    exact hsound.sent b hring hsent

end

/-- In its ring a node hears more and more. -/
theorem heard_subset (hstep : System.Step members s e s') {b : NodeId}
    (hring : s'.ring b = s.ring b) : s.heard b ⊆ s'.heard b := by
  have hle : s.delivered b ≤ s'.delivered b := hstep.delivered_le hring
  obtain ⟨rest, hrest⟩ := hstep.log_grows (s.ring b)
  intro entry hmem
  unfold System.heard at hmem ⊢
  rw [hring, ← hrest]
  rw [take_append]
  exact mem_append_left _ ((take_subset_take_left _ hle) hmem)

section

variable (hsound : Sound members s)

include hsound

/-- A node that has stayed in its ring and has activated it before. -/
theorem step_settled_of_settled (hstep : System.Step members s e s')
    {b : NodeId} (hpos : 0 < s.ring b) (hring : s'.ring b = s.ring b)
    (hactivated : s'.activated b = s.activated b) (hsync : (s.nodes b).syncInProgress = false) :
    s'.Synchronised members b ∧ s'.activated b = s'.ring b := by
  obtain ⟨hall, hold⟩ := hsound.settled b hpos hsync
  refine ⟨fun c hc => heard_subset hstep hring ?_, hactivated.trans (hold.trans hring.symm)⟩
  rw [hring] at hc ⊢
  exact hall c hc

/-- A node whose synchronisation is over has heard all barriers. -/
theorem step_settled (hstep : System.Step members s e s') (b : NodeId)
    (hring : 0 < s'.ring b) (hsync : (s'.nodes b).syncInProgress = false) :
    s'.Synchronised members b ∧ s'.activated b = s'.ring b := by
  by_cases hb : b = e.node
  · subst hb
    have hstays := hsound.step_settled_of_settled (b := e.node) hstep
    cases hstep with
    | start | enter => simp [System.joined, Event.node] at hsync
    | @process a hring _ _ _ =>
      refine hstays hring rfl rfl ?_
      simpa only [System.acted, Event.node, update_self, Node.syncProcess_fst] using hsync
    | transmit hring _ => exact hstays hring rfl rfl hsync
    | @deliver a sender packet hring _ =>
      refine hstays hring rfl rfl ?_
      simp only [System.handled, Event.node, update_self] at hsync
      exact (delivery_sameSync (s.nodes a) sender packet).syncInProgress ▸ hsync
    | activate _ _ hall => exact ⟨hall, by simp [System.settled, Event.node]⟩
    | @act a action hring =>
      refine hstays hring rfl rfl ?_
      simp only [System.acted, Event.node, update_self] at hsync
      exact (SameRoll.act (s.nodes a) action).syncInProgress ▸ hsync
  · have huntouched := hstep.untouched hb
    rw [huntouched.nodes] at hsync
    rw [huntouched.ring] at hring
    exact hsound.step_settled_of_settled hstep hring huntouched.ring huntouched.activated hsync

/-- What a node delivers is about members of its ring. -/
theorem delivery_roster {a sender : NodeId} {packet : Packet}
    (hring : 0 < s.ring a) (hmem : (sender, packet) ∈ s.log (s.ring a)) :
    Roster a (members (s.ring a)) (System.delivery (s.nodes a) sender packet) := by
  obtain ⟨hisRing, hroster⟩ := hsound.everywhere.node a hring
  cases packet with
  | barrier _ => exact hroster
  | message _ =>
    refine hroster.deliver hisRing fun info hinfo => ?_
    obtain hown | hdevice := hsound.everywhere.log _ _ _ hmem info hinfo
    · exact .inl (hown ▸ (hsound.sender _ _ hmem).1)
    · exact .inr hdevice

/-- Every node has records for members of its ring only, and every message is owned. -/
theorem step_everywhere (hstep : System.Step members s e s') :
    Everywhere members (fun a ring n => IsRing a ring ∧ Roster a ring n) Owned s' := by
  refine hsound.everywhere.step hstep ?_ ?_
  · cases hstep with
    | @start _ _ _ _ hinit hjoins =>
      intro _
      obtain ⟨-, hmem, hnodup, hlength, hqdevice⟩ := hjoins
      simp only [System.joined, Event.node, update_self]
      exact ⟨⟨hmem, hnodup, hlength, hqdevice⟩,
        Roster.start ⟨hmem, hnodup, hlength, hqdevice⟩ hinit⟩
    | @enter a _ hring hjoins =>
      intro _
      obtain ⟨-, hmem, hnodup, hlength, hqdevice⟩ := hjoins
      simp only [System.joined, Event.node, update_self]
      exact ⟨⟨hmem, hnodup, hlength, hqdevice⟩, (hsound.everywhere.node a hring).2.syncInit⟩
    | @process a hring _ _ _ =>
      intro _
      simp only [System.acted, Event.node, update_self, Node.syncProcess_fst]
      obtain ⟨hisRing, hroster⟩ := hsound.everywhere.node a hring
      exact ⟨hisRing, { hroster with }⟩
    | transmit hring _ => exact fun _ => hsound.everywhere.node _ hring
    | @deliver a _ _ hring hnext =>
      intro _
      simp only [System.handled, Event.node, update_self]
      exact ⟨(hsound.everywhere.node a hring).1,
        hsound.delivery_roster hring (mem_of_getElem? hnext)⟩
    | @activate a hring _ _ =>
      intro _
      simp only [System.settled, Event.node, update_self]
      obtain ⟨hisRing, hroster⟩ := hsound.everywhere.node a hring
      have hrecalculated := hroster.of_sameRoll (SameRoll.recalculate _ false false)
      exact ⟨hisRing, { hrecalculated with }⟩
    | @act a action hring =>
      intro _
      simp only [System.acted, Event.node, update_self]
      obtain ⟨hisRing, hroster⟩ := hsound.everywhere.node a hring
      exact ⟨hisRing, hroster.of_sameRoll (SameRoll.act _ action)⟩
  · intro message hmem
    obtain rfl | rfl | ⟨-, request, rfl⟩ := s.messages_cases e message hmem
    · refine owned_nodeinfo ?_
      cases hstep with
      | start hinit _ =>
        rw [System.acting, hinit]
        exact (SameRoll.execInitFn hinit).nodeId
      | process hring _ _ _ =>
        rw [System.acting, Node.syncProcess_fst]
        exact (hsound.everywhere.node _ hring).2.nodeId
      | @act a action hring =>
        exact (SameRoll.act (s.nodes a) action).nodeId.trans
          (hsound.everywhere.node _ hring).2.nodeId
      | _ => cases hmem
    · exact owned_qdeviceNodeinfo _ _
    · exact fun _ hinfo => absurd hinfo (by simp)

/-- Every step keeps the streams sound. -/
theorem step (hstep : System.Step members s e s') : Sound members s' :=
  ⟨hsound.step_everywhere hstep, hsound.step_delivered hstep, hsound.step_sender hstep,
    hsound.step_barrier hstep, hsound.step_sent hstep, hsound.step_stream hstep,
    hsound.step_logged hstep, hsound.step_settled hstep⟩

/-- A node that has heard the barrier of another one has heard its `nodeinfo`. -/
theorem announced_of_barrier {a b : NodeId} (hmem : (b, .barrier (s.ring a)) ∈ s.heard a) :
    ∃ info : Nodeinfo, info.nodeid = b ∧ (b, .message (.nodeinfo info)) ∈ s.heard a := by
  obtain ⟨first, second, hheard⟩ := append_of_mem hmem
  have hlog : s.log (s.ring a) = s.heard a ++ (s.log (s.ring a)).drop (s.delivered a) :=
    (take_append_drop _ _).symm
  have hown := hsound.logged (s.ring a) b
  rw [hlog, own_append] at hown
  obtain ⟨packet, hpacket, info, hid, rfl⟩ := hown.of_append (own b first) (own b second) (by
    rw [hheard, own_append]
    simp [own])
  refine ⟨info, hid, ?_⟩
  rw [hheard]
  exact mem_append_left _ (mem_own.mp hpacket)

end

end Sound

end Corosync.Votequorum
