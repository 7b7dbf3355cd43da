import Corosync.Votequorum.Records
import Corosync.Votequorum.System

/-!
# What one step of the system changes

A step happens on one node. It leaves the other nodes as they are, and the order of a ring only
grows, by what that node had in its queue.
-/

namespace Corosync.Votequorum

open Function List Option

/-- What `votequorum_sync_process` multicasts besides the barrier. -/
theorem Node.syncProcess_cases (n : Node) :
    n.syncNodeinfoSent = true ∧ n.syncProcess = (n, []) ∨
      n.syncNodeinfoSent = false ∧ n.syncProcess = ({ n with syncNodeinfoSent := true },
        [.nodeinfo n.nodeinfo, .nodeinfo n.qdeviceNodeinfo]) := by
  unfold Node.syncProcess
  cases hsent : n.syncNodeinfoSent
  · exact .inr ⟨rfl, rfl⟩
  · exact .inl ⟨rfl, rfl⟩

/-- `votequorum_sync_process` leaves a node that has sent its `nodeinfo`. -/
@[simp] theorem Node.syncProcess_fst (n : Node) :
    n.syncProcess.1 = { n with syncNodeinfoSent := true } := by
  obtain ⟨hsent, hprocess⟩ | ⟨-, hprocess⟩ := n.syncProcess_cases
  · rw [hprocess, ← hsent]
  · rw [hprocess]

/-- A node with other flags, another progress of the synchronisation and other settings of the
quorum device. -/
def Node.adjusted (n : Node) (flags : Flags) (progress : Progress) (masterWins fdOpen : Bool) :
    Node :=
  { n with
    us := { n.us with flags := flags }
    toProgress := progress
    qdeviceMasterWins := masterWins
    evTrackingFdOpen := fdOpen }

/-- What a quiet action can change: what follows from the timer of last man standing, or flags and
settings of the quorum device. -/
theorem Node.act_adjusted (n : Node) {action : Action} (hquiet : action.quiet = true) :
    (action = .lastManStandingTimer ∧ (n.act action).1 = n.lastManStandingTimerFn) ∨
      ∃ flags timer wait masterWins fdOpen, (n.act action).1 = n.adjusted flags
          { n.toProgress with qdeviceTimerSet := timer, syncWaitForPollOrTimeout := wait }
          masterWins fdOpen ∧
        (action ≠ .exit → flags.leaving = n.us.flags.leaving) := by
  have hsame : n = n.adjusted n.us.flags n.toProgress n.qdeviceMasterWins n.evTrackingFdOpen := rfl
  cases action with
  | reload | setexpected | setvotes | cancelWaitForAll =>
    exact absurd hquiet (by simp [Action.quiet])
  | lastManStandingTimer =>
    unfold act
    dsimp only
    split
    · exact .inl ⟨rfl, rfl⟩
    · exact .inr ⟨_, _, _, _, _, hsame, fun _ => rfl⟩
  | exit =>
    unfold act execExitFn
    dsimp only
    split <;> exact .inr ⟨_, _, _, _, _, rfl, fun hexit => absurd rfl hexit⟩
  | qdeviceUnregister =>
    unfold act qdeviceUnregister
    dsimp only
    split
    · split <;> exact .inr ⟨_, _, _, _, _, rfl, fun _ => rfl⟩
    · exact .inr ⟨_, _, _, _, _, hsame, fun _ => rfl⟩
  | qdeviceRegister | qdevicePoll | qdeviceMasterWins | qdeviceTimer =>
    simp only [act, qdeviceRegister, qdevicePoll, qdeviceAllowMasterWins, qdeviceTimerFn]
    split
    · exact .inr ⟨_, _, _, _, _, rfl, fun _ => rfl⟩
    · exact .inr ⟨_, _, _, _, _, hsame, fun _ => rfl⟩

/-- What an action multicasts: `nodeinfo` messages of the node, and `reconfigure` messages. -/
theorem Node.act_messages (n : Node) (action : Action) :
    ∀ message ∈ (n.act action).2, message = .nodeinfo (n.act action).1.nodeinfo ∨
      message = .nodeinfo (n.act action).1.qdeviceNodeinfo ∨
        action.quiet = false ∧ ∃ request, message = .reconfigure request := by
  intro message hmem
  cases action with
  | reload _ =>
    simp only [act, refreshConfig, mem_append, mem_cons, not_mem_nil,
      or_false] at hmem
    obtain ((rfl | rfl) | hmem) | hmem := hmem
    · exact .inl rfl
    · exact .inr (.inl rfl)
    · split at hmem
      · exact .inr (.inr ⟨rfl, _, mem_singleton.mp hmem⟩)
      · cases hmem
    · split at hmem
      · exact .inr (.inr ⟨rfl, _, mem_singleton.mp hmem⟩)
      · cases hmem
  | lastManStandingTimer =>
    simp only [act] at hmem
    split at hmem <;> cases hmem
  | exit =>
    revert hmem
    unfold act execExitFn
    dsimp only
    split
    · exact fun hmem => .inl (mem_singleton.mp hmem)
    · exact nofun
  | qdeviceRegister =>
    revert hmem
    unfold act qdeviceRegister
    dsimp only
    split
    · intro hmem
      obtain rfl | hmem := mem_cons.mp hmem
      · exact .inr (.inl rfl)
      · exact .inl (mem_singleton.mp hmem)
    · exact nofun
  | qdeviceUnregister =>
    revert hmem
    unfold act qdeviceUnregister
    dsimp only
    split
    · exact fun hmem => .inl (mem_singleton.mp hmem)
    · exact nofun
  | qdevicePoll _ | qdeviceMasterWins _ =>
    revert hmem
    unfold act qdevicePoll qdeviceAllowMasterWins
    dsimp only
    split
    · dsimp only
      split
      · exact fun hmem => .inl (mem_singleton.mp hmem)
      · exact nofun
    · exact nofun
  | qdeviceTimer =>
    revert hmem
    unfold act qdeviceTimerFn
    dsimp only
    split
    · exact fun hmem => .inl (mem_singleton.mp hmem)
    · exact nofun
  | setexpected expectedVotes =>
    obtain ⟨-, heq⟩ | ⟨-, heq⟩ := n.libSetexpected_cases expectedVotes true
    · rw [act, heq] at hmem
      cases hmem
    · rw [act, heq] at hmem
      exact .inr (.inr ⟨rfl, _, mem_singleton.mp hmem⟩)
  | setvotes nodeid votes =>
    obtain ⟨-, heq⟩ | ⟨_, -, ⟨-, heq⟩ | ⟨-, heq⟩⟩ := n.libSetvotes_cases nodeid votes true
    · rw [act, heq] at hmem
      cases hmem
    · rw [act, heq] at hmem
      cases hmem
    · rw [act, heq] at hmem
      exact .inr (.inr ⟨rfl, _, mem_singleton.mp hmem⟩)
  | cancelWaitForAll => exact .inr (.inr ⟨rfl, _, mem_singleton.mp hmem⟩)

namespace System

variable {members : ℕ → List NodeId} {s s' : System} {e : Event} {a b : NodeId} {r : ℕ}

/-- The steps, with what they need. -/
inductive Step (members : ℕ → List NodeId) (s : System) : Event → System → Prop
  | start {a : NodeId} {config : Icmap} {r : ℕ} {n : Node}
      (hinit : Node.execInitFn config a (s.nodes a).evTrackingFile = .ok n)
      (hjoins : s.Joins members a r) :
      Step members s (.start a config r) ((s.reset a n).joined members a r n)
  | enter {a : NodeId} {r : ℕ} (hring : 0 < s.ring a) (hjoins : s.Joins members a r) :
      Step members s (.enter a r) (s.joined members a r (s.nodes a))
  | process {a : NodeId} (hring : 0 < s.ring a) (hsync : (s.nodes a).syncInProgress = true)
      (hqueue : .barrier (s.ring a) ∉ s.queue a)
      (hlog : (a, .barrier (s.ring a)) ∉ s.log (s.ring a)) :
      Step members s (.process a)
        (s.acted a (s.nodes a).syncProcess.1 (processPackets (s.nodes a) (s.ring a)))
  | transmit {a : NodeId} {packet : Packet} {rest : List Packet} (hring : 0 < s.ring a)
      (hqueue : s.queue a = packet :: rest) :
      Step members s (.transmit a) (s.transmitted a packet rest)
  | deliver {a sender : NodeId} {packet : Packet} (hring : 0 < s.ring a)
      (hnext : (s.log (s.ring a))[s.delivered a]? = some (sender, packet)) :
      Step members s (.deliver a) (s.handled a (delivery (s.nodes a) sender packet))
  | activate {a : NodeId} (hring : 0 < s.ring a) (hsync : (s.nodes a).syncInProgress = true)
      (hall : s.Synchronised members a) :
      Step members s (.activate a) (s.settled a)
  | act {a : NodeId} {action : Action} (hring : 0 < s.ring a) :
      Step members s (.act a action)
        (s.acted a ((s.nodes a).act action).1 (((s.nodes a).act action).2.map .message))

/-- The cases of a step. -/
theorem step_eq_some (hstep : s.step members e = some s') : Step members s e s' := by
  cases e with
  | start _ _ _ =>
    rw [step] at hstep
    split at hstep
    · rename_i n hinit
      obtain ⟨hjoins, rfl⟩ := ite_some_none_eq_some.mp hstep
      exact .start hinit hjoins
    · cases hstep
  | enter _ _ =>
    obtain ⟨⟨hring, hjoins⟩, rfl⟩ := ite_some_none_eq_some.mp hstep
    exact .enter hring hjoins
  | process _ =>
    obtain ⟨⟨hring, hsync, hqueue, hlog⟩, rfl⟩ := ite_some_none_eq_some.mp hstep
    exact .process hring hsync hqueue hlog
  | transmit _ =>
    rw [step] at hstep
    split at hstep
    · rename_i packet rest hqueue
      obtain ⟨hring, rfl⟩ := ite_some_none_eq_some.mp hstep
      exact .transmit hring hqueue
    · cases hstep
  | deliver _ =>
    rw [step] at hstep
    split at hstep
    · rename_i sender packet hnext
      obtain ⟨hring, rfl⟩ := ite_some_none_eq_some.mp hstep
      exact .deliver hring hnext
    · cases hstep
  | activate _ =>
    obtain ⟨⟨hring, hsync, hall⟩, rfl⟩ := ite_some_none_eq_some.mp hstep
    exact .activate hring hsync hall
  | act _ _ =>
    obtain ⟨hring, rfl⟩ := ite_some_none_eq_some.mp hstep
    exact .act hring

/-- A node that a step leaves as it is. -/
structure Untouched (s s' : System) (b : NodeId) : Prop where
  nodes : s'.nodes b = s.nodes b
  ring : s'.ring b = s.ring b
  delivered : s'.delivered b = s.delivered b
  queue : s'.queue b = s.queue b
  activated : s'.activated b = s.activated b

section

variable (hstep : Step members s e s')

include hstep

/-- A step leaves the nodes as they are on which it does not happen. -/
theorem Step.untouched (hb : b ≠ e.node) : Untouched s s' b := by
  cases hstep <;> constructor <;>
    simp [joined, reset, acted, transmitted, handled, settled, Event.node] at hb ⊢ <;> simp [hb]

/-- The order of a ring grows by the head of the queue of the node. -/
theorem Step.log_cases (r : ℕ) :
    s'.log r = s.log r ∨ r = s.ring e.node ∧ 0 < r ∧ ∃ packet rest,
      s.queue e.node = packet :: rest ∧ s'.log r = s.log r ++ [(e.node, packet)] := by
  cases hstep with
  | transmit hring hqueue =>
    rename_i a packet rest
    by_cases hr : r = s.ring a
    · subst hr
      exact .inr ⟨rfl, hring, packet, rest, hqueue, by simp [transmitted, Event.node]⟩
    · exact .inl (by simp [transmitted, update_of_ne hr])
  | _ => exact .inl rfl

/-- The order of a ring only grows. -/
theorem Step.log_grows (r : ℕ) : s.log r <+: s'.log r := by
  obtain heq | ⟨-, -, packet, rest, -, heq⟩ := hstep.log_cases r
  · exact heq ▸ prefix_refl _
  · exact heq ▸ prefix_append _ _

/-- A packet in an order was there before or was the head of the queue of the node. -/
theorem Step.mem_log {entry : NodeId × Packet} (hmem : entry ∈ s'.log r) :
    entry ∈ s.log r ∨ r = s.ring e.node ∧ 0 < r ∧ entry.1 = e.node ∧ entry.2 ∈ s.queue e.node := by
  obtain heq | ⟨hr, hring, packet, rest, hqueue, heq⟩ := hstep.log_cases r
  · exact .inl (heq ▸ hmem)
  rw [heq, mem_append, mem_singleton] at hmem
  obtain hmem | rfl := hmem
  · exact .inl hmem
  · refine .inr ⟨hr, hring, rfl, ?_⟩
    rw [hqueue]
    exact mem_cons_self

/-- Nodes go on to later rings. -/
theorem Step.ring_le (b : NodeId) : s.ring b ≤ s'.ring b := by
  by_cases hb : b = e.node
  · subst hb
    cases hstep with
    | start _ hjoins =>
      simp only [joined, reset, Event.node, update_self]
      exact Nat.le_of_lt hjoins.1
    | enter _ hjoins =>
      simp only [joined, Event.node, update_self]
      exact Nat.le_of_lt hjoins.1
    | _ => exact Nat.le_refl _
  · rw [(hstep.untouched hb).ring]

/-- The node of an event is in a ring after it. -/
theorem Step.ring_pos : 0 < s'.ring e.node := by
  cases hstep with
  | start _ hjoins =>
    simp only [joined, reset, Event.node, update_self]
    exact Nat.zero_lt_of_lt hjoins.1
  | enter _ hjoins =>
    simp only [joined, Event.node, update_self]
    exact Nat.zero_lt_of_lt hjoins.1
  | process hring _ _ _ => exact hring
  | transmit hring _ => exact hring
  | deliver hring _ => exact hring
  | activate hring _ _ => exact hring
  | act hring => exact hring

end

/-- The rings of the nodes, and those with an order, have been entered. -/
structure Formed (s : System) : Prop where
  ring : ∀ a, 0 < s.ring a → s.ring a ∈ s.entered
  log : ∀ r, ∀ entry ∈ s.log r, r ∈ s.entered

/-- Before the first start no ring has been entered. -/
theorem Formed.cold : cold.Formed :=
  ⟨fun _ hring => absurd hring (Nat.lt_irrefl 0), nofun⟩

/-- A ring that was entered once stays so. -/
theorem Step.entered_subset (hstep : Step members s e s') : s.entered ⊆ s'.entered := by
  cases hstep with
  | start | enter => exact subset_cons_self _ _
  | _ => exact List.Subset.refl _

/-- Nodes and packets stay in rings that have been entered. -/
theorem Formed.step (hformed : s.Formed) (hstep : Step members s e s') : s'.Formed where
  ring b hring := by
    by_cases hb : b = e.node
    · subst hb
      cases hstep with
      | start | enter => simp [joined, Event.node]
      | _ => exact hformed.ring _ hring
    · rw [(hstep.untouched hb).ring] at hring ⊢
      exact hstep.entered_subset (hformed.ring b hring)
  log r entry hmem := by
    obtain hold | ⟨rfl, hring, -, -⟩ := hstep.mem_log hmem
    · exact hstep.entered_subset (hformed.log r entry hold)
    · exact hstep.entered_subset (hformed.ring _ hring)

/-- In its ring a node delivers more and more. -/
theorem Step.delivered_le (hstep : Step members s e s') (hring : s'.ring b = s.ring b) :
    s.delivered b ≤ s'.delivered b := by
  by_cases hb : b = e.node
  · subst hb
    cases hstep with
    | start _ hjoins =>
      simp only [joined, reset, Event.node, update_self] at hring
      exact absurd hjoins.1 (by rw [hring]; exact Nat.lt_irrefl _)
    | enter _ hjoins =>
      simp only [joined, Event.node, update_self] at hring
      exact absurd hjoins.1 (by rw [hring]; exact Nat.lt_irrefl _)
    | deliver _ _ =>
      simp only [handled, Event.node, update_self]
      exact Nat.le_succ _
    | _ => exact Nat.le_refl _
  · rw [(hstep.untouched hb).delivered]

/-- The node after an event that makes it multicast. -/
def acting (s : System) : Event → Node
  | .start a config _ =>
    match Node.execInitFn config a (s.nodes a).evTrackingFile with
    | .ok n => n
    | .error _ => s.nodes a
  | .process a => (s.nodes a).syncProcess.1
  | .act a action => ((s.nodes a).act action).1
  | e => s.nodes e.node

/-- The messages of an event. -/
def messages (s : System) : Event → List Message
  | .start a config r => [.nodeinfo (s.acting (.start a config r)).nodeinfo]
  | .process a => (s.nodes a).syncProcess.2
  | .act a action => ((s.nodes a).act action).2
  | _ => []

/-- A message in the queue of the node was there before or is one of the event. -/
theorem Step.mem_queue (hstep : Step members s e s') {message : Message}
    (hmem : .message message ∈ s'.queue e.node) :
    .message message ∈ s.queue e.node ∨ message ∈ s.messages e := by
  cases hstep with
  | start hinit _ =>
    simp only [joined, reset, Event.node, Function.update_self, List.mem_singleton,
      Packet.message.injEq] at hmem
    exact .inr (by simp [messages, acting, hinit, hmem])
  | process _ _ _ _ =>
    simp only [acted, processPackets, Event.node, Function.update_self, List.mem_append,
      List.mem_map] at hmem
    obtain hmem | ⟨other, hmem, hother⟩ | hmem := hmem
    · exact .inl hmem
    · obtain rfl := Packet.message.inj hother
      exact .inr hmem
    · split at hmem <;> exact absurd hmem (by simp)
  | transmit _ hqueue =>
    simp only [transmitted, Event.node, update_self] at hmem
    refine .inl ?_
    rw [Event.node, hqueue]
    exact mem_cons_of_mem _ hmem
  | act _ =>
    simp only [acted, Event.node, Function.update_self, List.mem_append, List.mem_map] at hmem
    obtain hmem | ⟨other, hmem, hother⟩ := hmem
    · exact .inl hmem
    · obtain rfl := Packet.message.inj hother
      exact .inr hmem
  | _ => exact .inl hmem

/-- What the messages of an event are. -/
theorem messages_cases (s : System) (e : Event) :
    ∀ message ∈ s.messages e, message = .nodeinfo (s.acting e).nodeinfo ∨
      message = .nodeinfo (s.acting e).qdeviceNodeinfo ∨
        e.quiet = false ∧ ∃ request, message = .reconfigure request := by
  intro message hmem
  cases e with
  | process a =>
    rw [messages] at hmem
    rw [acting]
    obtain ⟨-, hprocess⟩ | ⟨-, hprocess⟩ := (s.nodes a).syncProcess_cases
    · rw [hprocess] at hmem
      cases hmem
    · rw [hprocess] at hmem ⊢
      obtain rfl | hmem := mem_cons.mp hmem
      · exact .inl rfl
      · exact .inr (.inl (mem_singleton.mp hmem))
  | act a action => exact (s.nodes a).act_messages action message hmem
  | start _ _ _ => exact .inl (mem_singleton.mp hmem)
  | _ => cases hmem

/-- A node that delivers nothing has heard what it had heard before. -/
theorem Step.heard_eq (hstep : Step members s e s') (hring : s'.ring b = s.ring b)
    (hdelivered : s'.delivered b = s.delivered b)
    (hle : s.delivered b ≤ (s.log (s.ring b)).length) : s'.heard b = s.heard b := by
  obtain ⟨rest, hrest⟩ := hstep.log_grows (s.ring b)
  unfold System.heard
  rw [hring, hdelivered, ← hrest, take_append_of_le_length hle]

/-- A node has heard what it delivers. -/
theorem heard_handled {sender : NodeId} {packet : Packet} {n : Node}
    (hnext : (s.log (s.ring a))[s.delivered a]? = some (sender, packet)) :
    (s.handled a n).heard a = s.heard a ++ [(sender, packet)] := by
  simp [System.heard, handled, take_add_one, hnext]

end System

/-- What holds of every node that has been started, by its id and the members of its ring, and of
every message by its sender. -/
structure Everywhere (members : ℕ → List NodeId) (P : NodeId → List NodeId → Node → Prop)
    (Q : NodeId → Message → Prop) (s : System) : Prop where
  node : ∀ a, 0 < s.ring a → P a (members (s.ring a)) (s.nodes a)
  queue : ∀ a message, .message message ∈ s.queue a → Q a message
  log : ∀ r a message, (a, .message message) ∈ s.log r → Q a message

namespace Everywhere

variable {members : ℕ → List NodeId} {P : NodeId → List NodeId → Node → Prop}
  {Q : NodeId → Message → Prop} {s s' : System} {e : Event}

/-- Before the first start there is no node and no message. -/
theorem cold : Everywhere members P Q System.cold :=
  ⟨fun _ hring => absurd hring (Nat.lt_irrefl 0), by simp [System.cold], by simp [System.cold]⟩

/-- Two properties of nodes and messages. -/
theorem and {P' : NodeId → List NodeId → Node → Prop} {Q' : NodeId → Message → Prop}
    (hall : Everywhere members P Q s) (hall' : Everywhere members P' Q' s) :
    Everywhere members (fun a ring n => P a ring n ∧ P' a ring n)
      (fun a message => Q a message ∧ Q' a message) s :=
  ⟨fun a hring => ⟨hall.node a hring, hall'.node a hring⟩,
    fun a message hmem => ⟨hall.queue a message hmem, hall'.queue a message hmem⟩,
    fun r a message hmem => ⟨hall.log r a message hmem, hall'.log r a message hmem⟩⟩

/-- After a step only the node has to be looked at on which it happened. -/
theorem step (hall : Everywhere members P Q s) (hstep : System.Step members s e s')
    (hnode : 0 < s'.ring e.node → P e.node (members (s'.ring e.node)) (s'.nodes e.node))
    (hqueue : ∀ message ∈ s.messages e, Q e.node message) : Everywhere members P Q s' where
  node b hring := by
    by_cases hb : b = e.node
    · subst hb
      exact hnode hring
    · have huntouched := hstep.untouched hb
      rw [huntouched.nodes, huntouched.ring] at *
      exact hall.node b hring
  queue b message hmem := by
    by_cases hb : b = e.node
    · subst hb
      obtain hmem | hmem := hstep.mem_queue hmem
      · exact hall.queue _ message hmem
      · exact hqueue message hmem
    · rw [(hstep.untouched hb).queue] at hmem
      exact hall.queue b message hmem
  log r b message hmem := by
    obtain hmem | ⟨-, -, rfl, hmem⟩ := hstep.mem_log hmem
    · exact hall.log r b message hmem
    · exact hall.queue _ message hmem

end Everywhere

end Corosync.Votequorum
