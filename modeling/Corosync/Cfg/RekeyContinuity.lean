import Corosync.Cfg.Rekey

/-!
# Continuity while the encryption changes

As long as no member is more than one phase ahead of another one, what one member transmits with is
configured on every other one. The phases of a member are counted over all changes of the
encryption: a member in phase `3 * n` has cleaned up after `n` changes.
-/

namespace Corosync.Cfg.Rekey

open Function Library List Node

variable {crypto : Crypto} {current previous : Config} {phase : ℕ}

/-- The encryption of a node that is in a phase of the change from one configuration to another:
`0` for settled, `1` for reconfigured, `2` for activated. -/
structure Configured (crypto : Crypto) (current previous : Config) (phase : ℕ) : Prop where
  config : crypto.config = current
  index : crypto.cryptoIndex = 1 ∨ crypto.cryptoIndex = 2
  new : crypto.configs crypto.cryptoIndex = current
  old : crypto.configs (3 - crypto.cryptoIndex) = if phase = 0 then none else previous
  inUse : crypto.inUse =
    if phase = 1 then (if previous.isSome then 3 - crypto.cryptoIndex else 0)
    else (if current.isSome then crypto.cryptoIndex else 0)
  rxClear : crypto.rxClear = (current.isNone || (decide (phase ≠ 0) && previous.isNone))

/-- The first configuration. -/
theorem configured_initialise (config previous : Config) :
    Configured (.initialise config) config previous 0 := by
  constructor <;> simp [Crypto.initialise]

/-- A new configuration is installed. -/
theorem Configured.reconfigure (h : Configured crypto current previous 0) (config : Config) :
    Configured (crypto.reconfigure config) config current 1 := by
  obtain ⟨_, index, new, _, inUse, rxClear⟩ := h
  constructor <;> rcases index with hindex | hindex <;>
    simp_all [Crypto.reconfigure, Crypto.setKnetCrypto, Bool.or_comm]

/-- It is used for sending. -/
theorem Configured.activate (h : Configured crypto current previous 1) :
    Configured (crypto.reconfigurePhase .activate) current previous 2 := by
  obtain ⟨config, index, new, old, _, rxClear⟩ := h
  constructor <;> simp_all [Crypto.reconfigurePhase]

/-- The old one is removed. -/
theorem Configured.cleanup (h : Configured crypto current previous 2) (older : Config) :
    Configured (crypto.reconfigurePhase .cleanup) current older 0 := by
  obtain ⟨config, index, new, old, inUse, rxClear⟩ := h
  constructor <;> rcases index with hindex | hindex <;> cases current <;>
    simp_all [Crypto.reconfigurePhase]

/-- The configuration that is sent with. -/
theorem Configured.transmits (h : Configured crypto current previous phase) :
    crypto.transmits = if phase = 1 then previous else current := by
  obtain ⟨_, index, new, old, inUse, _⟩ := h
  unfold Crypto.transmits
  by_cases hphase : phase = 1
  · cases previous <;> rcases index with hindex | hindex <;> simp_all
  · cases current <;> rcases index with hindex | hindex <;> simp_all

/-- What is sent with the current configuration is received. -/
theorem Configured.receives_current (h : Configured crypto current previous phase) :
    crypto.Receives current := by
  obtain ⟨_, index, new, _, _, rxClear⟩ := h
  cases current with
  | none => simp [Crypto.Receives, rxClear]
  | some _ => rcases index with hindex | hindex <;> simp_all [Crypto.Receives]

/-- During a change also what is sent with the previous one. -/
theorem Configured.receives_previous (h : Configured crypto current previous phase)
    (hphase : phase ≠ 0) : crypto.Receives previous := by
  obtain ⟨_, index, _, old, _, rxClear⟩ := h
  cases previous with
  | none => simp [Crypto.Receives, rxClear, hphase]
  | some _ => rcases index with hindex | hindex <;> simp_all [Crypto.Receives]

/-! ### Members in step -/

/-- A node's encryption goes with its phase and with the configurations it has had. -/
def Staged (node : Node) : Prop :=
  ∃ current older, node.history = current :: older ∧
    Configured node.crypto current (older.headD none) (node.stage % 3) ∧
    3 * older.length = node.stage + (3 - node.stage % 3) % 3

/-- Of two histories one of which is one configuration longer, the shorter one is its end. -/
theorem eq_of_comparable_cons {latest : Config} {older shorter : List Config}
    (hsuffix : shorter <:+ latest :: older ∨ latest :: older <:+ shorter)
    (hlength : shorter.length = older.length) : shorter = older := by
  rcases hsuffix with hsuffix | hsuffix
  · rcases suffix_cons_iff.mp hsuffix with rfl | hsuffix
    · simp at hlength
    · exact hsuffix.eq_of_length hlength
  · have hle := hsuffix.length_le
    simp only [length_cons] at hle
    omega

/-- Two nodes that are at most one phase apart and have had the same configurations, as far as they
have come, can talk to each other. -/
theorem receives_of_close {sender receiver : Node} (hsender : Staged sender)
    (hreceiver : Staged receiver)
    (hsuffix : sender.history <:+ receiver.history ∨ receiver.history <:+ sender.history)
    (hahead : sender.stage ≤ receiver.stage + 1) (hbehind : receiver.stage ≤ sender.stage + 1) :
    receiver.crypto.Receives sender.crypto.transmits := by
  obtain ⟨ownConfig, ownOlder, hown, hsends, hownLength⟩ := hsender
  obtain ⟨config, older, hhistory, hreceives, hlength⟩ := hreceiver
  rw [hsends.transmits]
  rw [hown, hhistory] at hsuffix
  have hcases : ownOlder.length = older.length ∨ ownOlder.length + 1 = older.length ∨
      ownOlder.length = older.length + 1 := by
    omega
  rcases hcases with heq | hless | hmore
  · -- Both have had the same changes.
    have hsame : ownConfig :: ownOlder = config :: older := by
      rcases hsuffix with hsuffix | hsuffix
      · exact hsuffix.eq_of_length (by simp [heq])
      · exact (hsuffix.eq_of_length (by simp [heq])).symm
    obtain ⟨rfl, rfl⟩ := List.cons.inj hsame
    split
    · exact hreceives.receives_previous (by omega)
    · exact hreceives.receives_current
  · -- The receiver has configured a change that the sender has not seen.
    have hphase : ¬ sender.stage % 3 = 1 := by omega
    have hown : ownConfig :: ownOlder = older := eq_of_comparable_cons hsuffix hless
    subst hown
    rw [if_neg hphase]
    exact hreceives.receives_previous (by omega)
  · -- The sender has configured a change that the receiver has not seen.
    have hphase : sender.stage % 3 = 1 := by omega
    have holder : config :: older = ownOlder := eq_of_comparable_cons hsuffix.symm hmore.symm
    subst holder
    rw [if_pos hphase]
    exact hreceives.receives_current

/-! ### The ordered messages -/

/-- The configurations a node has had after a message. -/
def noteMessage (history : List Config) : Message → List Config
  | .reload config => if history.head? = some config then history else config :: history
  | .reconfig _ _ => history

/-- The configurations a node has had after some of the ordered messages. -/
def noteMessages (config : Config) (messages : List Message) : List Config :=
  messages.foldl noteMessage [config]

/-- Later messages note later configurations. -/
theorem suffix_noteMessages_append (config : Config) (messages more : List Message) :
    noteMessages config messages <:+ noteMessages config (messages ++ more) := by
  unfold noteMessages
  rw [foldl_append]
  generalize messages.foldl noteMessage [config] = history
  induction more generalizing history with
  | nil => exact suffix_refl _
  | cons message _ ih =>
    refine List.IsSuffix.trans ?_ (ih (noteMessage history message))
    cases message with
    | reload _ =>
      simp only [noteMessage]
      split
      · exact suffix_refl _
      · exact suffix_cons _ _
    | reconfig _ _ => exact suffix_refl _

/-- Two nodes have had the same configurations, as far as they have come. -/
theorem noteMessages_comparable (config : Config) (order : List Message) (first second : ℕ) :
    noteMessages config (order.take first) <:+ noteMessages config (order.take second) ∨
      noteMessages config (order.take second) <:+ noteMessages config (order.take first) := by
  rcases Nat.le_total first second with hle | hle
  · left
    obtain ⟨more, hmore⟩ := take_prefix_take_left hle (l := order)
    rw [← hmore]
    exact suffix_noteMessages_append config _ _
  · right
    obtain ⟨more, hmore⟩ := take_prefix_take_left hle (l := order)
    rw [← hmore]
    exact suffix_noteMessages_append config _ _

/-- The message is a reconfiguration message of a node. -/
def Message.isOf (nodeid : ℕ) : Message → Bool
  | .reload _ => false
  | .reconfig sender _ => sender = nodeid

/-- The reconfiguration messages of a node that it has not delivered yet. -/
def due (nodeid stage : ℕ) : List Message :=
  if stage % 3 = 0 then []
  else if stage % 3 = 1 then [.reconfig nodeid .activate]
  else [.reconfig nodeid .cleanup]

/-- A node among the ordered messages. -/
structure Placed (start : Config) (order : List Message) (nodeid : ℕ) (node : Node) : Prop where
  staged : Staged node
  history : node.history = noteMessages start (order.take node.delivered)
  delivered : node.delivered ≤ order.length
  own : ∀ message ∈ node.outgoing, message.isOf nodeid = true
  waits : (order.drop node.delivered ++ node.outgoing).filter (Message.isOf nodeid) =
    due nodeid node.stage

variable {start : Config} {order : List Message} {nodeid : ℕ} {node : Node} {message : Message}

/-- A message that is not one of the node. -/
theorem Placed.append (h : Placed start order nodeid node) (hother : message.isOf nodeid = false) :
    Placed start (order ++ [message]) nodeid node := by
  refine ⟨h.staged, ?_, ?_, h.own, ?_⟩
  · rw [h.history, take_append_of_le_length h.delivered]
  · simp only [length_append, length_cons, length_nil]
    exact Nat.le_trans h.delivered (Nat.le_add_right _ _)
  · have hwaits := h.waits
    rw [drop_append_of_le_length h.delivered]
    simpa [filter_append, hother] using hwaits

/-- The node sends a message. -/
theorem Placed.send {rest : List Message} (h : Placed start order nodeid node)
    (houtgoing : node.outgoing = message :: rest) :
    Placed start (order ++ [message]) nodeid { node with outgoing := rest } := by
  refine ⟨h.staged, ?_, ?_, ?_, ?_⟩
  · rw [take_append_of_le_length h.delivered]
    exact h.history
  · simp only [length_append, length_cons, length_nil]
    exact Nat.le_trans h.delivered (Nat.le_add_right _ _)
  · intro message hmessage
    exact h.own message (houtgoing ▸ mem_cons_of_mem _ hmessage)
  · have hwaits := h.waits
    rw [houtgoing] at hwaits
    rw [drop_append_of_le_length h.delivered]
    simpa using hwaits

/-- The messages that are left after the next one. -/
theorem drop_of_getElem? (hnext : order[node.delivered]? = some message) :
    order.drop node.delivered = message :: order.drop (node.delivered + 1) := by
  obtain ⟨hlt, heq⟩ := List.getElem?_eq_some_iff.mp hnext
  rw [← heq, drop_eq_getElem_cons hlt]

/-- The configurations after one more message. -/
theorem noteMessages_take_succ (hnext : order[node.delivered]? = some message) :
    noteMessages start (order.take (node.delivered + 1)) =
      noteMessage (noteMessages start (order.take node.delivered)) message := by
  unfold noteMessages
  rw [take_add_one, hnext, Option.toList_some, foldl_append]
  rfl

/-- A message that is not about this node. -/
theorem Placed.skip (h : Placed start order nodeid node)
    (hnext : order[node.delivered]? = some message) (hother : message.isOf nodeid = false)
    (hsame : noteMessage node.history message = node.history) :
    Placed start order nodeid { node with delivered := node.delivered + 1 } := by
  have hlt := (List.getElem?_eq_some_iff.mp hnext).1
  refine ⟨h.staged, ?_, hlt, h.own, ?_⟩
  · simp only [noteMessages_take_succ hnext, ← h.history, hsame]
  · have hwaits := h.waits
    rw [drop_of_getElem? hnext] at hwaits
    simpa [hother] using hwaits

/-- The node delivers a new configuration. -/
theorem Placed.reload {config : Config} (h : Placed start order nodeid node)
    (hnext : order[node.delivered]? = some (.reload config))
    (hchanged : config ≠ node.crypto.config) (hsettled : node.stage % 3 = 0) :
    Placed start order nodeid (node.deliver nodeid (.reload config)) := by
  have hlt := (List.getElem?_eq_some_iff.mp hnext).1
  obtain ⟨current, older, hhistory, hconfigured, hlength⟩ := h.staged
  have hwaits := h.waits
  rw [drop_of_getElem? hnext] at hwaits
  simp only [deliver, Node.reloadConfig, if_neg hchanged]
  refine ⟨⟨config, current :: older, ?_, ?_, ?_⟩, ?_, hlt, ?_, ?_⟩
  · rw [hhistory]
  · rw [hsettled] at hconfigured
    have hphase : (node.stage + 1) % 3 = 1 := by omega
    simpa [hphase] using hconfigured.reconfigure config
  · simp only [length_cons]
    omega
  · have hhead : node.history.head? ≠ some config := by
      rw [hhistory, head?_cons, ← hconfigured.config]
      exact fun heq => hchanged (Option.some.inj heq).symm
    simp only [noteMessages_take_succ hnext, ← h.history, noteMessage, if_neg hhead]
  · exact forall_mem_append.mpr ⟨h.own, forall_mem_singleton.mpr (by simp [Message.isOf])⟩
  · have hphase : (node.stage + 1) % 3 = 1 := by omega
    simp only [due, hsettled, hphase] at hwaits ⊢
    simpa [Message.isOf, ← append_assoc] using hwaits

/-- The next message of the node is for the phase it is in. -/
theorem Placed.next_phase {phase : Phase} (h : Placed start order nodeid node)
    (hnext : order[node.delivered]? = some (.reconfig nodeid phase)) :
    (order.drop (node.delivered + 1) ++ node.outgoing).filter (Message.isOf nodeid) = [] ∧
      (node.stage % 3 = 1 ∧ phase = .activate ∨ node.stage % 3 = 2 ∧ phase = .cleanup) := by
  have hwaits := h.waits
  rw [drop_of_getElem? hnext, cons_append, filter_cons_of_pos (by simp [Message.isOf])]
    at hwaits
  unfold due at hwaits
  split_ifs at hwaits with hsettled hone
  · obtain ⟨hmessage, hrest⟩ := List.cons.inj hwaits
    exact ⟨hrest, .inl ⟨hone, (Message.reconfig.inj hmessage).2⟩⟩
  · obtain ⟨hmessage, hrest⟩ := List.cons.inj hwaits
    exact ⟨hrest, .inr ⟨by omega, (Message.reconfig.inj hmessage).2⟩⟩

/-- The node delivers its own message. -/
theorem Placed.reconfig {phase : Phase} (h : Placed start order nodeid node)
    (hnext : order[node.delivered]? = some (.reconfig nodeid phase)) :
    Placed start order nodeid (node.deliver nodeid (.reconfig nodeid phase)) := by
  have hlt := (List.getElem?_eq_some_iff.mp hnext).1
  have hhistory : node.history = noteMessages start (order.take (node.delivered + 1)) := by
    rw [noteMessages_take_succ hnext, ← h.history]
    rfl
  obtain ⟨current, older, hcurrent, hconfigured, hlength⟩ := h.staged
  obtain ⟨hrest, ⟨hstage, rfl⟩ | ⟨hstage, rfl⟩⟩ := h.next_phase hnext
  · have hphase : (node.stage + 1) % 3 = 2 := by omega
    simp only [deliver, reconfigCrypto, if_true]
    refine ⟨⟨current, older, hcurrent, ?_, by dsimp only; omega⟩, hhistory, hlt, ?_, ?_⟩
    · rw [hstage] at hconfigured
      simpa [hphase] using hconfigured.activate
    · exact forall_mem_append.mpr ⟨h.own, forall_mem_singleton.mpr (by simp [Message.isOf])⟩
    · simp only [due, hphase]
      rw [← append_assoc, filter_append, hrest]
      simp [Message.isOf]
  · have hphase : (node.stage + 1) % 3 = 0 := by omega
    simp only [deliver, reconfigCrypto, if_true]
    refine ⟨⟨current, older, hcurrent, ?_, by dsimp only; omega⟩, hhistory, hlt, ?_, ?_⟩
    · rw [hstage] at hconfigured
      simpa [hphase] using hconfigured.cleanup (older.headD none)
    · simpa using h.own
    · simpa [due, hphase] using hrest

/-! ### Runs -/

/-- The members are in step. -/
structure Lockstep (members : List ℕ) (start : Config) (s : System) : Prop where
  placed : ∀ nodeid, Placed start s.order nodeid (s.nodes nodeid)
  close : ∀ first ∈ members, ∀ second ∈ members,
    (s.nodes first).stage ≤ (s.nodes second).stage + 1

variable {members : List ℕ} {s s' : System}

/-- A delivery goes at most one phase on, and only if the message makes the node advance. -/
theorem stage_deliver (s : System) (nodeid : ℕ) (message : Message) :
    ((s.nodes nodeid).deliver nodeid message).stage =
      (s.nodes nodeid).stage + if s.Advances nodeid message then 1 else 0 := by
  cases message with
  | reload config =>
    by_cases hsame : config = (s.nodes nodeid).crypto.config <;>
      simp [deliver, Node.reloadConfig, System.Advances, hsame]
  | reconfig sender _ =>
    by_cases hown : sender = nodeid <;>
      simp [deliver, reconfigCrypto, System.Advances, hown]

/-- A delivery in step. -/
theorem Lockstep.placed_deliver (h : Lockstep members start s)
    (hnext : s.order[(s.nodes nodeid).delivered]? = some message)
    (hinStep : s.InStep members (.deliver nodeid)) :
    Placed start s.order nodeid ((s.nodes nodeid).deliver nodeid message) := by
  have hplaced := h.placed nodeid
  cases message with
  | reload config =>
    by_cases hsame : config = (s.nodes nodeid).crypto.config
    · obtain ⟨current, older, hhistory, hconfigured, _⟩ := hplaced.staged
      have hhead : (s.nodes nodeid).history.head? = some config := by
        rw [hhistory, hsame, hconfigured.config, head?_cons]
      simp only [deliver, Node.reloadConfig, if_pos hsame]
      exact hplaced.skip hnext rfl (by simp only [noteMessage, if_pos hhead])
    · exact hplaced.reload hnext hsame ((hinStep _ hnext hsame).2 rfl)
  | reconfig sender _ =>
    by_cases hown : sender = nodeid
    · subst hown
      exact hplaced.reconfig hnext
    · simp only [deliver, reconfigCrypto, if_neg hown]
      exact hplaced.skip hnext (by simp [Message.isOf, hown]) rfl

/-- Every step in step keeps the phases together. -/
theorem Lockstep.step {event : Event} (h : Lockstep members start s)
    (hinStep : s.InStep members event) (hstep : s.step members event = some s') :
    Lockstep members start s' := by
  cases event with
  | reload _ =>
    cases hstep
    exact ⟨fun nodeid => (h.placed nodeid).append rfl, h.close⟩
  | send nodeid =>
    simp only [System.step] at hstep
    split at hstep
    · cases hstep
    rename_i message rest houtgoing
    cases hstep
    have hown := (h.placed nodeid).own message (houtgoing ▸ mem_cons_self)
    have hstage : ∀ other, (Function.update s.nodes nodeid
        { s.nodes nodeid with outgoing := rest } other).stage = (s.nodes other).stage := by
      intro other
      by_cases heq : other = nodeid
      · subst heq
        simp
      · simp [heq]
    refine ⟨fun other => ?_, fun first hfirst second hsecond => ?_⟩
    · by_cases heq : other = nodeid
      · subst heq
        simpa using (h.placed other).send houtgoing
      simp only [update_of_ne heq]
      refine (h.placed other).append ?_
      cases message with
      | reload _ => rfl
      | reconfig _ _ =>
        simp only [Message.isOf, decide_eq_true_eq] at hown
        simp [Message.isOf, hown, Ne.symm heq]
    · simpa only [hstage] using h.close first hfirst second hsecond
  | deliver nodeid =>
    simp only [System.step] at hstep
    split at hstep
    · cases hstep
    rename_i message hnext
    obtain ⟨hmember, hstep⟩ := Option.ite_none_right_eq_some.mp hstep
    cases hstep
    have hdelivered := h.placed_deliver hnext hinStep
    have hadvances := stage_deliver s nodeid message
    have hbehind := hinStep message hnext
    refine ⟨fun other => ?_, fun first hfirst second hsecond => ?_⟩
    · by_cases heq : other = nodeid
      · subst heq
        simpa using hdelivered
      · simpa [heq] using h.placed other
    · have hclose := h.close first hfirst second hsecond
      by_cases hone : first = nodeid
      · by_cases htwo : second = nodeid
        · simp [hone, htwo]
        simp only [hone, update_self, update_of_ne htwo,
          hadvances] at hclose ⊢
        split
        · rename_i hadvance
          have hle := (hbehind hadvance).1 second hsecond
          omega
        · omega
      · by_cases htwo : second = nodeid
        · simp only [htwo, update_self, update_of_ne hone,
            hadvances] at hclose ⊢
          omega
        · simpa only [update_of_ne hone, update_of_ne htwo] using hclose

/-- All nodes begin with one configuration. -/
theorem lockstep_initialise (members : List ℕ) (start : Config) :
    Lockstep members start (.initialise start) := by
  refine ⟨fun nodeid =>
    ⟨⟨start, [], rfl, configured_initialise start _, ?_⟩, rfl, ?_, ?_, rfl⟩, ?_⟩
  · simp [System.initialise]
  · simp [System.initialise]
  · simp [System.initialise]
  · simp [System.initialise]

/-- Any two nodes understand each other. -/
theorem Lockstep.continuous (h : Lockstep members start s) : s.Continuous members := by
  intro sender hsender receiver hreceiver
  have hown := h.placed sender
  have hother := h.placed receiver
  refine receives_of_close hown.staged hother.staged ?_ (h.close sender hsender receiver hreceiver)
    (h.close receiver hreceiver sender hsender)
  rw [hown.history, hother.history]
  exact noteMessages_comparable start s.order _ _

/-- In every run in which no member goes into a phase while another one has not finished the phase
before, every member can receive what any member transmits, for any number of changes of the
encryption. -/
theorem rekey_continuous (members : List ℕ) (start : Config) (events : List Event) (s : System)
    (hrun : run (restrict (System.InStep members) (System.step members)) (.initialise start)
      events = some s) : s.Continuous members := by
  have hlockstep : Lockstep members start s := by
    refine run_invariant (P := Lockstep members start) ?_ (lockstep_initialise members start) hrun
    intro s event s' h hstep
    obtain ⟨hinStep, hstep⟩ := restrict_eq_some.mp hstep
    exact h.step hinStep hstep
  exact hlockstep.continuous

/-- Two members change the encryption, one of them always a phase ahead. -/
theorem rekey_continuous_twoMembers :
    ∃ s, run (restrict (System.InStep [1, 2]) (System.step [1, 2])) (.initialise (some 10))
        [.reload (some 11), .deliver 1, .deliver 2, .send 1, .deliver 1, .send 2, .deliver 2,
          .deliver 2, .send 1, .send 2, .deliver 1, .deliver 1] = some s ∧
      (s.nodes 1).stage = 3 ∧ (s.nodes 2).stage = 2 ∧ s.Continuous [1, 2] := by
  refine exists_run_imp (fun s => (s.nodes 1).stage = 3 ∧ (s.nodes 2).stage = 2)
    (by decide +kernel) fun s hrun hstage => ?_
  exact ⟨hstage.1, hstage.2, rekey_continuous [1, 2] (some 10) _ s hrun⟩

/-- A member that delivers the reload and its own activation transmits with a configuration that a
member which has delivered neither does not have. -/
theorem early_activation_not_received :
    ∃ s, run (System.step [1, 2]) (.initialise (some 10))
        [.reload (some 11), .deliver 1, .send 1, .deliver 1] = some s ∧ ¬ s.Continuous [1, 2] :=
  exists_run_of_any (by decide +kernel)

end Corosync.Cfg.Rekey
