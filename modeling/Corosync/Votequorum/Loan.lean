import Corosync.Votequorum.Device
import Corosync.Votequorum.SplitBrain

/-!
# The vote of the quorum device

The quorum device lends its vote to one partition at a time: it casts it for a node, or its vote is
announced to a node, only when the nodes of the other partitions have given it back and have decided
without it. Then settled nodes whose rings have no common node are not both quorate, provided that
the expected votes include those of the device.
-/

namespace Corosync.Votequorum

open Function Library List

variable {c : Cluster} {members : ℕ → List NodeId} {expected device : ℕ} {s s' : System} {e : Event}
  {n n' : Node} {a b : NodeId} {ring : List NodeId}

/-- No group of nodes that lacks one of the cluster has a majority by itself. -/
def Cluster.Interlocked (c : Cluster) (expected : ℕ) : Prop :=
  ∀ b ∈ c.ids, c.total - c.votes b < majority expected

instance (c : Cluster) (expected : ℕ) : Decidable (c.Interlocked expected) :=
  inferInstanceAs (Decidable (∀ b ∈ c.ids, _))

/-- What holds of a node in a cluster with a quorum device. -/
structure Borrower (c : Cluster) (expected device : ℕ) (ring : List NodeId) (n : Node) : Prop where
  autoTieBreaker : n.autoTieBreaker = .none
  masterWins : n.qdeviceMasterWins = true → c.Interlocked expected
  carries : n.syncInProgress = false → n.clusterIsQuorate = true →
    majority expected ≤ tally c.votes ring + device ∨ c.Interlocked expected

namespace System

/-- The packets of a node that it has not delivered itself yet. -/
def pending (s : System) (a : NodeId) : List Packet :=
  own a ((s.log (s.ring a)).drop (s.delivered a)) ++ s.queue a

/-- The quorum device counts for a node, or the node has not heard its own announcement yet. -/
def Lent (s : System) (a : NodeId) : Prop :=
  (s.nodes a).Backed ∨ ∃ packet ∈ s.pending a, (announcement a packet).isSome = true

instance (s : System) (a : NodeId) : Decidable (s.Lent a) := inferInstanceAs (Decidable (_ ∨ _))

/-- The quorum device counts for a node, or the node is quorate without a majority. -/
def Held (c : Cluster) (members : ℕ → List NodeId) (expected : ℕ) (s : System) (a : NodeId) :
    Prop :=
  (s.nodes a).Backed ∨
    (s.nodes a).clusterIsQuorate = true ∧ tally c.votes (members (s.ring a)) < majority expected

/-- A packet that announces the vote of the quorum device. -/
def casts : Packet → Bool
  | .message (.nodeinfo info) => info.flags.qdeviceCastVote
  | _ => false

/-- The events by which the quorum device begins to count for a settled node. -/
def Gains (s : System) : Event → Prop
  | .deliver b => (s.nodes b).syncInProgress = false ∧
      (s.log (s.ring b))[s.delivered b]?.any (fun entry => casts entry.2) = true
  | .activate b => (s.nodes b).Backed
  | .act b (.qdevicePoll castVote) => (s.nodes b).syncInProgress = false ∧ castVote = true
  | _ => False

instance (s : System) (e : Event) : Decidable (s.Gains e) :=
  match e with
  | .deliver _ => inferInstanceAs (Decidable (_ ∧ _))
  | .activate b => inferInstanceAs (Decidable (s.nodes b).Backed)
  | .act _ action =>
    match action with
    | .qdevicePoll _ => inferInstanceAs (Decidable (_ ∧ _))
    | .reload _ | .lastManStandingTimer | .exit | .qdeviceRegister | .qdeviceUnregister
    | .qdeviceMasterWins _ | .qdeviceTimer | .setexpected _ | .setvotes _ _ | .cancelWaitForAll =>
      isFalse not_false
  | .start _ _ _ | .enter _ _ | .process _ | .transmit _ => isFalse not_false

/-- The vote is not lent to a settled node of another partition. -/
def Free (c : Cluster) (members : ℕ → List NodeId) (s : System) (b : NodeId) : Prop :=
  ∀ a ∈ c.ids, 0 < s.ring a → (s.nodes a).syncInProgress = false →
    (∀ x ∈ members (s.ring a), x ∉ members (s.ring b)) → ¬s.Lent a

instance (c : Cluster) (members : ℕ → List NodeId) (s : System) (b : NodeId) :
    Decidable (s.Free c members b) := inferInstanceAs (Decidable (∀ a ∈ c.ids, _))

end System

/-- Nodes of a cluster start with these expected votes and device votes and form rings; the quorum
device lends its vote to one partition at a time. -/
def Cluster.Lending (c : Cluster) (members : ℕ → List NodeId) (expected device : ℕ) (s : System)
    (e : Event) : Prop :=
  (s.Gains e → s.Free c members e.node) ∧
    match e with
    | .start a config r => c.Lists a config ∧ config.Expects expected device ∧
        config.autoTieBreaker = false ∧ members r ⊆ c.ids
    | .enter _ r => members r ⊆ c.ids
    | .act _ action => action.device = true ∧
        (action = .qdeviceMasterWins true → c.Interlocked expected)
    | _ => True

instance (c : Cluster) (members : ℕ → List NodeId) (expected device : ℕ) (s : System) (e : Event) :
    Decidable (c.Lending members expected device s e) :=
  match e with
  | .start _ _ _ | .act _ _ => inferInstanceAs (Decidable (_ ∧ _ ∧ _))
  | .enter _ r => inferInstanceAs (Decidable (_ ∧ members r ⊆ c.ids))
  | .process _ | .transmit _ | .deliver _ | .activate _ => inferInstanceAs (Decidable (_ ∧ True))

/-- Such events have fixed expected votes. -/
theorem Cluster.Lending.fixed (hlending : c.Lending members expected device s e) :
    c.Fixed members expected device e := by
  obtain ⟨-, hevent⟩ := hlending
  cases e with
  | start _ _ _ => exact ⟨hevent.1, hevent.2.1, hevent.2.2.2⟩
  | enter _ _ => exact hevent
  | act _ action =>
    refine ⟨?_, fun hexit => ?_, fun htimer => ?_⟩
    · cases action with
      | reload _ | setexpected _ | setvotes _ _ | cancelWaitForAll =>
        exact absurd hevent.1 Bool.false_ne_true
      | _ => rfl
    · rw [hexit] at hevent
      exact absurd hevent.1 Bool.false_ne_true
    · rw [htimer] at hevent
      exact absurd hevent.1 Bool.false_ne_true
  | _ => trivial

namespace Borrower

/-- A decision of a settled node that follows from what it knows. -/
theorem of_decided (hbase : Base c a ring n) (hexpecting : Expecting expected device n)
    (hbound : expected < 510) (hvotes : c.total + device ≤ expected)
    (htie : n.autoTieBreaker = .none)
    (hmaster : n.qdeviceMasterWins = true → c.Interlocked expected)
    (hsync : n.syncInProgress = false) (hdecided : n.Decided)
    (hquorate : n.clusterIsQuorate = true) :
    (majority expected ≤ tally c.votes ring ∨ n.Backed) ∧
      (majority expected ≤ tally c.votes ring + device ∨ c.Interlocked expected) := by
  have htally := hbase.tally_le
  have hcount : n.countVotes.1 = tally c.votes ring +
      if n.us.flags.qdeviceCastVote then device else 0 := by
    rw [Node.countVotes, hbase.memberVotes_eq hsync, hexpecting.qdeviceVotes]
    split <;> exact Nat.mod_eq_of_lt (by omega)
  rw [Node.Decided, hquorate, hcount] at hdecided
  simp only [Node.isQuorate, Node.tieBreak, htie, hexpecting.quorum, Eq.comm (a := true),
    Bool.or_eq_true, decide_eq_true_eq, Bool.and_eq_true, ne_eq, not_true, false_and, decide_false,
    Bool.false_eq_true, or_false] at hdecided
  obtain hreached | ⟨hwins, hcheck⟩ := hdecided
  · by_cases hcast : n.us.flags.qdeviceCastVote = true
    · rw [if_pos hcast] at hreached
      exact ⟨.inr (.inl hcast), .inl hreached⟩
    · rw [if_neg hcast] at hreached
      exact ⟨.inl hreached, .inl (by omega)⟩
  · exact ⟨.inr (.inr hcheck), .inr (hmaster hwins)⟩

/-- What one step of a node does to the vote it has borrowed. -/
theorem nodeStep {ring' : List NodeId} {Q : NodeId → Message → Prop}
    (hlending : c.Lending members expected device s e) (hbound : expected < 510)
    (hvotes : c.total + device ≤ expected) (hbase : Base c a ring' n')
    (hexpecting : Expecting expected device n') (houtcome : Outcome n n')
    (hstep : NodeStep members (fun _ ring n => Borrower c expected device ring n) Q
      a ring n e ring' n') :
    Borrower c expected device ring' n' := by
  have hcarries : ∀ (_ : n'.autoTieBreaker = .none)
      (_ : n'.qdeviceMasterWins = true → c.Interlocked expected)
      (_ : n.syncInProgress = false → n.clusterIsQuorate = true →
        majority expected ≤ tally c.votes ring' + device ∨ c.Interlocked expected),
      Borrower c expected device ring' n' := by
    intro htie hmaster hold
    refine ⟨htie, hmaster, fun hsync hquorate => ?_⟩
    obtain hdecided | ⟨hsettled, hsame⟩ := houtcome hsync
    · exact (of_decided hbase hexpecting hbound hvotes htie hmaster hsync hdecided hquorate).2
    · exact hold hsettled (hsame ▸ hquorate)
  have hsettings : ∀ (_ : Borrower c expected device ring n) (lastManStanding : Bool)
      (_ : n'.toSettings = { n.toSettings with lastManStanding := lastManStanding }),
      n'.autoTieBreaker = .none ∧ (n'.qdeviceMasterWins = true → c.Interlocked expected) := by
    intro hborrower lastManStanding heq
    rw [heq]
    exact ⟨hborrower.autoTieBreaker, hborrower.masterWins⟩
  cases hstep with
  | @start config r started _ hinit =>
    obtain ⟨-, -, -, htie, -⟩ := hlending
    have htie : config.tieBreaker = .none := by simp [Icmap.tieBreaker, htie]
    have hdeviceless : Deviceless .none [] (started.syncInit (members r)) :=
      (Deviceless.start htie (by simp) hinit).syncInit
    refine ⟨hdeviceless.autoTieBreaker.elim id id, fun hwins => ?_, fun hsync => ?_⟩
    · exact absurd hwins (by simp [hdeviceless.masterWins])
    · simp at hsync
  | @enter r hnode _ =>
    obtain ⟨_, _, heq, -⟩ := n.syncInit_eq (members r)
    have hsame : (n.syncInit (members r)).toSettings = n.toSettings := by
      rw [heq]
      rfl
    refine ⟨?_, ?_, by simp⟩
    · rw [hsame]
      exact hnode.autoTieBreaker
    · rw [hsame]
      exact hnode.masterWins
  | process hnode _ =>
    rw [Node.syncProcess_fst]
    exact { hnode with }
  | transmit hnode => exact hnode
  | barrier hnode => exact hnode
  | @deliver sender info hnode _ _ =>
    obtain ⟨lastManStanding, heq⟩ := n.settings_nodeinfoHandler sender info
    obtain ⟨htie, hmaster⟩ := hsettings hnode lastManStanding heq
    exact hcarries htie hmaster hnode.carries
  | activate hnode _ =>
    obtain ⟨htie, hmaster⟩ := hsettings hnode n.lastManStanding
      (n.kept_recalculate false false).settings
    exact hcarries htie hmaster hnode.carries
  | @act _ hnode =>
    have hdevice := DeviceStep.act n hlending.2.1
    obtain ⟨_, _, _, _, heq⟩ := hdevice.adjusted
    refine hcarries ?_ (fun hwins => ?_) hnode.carries
    · rw [heq]
      exact hnode.autoTieBreaker
    · exact (hdevice.masterWins hwins).elim hnode.masterWins hlending.2.2

end Borrower

/-- What holds in every run in which the vote is lent to one partition at a time. -/
structure Loan (c : Cluster) (members : ℕ → List NodeId) (expected device : ℕ) (s : System) : Prop
    extends Steadfast c members expected device s where
  borrower : Everywhere members (fun _ ring n => Borrower c expected device ring n)
    (fun _ _ => True) s
  lent : ∀ a, 0 < s.ring a → (s.nodes a).syncInProgress = false →
    (s.nodes a).clusterIsQuorate = true →
    tally c.votes (members (s.ring a)) < majority expected → s.Lent a
  exclusive : ∀ a b, 0 < s.ring a → 0 < s.ring b → (s.nodes a).syncInProgress = false →
    (s.nodes b).syncInProgress = false → (members (s.ring a)).Disjoint (members (s.ring b)) →
    s.Held c members expected a → ¬s.Held c members expected b

namespace Loan

/-- Before the first start nothing is lent. -/
theorem cold : Loan c members expected device System.cold :=
  ⟨Steadfast.cold, Everywhere.cold, fun _ hring => absurd hring (Nat.lt_irrefl 0),
    fun _ _ hring => absurd hring (Nat.lt_irrefl 0)⟩

/-- A settled node holds the vote only while it is lent to it. -/
theorem lent_of_held (hloan : Loan c members expected device s) (ha : 0 < s.ring a)
    (hsync : (s.nodes a).syncInProgress = false) (hheld : s.Held c members expected a) :
    s.Lent a := by
  obtain hbacked | ⟨hquorate, hfew⟩ := hheld
  · exact .inl hbacked
  · exact hloan.lent a ha hsync hquorate hfew

/-- What was announced stays pending until it is delivered. -/
theorem pending_untouched (hsound : Sound members s) (hstep : System.Step members s e s')
    (huntouched : System.Untouched s s' b) {packet : Packet} (hmem : packet ∈ s.pending b) :
    packet ∈ s'.pending b := by
  obtain ⟨rest, hrest⟩ := hstep.log_grows (s.ring b)
  unfold System.pending at hmem ⊢
  rw [huntouched.ring, huntouched.delivered, huntouched.queue, ← hrest,
    drop_append_of_le_length (hsound.delivered b), own_append]
  simp only [mem_append] at hmem ⊢
  exact hmem.imp_left .inl

/-- The first pending packet is the one that is delivered next, if the node has sent it. -/
theorem pending_handled {sender : NodeId} {packet : Packet}
    (hnext : (s.log (s.ring a))[s.delivered a]? = some (sender, packet)) (n : Node)
    {other : Packet} (hmem : other ∈ s.pending a) (hother : other ≠ packet) :
    other ∈ (s.handled a n).pending a := by
  have hdrop : (s.log (s.ring a)).drop (s.delivered a) =
      (sender, packet) :: (s.log (s.ring a)).drop (s.delivered a + 1) := by
    obtain ⟨hlt, hget⟩ := List.getElem?_eq_some_iff.mp hnext
    rw [drop_eq_getElem_cons hlt, hget]
  unfold System.pending at hmem ⊢
  rw [hdrop] at hmem
  simp only [System.handled, update_self, mem_append, mem_own, mem_cons] at hmem ⊢
  obtain (heq | hlog) | hqueue := hmem
  · exact absurd (Prod.mk.inj heq).2 hother
  · exact .inl hlog
  · exact .inr hqueue

/-- What a step does to a node that is settled after it. -/
structure Settling (s : System) (e : Event) (s' : System) : Prop where
  ring : s'.ring e.node = s.ring e.node
  pos : 0 < s.ring e.node
  backed : (s'.nodes e.node).Backed →
    (s.nodes e.node).syncInProgress = false ∧ (s.nodes e.node).Backed ∨ s.Gains e
  decided : (s'.nodes e.node).Decided ∨ (s.nodes e.node).syncInProgress = false ∧
    (s'.nodes e.node).clusterIsQuorate = (s.nodes e.node).clusterIsQuorate ∧
      (s.Lent e.node → s'.Lent e.node)

/-- A delivery on a settled node. -/
theorem settling_deliver (hloan : Loan c members expected device s) (hbound : expected < 510)
    (hvotes : c.total + device ≤ expected) {sender : NodeId} {packet : Packet}
    (hring : 0 < s.ring a) (hnext : (s.log (s.ring a))[s.delivered a]? = some (sender, packet))
    (hsync : (System.delivery (s.nodes a) sender packet).syncInProgress = false) :
    Settling s (.deliver a) (s.handled a (System.delivery (s.nodes a) sender packet)) := by
  have hsettled : (s.nodes a).syncInProgress = false := by
    rw [← (delivery_sameSync (s.nodes a) sender packet).syncInProgress]
    exact hsync
  have hbase := hloan.base hring
  cases packet with
  | barrier _ =>
    refine ⟨rfl, hring, ?_, .inr ⟨hsettled, ?_, fun hlent => ?_⟩⟩
    · simp only [System.handled, Event.node, update_self]
      exact fun hbacked => .inl ⟨hsettled, hbacked⟩
    · simp [System.handled, Event.node, System.delivery]
    · obtain hbacked | ⟨packet, hmem, hown⟩ := hlent
      · refine .inl ?_
        simp only [System.handled, Event.node, update_self]
        exact hbacked
      · refine .inr ⟨packet, pending_handled hnext _ hmem fun heq => ?_, hown⟩
        rw [heq] at hown
        exact absurd hown (by simp [announcement])
  | message _ =>
    obtain ⟨info, rfl⟩ := hloan.nodeinfos.log _ _ _ (mem_of_getElem? hnext)
    have houtcome := hloan.toSteadfast.outcome_of_deliver hbound hvotes hring hnext
    refine ⟨rfl, hring, ?_, ?_⟩
    · simp only [System.handled, Event.node, update_self]
      intro hbacked
      obtain hcast | hold := (s.nodes a).backed_nodeinfoHandler sender info hbacked
      · refine .inr ⟨hsettled, ?_⟩
        rw [hnext]
        exact hcast
      · exact .inl ⟨hsettled, hold⟩
    · simp only [System.handled, Event.node, update_self]
      refine houtcome.imp_right fun hkept => ⟨hsettled, hkept.2, fun hlent => ?_⟩
      have hunmoved := hkept.1
      obtain hbacked | ⟨packet, hmem, hown⟩ := hlent
      · refine .inl ?_
        simp only [update_self]
        exact Node.backed_of_unmoved hbase.roster hbase.isRing sender hunmoved hbacked
      · refine .inr ⟨packet, pending_handled hnext _ hmem fun heq => ?_, hown⟩
        have hne := Node.ne_of_unmoved hbase.roster hbase.isRing hunmoved
        rw [hbase.roster.nodeId] at hne
        rw [heq, announcement, if_neg hne] at hown
        cases hown

/-- An action about the quorum device. -/
theorem settling_act {action : Action}
    (hlending : c.Lending members expected device s (.act a action))
    (hring : 0 < s.ring a) (hid : (s.nodes a).us.nodeId = a)
    (hsync : ((s.nodes a).act action).1.syncInProgress = false) :
    Settling s (.act a action) (s.acted a ((s.nodes a).act action).1
      (((s.nodes a).act action).2.map .message)) := by
  have hsettled : (s.nodes a).syncInProgress = false := by
    rw [← (SameRoll.act (s.nodes a) action).syncInProgress]
    exact hsync
  have hdevice := DeviceStep.act (s.nodes a) hlending.2.1
  refine ⟨rfl, hring, ?_, .inr ⟨hsettled, ?_, fun hlent => ?_⟩⟩
  · simp only [System.acted, Event.node, update_self]
    intro hbacked
    refine (hdevice.backed hbacked).imp (fun hold => ⟨hsettled, hold⟩) fun hpoll => ?_
    rw [hpoll]
    exact ⟨hsettled, rfl⟩
  · simp only [System.acted, Event.node, update_self]
    obtain ⟨_, _, _, _, heq⟩ := hdevice.adjusted
    rw [heq]
    rfl
  · obtain hsame | hannounced := hdevice.announced
    · obtain hbacked | ⟨packet, hmem, hown⟩ := hlent
      · refine .inl ?_
        simp only [System.acted, Event.node, update_self]
        exact hdevice.backed_of_flags hsame hbacked
      · refine .inr ⟨packet, ?_, hown⟩
        unfold System.pending at hmem ⊢
        simp only [System.acted, Event.node, update_self, mem_append] at hmem ⊢
        exact hmem.imp_right .inl
    · refine .inr ⟨.message (.nodeinfo ((s.nodes a).act action).1.nodeinfo), ?_, ?_⟩
      · unfold System.pending
        simp only [System.acted, Event.node, update_self, mem_append]
        exact .inr (.inr (mem_map_of_mem hannounced))
      · have hnode : ((s.nodes a).act action).1.nodeinfo.nodeid = a :=
          (SameRoll.act (s.nodes a) action).nodeId.trans hid
        simp [announcement, Event.node, hnode]

/-- A node that is settled after a step. -/
theorem settling (hloan : Loan c members expected device s) (hbound : expected < 510)
    (hvotes : c.total + device ≤ expected) (hlending : c.Lending members expected device s e)
    (hstep : System.Step members s e s') (hsync : (s'.nodes e.node).syncInProgress = false) :
    Settling s e s' := by
  cases hstep with
  | start | enter => simp [System.joined, Event.node] at hsync
  | @process a _ hprogress _ _ =>
    simp only [System.acted, Event.node, update_self, Node.syncProcess_fst, hprogress] at hsync
    cases hsync
  | @transmit a packet rest hring hqueue =>
    refine ⟨rfl, hring, fun hbacked => .inl ⟨hsync, hbacked⟩, .inr ⟨hsync, rfl, fun hlent => ?_⟩⟩
    have hpending : (s.transmitted a packet rest).pending a = s.pending a := by
      unfold System.pending
      simp only [System.transmitted, update_self, hqueue]
      rw [drop_append_of_le_length (hloan.delivered a), own_append]
      simp [own]
    refine hlent.imp_right fun hmem => ?_
    rw [Event.node, hpending]
    exact hmem
  | @deliver _ _ _ hring hnext =>
    refine hloan.settling_deliver hbound hvotes hring hnext ?_
    simpa [System.handled, Event.node] using hsync
  | @activate a hring _ _ =>
    have hkept := (s.nodes a).kept_recalculate false false
    refine ⟨rfl, hring, fun hbacked => .inr ?_, .inl ?_⟩
    · simp only [System.settled, Event.node, update_self] at hbacked
      exact hkept.backed hbacked
    simp only [System.settled, Event.node, update_self]
    have hbase := hloan.base hring
    have hle := hbase.memberVotes_le
    have htally := hbase.tally_le
    exact (Expecting.recalculateQuorum (hloan.expecting.node a hring).toReady hbound (by omega)
      false).2.1.setSyncInProgress false
  | @act _ _ hring =>
    refine settling_act hlending hring (hloan.base hring).roster.nodeId ?_
    simpa [System.acted, Event.node] using hsync

/-- A node that is quorate with few votes is backed by the device. -/
theorem backed_of_decided (hsteadfast : Steadfast c members expected device s)
    (hborrower : Borrower c expected device (members (s.ring a)) (s.nodes a))
    (hbound : expected < 510) (hvotes : c.total + device ≤ expected) (ha : 0 < s.ring a)
    (hsync : (s.nodes a).syncInProgress = false) (hquorate : (s.nodes a).clusterIsQuorate = true)
    (hfew : tally c.votes (members (s.ring a)) < majority expected)
    (hdecided : (s.nodes a).Decided) : (s.nodes a).Backed := by
  have hcases := (Borrower.of_decided (hsteadfast.base ha) (hsteadfast.expecting.node a ha) hbound
    hvotes hborrower.autoTieBreaker hborrower.masterWins hsync hdecided hquorate).1
  exact hcases.resolve_left (by omega)

/-- Every step of a lending run keeps the loan exclusive. -/
theorem step (hloan : Loan c members expected device s) (hbound : expected < 510)
    (hvotes : c.total + device ≤ expected) (hlending : c.Lending members expected device s e)
    (hstep : System.Step members s e s') : Loan c members expected device s' := by
  have hsteadfast := hloan.toSteadfast.step hbound hvotes hlending.fixed hstep
  have hborrower : Everywhere members (fun _ ring n => Borrower c expected device ring n)
      (fun _ _ => True) s' := by
    refine hloan.borrower.step_node hlending.fixed.steady.quiet hstep (fun hring => ?_)
      fun _ _ => ⟨fun _ => trivial, trivial⟩
    have hnode := hloan.toSteadfast.step_node hbound hvotes hlending.fixed hstep hring
    exact Borrower.nodeStep hlending hbound hvotes (hsteadfast.base hring) hnode.1 hnode.2
      (hloan.toRecorded.nodeStep hloan.borrower hstep)
  -- what the node on which the step happens holds, it held before, or the vote was free
  have hgains : 0 < s'.ring e.node → (s'.nodes e.node).syncInProgress = false →
      s'.Held c members expected e.node →
        (s.nodes e.node).syncInProgress = false ∧ s.Held c members expected e.node ∨ s.Gains e := by
    intro hring hsync hheld
    have hsettling := hloan.settling hbound hvotes hlending hstep hsync
    have hbacked := fun hbacked => (hsettling.backed hbacked).imp_left
      fun hold : _ ∧ _ => (⟨hold.1, .inl hold.2⟩ :
        (s.nodes e.node).syncInProgress = false ∧ s.Held c members expected e.node)
    obtain hback | ⟨hquorate, hfew⟩ := hheld
    · exact hbacked hback
    · obtain hdecided | ⟨hsettled, hsame, -⟩ := hsettling.decided
      · exact hbacked (backed_of_decided hsteadfast (hborrower.node _ hring) hbound hvotes hring
          hsync hquorate hfew hdecided)
      · exact .inl ⟨hsettled, .inr ⟨hsame ▸ hquorate, hsettling.ring ▸ hfew⟩⟩
  have hexclusive : ∀ b, b ≠ e.node → 0 < s'.ring e.node → 0 < s'.ring b →
      (s'.nodes e.node).syncInProgress = false → (s'.nodes b).syncInProgress = false →
      (members (s'.ring e.node)).Disjoint (members (s'.ring b)) →
      s'.Held c members expected e.node → ¬s'.Held c members expected b := by
    intro b hb hring hring' hsync hsync' hdisjoint hheld hheld'
    have huntouched := hstep.untouched hb
    have hsettling := hloan.settling hbound hvotes hlending hstep hsync
    unfold System.Held at hheld'
    rw [huntouched.nodes, huntouched.ring] at *
    rw [hsettling.ring] at hdisjoint
    obtain ⟨hsettled, hold⟩ | hgain := hgains hring hsync hheld
    · exact hloan.exclusive e.node b hsettling.pos hring' hsettled hsync' hdisjoint hold hheld'
    · have hbase := hloan.base hring'
      exact hlending.1 hgain b (hbase.inside hbase.isRing.mem) hring' hsync'
        (fun x hx hx' => hdisjoint hx' hx) (hloan.lent_of_held hring' hsync' hheld')
  refine ⟨hsteadfast, hborrower, fun a ha hsync hquorate hfew => ?_,
    fun a b ha hb hsync hsync' hdisjoint hheld => ?_⟩
  · by_cases hnode : a = e.node
    · subst hnode
      have hsettling := hloan.settling hbound hvotes hlending hstep hsync
      obtain hdecided | ⟨hsettled, hsame, hlent⟩ := hsettling.decided
      · exact .inl (backed_of_decided hsteadfast (hborrower.node _ ha) hbound hvotes ha hsync
          hquorate hfew hdecided)
      · exact hlent (hloan.lent _ hsettling.pos hsettled (hsame ▸ hquorate) (hsettling.ring ▸ hfew))
    · have huntouched := hstep.untouched hnode
      rw [huntouched.nodes, huntouched.ring] at *
      refine (hloan.lent a ha hsync hquorate hfew).imp (fun hbacked => ?_)
        fun ⟨packet, hmem, hown⟩ =>
        ⟨packet, pending_untouched hloan.toSound hstep huntouched hmem, hown⟩
      rw [huntouched.nodes]
      exact hbacked
  · by_cases hnode : a = e.node
    · subst hnode
      by_cases hnode' : b = e.node
      · subst hnode'
        have hmem := (hsteadfast.base ha).isRing.mem
        exact absurd hmem (hdisjoint hmem)
      · exact hexclusive b hnode' ha hb hsync hsync' hdisjoint hheld
    · by_cases hnode' : b = e.node
      · subst hnode'
        exact fun hheld' => hexclusive a hnode hb ha hsync' hsync
          (fun x hx hx' => hdisjoint hx' hx) hheld' hheld
      · have huntouched := hstep.untouched hnode
        have huntouched' := hstep.untouched hnode'
        unfold System.Held at hheld ⊢
        rw [huntouched.nodes, huntouched.ring, huntouched'.nodes, huntouched'.ring] at *
        exact hloan.exclusive a b ha hb hsync hsync' hdisjoint hheld

/-- Where one ring has a majority, a settled node of another partition is not quorate without. -/
theorem not_quorate_beside_majority (hloan : Loan c members expected device s)
    (hvotes : c.total + device ≤ expected) (ha : 0 < s.ring a) (hb : 0 < s.ring b)
    (hsync : (s.nodes b).syncInProgress = false)
    (hdisjoint : (members (s.ring a)).Disjoint (members (s.ring b)))
    (hmajority : majority expected ≤ tally c.votes (members (s.ring a))) :
    ¬(s.nodes b).clusterIsQuorate = true := by
  intro hquorate
  have hbase := hloan.base ha
  have hbase' := hloan.base hb
  have hsum := @tally_add_le_of_disjoint _ c.votes _ _ _ hbase.isRing.nodup hbase'.isRing.nodup
    hdisjoint hbase.inside hbase'.inside
  have hself := @tally_add_le_of_disjoint _ c.votes _ _ _ hbase.isRing.nodup
    (nodup_singleton b) (disjoint_singleton.mpr fun hmem =>
      hdisjoint hmem hbase'.isRing.mem) hbase.inside
    (cons_subset.mpr ⟨hbase'.inside hbase'.isRing.mem, nil_subset _⟩)
  have htotal : tally c.votes c.ids = c.total := rfl
  have hone : tally c.votes [b] = c.votes b := by simp [tally]
  obtain hcarries | hinterlocked := (hloan.borrower.node b hb).carries hsync hquorate
  · unfold majority at hmajority hcarries
    omega
  · have hless := hinterlocked b (hbase'.inside hbase'.isRing.mem)
    omega

end Loan

/-- In a cluster with a quorum device whose expected votes include those of the device, two settled
nodes whose rings have no common node are not both quorate, in every run in which the vote is lent
to one partition at a time and master wins is allowed only if nobody else can win. -/
theorem lending_not_both_quorate {events : List Event} (hbound : expected ≤ 509)
    (hvotes : c.total + device ≤ expected)
    (hrun : run (restrict (c.Lending members expected device) (System.step members)) System.cold
      events = some s)
    (ha : 0 < s.ring a) (hb : 0 < s.ring b) (hsync : (s.nodes a).syncInProgress = false)
    (hsync' : (s.nodes b).syncInProgress = false)
    (hdisjoint : (members (s.activated a)).Disjoint (members (s.activated b))) :
    ¬((s.nodes a).clusterIsQuorate = true ∧ (s.nodes b).clusterIsQuorate = true) := by
  have hloan : Loan c members expected device s := by
    refine run_invariant ?_ Loan.cold hrun
    intro s e s' hloan hstep
    obtain ⟨hlending, hstep⟩ := restrict_eq_some.mp hstep
    exact hloan.step (by omega) hvotes hlending (System.step_eq_some hstep)
  rw [(hloan.settled a ha hsync).2, (hloan.settled b hb hsync').2] at hdisjoint
  rintro ⟨hquorate, hquorate'⟩
  by_cases hmajority : majority expected ≤ tally c.votes (members (s.ring a))
  · exact hloan.not_quorate_beside_majority hvotes ha hb hsync' hdisjoint hmajority hquorate'
  by_cases hmajority' : majority expected ≤ tally c.votes (members (s.ring b))
  · exact hloan.not_quorate_beside_majority hvotes hb ha hsync
      (fun x hx hx' => hdisjoint hx' hx) hmajority' hquorate
  · exact hloan.exclusive a b ha hb hsync hsync' hdisjoint
      (.inr ⟨hquorate, Nat.not_le.mp hmajority⟩) (.inr ⟨hquorate', Nat.not_le.mp hmajority'⟩)

/-- The configuration of a node in a cluster with a quorum device. -/
def deviceConfig (c : Cluster) (votes : Option ℕ) (a : NodeId) : Icmap :=
  { c.config a with deviceModel := true, deviceVotes := votes }

/-- A node is alone with the quorum device. -/
def aloneWithDevice (c : Cluster) (votes : Option ℕ) : List Event :=
  [.start 1 (deviceConfig c votes 1) 1, .act 1 .qdeviceRegister, .act 1 (.qdevicePoll true),
    .process 1] ++ List.replicate 7 (.transmit 1) ++ List.replicate 7 (.deliver 1) ++ [.activate 1]

/-- The other two nodes form a ring. -/
def othersWithoutDevice (c : Cluster) (votes : Option ℕ) : List Event :=
  bringUp (deviceConfig c votes) 2 [2, 3] ++ synchronise [2, 3]

/-- The device has two votes of five by default. -/
theorem lending_not_both_quorate_default :
    ∃ s, run (restrict (threeNodes.Lending oneOrTwo 5 2) (System.step oneOrTwo)) System.cold
        (aloneWithDevice threeNodes none ++ othersWithoutDevice threeNodes none) = some s ∧
      (s.nodes 1).clusterIsQuorate = true ∧
      ¬((s.nodes 1).clusterIsQuorate = true ∧ (s.nodes 2).clusterIsQuorate = true) := by
  refine exists_run_imp (fun s => 0 < s.ring 1 ∧ 0 < s.ring 2 ∧
    (s.nodes 1).syncInProgress = false ∧ (s.nodes 2).syncInProgress = false ∧ s.activated 1 = 1 ∧
    s.activated 2 = 2 ∧ (s.nodes 1).clusterIsQuorate = true) (by decide +kernel) ?_
  intro s hrun ⟨hring, hring', hsync, hsync', hactivated, hactivated', hquorate⟩
  refine ⟨hquorate, lending_not_both_quorate (by decide) (by decide) hrun hring hring' hsync
    hsync' ?_⟩
  rw [hactivated, hactivated']
  simp [oneOrTwo]

/-- With one vote configured for the device the expected votes are still three, so that a node and
the device are quorate beside the other two nodes, for which the device casts no vote. -/
theorem aloneWithDevice_both_quorate :
    ∃ s, run (System.step oneOrTwo) System.cold
        (aloneWithDevice threeNodes (some 1) ++ othersWithoutDevice threeNodes (some 1)) = some s ∧
      (s.nodes 1).syncInProgress = false ∧ (s.nodes 2).syncInProgress = false ∧
      s.activated 1 = 1 ∧ s.activated 2 = 2 ∧
      (s.nodes 1).us.flags.qdeviceCastVote = true ∧ (s.nodes 2).us.flags.qdeviceCastVote = false ∧
      (s.nodes 3).us.flags.qdeviceCastVote = false ∧
      (s.nodes 1).clusterIsQuorate = true ∧ (s.nodes 2).clusterIsQuorate = true :=
  exists_run_of_any (by decide +kernel)

end Corosync.Votequorum
