import Corosync.Votequorum.Expecting

/-!
# Majorities and ties

In a cluster without a quorum device a settled node is quorate if its ring has a majority, or half
of the votes and the tie is broken in its favour. The tie breaker asks for a node that this node
remembers, or for a node of a list that it has seen last. As long as what a node remembers when it
enters one half of the cluster is what the whole cluster would choose, only one half is favoured.
-/

namespace Corosync.Votequorum

open Library List Node

variable {c : Cluster} {members : ℕ → List NodeId} {s s' : System} {e : Event} {n n' : Node}
  {a t t' : NodeId} {tie : AutoTieBreaker} {list ring left right : List NodeId}

namespace Cluster

/-- The node that the tie breaker favours in the whole cluster. -/
def Favours (c : Cluster) (tie : AutoTieBreaker) (list : List NodeId) (t : NodeId) : Prop :=
  match tie with
  | .none => False
  | .lowest => ∀ b ∈ c.ids, t ≤ b
  | .highest => ∀ b ∈ c.ids, b ≤ t
  | .list => list.find? (· ∈ c.ids) = some t

instance (c : Cluster) (tie : AutoTieBreaker) (list : List NodeId) (t : NodeId) :
    Decidable (c.Favours tie list t) := by
  cases tie <;> dsimp only [Cluster.Favours] <;> infer_instance

/-- Half of the votes. -/
def Half (c : Cluster) (ring : List NodeId) : Prop := 2 * tally c.votes ring = c.total

instance (c : Cluster) (ring : List NodeId) : Decidable (c.Half ring) :=
  inferInstanceAs (Decidable (_ = _))

/-- What a node remembers, before it enters a ring, does not mislead the tie breaker there. -/
def Remembers (c : Cluster) (tie : AutoTieBreaker) (list : List NodeId) (lowest highest : Int)
    (previous ring : List NodeId) : Prop :=
  match tie with
  | .none => True
  | .lowest => lowest ∈ ring → c.Favours .lowest list lowest
  | .highest => highest ∈ ring → c.Favours .highest list highest
  | .list => ∀ t ∈ list.find? (· ∈ c.ids), t ∈ ring ∨ t ∈ previous

instance (c : Cluster) (tie : AutoTieBreaker) (list : List NodeId) (lowest highest : Int)
    (previous ring : List NodeId) :
    Decidable (c.Remembers tie list lowest highest previous ring) := by
  cases tie <;> dsimp only [Cluster.Remembers] <;> infer_instance

/-- A ring may be quorate: it has a majority, or half of the votes and the favoured node. -/
def Carries (c : Cluster) (tie : AutoTieBreaker) (list ring : List NodeId) : Prop :=
  majority c.total ≤ tally c.votes ring ∨ c.Half ring ∧ ∃ t ∈ ring, c.Favours tie list t

/-- The tie breaker favours one node. -/
theorem Favours.unique (ht : c.Favours tie list t) (ht' : c.Favours tie list t')
    (hmem : t ∈ c.ids) (hmem' : t' ∈ c.ids) : t = t' := by
  cases tie with
  | none => exact ht.elim
  | lowest => exact Int.le_antisymm (ht t' hmem') (ht' t hmem)
  | highest => exact Int.le_antisymm (ht' t hmem) (ht t' hmem')
  | list => exact Option.some.inj (ht.symm.trans ht')

/-- Two rings without a common node do not both carry. -/
theorem not_carries_of_disjoint (hleft : left.Nodup) (hright : right.Nodup)
    (hleftIn : left ⊆ c.ids) (hrightIn : right ⊆ c.ids) (hdisjoint : left.Disjoint right)
    (hcarries : c.Carries tie list left) : ¬c.Carries tie list right := by
  have hsum := @tally_add_le_of_disjoint _ c.votes _ _ _ hleft hright hdisjoint hleftIn hrightIn
  have htotal : tally c.votes c.ids = c.total := rfl
  unfold Carries Half majority at *
  obtain hmajority | ⟨hhalf, t, ht, hfavours⟩ := hcarries
  · rintro (hmajority' | ⟨hhalf', -⟩) <;> omega
  · rintro (hmajority' | ⟨-, t', ht', hfavours'⟩)
    · omega
    · obtain rfl := hfavours.unique hfavours' (hleftIn ht) (hrightIn ht')
      exact hdisjoint ht ht'

end Cluster

/-- What the search through the list of tie breaking nodes finds. -/
theorem Node.searchAtbNodelist_eq_true {passed rest : List NodeId}
    (hsearch : n.searchAtbNodelist passed rest = true) :
    ∃ skipped t after, rest = skipped ++ t :: after ∧ t ∈ n.quorumMembers ∧
      (∀ b ∈ skipped, b ∉ n.quorumMembers) ∧
      ∀ b ∈ passed ++ skipped, b ∉ n.previousQuorumMembers := by
  induction rest generalizing passed with
  | nil => exact absurd hsearch (by simp [searchAtbNodelist])
  | cons nodeid rest ih =>
    rw [searchAtbNodelist] at hsearch
    split at hsearch
    · rename_i hmem
      refine ⟨[], nodeid, rest, rfl, hmem, by simp, fun b hb => ?_⟩
      rw [append_nil] at hb
      simp only [Bool.not_eq_true', any_eq_false] at hsearch
      simpa using hsearch b hb
    · rename_i hnot
      obtain ⟨skipped, t, after, rfl, ht, hskipped, hprevious⟩ := ih hsearch
      refine ⟨nodeid :: skipped, t, after, rfl, ht, ?_, fun b hb => hprevious b ?_⟩
      · exact forall_mem_cons.mpr ⟨hnot, hskipped⟩
      · simpa using hb

/-- A node without a quorum device, with its tie breaker. -/
structure Deviceless (tie : AutoTieBreaker) (list : List NodeId) (n : Node) : Prop where
  masterWins : n.qdeviceMasterWins = false
  castVote : n.us.flags.qdeviceCastVote = false
  autoTieBreaker : n.autoTieBreaker = tie ∨ n.autoTieBreaker = .none
  atbNodelist : n.autoTieBreaker = .list → n.atbNodelist = list

/-- What holds of a node in a cluster without a quorum device. -/
structure Resolved (c : Cluster) (tie : AutoTieBreaker) (list ring : List NodeId) (n : Node) :
    Prop extends Deviceless tie list n where
  remembers : c.Half ring → c.Remembers tie list n.lowestNodeId n.highestNodeId
    n.previousQuorumMembers ring
  carries : n.syncInProgress = false → n.clusterIsQuorate = true → c.Carries tie list ring

/-- No message announces the vote of a quorum device. -/
def Castless (message : Message) : Prop :=
  ∀ info, message = .nodeinfo info → info.nodeid ≠ qdeviceNodeid →
    info.flags.qdeviceCastVote = false

/-- Nodes of a cluster start with the same tie breaker, all in one ring if there is one, and form
rings; a node that enters one half of the cluster is not misled by what it remembers. -/
def Cluster.Undivided (c : Cluster) (members : ℕ → List NodeId) (tie : AutoTieBreaker)
    (list : List NodeId) (n : Node) : Event → Prop
  | .start a config r => c.Lists a config ∧ config.Expects c.total 0 ∧ config.tieBreaker = tie ∧
      (tie = .list → config.tieBreakerNodes = list) ∧ members r ⊆ c.ids ∧
      (tie ≠ .none → 0 < c.total ∧ members r = c.ids)
  | .enter _ r => members r ⊆ c.ids ∧ (c.Half (members r) →
      c.Remembers tie list n.lowestNodeId n.highestNodeId n.quorumMembers (members r))
  | .act _ _ => False
  | _ => True

/-- Such an event has fixed expected votes. -/
theorem Cluster.Undivided.fixed (hundivided : c.Undivided members tie list n e) :
    c.Fixed members c.total 0 e := by
  cases e with
  | start _ _ _ => exact ⟨hundivided.1, hundivided.2.1, hundivided.2.2.2.2.1⟩
  | enter _ _ => exact hundivided.1
  | act _ _ => exact hundivided.elim
  | _ => trivial

namespace Deviceless

/-- The settings and the flags of the quorum device are the same. -/
theorem of_settings (hdeviceless : Deviceless tie list n) (n' : Node) (lastManStanding : Bool)
    (hsettings : n'.toSettings = { n.toSettings with lastManStanding := lastManStanding })
    (hcast : n'.us.flags.qdeviceCastVote = false) : Deviceless tie list n' := by
  have htie : n'.autoTieBreaker = n.autoTieBreaker := by rw [hsettings]
  have hlist : n'.atbNodelist = n.atbNodelist := by rw [hsettings]
  have hmaster : n'.qdeviceMasterWins = n.qdeviceMasterWins := by rw [hsettings]
  exact ⟨hmaster.trans hdeviceless.masterWins, hcast, htie ▸ hdeviceless.autoTieBreaker,
    fun hon => hlist.trans (hdeviceless.atbNodelist (htie ▸ hon))⟩

/-- A recalculation does not make use of a quorum device. -/
theorem of_kept (hdeviceless : Deviceless tie list n) (hkept : Kept n n') :
    Deviceless tie list n' := by
  refine hdeviceless.of_settings n' n.lastManStanding ?_ ?_
  · exact hkept.settings
  · have hcast := congrArg Flags.qdeviceCastVote hkept.flags
    exact hcast.trans hdeviceless.castVote

/-- A node starts without a quorum device. -/
theorem start {config : Icmap} {file : Option ℕ} (htie : config.tieBreaker = tie)
    (hlist : tie = .list → config.tieBreakerNodes = list)
    (hinit : execInitFn config a file = .ok n) : Deviceless tie list n := by
  obtain ⟨tie', barrier, fdOpen, file', htie', rfl⟩ := execInitFn_eq hinit
  refine of_kept ?_ (kept_recalculate _ false false)
  obtain ⟨status, flag, hreset⟩ := resetWaitForAllStatus_eq
    ((configured config a tie' barrier fdOpen file').assignVotes config) false
  rw [beforeDecision, hreset]
  refine ⟨rfl, rfl, htie ▸ htie', fun hon => ?_⟩
  have hon : tie' = .list := hon
  have hconfig : config.tieBreaker = .list := by
    obtain h | h := htie'
    · exact h.symm.trans hon
    · exact absurd (h.symm.trans hon) (by simp)
  have hnodes : (startedSettings config tie').atbNodelist = config.tieBreakerNodes :=
    if_pos hconfig
  exact hnodes.trans (hlist (htie.symm.trans hconfig))

/-- In a new ring there is still no quorum device. -/
theorem syncInit (hdeviceless : Deviceless tie list n) {next : List NodeId} :
    Deviceless tie list (n.syncInit next) := by
  obtain ⟨first, progress, heq, -⟩ := n.syncInit_eq next
  obtain ⟨_, _, hus, -⟩ := n.us_syncInit next
  refine hdeviceless.of_settings _ n.lastManStanding ?_ ?_
  · rw [heq]
    rfl
  · rw [hus]
    exact hdeviceless.castVote

/-- A message without a vote of the quorum device. -/
theorem nodeinfoHandler (hdeviceless : Deviceless tie list n) (sender : NodeId) {info : Nodeinfo}
    (hcastless : Castless (.nodeinfo info)) :
    Deviceless tie list (n.nodeinfoHandler sender info) := by
  obtain ⟨lastManStanding, hsettings⟩ := n.settings_nodeinfoHandler sender info
  refine hdeviceless.of_settings _ lastManStanding hsettings ?_
  obtain hflags | ⟨-, hnode, hflags⟩ := n.flags_nodeinfoHandler sender info
  · have hcast := congrArg Flags.qdeviceCastVote hflags
    exact hcast.trans hdeviceless.castVote
  · have hcast := congrArg Flags.qdeviceCastVote hflags
    exact hcast.trans (hcastless info rfl hnode)

end Deviceless

namespace Resolved

/-- The tie is broken in favour of a ring with the favoured node. -/
theorem favours_of_check (hbase : Base c a ring n) (hsync : n.syncInProgress = false)
    (htie : n.autoTieBreaker = tie) (hlist : n.autoTieBreaker = .list → n.atbNodelist = list)
    (hremembers : c.Remembers tie list n.lowestNodeId n.highestNodeId n.previousQuorumMembers ring)
    (hnone : tie ≠ .none) (hcheck : n.checkAutoTieBreaker = true) :
    ∃ t ∈ ring, c.Favours tie list t := by
  have hids : ∀ t : NodeId, n.members.any (·.nodeId = t) = true → t ∈ ring := by
    intro t hany
    obtain ⟨node, hmem, hid⟩ := any_eq_true.mp hany
    exact (hbase.mem_members_iff hsync t).mp ⟨node, hmem, of_decide_eq_true hid⟩
  unfold checkAutoTieBreaker at hcheck
  rw [htie] at hcheck hlist
  cases tie with
  | none => exact absurd rfl hnone
  | lowest | highest => exact ⟨_, hids _ hcheck, hremembers (hids _ hcheck)⟩
  | list =>
    dsimp only at hcheck
    rw [hlist rfl] at hcheck
    obtain ⟨skipped, t, after, rfl, ht, hskipped, hprevious⟩ :=
      searchAtbNodelist_eq_true hcheck
    rw [hbase.roster.quorumMembers] at ht hskipped
    cases hfind : (skipped ++ t :: after).find? (· ∈ c.ids) with
    | none =>
      have hnot := find?_eq_none.mp hfind t (by simp)
      exact absurd (hbase.inside ht) (by simpa using hnot)
    | some first =>
      refine ⟨first, ?_, hfind⟩
      -- the favoured node is not passed over: it would have been in the ring before
      obtain hring | hseen := hremembers first hfind
      · exact hring
      rw [find?_append] at hfind
      obtain hskip | hrest := Option.or_eq_some_iff.mp hfind
      · exact absurd hseen (hprevious first (mem_of_find?_eq_some hskip))
      · rw [find?_cons_of_pos (by simpa using hbase.inside ht)] at hrest
        obtain rfl := Option.some.inj hrest.2
        exact ht

/-- A decision that follows from what the node knows is for a ring that carries. -/
theorem carries_of_decided (hbase : Base c a ring n) (hexpecting : Expecting c.total 0 n)
    (hbound : c.total < 510) (heven : tie = .none ∨ c.total % 2 = 0)
    (hdeviceless : Deviceless tie list n)
    (hremembers : c.Half ring → c.Remembers tie list n.lowestNodeId n.highestNodeId
      n.previousQuorumMembers ring)
    (hsync : n.syncInProgress = false) (hdecided : n.Decided)
    (hquorate : n.clusterIsQuorate = true) :
    c.Carries tie list ring := by
  have hcount : n.countVotes.1 = tally c.votes ring := by
    have htally := hbase.tally_le
    rw [countVotes, hdeviceless.castVote, hbase.memberVotes_eq hsync]
    exact Nat.mod_eq_of_lt (by omega)
  rw [Node.Decided, hquorate, hcount] at hdecided
  simp only [isQuorate, hdeviceless.masterWins, hexpecting.quorum, Bool.false_and, Bool.or_false,
    Eq.comm (a := true), Bool.or_eq_true, decide_eq_true_eq] at hdecided
  refine hdecided.imp_right fun hbreak => ?_
  simp only [tieBreak, hexpecting.expectedVotes, Bool.and_eq_true, decide_eq_true_eq, ne_eq,
    beq_iff_eq] at hbreak
  obtain ⟨⟨⟨hon, hhalf⟩, -⟩, hcheck⟩ := hbreak
  have htie := hdeviceless.autoTieBreaker.resolve_right hon
  have hnone : tie ≠ .none := htie ▸ hon
  have hhalf : c.Half ring := by
    have heven := heven.resolve_left hnone
    unfold Cluster.Half
    omega
  exact ⟨hhalf, favours_of_check hbase hsync htie hdeviceless.atbNodelist (hremembers hhalf) hnone
    hcheck⟩

/-- What one step of a node does to its decision in a half of the votes. -/
theorem nodeStep {ring' : List NodeId} (hundivided : c.Undivided members tie list n e)
    (hbound : c.total < 510) (heven : tie = .none ∨ c.total % 2 = 0) (hbase : Base c a ring' n')
    (hexpecting : Expecting c.total 0 n') (houtcome : Outcome n n')
    (hstep : NodeStep members
      (fun a ring n => (Base c a ring n ∧ Expecting c.total 0 n) ∧ Resolved c tie list ring n)
      (fun _ message => (Announcing c.votes message ∧ Expected c.total 0 message) ∧
        Castless message) a ring n e ring' n') :
    Resolved c tie list ring' n' := by
  have hle : n'.memberVotes + 0 ≤ c.total := Nat.le_trans hbase.memberVotes_le hbase.tally_le
  -- where half of the votes are counted no node is remembered anew
  have hfew : c.Half ring' → n'.memberVotes + 0 < majority c.total := by
    intro hhalf
    have hle := hbase.memberVotes_le
    unfold Cluster.Half at hhalf
    unfold majority
    omega
  have hresolved : ∀ (hdeviceless : Deviceless tie list n')
      (_ : c.Half ring' → c.Remembers tie list n'.lowestNodeId n'.highestNodeId
        n'.previousQuorumMembers ring')
      (_ : n.syncInProgress = false → n.clusterIsQuorate = true → c.Carries tie list ring'),
      Resolved c tie list ring' n' := by
    intro hdeviceless hremembers hold
    refine ⟨hdeviceless, hremembers, fun hsync hquorate => ?_⟩
    obtain hdecided | ⟨hsettled, hsame⟩ := houtcome hsync
    · exact carries_of_decided hbase hexpecting hbound heven hdeviceless hremembers hsync hdecided
        hquorate
    · exact hold hsettled (hsame ▸ hquorate)
  cases hstep with
  | @start _ r started hring hinit =>
    obtain ⟨-, -, htie, hlist, -, hall⟩ := hundivided
    refine ⟨(Deviceless.start htie hlist hinit).syncInit, fun hhalf => ?_, fun hsync => ?_⟩
    · by_cases hnone : tie = .none
      · rw [hnone]
        trivial
      · obtain ⟨hpos, hring⟩ := hall hnone
        rw [Cluster.Half, hring] at hhalf
        have htotal : tally c.votes c.ids = c.total := rfl
        omega
    · simp at hsync
  | @enter r hnode _ =>
    have hentering := Entering.syncInit n (members r)
    refine ⟨hnode.2.toDeviceless.syncInit, fun hhalf => ?_, fun hsync => ?_⟩
    · have hids : SameIds n (n.syncInit (members r)) := by
        obtain ⟨_, _, heq, -⟩ := n.syncInit_eq (members r)
        rw [heq]
        exact ⟨rfl, rfl⟩
      rw [hentering.previousQuorumMembers, hids.1, hids.2]
      exact hundivided.2 hhalf
    · simp at hsync
  | process hnode _ =>
    rw [syncProcess_fst]
    have hdeviceless := hnode.2.toDeviceless
    exact ⟨{ hdeviceless with }, hnode.2.remembers, hnode.2.carries⟩
  | transmit hnode => exact hnode.2
  | barrier hnode => exact hnode.2
  | @deliver sender info hnode _ hmessage =>
    have hsync := SameSync.nodeinfoHandler n sender info
    refine hresolved (hnode.2.toDeviceless.nodeinfoHandler sender hmessage.2) (fun hhalf => ?_)
      hnode.2.carries
    obtain ⟨hlowest, hhighest⟩ := (hnode.1.2.nodeinfoHandler hbound hnode.1.1 sender hmessage.1.2
      hmessage.1.1 hle).2.2 (hfew hhalf)
    rw [hlowest, hhighest, hsync.previousQuorumMembers]
    exact hnode.2.remembers hhalf
  | activate hnode _ =>
    have hkept := n.kept_recalculate false false
    have hvotes : (n.recalculateQuorum false false).memberVotes = n.memberVotes := by
      rw [memberVotes_eq, hkept.ballots, ← memberVotes_eq]
    have hdeviceless := hnode.2.toDeviceless.of_kept hkept
    refine hresolved { hdeviceless with } (fun hhalf => ?_) hnode.2.carries
    obtain ⟨hlowest, hhighest⟩ := (Expecting.recalculateQuorum hnode.1.2.toReady hbound
      (hvotes ▸ hle) false).2.2 (hvotes ▸ hfew hhalf)
    have hprevious := congrArg Progress.previousQuorumMembers hkept.progress
    have hold := hnode.2.remembers hhalf
    rw [← hlowest, ← hhighest, ← hprevious] at hold
    exact hold
  | act _ => exact hundivided.elim

end Resolved

/-- What holds in every run of a cluster without a quorum device. -/
structure Whole (c : Cluster) (members : ℕ → List NodeId) (tie : AutoTieBreaker)
    (list : List NodeId) (s : System) : Prop extends Steadfast c members c.total 0 s where
  resolved : Everywhere members (fun _ ring n => Resolved c tie list ring n)
    (fun _ message => Castless message) s

namespace Whole

/-- Before the first start there is no decision. -/
theorem cold : Whole c members tie list System.cold := ⟨Steadfast.cold, Everywhere.cold⟩

/-- An undivided step keeps the decisions. -/
theorem step (hwhole : Whole c members tie list s) (hbound : c.total < 510)
    (heven : tie = .none ∨ c.total % 2 = 0)
    (hundivided : c.Undivided members tie list (s.nodes e.node) e)
    (hstep : System.Step members s e s') : Whole c members tie list s' where
  toSteadfast := hwhole.toSteadfast.step hbound (Nat.le_refl _) hundivided.fixed hstep
  resolved := by
    refine hwhole.resolved.step_node hundivided.fixed.steady.quiet hstep (fun hring => ?_)
      fun _ hresolved => ⟨fun first info hinfo _ => ?_, fun info hinfo hdevice => ?_⟩
    · have hafter := hwhole.toSteadfast.step hbound (Nat.le_refl _) hundivided.fixed hstep
      have hnode := hwhole.toSteadfast.step_node hbound (Nat.le_refl _) hundivided.fixed hstep hring
      exact Resolved.nodeStep hundivided hbound heven (hafter.base hring) hnode.1 hnode.2
        (hwhole.toRecorded.nodeStep (hwhole.toSteadfast.everywhere_base.and hwhole.resolved) hstep)
    · obtain rfl := Message.nodeinfo.inj hinfo
      exact hresolved.castVote
    · obtain rfl := Message.nodeinfo.inj hinfo
      exact absurd rfl hdevice

/-- Settled nodes in rings without a common node are not both quorate. -/
theorem not_both_quorate (hwhole : Whole c members tie list s) {b : NodeId} (ha : 0 < s.ring a)
    (hb : 0 < s.ring b) (hsync : (s.nodes a).syncInProgress = false)
    (hsync' : (s.nodes b).syncInProgress = false)
    (hdisjoint : (members (s.activated a)).Disjoint (members (s.activated b))) :
    ¬((s.nodes a).clusterIsQuorate = true ∧ (s.nodes b).clusterIsQuorate = true) := by
  rintro ⟨hquorate, hquorate'⟩
  rw [(hwhole.settled a ha hsync).2, (hwhole.settled b hb hsync').2] at hdisjoint
  have hbase := hwhole.base ha
  have hbase' := hwhole.base hb
  exact Cluster.not_carries_of_disjoint hbase.isRing.nodup hbase'.isRing.nodup hbase.inside
    hbase'.inside hdisjoint ((hwhole.resolved.node a ha).carries hsync hquorate)
    ((hwhole.resolved.node b hb).carries hsync' hquorate')

end Whole

end Corosync.Votequorum
