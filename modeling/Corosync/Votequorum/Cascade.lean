import Corosync.Votequorum.LastManStanding

/-!
# Losing nodes in a cascade

With last man standing the nodes that are left lower their expected votes, so that a cluster can
lose its nodes one after another. Two settled nodes whose rings have no common node are not both
quorate, as long as the partitions are not merged once expected votes have been lowered too far and
a timer expires only when all nodes know the partition they are in.
-/

namespace Corosync.Votequorum

open Function Library List

variable {c : Cluster} {members : ℕ → List NodeId} {events : List Event} {s s' : System} {e : Event}
  {n n' : Node} {a b : NodeId} {ring : List NodeId}

namespace Cluster

/-- Two majorities of these expected votes have a common node. -/
def Ample (c : Cluster) (expectedVotes : ℕ) : Prop := c.ids.length < 2 * majority expectedVotes

instance (c : Cluster) (expectedVotes : ℕ) : Decidable (c.Ample expectedVotes) :=
  inferInstanceAs (Decidable (_ < _))

/-- A packet does not announce expected votes that have been lowered too far. -/
def AmplePacket (c : Cluster) : Packet → Prop
  | .message (.nodeinfo info) => info.nodeid ≠ qdeviceNodeid → c.Ample info.expectedVotes
  | _ => True

instance (c : Cluster) (packet : Packet) : Decidable (c.AmplePacket packet) :=
  match packet with
  | .message (.nodeinfo _) => inferInstanceAs (Decidable (_ → _))
  | .message (.reconfigure _) | .barrier _ => isTrue trivial

/-- No node and no packet has expected votes that have been lowered too far. -/
def Unlowered (c : Cluster) (s : System) : Prop :=
  (∀ a ∈ c.ids, 0 < s.ring a → c.Ample (s.nodes a).us.expectedVotes ∧
    ∀ packet ∈ s.queue a, c.AmplePacket packet) ∧
  ∀ r ∈ s.entered, ∀ entry ∈ s.log r, c.AmplePacket entry.2

instance (c : Cluster) (s : System) : Decidable (c.Unlowered s) :=
  inferInstanceAs (Decidable (_ ∧ _))

/-- Every member of the ring of a node is in that ring. -/
def Parted (c : Cluster) (members : ℕ → List NodeId) (s : System) : Prop :=
  ∀ a ∈ c.ids, 0 < s.ring a → ∀ b ∈ members (s.ring a), s.ring b = s.ring a

instance (c : Cluster) (members : ℕ → List NodeId) (s : System) : Decidable (c.Parted members s) :=
  inferInstanceAs (Decidable (∀ a ∈ c.ids, _))

/-- The nodes of a cluster with last man standing start in a ring of all nodes, form rings and lower
their expected votes. Partitions are merged only while no expected votes have been lowered too far,
and a timer expires on a settled node while every member of a ring is in that ring. -/
def Cascade (c : Cluster) (members : ℕ → List NodeId) (s : System) : Event → Prop
  | .start a config r => c.Lists a config ∧ config.LastMan ∧ members r = c.ids ∧ c.Unlowered s
  | .enter a r => members r ⊆ c.ids ∧ (members r ⊆ members (s.ring a) ∨ c.Unlowered s)
  | .act a action => action = .lastManStandingTimer ∧ (s.nodes a).syncInProgress = false ∧
      c.Parted members s
  | _ => True

instance (c : Cluster) (members : ℕ → List NodeId) (s : System) (e : Event) :
    Decidable (c.Cascade members s e) :=
  match e with
  | .start _ _ _ | .enter _ _ | .act _ _ => inferInstanceAs (Decidable (_ ∧ _))
  | .process _ | .transmit _ | .deliver _ | .activate _ => isTrue trivial

/-- An event of a cascade is steady. -/
theorem Cascade.steady (hcascade : c.Cascade members s e) : c.Steady members e := by
  cases e with
  | start _ _ _ => exact ⟨hcascade.1, hcascade.2.2.1 ▸ List.Subset.refl _⟩
  | enter _ _ => exact hcascade.1
  | act _ _ =>
    obtain ⟨rfl, -, -⟩ := hcascade
    exact ⟨rfl, by simp⟩
  | _ => trivial

end Cluster

/-- What one step does to the expected votes of a node and to its decision. -/
theorem Standing.nodeStep {ring' : List NodeId} (hone : ∀ b ∈ c.ids, c.votes b = 1)
    (hbound : c.total < 510) (hcascade : c.Cascade members s e) (hacting : s.nodes e.node = n)
    (hbase : Base c a ring' n') (hupheld : n.syncInProgress = false → n.Upheld ring.length)
    (hstep : NodeStep members (fun a ring n => Base c a ring n ∧ Standing c.total n)
      (fun _ message => Announcing c.votes message ∧ Moderate c.total message)
      a ring n e ring' n') :
    Standing c.total n' ∧ (n'.syncInProgress = false → n'.Upheld ring'.length) := by
  have hlength : ∀ {a ring n}, Base c a ring n → tally c.votes ring = ring.length :=
    fun hbase => tally_one fun b hb => hone b (hbase.inside hb)
  have hvotes := Nat.le_trans hbase.memberVotes_le hbase.tally_le
  cases hstep with
  | start hring hinit =>
    have hself := @tally_le_of_subset _ c.votes _ _ (nodup_singleton a)
      (cons_subset.mpr ⟨hcascade.1.mem, nil_subset _⟩)
    simp only [tally, map_cons, map_nil, sum_cons, sum_nil] at hself
    have hstanding := (start hcascade.1 hcascade.2.1 hbound hself hinit).1
    refine ⟨(hstanding.syncInit ?_).1, by simp⟩
    rw [(SameRoll.execInitFn hinit).nodeId]
    exact hring.mem
  | enter hnode hring =>
    refine ⟨(hnode.2.syncInit ?_).1, by simp⟩
    rw [hnode.1.roster.nodeId]
    exact hring.mem
  | process hnode _ =>
    have hstanding := hnode.2
    rw [Node.syncProcess_fst]
    exact ⟨{ hstanding with }, hupheld⟩
  | transmit hnode => exact ⟨hnode.2, hupheld⟩
  | barrier hnode => exact ⟨hnode.2, hupheld⟩
  | @deliver sender info hnode _ hmessage =>
    obtain ⟨hstanding, hcases, -⟩ := hnode.2.nodeinfoHandler hbound hnode.1 sender hmessage.2
      hmessage.1 hvotes
    refine ⟨hstanding, fun hsync => ?_⟩
    obtain hdecided | ⟨hquorate, hexpected⟩ := hcases
    · rw [← hlength hbase, ← hbase.memberVotes_eq hsync]
      exact hdecided
    · rw [(SameSync.nodeinfoHandler n sender info).syncInProgress] at hsync
      intro hon
      rw [hquorate] at hon
      rw [hexpected hon]
      exact hupheld hsync hon
  | activate hnode _ =>
    have hcounted := hlength hnode.1 ▸ hnode.1.memberVotes_le
    have hvotes := Nat.le_trans hnode.1.memberVotes_le hnode.1.tally_le
    obtain ⟨hstanding, hdecided, -⟩ := hnode.2.recalculateQuorum hbound hvotes false false
      fun hon => absurd hon Bool.false_ne_true
    refine ⟨{ hstanding with }, fun _ hon => ?_⟩
    have hless := hdecided hon
    exact Nat.lt_of_lt_of_le hless (Nat.mul_le_mul_left 2 hcounted)
  | act hnode =>
    obtain ⟨rfl, hsettled, -⟩ := hcascade
    have hsync : n.syncInProgress = false := hacting ▸ hsettled
    have hcounted : n.memberVotes = ring.length := by
      rw [hnode.1.memberVotes_eq hsync, hlength hnode.1]
    have hcount : n.members.length = ring.length := by
      rw [Node.length_members, (hnode.1.counted hsync).length_eq, length_map]
    have hall : ring.length ≤ c.total := hlength hnode.1 ▸ hnode.1.tally_le
    obtain ⟨hstanding, ⟨hquorate, hexpected⟩ | ⟨-, hdecided, -⟩⟩ :=
      hnode.2.lastManStandingTimer hbound (hcounted ▸ hall) (hcount ▸ hall)
    · refine ⟨hstanding, fun _ hon => ?_⟩
      rw [hquorate] at hon
      rw [hexpected]
      exact hupheld hsync hon
    · exact ⟨hstanding, fun _ => hcounted ▸ hdecided⟩

namespace System

/-- The groups that nodes and packets speak for: the members of a ring that a node is in or can
enter from a larger one, with expected votes that they may come to expect there. -/
inductive Carried (members : ℕ → List NodeId) (s : System) : Electorate NodeId → Prop
  | node {a : NodeId} (hring : 0 < s.ring a) :
      Carried members s ⟨(members (s.ring a)).toFinset, (s.nodes a).us.expectedVotes⟩
  | queue {a : NodeId} {info : Nodeinfo} (hring : 0 < s.ring a)
      (hmem : .message (.nodeinfo info) ∈ s.queue a) (hid : info.nodeid ≠ qdeviceNodeid) :
      Carried members s ⟨(members (s.ring a)).toFinset, info.expectedVotes⟩
  | log {a sender : NodeId} {r : ℕ} {info : Nodeinfo} (hring : 0 < s.ring a) (hle : s.ring a ≤ r)
      (hsub : members r ⊆ members (s.ring a))
      (hmem : (sender, .message (.nodeinfo info)) ∈ s.log r) (hid : info.nodeid ≠ qdeviceNodeid) :
      Carried members s ⟨(members r).toFinset, info.expectedVotes⟩

variable {p : Electorate NodeId}

/-- A node that does not enter a larger ring speaks for its own group, or for one that was there
before. -/
theorem Carried.step (hquiet : e.quiet = true) (hring : 0 < s.ring e.node)
    (hsub : members (s'.ring e.node) ⊆ members (s.ring e.node)) (hstep : Step members s e s')
    (hcarried : s'.Carried members p) :
    (∃ q, s.Carried members q ∧ p.Weaker q) ∨
      p = ⟨(members (s'.ring e.node)).toFinset, (s'.nodes e.node).us.expectedVotes⟩ := by
  have hsame : ∀ {q}, s.Carried members q → ∃ q', s.Carried members q' ∧ q.Weaker q' :=
    fun hold => ⟨_, hold, .refl _⟩
  cases hcarried with
  | @node a hring' =>
    by_cases ha : a = e.node
    · exact .inr (by rw [ha])
    · have huntouched := hstep.untouched ha
      rw [huntouched.ring] at hring' ⊢
      rw [huntouched.nodes]
      exact .inl (hsame (.node hring'))
  | @queue a _ hring' hmem hid =>
    by_cases ha : a = e.node
    · subst ha
      obtain hold | hnew := hstep.mem_queue hmem
      · exact .inl ⟨_, .queue hring hold hid, toFinset_subset_toFinset hsub, Nat.le_refl _⟩
      · obtain ⟨-, ⟨_, heq⟩ | heq⟩ := hstep.messages_quiet hquiet hnew
        · obtain rfl := Message.nodeinfo.inj heq
          exact .inr rfl
        · obtain rfl := Message.nodeinfo.inj heq
          exact absurd rfl hid
    · have huntouched := hstep.untouched ha
      rw [huntouched.ring] at hring' ⊢
      rw [huntouched.queue] at hmem
      exact .inl (hsame (.queue hring' hmem hid))
  | @log a _ _ _ hring' hle hsub' hmem hid =>
    obtain hold | ⟨rfl, -, -, hqueue⟩ := hstep.mem_log hmem
    · refine .inl (hsame ?_)
      have hle' := Nat.le_trans (hstep.ring_le a) hle
      by_cases ha : a = e.node
      · subst ha
        exact .log hring hle' (List.Subset.trans hsub' hsub) hold hid
      · rw [(hstep.untouched ha).ring] at hring' hsub'
        exact .log hring' hle' hsub' hold hid
    · exact .inl (hsame (.queue hring hqueue hid))

end System

/-- What holds in every run of a cluster that loses its nodes in a cascade. -/
structure Cascading (c : Cluster) (members : ℕ → List NodeId) (s : System) : Prop
    extends Counting c members s where
  formed : s.Formed
  standing : Everywhere members (fun _ _ n => Standing c.total n)
    (fun _ message => Moderate c.total message) s
  upheld : ∀ a, (s.nodes a).syncInProgress = false →
    (s.nodes a).Upheld (members (s.ring a)).length
  peace : ∀ {p q}, s.Carried members p → s.Carried members q → ¬p.Rivals q

namespace Cascading

variable {p : Electorate NodeId} {p q : Electorate NodeId}

/-- Before the first start there are no groups. -/
theorem cold : Cascading c members System.cold := by
  refine ⟨Counting.cold, System.Formed.cold, Everywhere.cold, fun _ _ hquorate => ?_, fun hp => ?_⟩
  · exact absurd hquorate Bool.false_ne_true
  · cases hp with
    | node hring => exact absurd hring (Nat.lt_irrefl 0)
    | queue hring _ _ => exact absurd hring (Nat.lt_irrefl 0)
    | log hring _ _ _ _ => exact absurd hring (Nat.lt_irrefl 0)

section

variable (hcascading : Cascading c members s)

include hcascading

/-- The same for a step of the system. -/
theorem step_node (hone : ∀ b ∈ c.ids, c.votes b = 1)
    (hbound : c.total < 510) (hcascade : c.Cascade members s e)
    (hstep : System.Step members s e s') :
    Standing c.total (s'.nodes e.node) ∧ ((s'.nodes e.node).syncInProgress = false →
      (s'.nodes e.node).Upheld (members (s'.ring e.node)).length) :=
  Standing.nodeStep hone hbound hcascade rfl
    ((hcascading.toCounting.step hcascade.steady hstep).base hstep.ring_pos)
    (hcascading.upheld _) (hcascading.toRecorded.nodeStep
      (hcascading.toCounting.everywhere_base.and hcascading.standing) hstep)

/-- In a partitioned cluster a group is the ring of a node or has no common node with it. -/
theorem apart (hparted : c.Parted members s)
    (hring : 0 < s.ring a) (hcarried : s.Carried members p) :
    p.voters = (members (s.ring a)).toFinset ∨ Disjoint (members (s.ring a)).toFinset p.voters := by
  have hrings : ∀ b, 0 < s.ring b → (members (s.ring b)).toFinset = (members (s.ring a)).toFinset ∨
      Disjoint (members (s.ring a)).toFinset (members (s.ring b)).toFinset := by
    intro b hring'
    have hbase := hcascading.toCounting.base hring
    have hbase' := hcascading.toCounting.base hring'
    by_cases hcommon : ∃ z ∈ members (s.ring a), z ∈ members (s.ring b)
    · obtain ⟨z, hz, hz'⟩ := hcommon
      have hsame := hparted a (hbase.inside hbase.isRing.mem) hring z hz
      have hsame' := hparted b (hbase'.inside hbase'.isRing.mem) hring' z hz'
      exact .inl (by rw [← hsame', hsame])
    · refine .inr (Finset.disjoint_left.mpr fun z hz hz' => hcommon ⟨z, ?_, ?_⟩)
      · exact mem_toFinset.mp hz
      · exact mem_toFinset.mp hz'
  cases hcarried with
  | @node b hring' => exact hrings b hring'
  | @queue b _ hring' _ _ => exact hrings b hring'
  | @log b sender r _ hring' hle hsub hmem _ =>
    -- the sender has not left the ring, so it is the one of the node that could enter it
    have hbase := hcascading.toCounting.base hring'
    obtain ⟨hsender, hlast⟩ := hcascading.sender r _ hmem
    have hsame := hparted b (hbase.inside hbase.isRing.mem) hring' sender (hsub hsender)
    have hr : r = s.ring b := Nat.le_antisymm (hsame ▸ hlast) hle
    rw [hr]
    exact hrings b hring'

/-- A step of a node that does not enter a larger ring and whose own group was there before. -/
theorem peace_of_weaker (hquiet : e.quiet = true)
    (hring : 0 < s.ring e.node) (hsub : members (s'.ring e.node) ⊆ members (s.ring e.node))
    (hstep : System.Step members s e s')
    (hown : ∃ q, s.Carried members q ∧ (Electorate.mk (members (s'.ring e.node)).toFinset
      (s'.nodes e.node).us.expectedVotes).Weaker q)
    (hp : s'.Carried members p) (hq : s'.Carried members q) : ¬p.Rivals q := by
  have hweaker : ∀ {p}, s'.Carried members p → ∃ q, s.Carried members q ∧ p.Weaker q := by
    intro p hp
    obtain hold | rfl := hp.step hquiet hring hsub hstep
    · exact hold
    · exact hown
  obtain ⟨p', hp', hpp'⟩ := hweaker hp
  obtain ⟨q', hq', hqq'⟩ := hweaker hq
  exact fun hrivals => hcascading.peace hp' hq' (hrivals.of_weaker hpp' hqq')

/-- A timer expires: a quorate node expects the votes of its ring only. -/
theorem peace_of_lowered (hparted : c.Parted members s)
    (hring : 0 < s.ring e.node) (hquiet : e.quiet = true) (hstep : System.Step members s e s')
    (hsame : s'.ring e.node = s.ring e.node)
    (hmajority : (s.nodes e.node).us.expectedVotes < 2 * (members (s.ring e.node)).length)
    (hlowered : (s'.nodes e.node).us.expectedVotes = (members (s.ring e.node)).length)
    (hp : s'.Carried members p) (hq : s'.Carried members q) : ¬p.Rivals q := by
  have hcard : (members (s.ring e.node)).toFinset.card = (members (s.ring e.node)).length :=
    toFinset_card_of_nodup (hcascading.toCounting.base hring).isRing.nodup
  have hcases : ∀ {p}, s'.Carried members p → (∃ q, s.Carried members q ∧ p.Weaker q) ∨
      p = ⟨(members (s.ring e.node)).toFinset, (members (s.ring e.node)).toFinset.card⟩ := by
    intro p hp
    have hstepped := hp.step hquiet hring (hsame ▸ List.Subset.refl _) hstep
    rwa [hsame, hlowered, ← hcard] at hstepped
  have hnew : ∀ {q}, s.Carried members q →
      ¬(Electorate.mk (members (s.ring e.node)).toFinset
        (members (s.ring e.node)).toFinset.card).Rivals q := by
    intro q hq
    exact Electorate.not_rivals_lowered (p := ⟨_, (s.nodes e.node).us.expectedVotes⟩)
      (hcard ▸ hmajority) (hcascading.peace hq hq) (hcascading.peace (.node hring) hq)
      (hcascading.apart hparted hring hq)
  obtain ⟨p', hp', hpp'⟩ | rfl := hcases hp
  · obtain ⟨q', hq', hqq'⟩ | rfl := hcases hq
    · exact fun hrivals => hcascading.peace hp' hq' (hrivals.of_weaker hpp' hqq')
    · exact fun hrivals => hnew hp' (hrivals.of_weaker hpp' (.refl _)).symm
  · obtain ⟨q', hq', hqq'⟩ | rfl := hcases hq
    · exact fun hrivals => hnew hq' (hrivals.of_weaker (.refl _) hqq')
    · exact Electorate.not_rivals_self (Nat.le_refl _)

end

/-- While expected votes have not been lowered too far a node may start or enter any ring. -/
theorem peace_of_unlowered (hcounting : Counting c members s') (hformed : s.Formed)
    (hunlowered : c.Unlowered s) (hstep : System.Step members s e s')
    (hown : c.Ample (s'.nodes e.node).us.expectedVotes)
    (hqueue : ∀ packet ∈ s'.queue e.node,
      packet ∈ s.queue e.node ∧ 0 < s.ring e.node ∨ c.AmplePacket packet)
    (hlog : s'.log = s.log) (hp : s'.Carried members p) (hq : s'.Carried members q) :
    ¬p.Rivals q := by
  have hinside : ∀ {a}, 0 < s'.ring a → a ∈ c.ids ∧ members (s'.ring a) ⊆ c.ids := by
    intro a hring
    have hbase := hcounting.base hring
    exact ⟨hbase.inside hbase.isRing.mem, hbase.inside⟩
  have hample : ∀ {p}, s'.Carried members p → p.voters ⊆ c.ids.toFinset ∧ c.Ample p.expected := by
    intro p hp
    cases hp with
    | @node a hring =>
      obtain ⟨hid, hsub⟩ := hinside hring
      refine ⟨toFinset_subset_toFinset hsub, ?_⟩
      by_cases ha : a = e.node
      · subst ha
        exact hown
      · have huntouched := hstep.untouched ha
        rw [huntouched.ring] at hring
        rw [huntouched.nodes]
        exact (hunlowered.1 a hid hring).1
    | @queue a _ hring hmem hnode =>
      obtain ⟨hid, hsub⟩ := hinside hring
      refine ⟨toFinset_subset_toFinset hsub, ?_⟩
      by_cases ha : a = e.node
      · subst ha
        obtain ⟨hold, hpos⟩ | hample := hqueue _ hmem
        · exact (hunlowered.1 _ hid hpos).2 _ hold hnode
        · exact hample hnode
      · have huntouched := hstep.untouched ha
        rw [huntouched.ring] at hring
        rw [huntouched.queue] at hmem
        exact (hunlowered.1 a hid hring).2 _ hmem hnode
    | @log _ _ r _ hring _ hsub hmem hnode =>
      refine ⟨toFinset_subset_toFinset (List.Subset.trans hsub (hinside hring).2), ?_⟩
      rw [hlog] at hmem
      exact hunlowered.2 r (hformed.log r _ hmem) _ hmem hnode
  obtain ⟨hvoters, hexpected⟩ := hample hp
  obtain ⟨hvoters', hexpected'⟩ := hample hq
  refine Electorate.not_rivals_of_overlap hvoters hvoters' ?_
  rw [toFinset_card_of_nodup c.nodup]
  unfold Cluster.Ample majority at hexpected hexpected'
  omega

section

variable (hcascading : Cascading c members s)

include hcascading

/-- A node expects the votes it expected before, or those that a message of its ring announces. -/
theorem own_deliver (hbound : c.total < 510)
    (hring : 0 < s.ring a) {sender : NodeId} {packet : Packet}
    (hnext : (s.log (s.ring a))[s.delivered a]? = some (sender, packet))
    (hvotes : (System.delivery (s.nodes a) sender packet).memberVotes ≤ c.total) :
    ∃ q, s.Carried members q ∧ (Electorate.mk (members (s.ring a)).toFinset
      (System.delivery (s.nodes a) sender packet).us.expectedVotes).Weaker q := by
  have hmem := mem_of_getElem? hnext
  cases packet with
  | barrier _ => exact ⟨_, .node hring, .refl _⟩
  | message _ =>
    obtain ⟨info, rfl⟩ := hcascading.nodeinfos.log _ _ _ hmem
    obtain ⟨-, -, hle | ⟨hid, hle⟩⟩ := (hcascading.standing.node a hring).nodeinfoHandler hbound
      (hcascading.toCounting.base hring) sender (hcascading.standing.log _ _ _ hmem)
      (hcascading.voting.log _ _ _ hmem) hvotes
    · exact ⟨_, .node hring, Finset.Subset.refl _, hle⟩
    · exact ⟨_, .log hring (Nat.le_refl _) (List.Subset.refl _) hmem hid, Finset.Subset.refl _, hle⟩

/-- No step makes two groups rivals. -/
theorem peace_step (hone : ∀ b ∈ c.ids, c.votes b = 1)
    (hbound : c.total < 510) (hcascade : c.Cascade members s e)
    (hstep : System.Step members s e s') (hp : s'.Carried members p)
    (hq : s'.Carried members q) : ¬p.Rivals q := by
  have hcounting := hcascading.toCounting.step hcascade.steady hstep
  have hbase := hcounting.base hstep.ring_pos
  have hquiet := hcascade.steady.quiet
  have htotal : c.total = c.ids.length := tally_one hone
  have hstays : 0 < s.ring e.node → s'.ring e.node = s.ring e.node →
      (s.nodes e.node).us.expectedVotes ≤ (s'.nodes e.node).us.expectedVotes → ¬p.Rivals q := by
    intro hring hsame hle
    refine hcascading.peace_of_weaker hquiet hring (hsame ▸ List.Subset.refl _) hstep ?_ hp hq
    exact ⟨_, .node hring, by rw [hsame], hle⟩
  have htaken := hstep
  cases hstep with
  | @start a _ _ _ hinit hjoins =>
    have hself := @tally_le_of_subset _ c.votes _ _ (nodup_singleton a)
      (cons_subset.mpr ⟨hcascade.1.mem, nil_subset _⟩)
    simp only [tally, map_cons, map_nil, sum_cons, sum_nil] at hself
    obtain ⟨hstanding, hexpected⟩ := Standing.start hcascade.1 hcascade.2.1 hbound hself hinit
    have hample : c.Ample c.total := by
      unfold Cluster.Ample majority
      omega
    refine peace_of_unlowered hcounting hcascading.formed hcascade.2.2.2 htaken ?_ ?_ rfl hp hq
    · simp only [System.joined, Event.node, update_self]
      rw [(hstanding.syncInit ((SameRoll.execInitFn hinit).nodeId ▸ hjoins.2.1)).2, hexpected]
      exact hample
    · intro packet hmem
      simp only [System.joined, System.reset, Event.node, update_self, mem_singleton] at hmem
      subst hmem
      refine .inr fun _ => ?_
      rw [Node.nodeinfo, hexpected]
      exact hample
  | @enter a r hring hjoins =>
    have hexpected : ((s.nodes a).syncInit (members r)).us.expectedVotes =
        (s.nodes a).us.expectedVotes := by
      refine ((hcascading.standing.node a hring).syncInit ?_).2
      rw [(hcascading.base hring).roster.nodeId]
      exact hjoins.2.1
    obtain hsub | hunlowered := hcascade.2
    · have hsub' : members ((s.joined members a r (s.nodes a)).ring a) ⊆ members (s.ring a) := by
        simpa [System.joined] using hsub
      refine hcascading.peace_of_weaker hquiet hring hsub' htaken ⟨_, .node hring, ?_⟩ hp hq
      refine ⟨toFinset_subset_toFinset hsub', ?_⟩
      simp only [System.joined, Event.node, update_self]
      exact Nat.le_of_eq hexpected.symm
    · have hbase := hcascading.base hring
      refine peace_of_unlowered hcounting hcascading.formed hunlowered htaken ?_ ?_ rfl hp hq
      · simp only [System.joined, Event.node, update_self]
        rw [hexpected]
        exact (hunlowered.1 a (hbase.inside hbase.isRing.mem) hring).1
      · exact fun packet hmem => .inl ⟨hmem, hring⟩
  | @process a hring _ _ _ =>
    refine hstays hring rfl (Nat.le_of_eq ?_)
    simp only [System.acted, Event.node, update_self, Node.syncProcess_fst]
  | transmit hring _ => exact hstays hring rfl (Nat.le_refl _)
  | @deliver _ _ _ hring hnext =>
    refine hcascading.peace_of_weaker hquiet hring (by exact List.Subset.refl _) htaken ?_ hp hq
    have hvotes := Nat.le_trans hbase.memberVotes_le hbase.tally_le
    simp only [System.handled, Event.node, update_self] at hvotes ⊢
    exact hcascading.own_deliver hbound hring hnext hvotes
  | @activate a hring _ _ =>
    refine hstays hring rfl ?_
    simp only [System.settled, Event.node, update_self]
    have hexpected := (s.nodes a).expectedVotes_recalculate false
    exact Nat.le_trans (Nat.le_max_left _ _) (Nat.le_of_eq hexpected.symm)
  | @act a _ hring =>
    obtain ⟨rfl, hsync, hparted⟩ := hcascade
    have hbase := hcascading.base hring
    have hlength : tally c.votes (members (s.ring a)) = (members (s.ring a)).length :=
      tally_one fun b hb => hone b (hbase.inside hb)
    have hcount : (s.nodes a).members.length = (members (s.ring a)).length := by
      rw [Node.length_members, (hbase.counted hsync).length_eq, length_map]
    have hall : (members (s.ring a)).length ≤ c.total := hlength ▸ hbase.tally_le
    obtain ⟨-, ⟨-, hexpected⟩ | ⟨hquorate, -, hexpected⟩⟩ :=
      (hcascading.standing.node a hring).lastManStandingTimer hbound
        (Nat.le_trans hbase.memberVotes_le hbase.tally_le) (hcount ▸ hall)
    · refine hstays hring rfl (Nat.le_of_eq ?_)
      simp only [System.acted, Event.node, update_self]
      exact hexpected.symm
    · refine hcascading.peace_of_lowered (e := .act a .lastManStandingTimer) hparted hring hquiet
        htaken rfl ?_ ?_ hp hq
      · exact hcascading.upheld a hsync hquorate
      · simp only [System.acted, Event.node, update_self]
        exact hexpected.trans hcount

/-- Every step of a cascade keeps the peace. -/
theorem step (hone : ∀ b ∈ c.ids, c.votes b = 1)
    (hbound : c.total < 510) (hcascade : c.Cascade members s e)
    (hstep : System.Step members s e s') : Cascading c members s' where
  toCounting := hcascading.toCounting.step hcascade.steady hstep
  formed := hcascading.formed.step hstep
  standing := by
    refine hcascading.standing.step_node hcascade.steady.quiet hstep
      (fun _ => (hcascading.step_node hone hbound hcascade hstep).1)
      fun hring hstanding => hstanding.announces ?_
    have hbase := (hcascading.toCounting.step hcascade.steady hstep).base hring
    rw [hbase.roster.nodeId]
    exact fun hdevice => hbase.isRing.qdevice (hdevice ▸ hbase.isRing.mem)
  upheld a hsync := by
    by_cases ha : a = e.node
    · subst ha
      exact (hcascading.step_node hone hbound hcascade hstep).2 hsync
    · have huntouched := hstep.untouched ha
      rw [huntouched.nodes, huntouched.ring] at *
      exact hcascading.upheld a hsync
  peace := hcascading.peace_step hone hbound hcascade hstep

/-- Two settled nodes whose rings have no common node are not both quorate. -/
theorem not_both_quorate (ha : 0 < s.ring a)
    (hb : 0 < s.ring b) (hsync : (s.nodes a).syncInProgress = false)
    (hsync' : (s.nodes b).syncInProgress = false)
    (hdisjoint : (members (s.activated a)).Disjoint (members (s.activated b))) :
    ¬((s.nodes a).clusterIsQuorate = true ∧ (s.nodes b).clusterIsQuorate = true) := by
  rintro ⟨hquorate, hquorate'⟩
  have hcard : ∀ {a}, 0 < s.ring a →
      (members (s.ring a)).toFinset.card = (members (s.ring a)).length :=
    fun hring => toFinset_card_of_nodup (hcascading.toCounting.base hring).isRing.nodup
  rw [(hcascading.settled a ha hsync).2, (hcascading.settled b hb hsync').2] at hdisjoint
  refine hcascading.peace (.node ha) (.node hb) ⟨_, Finset.Subset.refl _, _, Finset.Subset.refl _,
    disjoint_toFinset_iff_disjoint.mpr hdisjoint, ?_, ?_⟩
  · rw [hcard ha]
    exact hcascading.upheld a hsync hquorate
  · rw [hcard hb]
    exact hcascading.upheld b hsync' hquorate'

end

end Cascading

/-- In a cluster with last man standing, with one vote for each node, two settled nodes whose rings
have no common node are not both quorate, in every run in which partitions are merged only while no
expected votes have been lowered too far, and in which timers expire on settled nodes while every
member of a ring is in that ring. -/
theorem cascade_not_both_quorate (hone : ∀ b ∈ c.ids, c.votes b = 1)
    (hcount : c.ids.length ≤ processorCountMax)
    (hrun : run (restrict (c.Cascade members) (System.step members)) System.cold events = some s)
    (ha : 0 < s.ring a) (hb : 0 < s.ring b) (hsync : (s.nodes a).syncInProgress = false)
    (hsync' : (s.nodes b).syncInProgress = false)
    (hdisjoint : (members (s.activated a)).Disjoint (members (s.activated b))) :
    ¬((s.nodes a).clusterIsQuorate = true ∧ (s.nodes b).clusterIsQuorate = true) := by
  have htotal : c.total = c.ids.length := tally_one hone
  unfold processorCountMax at hcount
  have hcascading : Cascading c members s := by
    refine run_invariant ?_ Cascading.cold hrun
    intro s e s' hcascading hstep
    obtain ⟨hcascade, hstep⟩ := restrict_eq_some.mp hstep
    exact hcascading.step hone (by omega) hcascade (System.step_eq_some hstep)
  exact hcascading.not_both_quorate ha hb hsync hsync' hdisjoint

/-- The configuration of four nodes with last man standing. -/
def lastManConfig (a : NodeId) : Icmap :=
  { fourNodes.config a with lastManStanding := true, waitForAll := some true }

/-- A ring of four nodes loses one of them, and the others lower their expected votes. -/
def lowered : List Event :=
  bringUp lastManConfig 1 [1, 2, 3, 4] ++ synchronise [1, 2, 3, 4] ++
    [.enter 1 2, .enter 2 2, .enter 3 2] ++ synchronise [1, 2, 3] ++
    [.enter 4 3, .act 1 .lastManStandingTimer, .act 2 .lastManStandingTimer,
      .act 3 .lastManStandingTimer]

/-- All nodes, three of them and the fourth, and then two of the three and the third. -/
def threeThenTwo (r : ℕ) : List NodeId :=
  if r = 1 then [1, 2, 3, 4] else if r = 2 then [1, 2, 3] else if r = 3 then [4]
  else if r = 4 then [1, 2] else [3]

/-- The three nodes lose another one. -/
def losingAnother : List Event :=
  lowered ++ [.enter 1 4, .enter 2 4] ++ synchronise [1, 2] ++ .enter 3 5 :: synchronise [3]

/-- Two of four nodes are quorate now. -/
theorem cascade_not_both_quorate_losingAnother :
    ∃ s, run (restrict (fourNodes.Cascade threeThenTwo) (System.step threeThenTwo)) System.cold
        losingAnother = some s ∧ (s.nodes 1).clusterIsQuorate = true ∧
      ¬((s.nodes 1).clusterIsQuorate = true ∧ (s.nodes 3).clusterIsQuorate = true) := by
  refine exists_run_imp (fun s => 0 < s.ring 1 ∧ 0 < s.ring 3 ∧
    (s.nodes 1).syncInProgress = false ∧ (s.nodes 3).syncInProgress = false ∧ s.activated 1 = 4 ∧
    s.activated 3 = 5 ∧ (s.nodes 1).clusterIsQuorate = true) (by decide +kernel) ?_
  intro s hrun ⟨hring, hring', hsync, hsync', hactivated, hactivated', hquorate⟩
  refine ⟨hquorate, cascade_not_both_quorate (by decide) (by decide) hrun hring hring' hsync
    hsync' ?_⟩
  rw [hactivated, hactivated']
  simp [threeThenTwo]

/-- All nodes, three of them and the fourth, and then two pairs. -/
def crossPairs (r : ℕ) : List NodeId :=
  if r = 1 then [1, 2, 3, 4] else if r = 2 then [1, 2, 3] else if r = 3 then [4]
  else if r = 4 then [1, 4] else [2, 3]

/-- One of the three nodes forms a ring with the fourth one. -/
def carriedOver : List Event :=
  lowered ++ [.enter 1 4, .enter 4 4] ++ synchronise [4, 1] ++ [.enter 2 5, .enter 3 5] ++
    synchronise [2, 3]

/-- The fourth node takes over the lowered expected votes, so that both pairs are quorate. -/
theorem carriedOver_both_quorate :
    ∃ s, run (System.step crossPairs) System.cold carriedOver = some s ∧
      (s.nodes 2).syncInProgress = false ∧ (s.nodes 4).syncInProgress = false ∧
      s.activated 2 = 5 ∧ s.activated 4 = 4 ∧ (s.nodes 4).us.expectedVotes = 3 ∧
      (s.nodes 2).clusterIsQuorate = true ∧ (s.nodes 4).clusterIsQuorate = true :=
  exists_run_of_any (by decide +kernel)

end Corosync.Votequorum
