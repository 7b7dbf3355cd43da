import Corosync.Votequorum.Voting

/-!
# A settled node counts the votes of its ring

Every node of a cluster knows the votes of the members it has heard of, so it never counts more
votes than its ring has; a node that has activated its ring counts them all.
-/

namespace Corosync.Votequorum

open Function Library List

variable {members : ℕ → List NodeId} {P : NodeId → List NodeId → Node → Prop}
  {Q : NodeId → Message → Prop} {s s' : System} {e : Event} {c : Cluster} {a : NodeId}
  {ring : List NodeId} {n : Node}

/-- What a quiet step does to the node on which it happens, when all nodes are such that `P` and all
messages such that `Q`. -/
inductive NodeStep (members : ℕ → List NodeId) (P : NodeId → List NodeId → Node → Prop)
    (Q : NodeId → Message → Prop) (a : NodeId) (ring : List NodeId) (n : Node) :
    Event → List NodeId → Node → Prop
  | start {config : Icmap} {r : ℕ} {started : Node} (hring : IsRing a (members r))
      (hinit : Node.execInitFn config a n.evTrackingFile = .ok started) :
      NodeStep members P Q a ring n (.start a config r) (members r) (started.syncInit (members r))
  | enter {r : ℕ} (hnode : P a ring n) (hring : IsRing a (members r)) :
      NodeStep members P Q a ring n (.enter a r) (members r) (n.syncInit (members r))
  | process (hnode : P a ring n) (hsync : n.syncInProgress = true) :
      NodeStep members P Q a ring n (.process a) ring n.syncProcess.1
  | transmit (hnode : P a ring n) : NodeStep members P Q a ring n (.transmit a) ring n
  | barrier (hnode : P a ring n) : NodeStep members P Q a ring n (.deliver a) ring n
  | deliver {sender : NodeId} {info : Nodeinfo} (hnode : P a ring n)
      (hmember : info.nodeid ∈ ring ∨ info.nodeid = qdeviceNodeid)
      (hmessage : Q sender (.nodeinfo info)) :
      NodeStep members P Q a ring n (.deliver a) ring (n.nodeinfoHandler sender info)
  | activate (hnode : P a ring n) (hsync : n.syncInProgress = true) :
      NodeStep members P Q a ring n (.activate a) ring n.syncActivate
  | act {action : Action} (hnode : P a ring n) :
      NodeStep members P Q a ring n (.act a action) ring (n.act action).1

/-- A step of the system is a step of the node on which it happens. -/
theorem Recorded.nodeStep (hrecorded : Recorded members s) (hall : Everywhere members P Q s)
    (hstep : System.Step members s e s') :
    NodeStep members P Q e.node (members (s.ring e.node)) (s.nodes e.node) e
      (members (s'.ring e.node)) (s'.nodes e.node) := by
  cases hstep with
  | @start _ _ _ _ hinit hjoins =>
    obtain ⟨-, hmem, hnodup, hlength, hqdevice⟩ := hjoins
    simp only [System.joined, Event.node, update_self]
    exact .start ⟨hmem, hnodup, hlength, hqdevice⟩ hinit
  | @enter a _ hring hjoins =>
    obtain ⟨-, hmem, hnodup, hlength, hqdevice⟩ := hjoins
    simp only [System.joined, Event.node, update_self]
    exact .enter (hall.node a hring) ⟨hmem, hnodup, hlength, hqdevice⟩
  | @process a hring hsync _ _ =>
    simp only [System.acted, Event.node, update_self]
    exact .process (hall.node a hring) hsync
  | @transmit a _ _ hring _ => exact .transmit (hall.node a hring)
  | @deliver a _ packet hring hnext =>
    simp only [System.handled, Event.node, update_self]
    have hmem := mem_of_getElem? hnext
    cases packet with
    | barrier _ => exact .barrier (hall.node a hring)
    | message _ =>
      obtain ⟨info, rfl⟩ := hrecorded.nodeinfos.log _ _ _ hmem
      refine .deliver (hall.node a hring) ?_ (hall.log _ _ _ hmem)
      obtain hown | hdevice := hrecorded.everywhere.log _ _ _ hmem info rfl
      · exact Or.inl (hown ▸ (hrecorded.sender _ _ hmem).1)
      · exact Or.inr hdevice
  | @activate a hring hsync _ =>
    simp only [System.settled, Event.node, update_self]
    exact .activate (hall.node a hring) hsync
  | @act a _ hring =>
    simp only [System.acted, Event.node, update_self]
    exact .act (hall.node a hring)

/-- The `nodeinfo` message of a node with the flag of its first ring, which is set when the process
starts, as it is now or as it was. -/
def Node.nodeinfoWith (n : Node) (first : Bool) : Nodeinfo :=
  { n.nodeinfo with flags := { n.us.flags with first := first } }

/-- The messages of a quiet step are about the node as the step leaves it, but for that flag. -/
theorem System.Step.messages_quiet (hstep : System.Step members s e s') (hquiet : e.quiet = true)
    {message : Message} (hmem : message ∈ s.messages e) :
    0 < s'.ring e.node ∧ ((∃ first, message = .nodeinfo ((s'.nodes e.node).nodeinfoWith first)) ∨
      message = .nodeinfo (s'.nodes e.node).qdeviceNodeinfo) := by
  have hcases := s.messages_cases e message hmem
  have hpos := hstep.ring_pos
  cases hstep with
  | @start a _ r n hinit _ =>
    obtain rfl := mem_singleton.mp hmem
    obtain ⟨_, _, hus, -⟩ := n.us_syncInit (members r)
    refine ⟨hpos, .inl ⟨n.us.flags.first, ?_⟩⟩
    simp [System.joined, System.acting, hinit, Event.node, Node.nodeinfoWith, Node.nodeinfo, hus]
  | process _ _ _ _ =>
    simp only [System.acted, Event.node, update_self]
    exact ⟨hpos, hcases.imp (fun h => ⟨_, h⟩) (·.resolve_right (by simp [Event.quiet]))⟩
  | act _ =>
    simp only [System.acted, Event.node, update_self]
    exact ⟨hpos, hcases.imp (fun h => ⟨_, h⟩) (·.resolve_right (by simp [hquiet]))⟩
  | _ => cases hmem

/-- What a quiet step of a node keeps is kept by every quiet step of the system. -/
theorem Everywhere.step_node (hall : Everywhere members P Q s) (hquiet : e.quiet = true)
    (hstep : System.Step members s e s')
    (hnode : 0 < s'.ring e.node → P e.node (members (s'.ring e.node)) (s'.nodes e.node))
    (hown : 0 < s'.ring e.node → P e.node (members (s'.ring e.node)) (s'.nodes e.node) →
      (∀ first, Q e.node (.nodeinfo ((s'.nodes e.node).nodeinfoWith first))) ∧
        Q e.node (.nodeinfo (s'.nodes e.node).qdeviceNodeinfo)) :
    Everywhere members P Q s' := by
  refine hall.step hstep hnode fun message hmem => ?_
  obtain ⟨hring, ⟨first, rfl⟩ | rfl⟩ := hstep.messages_quiet hquiet hmem
  · exact (hown hring (hnode hring)).1 first
  · exact (hown hring (hnode hring)).2

/-- What a node knows about its ring. -/
structure Base (c : Cluster) (a : NodeId) (ring : List NodeId) (n : Node) : Prop where
  isRing : IsRing a ring
  inside : ring ⊆ c.ids
  roster : Roster a ring n
  voting : Voting c.votes n
  counted : n.syncInProgress = false →
    (memberBallots n.ballots).Perm (ring.map fun b => ⟨b, .member, c.votes b⟩)

/-- A step of a node keeps the votes in its records. -/
theorem Voting.nodeStep {ring' : List NodeId} {n' : Node} (hsteady : c.Steady members e)
    (hstep : NodeStep members
      (fun a ring n => (IsRing a ring ∧ Roster a ring n) ∧ ring ⊆ c.ids ∧ Voting c.votes n)
      (fun b message => Owned b message ∧ Announcing c.votes message) a ring n e ring' n') :
    ring' ⊆ c.ids ∧ Voting c.votes n' := by
  cases hstep with
  | start hring hinit =>
    refine ⟨hsteady.2, (Voting.start hsteady.1 hinit).syncInit ?_⟩
    rw [(SameRoll.execInitFn hinit).nodeId]
    exact hring.mem
  | enter hnode hring =>
    obtain ⟨⟨-, hroster⟩, -, hvoting⟩ := hnode
    refine ⟨hsteady, hvoting.syncInit ?_⟩
    rw [hroster.nodeId]
    exact hring.mem
  | process hnode _ =>
    rw [Node.syncProcess_fst]
    exact ⟨hnode.2.1, { hnode.2.2 with }⟩
  | transmit hnode => exact hnode.2
  | barrier hnode => exact hnode.2
  | deliver hnode _ hmessage =>
    obtain ⟨⟨hring, hroster⟩, hinside, hvoting⟩ := hnode
    exact ⟨hinside, hvoting.nodeinfoHandler hroster hring _ hmessage.2⟩
  | activate hnode _ =>
    have hvoting := hnode.2.2.of_kept (n.kept_recalculate false false)
    exact ⟨hnode.2.1, { hvoting with }⟩
  | act hnode => exact ⟨hnode.2.1, hnode.2.2.act hsteady.1 hsteady.2⟩

/-- A node announces the votes it has in the cluster. -/
theorem Voting.announcing (hvoting : Voting c.votes n) :
    (∀ first, Announcing c.votes (.nodeinfo (n.nodeinfoWith first))) ∧
      Announcing c.votes (.nodeinfo n.qdeviceNodeinfo) := by
  refine ⟨fun first info hinfo _ => ?_, fun info hinfo hdevice => ?_⟩
  · obtain rfl := Message.nodeinfo.inj hinfo
    exact ⟨hvoting.us, hvoting.leaving⟩
  · obtain rfl := Message.nodeinfo.inj hinfo
    exact absurd rfl hdevice

/-- What holds in every run of a cluster in which no node leaves: every ring consists of nodes of
the cluster, and the records show their votes. -/
structure Counting (c : Cluster) (members : ℕ → List NodeId) (s : System) : Prop
    extends Recorded members s where
  voting : Everywhere members (fun _ ring n => ring ⊆ c.ids ∧ Voting c.votes n)
    (fun _ message => Announcing c.votes message) s

namespace Counting

/-- Before the first start nothing is counted. -/
theorem cold : Counting c members System.cold := ⟨Recorded.cold, Everywhere.cold⟩

/-- A steady step keeps the votes. -/
theorem step (hcounting : Counting c members s) (hsteady : c.Steady members e)
    (hstep : System.Step members s e s') : Counting c members s' where
  toRecorded := hcounting.toRecorded.step hsteady.quiet hstep
  voting := by
    have hnode := hcounting.toRecorded.nodeStep (hcounting.everywhere.and hcounting.voting) hstep
    exact hcounting.voting.step_node hsteady.quiet hstep
      (fun _ => Voting.nodeStep hsteady hnode) fun _ hvoting => hvoting.2.announcing

/-- A node that has activated its ring has counted all its members. -/
theorem counted (hcounting : Counting c members s) (hring : 0 < s.ring a)
    (hsync : (s.nodes a).syncInProgress = false) :
    (memberBallots (s.nodes a).ballots).Perm
      ((members (s.ring a)).map fun b => ⟨b, .member, c.votes b⟩) := by
  have hall := (hcounting.settled a hring hsync).1
  have hisRing := (hcounting.everywhere.node a hring).1
  have hannounced : ∀ b ∈ members (s.ring a), ∃ info, latest b (s.heard a) = some info ∧
      info.votes = c.votes b ∧ info.flags.leaving = false := by
    intro b hb
    obtain ⟨info, hlatest⟩ := hcounting.exists_latest_of_synchronised hall hb
    obtain ⟨hid, sender, hmem⟩ := latest_eq_some hlatest
    obtain ⟨hvotes, hleaving⟩ := hcounting.voting.log _ _ _ (mem_of_mem_take hmem) info rfl
      (fun hdevice => hisRing.qdevice (hdevice ▸ hid ▸ hb))
    exact ⟨info, hlatest, hid ▸ hvotes, hleaving⟩
  have hstaying : (members (s.ring a)).filter (staying (s.heard a)) = members (s.ring a) := by
    refine filter_eq_self.mpr fun b hb => ?_
    obtain ⟨info, hlatest, -, hleaving⟩ := hannounced b hb
    simp [staying, hlatest, hleaving]
  refine (hcounting.memberBallots_perm hring hall).trans ?_
  rw [hstaying]
  refine List.Perm.of_eq (map_congr_left fun b hb => ?_)
  obtain ⟨info, hlatest, hvotes, -⟩ := hannounced b hb
  simp [announcedVotes, hlatest, hvotes]

/-- What a node in a ring knows. -/
theorem base (hcounting : Counting c members s) (hring : 0 < s.ring a) :
    Base c a (members (s.ring a)) (s.nodes a) where
  isRing := (hcounting.everywhere.node a hring).1
  inside := (hcounting.voting.node a hring).1
  roster := (hcounting.everywhere.node a hring).2
  voting := (hcounting.voting.node a hring).2
  counted := hcounting.counted hring

/-- All nodes in rings know this. -/
theorem everywhere_base (hcounting : Counting c members s) :
    Everywhere members (Base c) (fun _ message => Announcing c.votes message) s :=
  ⟨fun _ hring => hcounting.base hring, hcounting.voting.queue, hcounting.voting.log⟩

end Counting

namespace Base

/-- A node counts at most the votes of its ring. -/
theorem memberVotes_le (hbase : Base c a ring n) : n.memberVotes ≤ tally c.votes ring := by
  have hids := hbase.roster.nodup
  rw [Node.roll_eq, map_map] at hids
  have hballots : ((memberBallots n.ballots).map (·.votes)).sum =
      tally c.votes ((memberBallots n.ballots).map (·.nodeId)) := by
    rw [tally, map_map]
    refine congrArg List.sum (map_congr_left fun ballot hmem => ?_)
    exact (hbase.voting.ballots ballot (mem_of_mem_filter hmem)).1
  rw [Node.memberVotes_eq, hballots]
  refine tally_le_of_subset ?_ fun b hb => ?_
  · exact (filter_sublist.map _).nodup hids
  · obtain ⟨ballot, hmem, rfl⟩ := mem_map.mp hb
    obtain ⟨hballot, hstate⟩ := mem_filter.mp hmem
    refine hbase.roster.alive (ballot.nodeId, ballot.state) ?_ (by simp [of_decide_eq_true hstate])
    rw [Node.roll_eq]
    exact mem_map.mpr ⟨ballot, hballot, rfl⟩

/-- A ring has at most the votes of the cluster. -/
theorem tally_le (hbase : Base c a ring n) : tally c.votes ring ≤ c.total :=
  tally_le_of_subset hbase.isRing.nodup hbase.inside

/-- A node that does not synchronise counts the votes of its ring. -/
theorem memberVotes_eq (hbase : Base c a ring n) (hsync : n.syncInProgress = false) :
    n.memberVotes = tally c.votes ring := by
  rw [Node.memberVotes_eq, ((hbase.counted hsync).map (·.votes)).sum_nat, map_map]
  rfl

/-- The members that a node which does not synchronise knows are those of its ring. -/
theorem mem_members_iff (hbase : Base c a ring n) (hsync : n.syncInProgress = false)
    (b : NodeId) : (∃ node ∈ n.members, node.nodeId = b) ↔ b ∈ ring := by
  rw [Node.mem_members_iff]
  have hperm := (hbase.counted hsync).map (·.nodeId)
  rw [map_map] at hperm
  have hmem := hperm.mem_iff (a := b)
  simpa using hmem

end Base

end Corosync.Votequorum
