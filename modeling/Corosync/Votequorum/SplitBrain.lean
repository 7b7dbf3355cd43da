import Corosync.Votequorum.TieBreaker

/-!
# At most one quorate partition

Settled nodes whose rings have no common node are not both quorate, in a cluster without special
features and in a cluster with a tie breaker.
-/

namespace Corosync.Votequorum

open Library

variable {c : Cluster} {members : ℕ → List NodeId} {s : System} {events : List Event} {a b : NodeId}
  {tie : AutoTieBreaker} {list : List NodeId}

/-- A configuration with a node list and with no special feature but a tie breaker. -/
def Icmap.Simple (config : Icmap) : Prop :=
  config.expectedVotes = none ∧ config.deviceModel = false ∧ config.twoNode = false ∧
    config.waitForAll.getD false = false ∧ config.lastManStanding = false ∧
    config.allowDownscale = false ∧ config.expectedVotesTracking = false

instance (config : Icmap) : Decidable config.Simple := inferInstanceAs (Decidable (_ ∧ _))

/-- The expected votes are those of the node list. -/
theorem Cluster.Lists.expects {config : Icmap} (hlists : c.Lists a config)
    (hbound : c.total < 2 ^ 32) (hsimple : config.Simple) : config.Expects c.total 0 := by
  obtain ⟨hexpected, hdevice, htwo, hwait, -, hdown, htracking⟩ := hsimple
  have hauto : config.autoDeviceVotes = false := by simp [Icmap.autoDeviceVotes, hdevice]
  refine ⟨htwo, hwait, hdown, htracking, ?_, ?_⟩
  · simp only [hexpected, Icmap.assignedExpectedVotes, hauto, hlists.nodeExpectedVotes]
    exact Nat.mod_eq_of_lt hbound
  · simp [Icmap.assignedDeviceVotes, hauto, Icmap.readDeviceVotes, hdevice]

namespace Cluster

/-- Nodes of a cluster without special features start and form rings. -/
def Plain (c : Cluster) (members : ℕ → List NodeId) : Event → Prop
  | .start a config r => c.Lists a config ∧ config.Simple ∧ config.autoTieBreaker = false ∧
      members r ⊆ c.ids
  | .enter _ r => members r ⊆ c.ids
  | .act _ _ => False
  | _ => True

instance (c : Cluster) (members : ℕ → List NodeId) (e : Event) : Decidable (c.Plain members e) :=
  match e with
  | .start _ _ _ => inferInstanceAs (Decidable (_ ∧ _))
  | .enter _ r => inferInstanceAs (Decidable (members r ⊆ c.ids))
  | .act _ _ => isFalse not_false
  | .process _ | .transmit _ | .deliver _ | .activate _ => isTrue trivial

/-- A plain event is undivided. -/
theorem Plain.undivided {e : Event} (hbound : c.total < 2 ^ 32) (hplain : c.Plain members e)
    (n : Node) : c.Undivided members .none [] n e := by
  cases e with
  | start _ _ _ =>
    obtain ⟨hlists, hsimple, htie, hinside⟩ := hplain
    refine ⟨hlists, hlists.expects hbound hsimple, ?_, by simp, hinside, by simp⟩
    simp [Icmap.tieBreaker, htie]
  | enter _ _ => exact ⟨hplain, fun _ => trivial⟩
  | act _ _ => exact hplain.elim
  | _ => trivial

end Cluster

/-- In a cluster without special features and with at most 509 votes, two settled nodes whose rings
have no common node are not both quorate. -/
theorem plain_not_both_quorate (hbound : c.total ≤ 509) (hplain : ∀ e ∈ events, c.Plain members e)
    (hrun : run (System.step members) System.cold events = some s) (ha : 0 < s.ring a)
    (hb : 0 < s.ring b) (hsync : (s.nodes a).syncInProgress = false)
    (hsync' : (s.nodes b).syncInProgress = false)
    (hdisjoint : (members (s.activated a)).Disjoint (members (s.activated b))) :
    ¬((s.nodes a).clusterIsQuorate = true ∧ (s.nodes b).clusterIsQuorate = true) := by
  have hwhole : Whole c members .none [] s := by
    refine run_invariant_of_forall (Q := fun e => c.Plain members e) ?_ hplain Whole.cold hrun
    intro s e s' hplain hwhole hstep
    exact hwhole.step (by omega) (Or.inl rfl) (hplain.undivided (by omega) _)
      (System.step_eq_some hstep)
  exact hwhole.not_both_quorate ha hb hsync hsync' hdisjoint

/-- Nodes are started in a ring and tell one another their votes. -/
def bringUp (config : NodeId → Icmap) (r : ℕ) (nodes : List NodeId) : List Event :=
  nodes.map (fun a => .start a (config a) r) ++ nodes.map .transmit ++
    nodes.flatMap fun a => List.replicate nodes.length (.deliver a)

/-- The nodes of a ring synchronise and activate it. -/
def synchronise (nodes : List NodeId) : List Event :=
  nodes.map .process ++ nodes.flatMap (fun a => [.transmit a, .transmit a, .transmit a]) ++
    nodes.flatMap (fun a => List.replicate (3 * nodes.length) (.deliver a)) ++ nodes.map .activate

/-- The configuration of a node in a cluster. -/
def Cluster.config (c : Cluster) (a : NodeId) : Icmap :=
  { localNodePos := some (c.ids.idxOf a), nodelist := c.ids.map fun b => some (c.votes b) }

/-- Three nodes with one vote each. -/
def threeNodes : Cluster := ⟨[1, 2, 3], fun _ => 1, by decide⟩

/-- A node alone, and the other two. -/
def oneOrTwo (r : ℕ) : List NodeId := if r = 1 then [1] else [2, 3]

/-- Two rings are formed. -/
def apart : List Event :=
  bringUp threeNodes.config 1 [1] ++ synchronise [1] ++ bringUp threeNodes.config 2 [2, 3] ++
    synchronise [2, 3]

/-- One of them is quorate. -/
theorem plain_not_both_quorate_apart :
    ∃ s, run (System.step oneOrTwo) System.cold apart = some s ∧
      (s.nodes 2).clusterIsQuorate = true ∧
      ¬((s.nodes 1).clusterIsQuorate = true ∧ (s.nodes 2).clusterIsQuorate = true) := by
  refine exists_run_imp (fun s => 0 < s.ring 1 ∧ 0 < s.ring 2 ∧
    (s.nodes 1).syncInProgress = false ∧ (s.nodes 2).syncInProgress = false ∧ s.activated 1 = 1 ∧
    s.activated 2 = 2 ∧ (s.nodes 2).clusterIsQuorate = true) (by decide +kernel) ?_
  intro s hrun ⟨hring, hring', hsync, hsync', hactivated, hactivated', hquorate⟩
  have hplain : ∀ e ∈ apart, threeNodes.Plain oneOrTwo e := by decide
  refine ⟨hquorate, plain_not_both_quorate (by decide) hplain hrun hring hring' hsync hsync' ?_⟩
  rw [hactivated, hactivated']
  simp [oneOrTwo]

/-- Two nodes with 300 votes each. -/
def twoNodes : Cluster := ⟨[1, 2], fun _ => 300, by decide⟩

/-- Each of them is alone. -/
def alone : List Event :=
  bringUp twoNodes.config 1 [1] ++ synchronise [1] ++ bringUp twoNodes.config 2 [2] ++
    synchronise [2]

/-- A node enters a ring with one of the other two and delivers both `nodeinfo` messages. -/
def entering : List Event :=
  apart ++ [.enter 1 3, .enter 2 3, .process 1, .process 2, .transmit 1, .transmit 2, .deliver 1,
    .deliver 1]

/-- The quorum of 600 votes is 301, of which 45 are left in eight bits, so that two nodes with 300
votes each are both quorate. A node that synchronises is quorate before it activates. -/
theorem alone_both_quorate :
    ((∀ e ∈ alone, twoNodes.Plain (fun r => [(r : Int)]) e) ∧
      ∃ s, run (System.step fun r => [(r : Int)]) System.cold alone = some s ∧
        (s.nodes 1).syncInProgress = false ∧ (s.nodes 2).syncInProgress = false ∧
        s.activated 1 = 1 ∧ s.activated 2 = 2 ∧ (s.nodes 1).quorum = 45 ∧
        (s.nodes 1).clusterIsQuorate = true ∧ (s.nodes 2).clusterIsQuorate = true) ∧
    ∃ s, run (System.step fun r => if r = 3 then [1, 2] else oneOrTwo r) System.cold entering =
        some s ∧ s.activated 1 = 1 ∧ s.activated 3 = 2 ∧
      (s.nodes 1).clusterIsQuorate = true ∧ (s.nodes 3).clusterIsQuorate = true :=
  ⟨⟨by decide, exists_run_of_any (by decide +kernel)⟩, exists_run_of_any (by decide +kernel)⟩

namespace Cluster

/-- The nodes of a cluster with a tie breaker start all together in one ring and form rings. A node
that enters one half of the cluster is not misled by what it remembers. -/
def Tied (c : Cluster) (members : ℕ → List NodeId) (tie : AutoTieBreaker) (list : List NodeId)
    (s : System) : Event → Prop
  | .start a config r => c.Lists a config ∧ config.Simple ∧ config.tieBreaker = tie ∧
      (tie = .list → config.tieBreakerNodes = list) ∧ r = 1 ∧ members r = c.ids
  | .enter a r => members r ⊆ c.ids ∧ (c.Half (members r) →
      c.Remembers tie list (s.nodes a).lowestNodeId (s.nodes a).highestNodeId
        (s.nodes a).quorumMembers (members r))
  | .act _ _ => False
  | _ => True

instance (c : Cluster) (members : ℕ → List NodeId) (tie : AutoTieBreaker) (list : List NodeId)
    (s : System) (e : Event) : Decidable (c.Tied members tie list s e) :=
  match e with
  | .start _ _ _ | .enter _ _ => inferInstanceAs (Decidable (_ ∧ _))
  | .act _ _ => isFalse not_false
  | .process _ | .transmit _ | .deliver _ | .activate _ => isTrue trivial

/-- Such an event does not divide the cluster. -/
theorem Tied.undivided {e : Event} (htotal : c.total = c.ids.length) (hbound : c.total < 2 ^ 32)
    (htied : c.Tied members tie list s e) : c.Undivided members tie list (s.nodes e.node) e := by
  cases e with
  | start _ _ _ =>
    obtain ⟨hlists, hsimple, htie, hlist, -, hall⟩ := htied
    have hpos := List.length_pos_of_mem hlists.mem
    exact ⟨hlists, hlists.expects hbound hsimple, htie, hlist, hall ▸ List.Subset.refl _,
      fun _ => ⟨htotal ▸ hpos, hall⟩⟩
  | enter _ _ => exact htied
  | act _ _ => exact htied.elim
  | _ => trivial

end Cluster

/-- In a cluster with an even number of nodes, one vote each, and a tie breaker, two settled nodes
whose rings have no common node are not both quorate, in every run in which a node that enters one
half of the cluster is not misled by what it remembers. -/
theorem tied_not_both_quorate (hone : ∀ b ∈ c.ids, c.votes b = 1) (heven : c.ids.length % 2 = 0)
    (hcount : c.ids.length ≤ processorCountMax)
    (hrun : run (restrict (c.Tied members tie list) (System.step members)) System.cold events =
      some s)
    (ha : 0 < s.ring a) (hb : 0 < s.ring b) (hsync : (s.nodes a).syncInProgress = false)
    (hsync' : (s.nodes b).syncInProgress = false)
    (hdisjoint : (members (s.activated a)).Disjoint (members (s.activated b))) :
    ¬((s.nodes a).clusterIsQuorate = true ∧ (s.nodes b).clusterIsQuorate = true) := by
  have htotal : c.total = c.ids.length := tally_one hone
  unfold processorCountMax at hcount
  have hwhole : Whole c members tie list s := by
    refine run_invariant ?_ Whole.cold hrun
    intro s e s' hwhole hstep
    obtain ⟨htied, hstep⟩ := restrict_eq_some.mp hstep
    exact hwhole.step (by omega) (Or.inr (by omega)) (htied.undivided htotal (by omega))
      (System.step_eq_some hstep)
  exact hwhole.not_both_quorate ha hb hsync hsync' hdisjoint

/-- Four nodes with one vote each. -/
def fourNodes : Cluster := ⟨[1, 2, 3, 4], fun _ => 1, by decide⟩

/-- The configuration with a tie breaker in favour of the lowest id. -/
def lowestConfig (a : NodeId) : Icmap := { fourNodes.config a with autoTieBreaker := true }

/-- All nodes, and two halves. -/
def evenSplit (r : ℕ) : List NodeId :=
  if r = 1 then [1, 2, 3, 4] else if r = 2 then [1, 2] else [3, 4]

/-- A ring of all nodes splits into halves. -/
def split : List Event :=
  bringUp lowestConfig 1 [1, 2, 3, 4] ++ synchronise [1, 2, 3, 4] ++
    [.enter 1 2, .enter 2 2] ++ synchronise [1, 2] ++
    [.enter 3 3, .enter 4 3] ++ synchronise [3, 4]

/-- One of the halves is quorate. -/
theorem tied_not_both_quorate_split :
    ∃ s, run (restrict (fourNodes.Tied evenSplit .lowest []) (System.step evenSplit)) System.cold
        split = some s ∧ (s.nodes 1).clusterIsQuorate = true ∧
      ¬((s.nodes 1).clusterIsQuorate = true ∧ (s.nodes 3).clusterIsQuorate = true) := by
  refine exists_run_imp (fun s => 0 < s.ring 1 ∧ 0 < s.ring 3 ∧
    (s.nodes 1).syncInProgress = false ∧ (s.nodes 3).syncInProgress = false ∧ s.activated 1 = 2 ∧
    s.activated 3 = 3 ∧ (s.nodes 1).clusterIsQuorate = true) (by decide +kernel) ?_
  intro s hrun ⟨hring, hring', hsync, hsync', hactivated, hactivated', hquorate⟩
  refine ⟨hquorate, tied_not_both_quorate (by decide) (by decide) (by decide) hrun hring hring'
    hsync hsync' ?_⟩
  rw [hactivated, hactivated']
  simp [evenSplit]

/-- All nodes, three of them, and two halves. -/
def crossSplit (r : ℕ) : List NodeId :=
  if r = 1 then [1, 2, 3, 4] else if r = 2 then [2, 3, 4] else if r = 3 then [1, 3] else [2, 4]

/-- A ring of all nodes loses the node with the lowest id; then there are two other halves. -/
def misled : List Event :=
  bringUp lowestConfig 1 [1, 2, 3, 4] ++ synchronise [1, 2, 3, 4] ++
    [.enter 2 2, .enter 3 2, .enter 4 2] ++ synchronise [2, 3, 4] ++
    [.enter 1 3, .enter 3 3] ++ synchronise [1, 3] ++ [.enter 2 4, .enter 4 4] ++ synchronise [2, 4]

/-- Both halves are quorate: in one of them the lowest id that was remembered is 1, in the other one
it is 2. -/
theorem misled_both_quorate :
    ∃ s, run (System.step crossSplit) System.cold misled = some s ∧
      (s.nodes 1).syncInProgress = false ∧ (s.nodes 2).syncInProgress = false ∧
      s.activated 1 = 3 ∧ s.activated 2 = 4 ∧ (s.nodes 1).lowestNodeId = 1 ∧
      (s.nodes 2).lowestNodeId = 2 ∧
      (s.nodes 1).clusterIsQuorate = true ∧ (s.nodes 2).clusterIsQuorate = true :=
  exists_run_of_any (by decide +kernel)

end Corosync.Votequorum
