import Corosync.Votequorum.SplitBrain
import Corosync.Votequorum.WaitForAll

/-!
# The first quorum

In a cluster that waits for all nodes nobody is quorate before a ring with all expected votes has
been formed: until then every node waits, and nobody announces that it is quorate.
-/

namespace Corosync.Votequorum

open Library List Node

variable {c : Cluster} {members : ℕ → List NodeId} {expected : ℕ} {s s' : System} {e : Event}
  {n n' : Node} {a : NodeId} {ring : List NodeId} {info : Nodeinfo}

/-- A configuration with wait for all and these expected votes. -/
def Icmap.Awaits (config : Icmap) (expected : ℕ) : Prop :=
  config.waitForAll.getD config.twoNode = true ∧ config.deviceModel = false ∧
    config.allowDownscale = false ∧ config.expectedVotesTracking = false ∧
    (if config.expectedVotes.getD 0 ≠ 0 then config.expectedVotes.getD 0
      else config.assignedExpectedVotes) = expected

instance (config : Icmap) (expected : ℕ) : Decidable (config.Awaits expected) :=
  inferInstanceAs (Decidable (_ ∧ _))

/-- Nodes of a cluster start with such configurations and form rings, and timers expire. -/
def Cluster.Awaiting (c : Cluster) (members : ℕ → List NodeId) (expected : ℕ) : Event → Prop
  | .start a config r => c.Lists a config ∧ config.Awaits expected ∧ members r ⊆ c.ids
  | .enter _ r => members r ⊆ c.ids
  | .act _ action => action = .lastManStandingTimer
  | _ => True

instance (c : Cluster) (members : ℕ → List NodeId) (expected : ℕ) (e : Event) :
    Decidable (c.Awaiting members expected e) :=
  match e with
  | .start _ _ _ => inferInstanceAs (Decidable (_ ∧ _))
  | .enter _ r => inferInstanceAs (Decidable (members r ⊆ c.ids))
  | .act _ _ => inferInstanceAs (Decidable (_ = _))
  | .process _ | .transmit _ | .deliver _ | .activate _ => isTrue trivial

/-- An event of nodes that wait for all is steady. -/
theorem Cluster.Awaiting.steady (hawaiting : c.Awaiting members expected e) :
    c.Steady members e := by
  cases e with
  | start _ _ _ => exact ⟨hawaiting.1, hawaiting.2.2⟩
  | enter _ _ => exact hawaiting
  | act _ _ =>
    obtain rfl := hawaiting
    exact ⟨rfl, by simp⟩
  | _ => trivial

/-- The settings of a node that waits for all. -/
theorem Icmap.Awaits.settings {config : Icmap} (hawaits : config.Awaits expected)
    (tie : AutoTieBreaker) : (startedSettings config tie).waitForAll = true ∧
      (startedSettings config tie).evTracking = false := by
  obtain ⟨hwait, -, hdown, htracking, -⟩ := hawaits
  constructor
  · simp only [startedSettings, followedSettings, startupSettings]
    cases hconfig : config.waitForAll with
    | none => simpa [hconfig] using hwait
    | some _ => simpa [hconfig] using hwait
  · simp [startedSettings, followedSettings, startupSettings, hdown, htracking]

/-- Such a node before its first decision. -/
theorem Icmap.Awaits.beforeDecision_eq {config : Icmap} (hawaits : config.Awaits expected)
    (hlists : c.Lists a config) (tie : AutoTieBreaker) (barrier : ℕ) (fdOpen : Bool)
    (file : Option ℕ) : beforeDecision config a tie barrier fdOpen file =
      { configured config a tie barrier fdOpen file with
        us := ⟨a, .member, c.votes a, expected, { first := true, wfastatus := true }⟩
        evBarrier := expected, waitForAllStatus := true } := by
  obtain ⟨hwaitForAll, hevTracking⟩ := hawaits.settings tie
  obtain ⟨-, hdevice, -, -, hexpected⟩ := hawaits
  have hassigned : (configured config a tie barrier fdOpen file).assignVotes config =
      { configured config a tie barrier fdOpen file with
        us := ⟨a, .member, c.votes a, expected, { first := true }⟩, evBarrier := expected } := by
    have hzero : config.assignedDeviceVotes = 0 := by
      simp [Icmap.assignedDeviceVotes, Icmap.autoDeviceVotes, Icmap.readDeviceVotes, hdevice]
    simp only [assignVotes, configured, hevTracking, hlists.haveNodelist, hzero,
      Bool.false_eq_true, if_false, if_true, hlists.assignedVotes, hexpected, zero,
      noDeviceVotes]
    rfl
  rw [beforeDecision, hassigned]
  exact (if_pos hwaitForAll).trans rfl

/-- A node that waits, and has not heard of a quorate node. -/
structure Waiting (expected : ℕ) (n : Node) : Prop where
  waitForAll : n.waitForAll = true
  status : n.waitForAllStatus = true
  quorate : n.clusterIsQuorate = false
  evTracking : n.evTracking = false
  expectedVotes : n.us.expectedVotes = expected
  castVote : n.us.flags.qdeviceCastVote = false
  qdeviceVotes : n.qdeviceVotes = 0
  records : ∀ node ∈ n.clusterMembersList, node.flags.quorate = false

/-- A message that does not announce a quorate node or a quorum device. -/
def Silent (message : Message) : Prop :=
  ∀ info, message = .nodeinfo info → info.flags.quorate = false ∧
    info.flags.qdeviceCastVote = false ∧ (info.nodeid = qdeviceNodeid → info.votes = 0)

namespace Waiting

section

variable (hwaiting : Waiting expected n)

include hwaiting

/-- A recalculation without all votes changes the quorum only. -/
theorem recalculateQuorum_eq (hvotes : n.memberVotes < expected)
    (allowDecrease : Bool) : ∃ quorum assertionFailed,
      n.recalculateQuorum allowDecrease false =
        { n with quorum := quorum, assertionFailed := assertionFailed } := by
  have htotal : n.getTotalVotes.1 ≤ n.memberVotes := by
    rw [getTotalVotes, if_neg (by simp [hwaiting.qdeviceVotes])]
    exact Nat.mod_le _ _
  have hcount : n.countVotes.1 ≤ n.memberVotes := by
    rw [countVotes, if_neg (by simp [hwaiting.castVote])]
    exact Nat.mod_le _ _
  have hraise : n.raiseExpectedVotes = n := if_neg (by rw [hwaiting.expectedVotes]; omega)
  have htrack : n.trackExpectedVotes = n := if_neg (by rw [hwaiting.evTracking]; simp)
  have hne : n.countVotes.1 ≠ n.us.expectedVotes := by
    rw [hwaiting.expectedVotes]
    omega
  refine ⟨n.calculateQuorum allowDecrease 0 % 2 ^ 8, n.assertionFailed || n.clusterIsQuorate, ?_⟩
  unfold recalculateQuorum
  simp only [Bool.false_eq_true, if_false, hraise, htrack]
  exact if_pos ⟨hwaiting.waitForAll, hwaiting.status, hne⟩

/-- Without all votes a recalculation does not end the wait. -/
theorem recalculateQuorum (hvotes : n.memberVotes < expected)
    (allowDecrease : Bool) : Waiting expected (n.recalculateQuorum allowDecrease false) := by
  obtain ⟨_, _, heq⟩ := hwaiting.recalculateQuorum_eq hvotes allowDecrease
  rw [heq]
  exact { hwaiting with }

/-- A message of a node that is not quorate. -/
theorem recorded (hquorate : info.flags.quorate = false)
    (hcast : info.flags.qdeviceCastVote = false) : Waiting expected (n.recorded info) := by
  have hadopted : n.adopted info = n.us.expectedVotes :=
    if_neg (by simp [adopts, hquorate])
  have hexpected : (n.recorded info).us.expectedVotes = expected := by
    rw [n.us_recorded]
    split
    · simp [announcedRecord, announcedExpected, hquorate, hwaiting.evTracking, hadopted,
        hwaiting.expectedVotes]
    · exact hadopted.trans hwaiting.expectedVotes
  have hflags : (n.recorded info).us.flags.qdeviceCastVote = false := by
    rw [n.us_recorded]
    split
    · exact hcast
    · exact hwaiting.castVote
  have hrecords : ∀ node ∈ (n.recorded info).clusterMembersList, node.flags.quorate = false := by
    intro node hmem
    rw [n.clusterMembersList_recorded, hadopted] at hmem
    obtain ⟨old, hold, rfl⟩ := mem_map.mp hmem
    split
    · exact hquorate
    · exact hwaiting.records old hold
  obtain ⟨_, _, _, _, _, heq⟩ := n.recorded_eq info
  rw [heq] at hexpected hflags hrecords ⊢
  exact { hwaiting with expectedVotes := hexpected, castVote := hflags, records := hrecords }

/-- No record is quorate, so nothing is heeded. -/
theorem heedQuorateNode (nodeid : NodeId) : Waiting expected (n.heedQuorateNode nodeid) := by
  unfold Node.heedQuorateNode
  split
  · rename_i node hfind
    rw [hwaiting.records node (mem_of_find hfind).1]
    simpa using hwaiting
  · exact hwaiting

/-- Such a message with the recalculation that follows. -/
theorem recordNodeinfo (hquorate : info.flags.quorate = false)
    (hcast : info.flags.qdeviceCastVote = false) (hstays : info.flags.leaving = false)
    (old : Option ClusterNode) (hvotes : (n.recordNodeinfo old info).memberVotes < expected) :
    Waiting expected (n.recordNodeinfo old info) := by
  have hrecorded := hwaiting.recorded hquorate hcast
  rw [← n.memberVotes_recorded] at hvotes
  unfold Node.recordNodeinfo
  refine heedQuorateNode ?_ _
  rw [hstays]
  split
  · exact hrecorded.recalculateQuorum hvotes _
  · exact hrecorded

/-- A silent message without all votes. -/
theorem nodeinfoHandler (hbase : Base c a ring n)
    (sender : NodeId) (hsilent : Silent (.nodeinfo info))
    (hannouncing : Announcing c.votes (.nodeinfo info))
    (hvotes : (n.nodeinfoHandler sender info).memberVotes < expected) :
    Waiting expected (n.nodeinfoHandler sender info) := by
  obtain ⟨hquorate, hcast, hdevice⟩ := hsilent info rfl
  by_cases hnode : info.nodeid = qdeviceNodeid
  · obtain ⟨_, heq⟩ := qdeviceNodeinfoHandler_of_known
      ((hdevice hnode).trans hwaiting.qdeviceVotes.symm) sender
    rw [Node.nodeinfoHandler, if_pos hnode, heq]
    exact { hwaiting with }
  · have hstays := (hannouncing info rfl hnode).2
    obtain ⟨base, old, heq, ⟨rfl, -⟩ | ⟨rfl, -, halloc⟩⟩ :=
      hbase.roster.nodeinfoHandler_eq hbase.isRing sender hnode
    · rw [heq] at hvotes ⊢
      exact hwaiting.recordNodeinfo hquorate hcast hstays old hvotes
    have hallocated : Waiting expected base := by
      have hmem := @Node.mem_allocateNode _ _ _ halloc
      obtain ⟨before, after, entries, rfl⟩ := allocateNode_eq halloc
      refine { hwaiting with records := fun node hnode => ?_ }
      obtain rfl | hold := hmem hnode
      · rfl
      · exact hwaiting.records node hold
    rw [heq] at hvotes ⊢
    exact hallocated.recordNodeinfo hquorate hcast hstays none hvotes

/-- The wait goes on in a new ring. -/
theorem syncInit (next : List NodeId) : Waiting expected (n.syncInit next) := by
  obtain ⟨_, _, hus, -⟩ := n.us_syncInit next
  have hexpected : (n.syncInit next).us.expectedVotes = expected := by
    rw [hus]
    exact hwaiting.expectedVotes
  have hcast : (n.syncInit next).us.flags.qdeviceCastVote = false := by
    rw [hus]
    exact hwaiting.castVote
  have hrecords : ∀ node ∈ (n.syncInit next).clusterMembersList, node.flags.quorate = false := by
    intro node hmem
    obtain ⟨old, hold, _, _, -, rfl⟩ := mem_syncInit hmem
    exact hwaiting.records old hold
  obtain ⟨_, _, heq, -⟩ := n.syncInit_eq next
  rw [heq] at hexpected hcast hrecords ⊢
  exact { hwaiting with expectedVotes := hexpected, castVote := hcast, records := hrecords }

end

/-- A node starts with its wait. -/
theorem start {config : Icmap} {file : Option ℕ} (hlists : c.Lists a config)
    (hawaits : config.Awaits expected) (hvotes : c.votes a < expected)
    (hinit : execInitFn config a file = .ok n) : Waiting expected n := by
  obtain ⟨tie, barrier, fdOpen, file', -, rfl⟩ := execInitFn_eq hinit
  obtain ⟨hwaitForAll, hevTracking⟩ := hawaits.settings tie
  rw [hawaits.beforeDecision_eq hlists]
  refine recalculateQuorum ?_ hvotes false
  refine ⟨hwaitForAll, rfl, rfl, hevTracking, rfl, rfl, rfl, fun node hmem => ?_⟩
  obtain rfl := mem_singleton.mp hmem
  rfl

/-- A node that waits is silent. -/
theorem announces (hwaiting : Waiting expected n) (hid : n.us.nodeId ≠ qdeviceNodeid) :
    (∀ first, Silent (.nodeinfo (n.nodeinfoWith first))) ∧
      Silent (.nodeinfo n.qdeviceNodeinfo) := by
  refine ⟨fun first info hinfo => ?_, fun info hinfo => ?_⟩
  · obtain rfl := Message.nodeinfo.inj hinfo
    exact ⟨hwaiting.records n.us (by simp [clusterMembersList]), hwaiting.castVote,
      fun hdevice => absurd hdevice hid⟩
  · obtain rfl := Message.nodeinfo.inj hinfo
    exact ⟨rfl, rfl, fun _ => hwaiting.qdeviceVotes⟩

/-- A step of a node in a ring without all votes. -/
theorem nodeStep {ring' : List NodeId} (hawaiting : c.Awaiting members expected e)
    (hbase : Base c a ring' n') (hvotes : tally c.votes ring' < expected)
    (hstep : NodeStep members (fun a ring n => Base c a ring n ∧ Waiting expected n)
      (fun _ message => Announcing c.votes message ∧ Silent message) a ring n e ring' n') :
    Waiting expected n' := by
  have hle := hbase.memberVotes_le
  cases hstep with
  | start hring hinit =>
    refine (start hawaiting.1 hawaiting.2.1 ?_ hinit).syncInit _
    have hself := @tally_le_of_subset _ c.votes _ _ (nodup_singleton a)
      (cons_subset.mpr ⟨hring.mem, nil_subset _⟩)
    simp only [tally, map_cons, map_nil, sum_cons, sum_nil] at hself hvotes
    omega
  | enter hnode _ => exact hnode.2.syncInit _
  | process hnode _ =>
    have hwaiting := hnode.2
    rw [syncProcess_fst]
    exact { hwaiting with }
  | transmit hnode => exact hnode.2
  | barrier hnode => exact hnode.2
  | deliver hnode _ hmessage =>
    exact hnode.2.nodeinfoHandler hnode.1 _ hmessage.2 hmessage.1 (by omega)
  | activate hnode _ =>
    have hcounted := hnode.1.memberVotes_le
    have hdecided := hnode.2.recalculateQuorum (by omega) false
    exact { hdecided with }
  | act hnode =>
    have hwaiting := hnode.2
    obtain rfl := hawaiting
    -- the timer of last man standing recalculates nothing on a node that is not quorate
    have htimer : n.lastManStandingTimerFn = { n with lastManStandingTimerSet := false } :=
      if_neg (by simp [hwaiting.quorate])
    simp only [act, htimer]
    split <;> exact { hwaiting with }

end Waiting

/-- What holds in every run of a cluster that waits for all nodes. -/
structure Unformed (c : Cluster) (members : ℕ → List NodeId) (expected : ℕ) (s : System) : Prop
    extends Counting c members s where
  formed : s.Formed
  inside : ∀ r ∈ s.entered, (members r).Nodup ∧ members r ⊆ c.ids
  waiting : (∃ r ∈ s.entered, expected ≤ tally c.votes (members r)) ∨
    Everywhere members (fun _ _ n => Waiting expected n) (fun _ message => Silent message) s

namespace Unformed

/-- Before the first start no ring has been formed. -/
theorem cold : Unformed c members expected System.cold :=
  ⟨Counting.cold, System.Formed.cold, nofun, .inr Everywhere.cold⟩

/-- The rings that are entered consist of nodes of the cluster. -/
theorem inside_step (hunformed : Unformed c members expected s)
    (hawaiting : c.Awaiting members expected e) (hstep : System.Step members s e s') :
    ∀ r ∈ s'.entered, (members r).Nodup ∧ members r ⊆ c.ids := by
  cases hstep with
  | @start _ _ _ _ _ hjoins =>
    refine forall_mem_cons.mpr ⟨?_, hunformed.inside⟩
    exact ⟨hjoins.2.2.1, hawaiting.2.2⟩
  | @enter _ _ _ hjoins =>
    refine forall_mem_cons.mpr ⟨?_, hunformed.inside⟩
    exact ⟨hjoins.2.2.1, hawaiting⟩
  | _ => exact hunformed.inside

/-- Until a ring with all votes is formed the nodes wait. -/
theorem step (hunformed : Unformed c members expected s)
    (hawaiting : c.Awaiting members expected e) (hstep : System.Step members s e s') :
    Unformed c members expected s' := by
  have hcounting := hunformed.toCounting.step hawaiting.steady hstep
  have hformed := hunformed.formed.step hstep
  refine ⟨hcounting, hformed, hunformed.inside_step hawaiting hstep, ?_⟩
  by_cases hall : ∃ r ∈ s'.entered, expected ≤ tally c.votes (members r)
  · exact .inl hall
  obtain ⟨r, hmem, hvotes⟩ | hwaiting := hunformed.waiting
  · exact .inl ⟨r, hstep.entered_subset hmem, hvotes⟩
  have hnode := hunformed.toRecorded.nodeStep
    (hunformed.toCounting.everywhere_base.and hwaiting) hstep
  refine .inr (hwaiting.step_node hawaiting.steady.quiet hstep (fun hring => ?_)
    fun hring hnode => hnode.announces ?_)
  · refine Waiting.nodeStep hawaiting (hcounting.base hring) ?_ hnode
    exact Nat.lt_of_not_le fun hvotes => hall ⟨_, hformed.ring _ hring, hvotes⟩
  · have hbase := hcounting.base hring
    rw [hbase.roster.nodeId]
    exact fun hdevice => hbase.isRing.qdevice (hdevice ▸ hbase.isRing.mem)

end Unformed

/-- In a cluster that waits for all nodes no node is quorate before there has been a ring with all
expected votes. And in every run in which no node reads a configuration with an odd number of votes
while it has a tie breaker and last man standing, the assertion of `are_we_quorate` never fails. -/
theorem quorate_after_all_votes_and_assertion (members : ℕ → List NodeId) (events : List Event)
    (s : System) (a : NodeId) :
    (∀ (c : Cluster) (expected : ℕ), (∀ e ∈ events, c.Awaiting members expected e) →
      run (System.step members) System.cold events = some s → 0 < s.ring a →
      (s.nodes a).clusterIsQuorate = true → ∃ r ∈ s.entered, expected ≤ tally c.votes (members r) ∧
        (c.total ≤ expected → tally c.votes (members r) = expected)) ∧
    (run (restrict Heeds (System.step members)) System.cold events = some s →
      (s.nodes a).assertionFailed = false) := by
  refine ⟨fun c expected hawaiting hrun hring hquorate => ?_, fun hrun => ?_⟩
  · have hunformed : Unformed c members expected s := by
      refine run_invariant_of_forall (Q := fun e => c.Awaiting members expected e) ?_ hawaiting
        Unformed.cold hrun
      intro s e s' hawaiting hunformed hstep
      exact hunformed.step hawaiting (System.step_eq_some hstep)
    obtain ⟨r, hmem, hall⟩ | hwaiting := hunformed.waiting
    · obtain ⟨hnodup, hinside⟩ := hunformed.inside r hmem
      refine ⟨r, hmem, hall, fun htotal => Nat.le_antisymm ?_ hall⟩
      exact Nat.le_trans (tally_le_of_subset hnodup hinside) htotal
    · exact absurd ((hwaiting.node a hring).quorate.symm.trans hquorate) (by simp)
  · have hpatient : ∀ a, Patient (s.nodes a) := by
      refine run_invariant (P := fun s => ∀ a, Patient (s.nodes a)) ?_
        (fun a => Patient.zero a none) hrun
      intro s e s' hpatient hstep
      obtain ⟨hheeds, hstep⟩ := restrict_eq_some.mp hstep
      exact Patient.step hpatient hheeds (System.step_eq_some hstep)
    exact (hpatient a).assertion

/-- The configuration of three nodes that wait for all nodes. -/
def waitingConfig (a : NodeId) : Icmap := { threeNodes.config a with waitForAll := some true }

/-- Two nodes, and then all three. -/
def twoThenThree (r : ℕ) : List NodeId := if r = 1 then [1, 2] else [1, 2, 3]

/-- A ring of two nodes is joined by the third. -/
def gathering : List Event :=
  bringUp waitingConfig 1 [1, 2] ++ synchronise [1, 2] ++
    [.enter 1 2, .enter 2 2, .start 3 (waitingConfig 3) 2, .transmit 3, .deliver 1, .deliver 2,
      .deliver 3] ++ synchronise [1, 2, 3]

/-- The nodes are quorate in the second ring, which has all votes. -/
theorem quorate_after_all_votes_and_assertion_gathering :
    ∃ s, run (System.step twoThenThree) System.cold gathering = some s ∧
      (s.nodes 1).clusterIsQuorate = true ∧
      (∃ r ∈ s.entered, tally threeNodes.votes (twoThenThree r) = 3) ∧
      ∃ s, run (restrict Heeds (System.step twoThenThree)) System.cold gathering = some s ∧
        (s.nodes 1).assertionFailed = false := by
  obtain ⟨s, hrun, hring, hquorate⟩ :=
    @exists_run_of_any _ _ (System.step twoThenThree) System.cold gathering
      (fun s => 0 < s.ring 1 ∧ (s.nodes 1).clusterIsQuorate = true) _ (by decide +kernel)
  obtain ⟨s', hrun', -⟩ :=
    @exists_run_of_any _ _ (restrict Heeds (System.step twoThenThree)) System.cold gathering
      (fun _ => True) _ (by decide +kernel)
  have hawaiting : ∀ e ∈ gathering, threeNodes.Awaiting twoThenThree 3 e := by decide
  obtain ⟨r, hmem, -, htally⟩ := (quorate_after_all_votes_and_assertion twoThenThree gathering s
    1).1 threeNodes 3 hawaiting hrun hring hquorate
  exact ⟨s, hrun, hquorate, ⟨r, hmem, htally (by decide)⟩, s', hrun',
    (quorate_after_all_votes_and_assertion twoThenThree gathering s' 1).2 hrun'⟩

/-- A configuration with a tie breaker and last man standing. -/
def switchedConfig (twoNode : Bool) (a : NodeId) : Icmap :=
  { threeNodes.config a with twoNode := twoNode, autoTieBreaker := true, lastManStanding := true }

/-- In a ring of two nodes `two_node` is switched off and on again. -/
def switching : List Event :=
  bringUp (switchedConfig true) 1 [1, 2] ++ synchronise [1, 2] ++
    [.act 1 (.reload (switchedConfig false 1)), .transmit 1, .transmit 1, .deliver 1, .deliver 1,
      .act 1 (.reload (switchedConfig true 1)), .transmit 1, .deliver 1]

/-- Five nodes with one vote each. -/
def fiveNodes : Cluster := ⟨[1, 2, 3, 4, 5], fun _ => 1, by decide⟩

/-- The configuration of five nodes that wait for all nodes, with `allow_downscale`. -/
def downscaledConfig (a : NodeId) : Icmap :=
  { fiveNodes.config a with waitForAll := some true, allowDownscale := true }

/-- One of the nodes leaves a ring of four. -/
def downscaled : List Event :=
  bringUp downscaledConfig 1 [1, 2, 3, 4] ++ synchronise [1, 2, 3, 4] ++
    [.act 4 .exit, .transmit 4, .deliver 1]

/-- Without `two_node` a new configuration switches `wait_for_all` off and keeps the status, since
it is not read to its end; with `two_node` again the node waits though it is quorate. And the votes
that a node with `allow_downscale` still expects after another one has left are those it has. -/
theorem switching_assertion_fails :
    (∃ s, run (System.step fun _ => [1, 2]) System.cold switching = some s ∧
      (s.nodes 1).assertionFailed = true) ∧
    ∃ s, run (System.step fun _ => [1, 2, 3, 4]) System.cold downscaled = some s ∧
      s.entered = [1, 1, 1, 1] ∧ (s.nodes 1).clusterIsQuorate = true :=
  ⟨exists_run_of_any (by decide +kernel), exists_run_of_any (by decide +kernel)⟩

end Corosync.Votequorum
