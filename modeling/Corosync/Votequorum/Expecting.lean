import Corosync.Votequorum.Counting
import Corosync.Votequorum.Decision

/-!
# The quorum of a cluster with fixed expected votes

While all nodes expect the same votes and never count more, every recalculation leaves the expected
votes as they are and sets the quorum to the majority of them. The quorum has eight bits, so the
majority is at most 255.
-/

namespace Corosync.Votequorum

open Library List Node

/-- More than half of the expected votes. -/
def majority (expectedVotes : ℕ) : ℕ := (expectedVotes + 2) / 2

/-- The features that change the expected votes or postpone a decision are off. -/
structure Settings.Fixed (settings : Settings) : Prop where
  twoNode : settings.twoNode = false
  waitForAll : settings.waitForAll = false
  allowDownscale : settings.allowDownscale = false
  evTracking : settings.evTracking = false

/-- The states and the expected votes of the records. -/
def Node.expectations (n : Node) : List (NodeState × ℕ) :=
  n.clusterMembersList.map fun node => (node.state, node.expectedVotes)

/-- A node that expects `expected` votes and gives the quorum device `device` of them. -/
structure Ready (expected device : ℕ) (n : Node) : Prop where
  settings : n.toSettings.Fixed
  state : n.us.state = .member
  expectedVotes : n.us.expectedVotes = expected
  records : ∀ entry ∈ n.expectations, entry.1 = .member → entry.2 = expected
  qdeviceVotes : n.qdeviceVotes = device
  quorum_le : n.quorum ≤ majority expected

/-- A node that has calculated its quorum. -/
structure Expecting (expected device : ℕ) (n : Node) : Prop extends Ready expected device n where
  quorum : n.quorum = majority expected

/-- A configuration with these expected votes and device votes. -/
structure Icmap.Expects (config : Icmap) (expected device : ℕ) : Prop where
  twoNode : config.twoNode = false
  waitForAll : config.waitForAll.getD false = false
  allowDownscale : config.allowDownscale = false
  expectedVotesTracking : config.expectedVotesTracking = false
  /-- `quorum.expected_votes`, or the expected votes of the node list. -/
  expectedVotes : (if config.expectedVotes.getD 0 ≠ 0 then config.expectedVotes.getD 0
    else config.assignedExpectedVotes) = expected
  /-- `quorum.device.votes`, or their default. -/
  deviceVotes : (if config.assignedDeviceVotes ≠ noDeviceVotes then config.assignedDeviceVotes
    else 0) = device

instance (config : Icmap) (expected device : ℕ) : Decidable (config.Expects expected device) :=
  decidable_of_iff (config.twoNode = false ∧ config.waitForAll.getD false = false ∧
      config.allowDownscale = false ∧ config.expectedVotesTracking = false ∧
      (if config.expectedVotes.getD 0 ≠ 0 then config.expectedVotes.getD 0
        else config.assignedExpectedVotes) = expected ∧
      (if config.assignedDeviceVotes ≠ noDeviceVotes then config.assignedDeviceVotes else 0) =
        device)
    ⟨fun ⟨h₁, h₂, h₃, h₄, h₅, h₆⟩ => ⟨h₁, h₂, h₃, h₄, h₅, h₆⟩,
      fun ⟨h₁, h₂, h₃, h₄, h₅, h₆⟩ => ⟨h₁, h₂, h₃, h₄, h₅, h₆⟩⟩

/-- Nodes of the cluster start with such configurations and form rings, and a quorum device acts. -/
def Cluster.Fixed (c : Cluster) (members : ℕ → List NodeId) (expected device : ℕ) : Event → Prop
  | .start a config r => c.Lists a config ∧ config.Expects expected device ∧ members r ⊆ c.ids
  | .enter _ r => members r ⊆ c.ids
  | .act _ action => action.quiet = true ∧ action ≠ .exit ∧ action ≠ .lastManStandingTimer
  | _ => True

instance (c : Cluster) (members : ℕ → List NodeId) (expected device : ℕ) (e : Event) :
    Decidable (c.Fixed members expected device e) :=
  match e with
  | .start _ _ _ | .act _ _ => inferInstanceAs (Decidable (_ ∧ _))
  | .enter _ r => inferInstanceAs (Decidable (members r ⊆ c.ids))
  | .process _ | .transmit _ | .deliver _ | .activate _ => isTrue trivial

/-- A `nodeinfo` message after which nothing is recalculated: it is about the quorum device, or it
says about another node what its record says. -/
def Node.Unmoved (n : Node) (info : Nodeinfo) : Prop :=
  info.nodeid = qdeviceNodeid ∨ ∃ old, n.findNodeByNodeid info.nodeid = some old ∧
    ¬((n.updateRecord info).checkLastManStanding info).recordChanged (some old) info = true

/-- A node remembers the same ids. -/
def SameIds (n n' : Node) : Prop :=
  n'.lowestNodeId = n.lowestNodeId ∧ n'.highestNodeId = n.highestNodeId

/-- A message announces the expected votes, or the votes of the quorum device. -/
def Expected (expected device : ℕ) (message : Message) : Prop :=
  ∀ info, message = .nodeinfo info →
    if info.nodeid = qdeviceNodeid then info.votes = device else info.expectedVotes = expected

variable {c : Cluster} {members : ℕ → List NodeId} {s s' : System} {e : Event}
  {P : NodeId → List NodeId → Node → Prop} {Q : NodeId → Message → Prop} {n n' : Node}
  {expected device totalVotes : ℕ} {info : Nodeinfo} {a : NodeId} {ring : List NodeId}

namespace Node

/-- Flags are not part of the expectations. -/
@[simp] theorem expectations_changeFlags (n : Node) (change : Flags → Flags) :
    (n.changeFlags change).expectations = n.expectations := by
  simp [expectations, clusterMembersList, changeFlags]

/-- A decision leaves the expectations as they are. -/
theorem expectations_areWeQuorate (n : Node) (totalVotes : ℕ) :
    (n.areWeQuorate totalVotes).expectations = n.expectations := by
  obtain ⟨_, _, _, _, _, _, _, h⟩ := n.areWeQuorate_eq totalVotes
  rw [h]
  simp [expectations, clusterMembersList, decided]

/-- When all members expect the same votes these are the highest. -/
theorem highestExpected_eq (hus : n.us.state = .member)
    (hrecords : ∀ entry ∈ n.expectations, entry.1 = .member → entry.2 = expected) :
    n.highestExpected = expected := by
  rw [@highestExpected_eq_of_members _ expected fun node hnode => ?_,
    if_neg (ne_nil_of_mem (us_mem_members hus))]
  obtain ⟨hlist, hstate⟩ := mem_filter.mp hnode
  exact hrecords _ (mem_map_of_mem hlist) (of_decide_eq_true hstate)

/-- The votes that are counted are those of the members and at most those of the quorum device. -/
theorem countVotes_le (n : Node) : n.countVotes.1 ≤ n.memberVotes + n.qdeviceVotes := by
  unfold countVotes
  split
  · exact Nat.mod_le _ _
  · exact Nat.le_trans (Nat.mod_le _ _) (Nat.le_add_right _ _)

/-- The total of all votes is that of the members and at most that of the quorum device. -/
theorem getTotalVotes_le (n : Node) : n.getTotalVotes.1 ≤ n.memberVotes + n.qdeviceVotes := by
  unfold getTotalVotes
  split
  · exact Nat.mod_le _ _
  · exact Nat.le_trans (Nat.mod_le _ _) (Nat.le_add_right _ _)

end Node

namespace Ready

section

variable (hready : Ready expected device n)

include hready

/-- A recalculation sets the quorum to the majority of the expected votes and decides. -/
theorem recalculateQuorum (hbound : expected < 510)
    (hvotes : n.memberVotes + device ≤ expected) (allowDecrease : Bool) :
    n.recalculateQuorum allowDecrease false =
      { n with quorum := majority expected }.areWeQuorate n.countVotes.1 := by
  have htotal := n.getTotalVotes_le
  have hcount := n.countVotes_le
  rw [hready.qdeviceVotes] at htotal hcount
  have hraise : n.raiseExpectedVotes = n := if_neg (by rw [hready.expectedVotes]; omega)
  have htrack : n.trackExpectedVotes = n := if_neg (by rw [hready.settings.evTracking]; simp)
  have hquorum : n.calculateQuorum allowDecrease 0 % 2 ^ 8 = majority expected := by
    have hle := hready.quorum_le
    have hhighest := highestExpected_eq hready.state hready.records
    unfold calculateQuorum
    simp only [hready.settings.allowDownscale, hready.settings.twoNode, hhighest,
      Bool.false_eq_true, false_and, if_false, Nat.lt_irrefl]
    unfold majority at hle ⊢
    split <;> omega
  unfold Node.recalculateQuorum
  simp only [Bool.false_eq_true, if_false, hraise, htrack, hquorum]
  rfl

/-- The same expectations with the same settings. -/
theorem of_records (hsettings : n'.toSettings = n.toSettings)
    (hdevice : n'.qdeviceVotes = n.qdeviceVotes) (hquorum : n'.quorum = n.quorum)
    (hstate : n'.us.state = .member) (hexpected : n'.us.expectedVotes = expected)
    (hrecords : ∀ entry ∈ n'.expectations, entry.1 = .member → entry.2 = expected) :
    Ready expected device n' where
  settings := hsettings ▸ hready.settings
  state := hstate
  expectedVotes := hexpected
  records := hrecords
  qdeviceVotes := hdevice.trans hready.qdeviceVotes
  quorum_le := hquorum ▸ hready.quorum_le

/-- A new record is not one of a member. -/
theorem allocateNode {nodeid : NodeId}
    (halloc : n.allocateNode nodeid = some n') : Ready expected device n' := by
  have hmem := @Node.mem_allocateNode _ _ _ halloc
  obtain ⟨before, after, entries, rfl⟩ := allocateNode_eq halloc
  refine hready.of_records rfl rfl rfl hready.state hready.expectedVotes
    fun entry hentry hstate => ?_
  obtain ⟨node, hnode, rfl⟩ := mem_map.mp hentry
  obtain rfl | hold := hmem hnode
  · exact absurd hstate (by simp [fresh])
  · exact hready.records _ (mem_map_of_mem hold) hstate

/-- A message with the same expected votes. -/
theorem recorded (hinfo : info.expectedVotes = expected)
    (hstays : info.flags.leaving = false) : Ready expected device (n.recorded info) := by
  have hadopted : n.adopted info = expected := by
    unfold adopted
    split
    · exact hinfo
    · exact hready.expectedVotes
  have hannounced : n.announcedExpected info = expected := by
    unfold announcedExpected
    split
    · exact hinfo
    · exact hadopted
  have hset : n.setExpectedVotes (n.adopted info) = n := by
    rw [hadopted, ← hready.expectedVotes]
    rfl
  obtain ⟨_, _, _, _, _, heq⟩ := n.recorded_eq info
  have hsettings := hready.settings
  refine ⟨?_, ?_, ?_, fun entry hentry => ?_, ?_, ?_⟩
  · rw [heq]
    exact { hsettings with }
  · rw [n.us_recorded]
    split
    · simp [announcedRecord, announcedState, hstays]
    · exact hready.state
  · rw [n.us_recorded]
    split
    · exact hannounced
    · exact hadopted
  · rw [expectations, n.clusterMembersList_recorded, hset, map_map] at hentry
    obtain ⟨node, hnode, rfl⟩ := mem_map.mp hentry
    simp only [Function.comp_apply]
    split
    · exact fun _ => hannounced
    · exact hready.records _ (mem_map_of_mem hnode)
  · rw [heq]
    exact hready.qdeviceVotes
  · rw [heq]
    exact hready.quorum_le

/-- In a new ring a member keeps its expectations. -/
theorem syncInit {next : List NodeId}
    (hmem : n.us.nodeId ∈ next) : Ready expected device (n.syncInit next) := by
  obtain ⟨_, _, heq, -⟩ := n.syncInit_eq next
  obtain ⟨_, _, hus, hstate⟩ := n.us_syncInit next
  refine hready.of_records (by rw [heq]; rfl) (by rw [heq]; rfl) (by rw [heq]; rfl) ?_ ?_ ?_
  · rw [hus]
    exact (hstate hmem).trans hready.state
  · rw [hus]
    exact hready.expectedVotes
  · intro entry hentry hmember
    obtain ⟨node, hnode, rfl⟩ := mem_map.mp hentry
    obtain ⟨old, hold, _, _, rfl | rfl, rfl⟩ := mem_syncInit hnode
    · exact hready.records (old.state, old.expectedVotes) (mem_map_of_mem hold) hmember
    · cases hmember

end

end Ready

namespace Expecting

/-- A recalculation leaves the expected votes as they are and takes a decision. -/
theorem recalculateQuorum (hready : Ready expected device n) (hbound : expected < 510)
    (hvotes : n.memberVotes + device ≤ expected) (allowDecrease : Bool) :
    Expecting expected device (n.recalculateQuorum allowDecrease false) ∧
      (n.recalculateQuorum allowDecrease false).Decided ∧
      (n.memberVotes + device < majority expected →
        SameIds n (n.recalculateQuorum allowDecrease false)) := by
  have hkept := n.kept_recalculate allowDecrease false
  have heq := hready.recalculateQuorum hbound hvotes allowDecrease
  have hquorum : (n.recalculateQuorum allowDecrease false).quorum = majority expected := by
    rw [heq, (same_areWeQuorate _ _).2.1]
  refine ⟨⟨⟨?_, ?_, ?_, ?_, ?_, ?_⟩, hquorum⟩, ?_, fun hfew => ?_⟩
  · rw [hkept.settings]
    exact hready.settings
  · rw [hkept.state]
    exact hready.state
  · rw [heq, (same_areWeQuorate _ _).1]
    exact hready.expectedVotes
  · rw [heq, expectations_areWeQuorate]
    exact hready.records
  · rw [hkept.qdeviceVotes]
    exact hready.qdeviceVotes
  · exact Nat.le_of_eq hquorum
  · unfold Node.Decided
    rw [hkept.countVotes, heq]
    exact clusterIsQuorate_areWeQuorate (n := { n with quorum := majority expected })
      hready.settings.waitForAll _
  · have hcount := n.countVotes_le
    rw [hready.qdeviceVotes] at hcount
    have hlt : n.countVotes.1 < majority expected := by omega
    rw [heq, areWeQuorate_of_not_waitForAll (n := { n with quorum := majority expected })
      hready.settings.waitForAll]
    have hsame : { n with quorum := majority expected }.rememberIds n.countVotes.1 =
        { n with quorum := majority expected } := if_neg (Nat.not_le.mpr hlt)
    rw [hsame]
    exact ⟨rfl, rfl⟩

section

variable (hexpecting : Expecting expected device n)

include hexpecting

/-- A node that enters a ring still expects the same votes. -/
theorem syncInit {next : List NodeId}
    (hmem : n.us.nodeId ∈ next) : Expecting expected device (n.syncInit next) where
  toReady := hexpecting.toReady.syncInit hmem
  quorum := by
    obtain ⟨_, _, heq, -⟩ := n.syncInit_eq next
    rw [heq]
    exact hexpecting.quorum

/-- A node announces itself and has a record, which may be new. -/
theorem recordNodeinfo (hbound : expected < 510)
    (hinfo : info.expectedVotes = expected) (hstays : info.flags.leaving = false)
    (old : Option ClusterNode)
    (hvotes : (n.recordNodeinfo old info).memberVotes + device ≤ expected) :
    Expecting expected device (n.recordNodeinfo old info) ∧
      ((n.recordNodeinfo old info).Decided ∨
        ¬((n.updateRecord info).checkLastManStanding info).recordChanged old info = true ∧
          (n.recordNodeinfo old info).clusterIsQuorate = n.clusterIsQuorate) ∧
      ((n.recordNodeinfo old info).memberVotes + device < majority expected →
        SameIds n (n.recordNodeinfo old info)) := by
  have hready := hexpecting.toReady.recorded hinfo hstays
  have hsame : (n.recorded info).quorum = n.quorum ∧
      (n.recorded info).clusterIsQuorate = n.clusterIsQuorate ∧ SameIds n (n.recorded info) := by
    obtain ⟨_, _, _, _, _, heq⟩ := n.recorded_eq info
    rw [heq]
    exact ⟨rfl, rfl, rfl, rfl⟩
  obtain ⟨hquorum, hquorate, hids⟩ := hsame
  rw [← n.memberVotes_recorded] at hvotes ⊢
  unfold Node.recordNodeinfo
  dsimp only
  split
  · rw [hstays]
    obtain ⟨hexpecting, hdecided, hrecalculated⟩ := recalculateQuorum hready hbound hvotes
      (false || n.adopts info)
    rw [heedQuorateNode_of_not_waitForAll hexpecting.settings.waitForAll]
    refine ⟨hexpecting, .inl hdecided, fun hfew => ?_⟩
    obtain ⟨hlowest, hhighest⟩ := hrecalculated hfew
    exact ⟨hlowest.trans hids.1, hhighest.trans hids.2⟩
  · rename_i hunchanged
    rw [heedQuorateNode_of_not_waitForAll hready.settings.waitForAll]
    exact ⟨⟨hready, hquorum.trans hexpecting.quorum⟩, .inr ⟨hunchanged, hquorate⟩, fun _ => hids⟩

/-- A `nodeinfo` message about the quorum device says what the node knows. -/
theorem qdeviceNodeinfoHandler (sender : NodeId) (hinfo : info.votes = device) :
    Expecting expected device (n.qdeviceNodeinfoHandler sender info) ∧
      (n.qdeviceNodeinfoHandler sender info).us = n.us ∧
      (n.qdeviceNodeinfoHandler sender info).clusterIsQuorate = n.clusterIsQuorate ∧
      SameIds n (n.qdeviceNodeinfoHandler sender info) := by
  have hready := hexpecting.toReady
  obtain ⟨_, heq⟩ :=
    qdeviceNodeinfoHandler_of_known (hinfo.trans hready.qdeviceVotes.symm) sender
  rw [heq]
  exact ⟨⟨{ hready with }, hexpecting.quorum⟩, rfl, rfl, rfl, rfl⟩

/-- A `nodeinfo` message: a decision is taken unless nothing is recalculated. -/
theorem nodeinfoHandler (hbound : expected < 510) (hbase : Base c a ring n) (sender : NodeId)
    (hinfo : Expected expected device (.nodeinfo info))
    (hannouncing : Announcing c.votes (.nodeinfo info))
    (hvotes : (n.nodeinfoHandler sender info).memberVotes + device ≤ expected) :
    Expecting expected device (n.nodeinfoHandler sender info) ∧
      ((n.nodeinfoHandler sender info).Decided ∨
        n.Unmoved info ∧ (n.nodeinfoHandler sender info).clusterIsQuorate = n.clusterIsQuorate) ∧
      ((n.nodeinfoHandler sender info).memberVotes + device < majority expected →
        SameIds n (n.nodeinfoHandler sender info)) := by
  have hexpected := hinfo info rfl
  by_cases hnode : info.nodeid = qdeviceNodeid
  · rw [if_pos hnode] at hexpected
    have hhandler : n.nodeinfoHandler sender info = n.qdeviceNodeinfoHandler sender info :=
      if_pos hnode
    obtain ⟨hexpecting, -, hquorate, hids⟩ := hexpecting.qdeviceNodeinfoHandler sender hexpected
    rw [hhandler]
    exact ⟨hexpecting, .inr ⟨.inl hnode, hquorate⟩, fun _ => hids⟩
  · rw [if_neg hnode] at hexpected
    have hstays := (hannouncing info rfl hnode).2
    obtain ⟨base, old, heq, ⟨rfl, node, rfl, hfind⟩ | ⟨rfl, -, halloc⟩⟩ :=
      hbase.roster.nodeinfoHandler_eq hbase.isRing sender hnode
    · rw [heq] at hvotes ⊢
      obtain ⟨hexpecting, hcases, hids⟩ :=
        hexpecting.recordNodeinfo hbound hexpected hstays (some node) hvotes
      exact ⟨hexpecting, hcases.imp_right fun ⟨hsame, hquorate⟩ =>
        ⟨.inr ⟨node, hfind, hsame⟩, hquorate⟩, hids⟩
    · have hready := hexpecting.toReady.allocateNode halloc
      rw [heq] at hvotes ⊢
      obtain ⟨_, _, _, rfl⟩ := allocateNode_eq halloc
      obtain ⟨hexpecting, hcases, hids⟩ :=
        recordNodeinfo ⟨hready, hexpecting.quorum⟩ hbound hexpected hstays none hvotes
      exact ⟨hexpecting, .inl (hcases.resolve_right fun ⟨hsame, _⟩ => hsame rfl), hids⟩

end

/-- The settings that such a configuration leads to. -/
theorem settings_fixed {config : Icmap} (hexpects : config.Expects expected device)
    (tie : AutoTieBreaker) : (startedSettings config tie).Fixed where
  twoNode := by simp [startedSettings, followedSettings, startupSettings, hexpects.twoNode]
  waitForAll := by
    have hwait := hexpects.waitForAll
    simp only [startedSettings, followedSettings, startupSettings]
    cases hconfig : config.waitForAll with
    | none => simp [hexpects.twoNode]
    | some _ => simpa [hconfig] using hwait
  allowDownscale := hexpects.allowDownscale
  evTracking := by
    simp [startedSettings, followedSettings, startupSettings,
      hexpects.allowDownscale, hexpects.expectedVotesTracking]

/-- A node starts with the configured expectations. -/
theorem start {config : Icmap} {file : Option ℕ} (hlists : c.Lists a config)
    (hbound : expected < 510)
    (hvotes : c.total + device ≤ expected) (hexpects : config.Expects expected device)
    (hinit : execInitFn config a file = .ok n) : Expecting expected device n := by
  obtain ⟨tie, barrier, fdOpen, file', -, rfl⟩ := execInitFn_eq hinit
  have hvotesLe : c.votes a ≤ c.total := by
    have hle := @tally_le_of_subset _ c.votes _ _ (nodup_singleton a)
      (cons_subset.mpr ⟨hlists.mem, nil_subset _⟩)
    simpa [tally, Cluster.total] using hle
  have hexpected : ((configured config a tie barrier fdOpen file').assignVotes
      config).us.expectedVotes = expected := by
    have htracking := (settings_fixed hexpects tie).evTracking
    simp only [assignVotes, configured, htracking, hlists.haveNodelist]
    exact hexpects.expectedVotes
  have hdevice : ((configured config a tie barrier fdOpen file').assignVotes
      config).qdeviceVotes = device := by
    rw [← hexpects.deviceVotes]
    simp only [assignVotes, configured, zero]
    split
    · rfl
    · split <;> rfl
  obtain ⟨status, flag, hreset⟩ := resetWaitForAllStatus_eq
    ((configured config a tie barrier fdOpen file').assignVotes config) false
  have hready : Ready expected device (beforeDecision config a tie barrier fdOpen file') := by
    rw [beforeDecision, hreset]
    refine ⟨settings_fixed hexpects tie, rfl, hexpected, fun entry hentry _ => ?_, hdevice,
      Nat.zero_le _⟩
    obtain rfl := mem_singleton.mp hentry
    exact hexpected
  have hmember : (beforeDecision config a tie barrier fdOpen file').memberVotes =
      c.votes a := by
    rw [beforeDecision, hreset, ← hlists.assignedVotes]
    rfl
  exact (recalculateQuorum hready hbound (by omega) false).1

/-- Flags and progress do not concern the expectations. -/
theorem adjusted (hexpecting : Expecting expected device n) (flags : Flags) (progress : Progress)
    (masterWins fdOpen : Bool) :
    Expecting expected device (n.adjusted flags progress masterWins fdOpen) := by
  have hsettings := hexpecting.settings
  have hrecords : (n.adjusted flags progress masterWins fdOpen).expectations = n.expectations :=
    n.expectations_changeFlags fun _ => flags
  exact ⟨⟨{ hsettings with }, hexpecting.state, hexpecting.expectedVotes,
    hrecords ▸ hexpecting.records, hexpecting.qdeviceVotes, hexpecting.quorum_le⟩,
    hexpecting.quorum⟩

end Expecting

/-- A fixed event is steady. -/
theorem Cluster.Fixed.steady (hfixed : c.Fixed members expected device e) : c.Steady members e := by
  cases e with
  | start _ _ _ => exact ⟨hfixed.1, hfixed.2.2⟩
  | enter _ _ => exact hfixed
  | act _ _ => exact ⟨hfixed.1, hfixed.2.1⟩
  | _ => trivial

/-- A decision was taken, or nothing about it has changed. -/
def Outcome (n n' : Node) : Prop :=
  n'.syncInProgress = false →
    n'.Decided ∨ n.syncInProgress = false ∧ n'.clusterIsQuorate = n.clusterIsQuorate

/-- A step of a node keeps what it expects; what it decides follows from what it knows. -/
theorem Expecting.nodeStep {ring' : List NodeId} (hfixed : c.Fixed members expected device e)
    (hbound : expected < 510) (hvotes : c.total + device ≤ expected) (hbase : Base c a ring' n')
    (hstep : NodeStep members (fun a ring n => Base c a ring n ∧ Expecting expected device n)
      (fun _ message => Announcing c.votes message ∧ Expected expected device message)
      a ring n e ring' n') :
    Expecting expected device n' ∧ Outcome n n' := by
  have hle : n'.memberVotes + device ≤ expected := by
    have hmember := hbase.memberVotes_le
    have htally := hbase.tally_le
    omega
  cases hstep with
  | start hring hinit =>
    refine
      ⟨(Expecting.start hfixed.1 hbound hvotes hfixed.2.1 hinit).syncInit ?_, by simp [Outcome]⟩
    rw [(SameRoll.execInitFn hinit).nodeId]
    exact hring.mem
  | enter hnode hring =>
    refine ⟨hnode.2.syncInit ?_, by simp [Outcome]⟩
    rw [hnode.1.roster.nodeId]
    exact hring.mem
  | process hnode _ =>
    rw [syncProcess_fst]
    have hready := hnode.2.toReady
    exact ⟨⟨{ hready with }, hnode.2.quorum⟩, fun hsettled => .inr ⟨hsettled, rfl⟩⟩
  | transmit hnode => exact ⟨hnode.2, fun hsettled => .inr ⟨hsettled, rfl⟩⟩
  | barrier hnode => exact ⟨hnode.2, fun hsettled => .inr ⟨hsettled, rfl⟩⟩
  | @deliver sender info hnode _ hmessage =>
    obtain ⟨hexpecting, hcases, -⟩ := hnode.2.nodeinfoHandler hbound hnode.1 sender hmessage.2
      hmessage.1 hle
    refine ⟨hexpecting, fun hsettled => hcases.imp_right fun ⟨_, hquorate⟩ => ⟨?_, hquorate⟩⟩
    rw [← (SameSync.nodeinfoHandler n sender info).syncInProgress]
    exact hsettled
  | activate hnode _ =>
    have hle : n.memberVotes + device ≤ expected := by
      have hmember := hnode.1.memberVotes_le
      have htally := hnode.1.tally_le
      omega
    obtain ⟨hexpecting, hdecided, -⟩ :=
      Expecting.recalculateQuorum hnode.2.toReady hbound hle false
    have hready := hexpecting.toReady
    exact ⟨⟨{ hready with }, hexpecting.quorum⟩,
      fun _ => .inl (hdecided.setSyncInProgress false)⟩
  | @act action hnode =>
    obtain ⟨htimer, -⟩ | ⟨flags, _, _, masterWins, fdOpen, heq, -⟩ := n.act_adjusted hfixed.1
    · exact absurd htimer hfixed.2.2
    · refine ⟨heq ▸ hnode.2.adjusted flags _ masterWins fdOpen, fun hsettled => .inr ?_⟩
      refine ⟨?_, by rw [heq]; rfl⟩
      rw [← (SameRoll.act n action).syncInProgress]
      exact hsettled

/-- A node announces what it expects. -/
theorem Expecting.announces (hexpecting : Expecting expected device n)
    (hid : n.us.nodeId ≠ qdeviceNodeid) :
    (∀ first, Expected expected device (.nodeinfo (n.nodeinfoWith first))) ∧
      Expected expected device (.nodeinfo n.qdeviceNodeinfo) := by
  refine ⟨fun first info hinfo => ?_, fun info hinfo => ?_⟩
  · obtain rfl := Message.nodeinfo.inj hinfo
    rw [if_neg (by exact hid)]
    exact hexpecting.expectedVotes
  · obtain rfl := Message.nodeinfo.inj hinfo
    rw [if_pos (show n.qdeviceNodeinfo.nodeid = qdeviceNodeid from rfl)]
    exact hexpecting.qdeviceVotes

/-- What holds in every run of a cluster with fixed expected votes. -/
structure Steadfast (c : Cluster) (members : ℕ → List NodeId) (expected device : ℕ) (s : System) :
    Prop extends Counting c members s where
  expecting : Everywhere members (fun _ _ n => Expecting expected device n)
    (fun _ message => Expected expected device message) s

namespace Steadfast

/-- Before the first start there are no expectations. -/
theorem cold : Steadfast c members expected device System.cold :=
  ⟨Counting.cold, Everywhere.cold⟩

section

variable (hsteadfast : Steadfast c members expected device s)

include hsteadfast

/-- What nodes in rings know and expect. -/
theorem everywhere_base :
    Everywhere members (fun a ring n => Base c a ring n ∧ Expecting expected device n)
      (fun _ message => Announcing c.votes message ∧ Expected expected device message) s :=
  hsteadfast.toCounting.everywhere_base.and hsteadfast.expecting

/-- The node of a step expects the same, and has decided or is as before. -/
theorem step_node (hbound : expected < 510)
    (hvotes : c.total + device ≤ expected) (hfixed : c.Fixed members expected device e)
    (hstep : System.Step members s e s') (hring : 0 < s'.ring e.node) :
    Expecting expected device (s'.nodes e.node) ∧ Outcome (s.nodes e.node) (s'.nodes e.node) :=
  Expecting.nodeStep hfixed hbound hvotes
    ((hsteadfast.toCounting.step hfixed.steady hstep).base hring)
    (hsteadfast.toRecorded.nodeStep hsteadfast.everywhere_base hstep)

/-- A fixed step keeps the expectations. -/
theorem step (hbound : expected < 510)
    (hvotes : c.total + device ≤ expected) (hfixed : c.Fixed members expected device e)
    (hstep : System.Step members s e s') : Steadfast c members expected device s' where
  toCounting := hsteadfast.toCounting.step hfixed.steady hstep
  expecting := by
    refine hsteadfast.expecting.step_node hfixed.steady.quiet hstep
      (fun hring => (hsteadfast.step_node hbound hvotes hfixed hstep hring).1)
      fun hring hexpecting => hexpecting.announces ?_
    have hbase := (hsteadfast.toCounting.step hfixed.steady hstep).base hring
    rw [hbase.roster.nodeId]
    exact fun hdevice => hbase.isRing.qdevice (hdevice ▸ hbase.isRing.mem)

/-- A delivered `nodeinfo` message leads to a decision unless nothing is recalculated. -/
theorem outcome_of_deliver (hbound : expected < 510) (hvotes : c.total + device ≤ expected)
    (hring : 0 < s.ring a) {sender : NodeId}
    (hnext : (s.log (s.ring a))[s.delivered a]? = some (sender, .message (.nodeinfo info))) :
    ((s.nodes a).nodeinfoHandler sender info).Decided ∨
      (s.nodes a).Unmoved info ∧ ((s.nodes a).nodeinfoHandler sender info).clusterIsQuorate =
        (s.nodes a).clusterIsQuorate := by
  have hmem := mem_of_getElem? hnext
  have hbase := hsteadfast.base hring
  have hstep : s.step members (.deliver a) = some (s.handled a
      ((s.nodes a).nodeinfoHandler sender info)) := by
    simp only [System.step, hnext, if_pos hring]
    rfl
  have hafter := (hsteadfast.toCounting.step (e := .deliver a) trivial
    (System.step_eq_some hstep)).base (a := a) hring
  simp only [System.handled, Function.update_self] at hafter
  refine ((hsteadfast.expecting.node a hring).nodeinfoHandler hbound hbase sender
    (hsteadfast.expecting.log _ _ _ hmem) (hsteadfast.voting.log _ _ _ hmem) ?_).2.1
  have hle := hafter.memberVotes_le
  have htally := hafter.tally_le
  omega

end

end Steadfast

end Corosync.Votequorum
