import Corosync.Library.Rivals
import Corosync.Votequorum.FirstQuorum

/-!
# Last man standing on one node

A node with last man standing lowers its expected votes to the number of members it counts. While
it is quorate it counts more than half of the votes it expects.
-/

namespace Corosync.Votequorum

open Library List Node

variable {c : Cluster} {members : ℕ → List NodeId} {bound : ℕ} {s s' : System} {e : Event}
  {n n' : Node} {a : NodeId} {ring : List NodeId} {info : Nodeinfo}

/-- Wait for all is on, and no other feature decides about the quorum. -/
structure Settings.Waits (settings : Settings) : Prop where
  twoNode : settings.twoNode = false
  waitForAll : settings.waitForAll = true
  autoTieBreaker : settings.autoTieBreaker = .none
  allowDownscale : settings.allowDownscale = false
  evTracking : settings.evTracking = false
  masterWins : settings.qdeviceMasterWins = false

/-- A node with last man standing that expects at most `bound` votes. -/
structure Standing (bound : ℕ) (n : Node) : Prop where
  settings : n.toSettings.Waits
  state : n.us.state = .member
  records : ∀ node ∈ n.clusterMembersList, node.expectedVotes ≤ bound
  quorum_le : n.quorum ≤ majority bound
  qdeviceVotes : n.qdeviceVotes = 0
  castVote : n.us.flags.qdeviceCastVote = false
  waits : n.waitForAllStatus = true → n.clusterIsQuorate = false

/-- A configuration with last man standing and wait for all, and with no other special feature. -/
def Icmap.LastMan (config : Icmap) : Prop :=
  config.lastManStanding = true ∧ config.waitForAll = some true ∧ config.expectedVotes = none ∧
    config.deviceModel = false ∧ config.twoNode = false ∧ config.autoTieBreaker = false ∧
    config.allowDownscale = false ∧ config.expectedVotesTracking = false

instance (config : Icmap) : Decidable config.LastMan := inferInstanceAs (Decidable (_ ∧ _))

/-- The expected votes are those of the node list. -/
theorem Icmap.LastMan.awaits {config : Icmap} (hlastMan : config.LastMan)
    (hlists : c.Lists a config) (hbound : c.total < 2 ^ 32) : config.Awaits c.total := by
  obtain ⟨-, hwait, hexpected, hdevice, -, -, hdown, htracking⟩ := hlastMan
  refine ⟨by rw [hwait]; rfl, hdevice, hdown, htracking, ?_⟩
  simp only [hexpected, Icmap.assignedExpectedVotes, Icmap.autoDeviceVotes, hdevice,
    hlists.nodeExpectedVotes]
  exact Nat.mod_eq_of_lt hbound

/-- A quorate node expects less than twice these votes. -/
def Node.Upheld (n : Node) (votes : ℕ) : Prop :=
  n.clusterIsQuorate = true → n.us.expectedVotes < 2 * votes

/-- A message does not announce more expected votes, or a quorum device. -/
def Moderate (bound : ℕ) (message : Message) : Prop :=
  ∀ info, message = .nodeinfo info → info.expectedVotes ≤ bound ∧
    info.flags.qdeviceCastVote = false ∧ (info.nodeid = qdeviceNodeid → info.votes = 0)

namespace Standing

section

variable (hstanding : Standing bound n)

include hstanding

/-- The own expected votes are bounded. -/
theorem expectedVotes_le : n.us.expectedVotes ≤ bound :=
  hstanding.records n.us (by simp [clusterMembersList])

/-- The members expect at most `bound` votes, and at least those of this node. -/
theorem highestExpected : n.us.expectedVotes ≤ n.highestExpected ∧ n.highestExpected ≤ bound := by
  constructor
  · exact expectedVotes_le_highestExpected hstanding.state
  · exact highestExpected_le fun node hnode => hstanding.records node (mem_of_mem_filter hnode)

/-- No votes of a quorum device are counted. -/
theorem countVotes_le : n.countVotes.1 ≤ n.memberVotes := by
  have hle := n.countVotes_le
  rw [hstanding.qdeviceVotes] at hle
  exact hle

/-- The same for the total votes. -/
theorem getTotalVotes_le : n.getTotalVotes.1 ≤ n.memberVotes := by
  have hle := n.getTotalVotes_le
  rw [hstanding.qdeviceVotes] at hle
  exact hle

/-- The quorum is a majority of the votes that the node expects. -/
theorem calculateQuorum {maxExpected : ℕ} (hbound : bound < 510)
    (hmax : maxExpected ≤ bound) (hvotes : n.memberVotes ≤ bound) (allowDecrease : Bool) :
    majority (if 0 < maxExpected then maxExpected else n.us.expectedVotes) ≤
        n.calculateQuorum allowDecrease maxExpected ∧
      n.calculateQuorum allowDecrease maxExpected ≤ majority bound := by
  obtain ⟨hhighest, hhighest'⟩ := hstanding.highestExpected
  have hcount := hstanding.countVotes_le
  have hquorum := hstanding.quorum_le
  unfold Node.calculateQuorum
  simp only [hstanding.settings.allowDownscale, hstanding.settings.twoNode, Bool.false_eq_true,
    false_and, if_false]
  unfold majority at hquorum ⊢
  constructor
  · split <;> split <;> omega
  · split <;> split <;> omega

/-- A change of the records and of variables that do not matter. -/
theorem of_records (hsettings : n'.toSettings.Waits) (hstate : n'.us.state = .member)
    (hrecords : ∀ node ∈ n'.clusterMembersList, node.expectedVotes ≤ bound)
    (hquorum : n'.quorum = n.quorum) (hdevice : n'.qdeviceVotes = n.qdeviceVotes)
    (hcast : n'.us.flags.qdeviceCastVote = false)
    (hstatus : n'.waitForAllStatus = n.waitForAllStatus)
    (hquorate : n'.clusterIsQuorate = n.clusterIsQuorate) : Standing bound n' where
  settings := hsettings
  state := hstate
  records := hrecords
  quorum_le := hquorum ▸ hstanding.quorum_le
  qdeviceVotes := hdevice.trans hstanding.qdeviceVotes
  castVote := hcast
  waits := hstatus ▸ hquorate ▸ hstanding.waits

/-- Wait for all ends, or a decision is taken: the votes reach the quorum of a quorate node. -/
theorem areWeQuorate {totalVotes : ℕ}
    (hquorum : majority n.us.expectedVotes ≤ n.quorum) (htotal : totalVotes ≤ n.memberVotes) :
    Standing bound (n.areWeQuorate totalVotes) ∧
      (n.areWeQuorate totalVotes).Upheld n.memberVotes := by
  have hkept := n.kept_areWeQuorate totalVotes
  have hcast := congrArg Flags.qdeviceCastVote hkept.flags
  have hrecords : ∀ node ∈ (n.areWeQuorate totalVotes).clusterMembersList,
      node.expectedVotes ≤ bound := by
    intro node hmem
    have hentry : (node.state, node.expectedVotes) ∈ (n.areWeQuorate totalVotes).expectations :=
      mem_map_of_mem hmem
    rw [expectations_areWeQuorate] at hentry
    obtain ⟨old, hold, heq⟩ := mem_map.mp hentry
    rw [← (Prod.mk.inj heq).2]
    exact hstanding.records old hold
  have hsettings := hstanding.settings
  have hdecision : ((n.areWeQuorate totalVotes).waitForAllStatus = true →
        (n.areWeQuorate totalVotes).clusterIsQuorate = false) ∧
      ((n.areWeQuorate totalVotes).clusterIsQuorate = true → n.quorum ≤ totalVotes) := by
    obtain ⟨hstatus, hsame, hquorate⟩ | ⟨hquorate, hstatus⟩ := areWeQuorate_of_waitForAll
      hsettings.waitForAll hsettings.autoTieBreaker hsettings.masterWins totalVotes
    · rw [hquorate, hstanding.waits hstatus]
      exact ⟨fun _ => rfl, fun hon => absurd hon Bool.false_ne_true⟩
    · rw [hquorate, hstatus]
      exact ⟨fun hoff => Bool.not_eq_true' _ ▸ hoff, fun hon => of_decide_eq_true hon⟩
  obtain ⟨hwaits, hupheld⟩ := hdecision
  refine ⟨⟨?_, ?_, hrecords, ?_, ?_, ?_, hwaits⟩, fun hquorate => ?_⟩
  · rw [hkept.settings]
    exact hstanding.settings
  · rw [hkept.state]
    exact hstanding.state
  · rw [(same_areWeQuorate _ _).2.1]
    exact hstanding.quorum_le
  · rw [hkept.qdeviceVotes]
    exact hstanding.qdeviceVotes
  · exact hcast.trans hstanding.castVote
  · have hreached := hupheld hquorate
    rw [(same_areWeQuorate _ _).1]
    unfold majority at hquorum
    omega

/-- Expected votes are raised to the votes of members. -/
theorem raiseExpectedVotes (hvotes : n.memberVotes ≤ bound) :
    Standing bound n.raiseExpectedVotes := by
  unfold Node.raiseExpectedVotes
  split
  · have htotal := hstanding.getTotalVotes_le
    refine { hstanding with records := ?_ }
    exact forall_mem_of_us hstanding.records (Nat.le_trans htotal hvotes)
  · exact hstanding

/-- The members get new expected votes. -/
theorem updateNodeExpectedVotes {expectedVotes : ℕ}
    (hle : expectedVotes ≤ bound) : Standing bound (n.updateNodeExpectedVotes expectedVotes) ∧
      (n.updateNodeExpectedVotes expectedVotes).us.expectedVotes =
        if 0 < expectedVotes then expectedVotes else n.us.expectedVotes := by
  unfold Node.updateNodeExpectedVotes
  split
  · rename_i hne
    have hus : (n.mapNodes fun node => if node.state = .member then
        { node with expectedVotes := expectedVotes } else node).us =
          { n.us with expectedVotes := expectedVotes } := if_pos hstanding.state
    refine ⟨hstanding.of_records hstanding.settings ?_ ?_ rfl rfl ?_ rfl rfl, ?_⟩
    · rw [hus]
      exact hstanding.state
    · intro node hmem
      rw [clusterMembersList_mapNodes] at hmem
      obtain ⟨old, hold, rfl⟩ := mem_map.mp hmem
      split
      · exact hle
      · exact hstanding.records old hold
    · rw [hus]
      exact hstanding.castVote
    · rw [hus, if_pos (Nat.pos_of_ne_zero hne)]
  · rename_i hzero
    exact ⟨hstanding, (if_neg (by omega)).symm⟩

/-- A recalculation. The expected votes become the number of members, or follow the votes. -/
theorem recalculateQuorum (hbound : bound < 510)
    (hvotes : n.memberVotes ≤ bound) (allowDecrease byCurrentNodes : Bool)
    (hcount : byCurrentNodes = true → n.members.length ≤ bound) :
    Standing bound (n.recalculateQuorum allowDecrease byCurrentNodes) ∧
      (n.recalculateQuorum allowDecrease byCurrentNodes).Upheld n.memberVotes ∧
      (n.recalculateQuorum allowDecrease byCurrentNodes).us.expectedVotes =
        if byCurrentNodes then n.members.length else max n.us.expectedVotes n.getTotalVotes.1 := by
  have hraised := hstanding.raiseExpectedVotes hvotes
  have hkept := n.kept_raise
  have hmemberVotes : n.raiseExpectedVotes.memberVotes = n.memberVotes := by
    rw [memberVotes_eq, hkept.ballots, ← memberVotes_eq]
  have htrack : n.raiseExpectedVotes.trackExpectedVotes = n.raiseExpectedVotes :=
    if_neg (by rw [hraised.settings.evTracking]; simp)
  have hpos : 0 < n.members.length := by
    refine length_pos_of_mem (mem_filter.mpr ⟨?_, decide_eq_true hstanding.state⟩)
    simp [clusterMembersList]
  have htotal : n.getTotalVotes.2 = n.members.length := by
    rw [getTotalVotes, if_neg (by simp [hstanding.qdeviceVotes])]
  rw [recalculateQuorum_eq, prepared, htrack, htotal]
  generalize hclusterMembers : (if byCurrentNodes then n.members.length else 0) = clusterMembers
  have hle : clusterMembers ≤ bound := by
    rw [← hclusterMembers]
    split
    · rename_i hcurrent
      exact hcount hcurrent
    · exact Nat.zero_le _
  obtain ⟨hquorum, hquorum'⟩ := hraised.calculateQuorum hbound hle (hmemberVotes ▸ hvotes)
    allowDecrease
  have hmod : n.raiseExpectedVotes.calculateQuorum allowDecrease clusterMembers % 2 ^ 8 =
      n.raiseExpectedVotes.calculateQuorum allowDecrease clusterMembers := by
    refine Nat.mod_eq_of_lt (Nat.lt_of_le_of_lt hquorum' ?_)
    unfold majority
    omega
  rw [hmod]
  have hcalculated : Standing bound { n.raiseExpectedVotes with
      quorum := n.raiseExpectedVotes.calculateQuorum allowDecrease clusterMembers } :=
    { hraised with quorum_le := hquorum' }
  obtain ⟨hupdated, hexpected⟩ := hcalculated.updateNodeExpectedVotes hle
  have hreached : majority ({ n.raiseExpectedVotes with
      quorum := n.raiseExpectedVotes.calculateQuorum allowDecrease
        clusterMembers }.updateNodeExpectedVotes clusterMembers).us.expectedVotes ≤
      ({ n.raiseExpectedVotes with
        quorum := n.raiseExpectedVotes.calculateQuorum allowDecrease
          clusterMembers }.updateNodeExpectedVotes clusterMembers).quorum := by
    rw [hexpected, (same_updateNodeExpectedVotes _ _).1]
    exact hquorum
  have hmembers : ({ n.raiseExpectedVotes with
      quorum := n.raiseExpectedVotes.calculateQuorum allowDecrease
        clusterMembers }.updateNodeExpectedVotes clusterMembers).memberVotes = n.memberVotes := by
    rw [memberVotes_eq, (kept_updateNodeExpectedVotes _ _).ballots, ← memberVotes_eq]
    exact hmemberVotes
  obtain ⟨hdecided, hupheld⟩ := hupdated.areWeQuorate hreached
    (hmembers ▸ hmemberVotes ▸ hraised.countVotes_le)
  refine ⟨hdecided, hmembers ▸ hupheld, ?_⟩
  rw [(same_areWeQuorate _ _).1, hexpected, ← hclusterMembers]
  cases byCurrentNodes with
  | true => exact if_pos hpos
  | false => exact n.expectedVotes_raise

/-- A message with bounded expected votes. -/
theorem recorded (hinfo : info.expectedVotes ≤ bound)
    (hcast : info.flags.qdeviceCastVote = false) (hstays : info.flags.leaving = false) :
    Standing bound (n.recorded info) := by
  have hadopted : n.adopted info ≤ bound := by
    unfold adopted
    split
    · exact hinfo
    · exact hstanding.expectedVotes_le
  have hannounced : n.announcedExpected info ≤ bound := by
    unfold announcedExpected
    split
    · exact hinfo
    · exact hadopted
  obtain ⟨_, _, _, _, _, heq⟩ := n.recorded_eq info
  have hsettings := hstanding.settings
  refine hstanding.of_records ?_ ?_ ?_ (by rw [heq]) (by rw [heq]) ?_ (by rw [heq]) (by rw [heq])
  · rw [heq]
    exact { hsettings with }
  · rw [n.us_recorded]
    split
    · simp [announcedRecord, announcedState, hstays]
    · exact hstanding.state
  · intro node hmem
    rw [n.clusterMembersList_recorded] at hmem
    obtain ⟨old, hold, rfl⟩ := mem_map.mp hmem
    split
    · exact hannounced
    · exact forall_mem_of_us hstanding.records hadopted old hold
  · rw [n.us_recorded]
    split
    · exact hcast
    · exact hstanding.castVote

/-- The wait for all nodes ends at most. -/
theorem heedQuorateNode (nodeid : NodeId) :
    Standing bound (n.heedQuorateNode nodeid) ∧
      (n.heedQuorateNode nodeid).clusterIsQuorate = n.clusterIsQuorate ∧
      (n.heedQuorateNode nodeid).us.expectedVotes = n.us.expectedVotes := by
  obtain heq | heq := n.heedQuorateNode_eq nodeid
  · rw [heq]
    exact ⟨hstanding, rfl, rfl⟩
  · rw [heq]
    refine ⟨{ hstanding with records := ?_, waits := fun hon => ?_ }, rfl, rfl⟩
    · exact forall_mem_of_us (n := n) hstanding.records hstanding.expectedVotes_le
    · exact absurd hon Bool.false_ne_true

/-- After a message the node is upheld, or its decision is the old one. -/
theorem recordNodeinfo (hbound : bound < 510)
    (hinfo : info.expectedVotes ≤ bound) (hcast : info.flags.qdeviceCastVote = false)
    (hstays : info.flags.leaving = false) (old : Option ClusterNode)
    (hvotes : (n.recordNodeinfo old info).memberVotes ≤ bound) :
    Standing bound (n.recordNodeinfo old info) ∧
      ((n.recordNodeinfo old info).Upheld (n.recordNodeinfo old info).memberVotes ∨
        (n.recordNodeinfo old info).clusterIsQuorate = n.clusterIsQuorate ∧
          (n.clusterIsQuorate = true →
            (n.recordNodeinfo old info).us.expectedVotes = n.us.expectedVotes)) ∧
      (n.us.expectedVotes ≤ (n.recordNodeinfo old info).us.expectedVotes ∨
        info.expectedVotes ≤ (n.recordNodeinfo old info).us.expectedVotes) := by
  have hupdated := hstanding.recorded hinfo hcast hstays
  have hquorate : (n.recorded info).clusterIsQuorate = n.clusterIsQuorate := by
    obtain ⟨_, _, _, _, _, heq⟩ := n.recorded_eq info
    rw [heq]
  have hexpected : n.us.expectedVotes ≤ (n.recorded info).us.expectedVotes ∨
      info.expectedVotes ≤ (n.recorded info).us.expectedVotes := by
    have hadopted : n.us.expectedVotes ≤ n.adopted info ∨ info.expectedVotes ≤ n.adopted info := by
      unfold adopted
      split
      · exact .inr (Nat.le_refl _)
      · exact .inl (Nat.le_refl _)
    rw [n.us_recorded]
    split
    · unfold announcedRecord announcedExpected
      split
      · exact .inr (Nat.le_refl _)
      · exact hadopted
    · exact hadopted
  rw [← n.memberVotes_recorded] at hvotes ⊢
  unfold Node.recordNodeinfo
  dsimp only
  split
  · rw [hstays]
    obtain ⟨hrecalculated, hupheld, hraised⟩ := hupdated.recalculateQuorum hbound hvotes
      (false || n.adopts info) false (fun hon => absurd hon Bool.false_ne_true)
    obtain ⟨hheeded, hsame, hsame'⟩ := hrecalculated.heedQuorateNode info.nodeid
    refine ⟨hheeded, .inl fun hon => ?_, ?_⟩
    · rw [hsame']
      exact hupheld (hsame ▸ hon)
    · rw [hsame', hraised, if_neg Bool.false_ne_true]
      exact hexpected.imp (fun hle => Nat.le_trans hle (Nat.le_max_left _ _))
        fun hle => Nat.le_trans hle (Nat.le_max_left _ _)
  · rename_i hunchanged
    obtain ⟨hheeded, hsame, hsame'⟩ := hupdated.heedQuorateNode info.nodeid
    refine ⟨hheeded, .inr ⟨hsame.trans hquorate, fun hon => ?_⟩, hsame' ▸ hexpected⟩
    -- only a node that is not quorate takes over the expected votes of another one
    have hother : n.us.nodeId ≠ info.nodeid := by
      have hne := ne_of_not_recordChanged hunchanged
      rw [nodeId_recorded] at hne
      exact hne.symm
    rw [hsame', n.us_recorded, if_neg hother]
    exact if_neg (by simp [adopts, hon])

/-- The same for every message. -/
theorem nodeinfoHandler (hbound : bound < 510)
    (hbase : Base c a ring n) (sender : NodeId) (hmoderate : Moderate bound (.nodeinfo info))
    (hannouncing : Announcing c.votes (.nodeinfo info))
    (hvotes : (n.nodeinfoHandler sender info).memberVotes ≤ bound) :
    Standing bound (n.nodeinfoHandler sender info) ∧
      ((n.nodeinfoHandler sender info).Upheld (n.nodeinfoHandler sender info).memberVotes ∨
        (n.nodeinfoHandler sender info).clusterIsQuorate = n.clusterIsQuorate ∧
          (n.clusterIsQuorate = true →
            (n.nodeinfoHandler sender info).us.expectedVotes = n.us.expectedVotes)) ∧
      (n.us.expectedVotes ≤ (n.nodeinfoHandler sender info).us.expectedVotes ∨
        info.nodeid ≠ qdeviceNodeid ∧
          info.expectedVotes ≤ (n.nodeinfoHandler sender info).us.expectedVotes) := by
  obtain ⟨hinfo, hcast, hdevice⟩ := hmoderate info rfl
  by_cases hnode : info.nodeid = qdeviceNodeid
  · obtain ⟨_, heq⟩ := qdeviceNodeinfoHandler_of_known
      ((hdevice hnode).trans hstanding.qdeviceVotes.symm) sender
    rw [Node.nodeinfoHandler, if_pos hnode, heq]
    exact ⟨{ hstanding with }, .inr ⟨rfl, fun _ => rfl⟩, .inl (Nat.le_refl _)⟩
  · have hstays := (hannouncing info rfl hnode).2
    obtain ⟨base, old, heq, ⟨rfl, -⟩ | ⟨rfl, -, halloc⟩⟩ :=
      hbase.roster.nodeinfoHandler_eq hbase.isRing sender hnode
    · rw [heq] at hvotes ⊢
      obtain ⟨hrecorded, hupheld, hexpected⟩ :=
        hstanding.recordNodeinfo hbound hinfo hcast hstays old hvotes
      exact ⟨hrecorded, hupheld, hexpected.imp_right fun hle => ⟨hnode, hle⟩⟩
    · have hmem := @Node.mem_allocateNode _ _ _ halloc
      rw [heq] at hvotes ⊢
      obtain ⟨before, after, entries, rfl⟩ := allocateNode_eq halloc
      have hallocated : Standing bound
          { n with before := before, after := after, clusterNodesEntries := entries } := by
        refine { hstanding with records := fun node hnode => ?_ }
        obtain rfl | hold := hmem hnode
        · exact Nat.zero_le _
        · exact hstanding.records node hold
      obtain ⟨hrecorded, hupheld, hexpected⟩ :=
        hallocated.recordNodeinfo hbound hinfo hcast hstays none hvotes
      exact ⟨hrecorded, hupheld, hexpected.imp_right fun hle => ⟨hnode, hle⟩⟩

/-- In a new ring the expected votes stay. -/
theorem syncInit {next : List NodeId}
    (hmem : n.us.nodeId ∈ next) : Standing bound (n.syncInit next) ∧
      (n.syncInit next).us.expectedVotes = n.us.expectedVotes := by
  obtain ⟨_, _, heq, -⟩ := n.syncInit_eq next
  obtain ⟨_, _, hus, hstate⟩ := n.us_syncInit next
  refine ⟨hstanding.of_records ?_ ?_ (fun node hnode => ?_) (by rw [heq]; rfl) (by rw [heq]; rfl) ?_
    (by rw [heq]; rfl) (by rw [heq]; rfl), by rw [hus]⟩
  · rw [heq]
    exact hstanding.settings
  · rw [hus]
    exact (hstate hmem).trans hstanding.state
  · obtain ⟨old, hold, _, _, -, rfl⟩ := mem_syncInit hnode
    exact hstanding.records old hold
  · rw [hus]
    exact hstanding.castVote

/-- When the timer expires, the expected votes stay or are lowered to the members. -/
theorem lastManStandingTimer (hbound : bound < 510)
    (hvotes : n.memberVotes ≤ bound) (hcount : n.members.length ≤ bound) :
    Standing bound (n.act .lastManStandingTimer).1 ∧
      ((n.act .lastManStandingTimer).1.clusterIsQuorate = n.clusterIsQuorate ∧
          (n.act .lastManStandingTimer).1.us.expectedVotes = n.us.expectedVotes ∨
        n.clusterIsQuorate = true ∧ (n.act .lastManStandingTimer).1.Upheld n.memberVotes ∧
          (n.act .lastManStandingTimer).1.us.expectedVotes = n.members.length) := by
  have hstopped : Standing bound { n with lastManStandingTimerSet := false } :=
    { hstanding with }
  simp only [act]
  split
  · unfold lastManStandingTimerFn
    dsimp only
    split
    · rename_i hquorate
      obtain ⟨hrecalculated, hupheld, hexpected⟩ :=
        hstopped.recalculateQuorum hbound hvotes true true fun _ => hcount
      exact ⟨hrecalculated, .inr ⟨hquorate, hupheld, hexpected⟩⟩
    · exact ⟨hstopped, .inl ⟨rfl, rfl⟩⟩
  · exact ⟨hstanding, .inl ⟨rfl, rfl⟩⟩

end

/-- A node starts with the votes of the cluster as expected votes. -/
theorem start {config : Icmap} {file : Option ℕ} (hlists : c.Lists a config)
    (hlastMan : config.LastMan) (hbound : c.total < 510) (hvotes : c.votes a ≤ c.total)
    (hinit : execInitFn config a file = .ok n) :
    Standing c.total n ∧ n.us.expectedVotes = c.total := by
  obtain ⟨tie, barrier, fdOpen, file', htie, rfl⟩ := execInitFn_eq hinit
  have hawaits := hlastMan.awaits hlists (by omega)
  obtain ⟨hwaitForAll, hevTracking⟩ := hawaits.settings tie
  obtain ⟨-, -, -, -, htwo, hauto, hdown, -⟩ := hlastMan
  have hnone : tie = .none := by
    obtain rfl | rfl := htie
    · simp [Icmap.tieBreaker, hauto]
    · rfl
  have hsettings : (startedSettings config tie).Waits :=
    { twoNode := by
        simp [startedSettings, followedSettings, startupSettings, htwo]
      waitForAll := hwaitForAll
      autoTieBreaker := hnone
      allowDownscale := hdown
      evTracking := hevTracking
      masterWins := rfl }
  rw [hawaits.beforeDecision_eq hlists]
  have hbefore : Standing c.total
      { configured config a tie barrier fdOpen file' with
        us := ⟨a, .member, c.votes a, c.total, { first := true, wfastatus := true }⟩
        evBarrier := c.total, waitForAllStatus := true } := by
    refine ⟨hsettings, rfl, fun node hmem => ?_, Nat.zero_le _, rfl, rfl, fun _ => rfl⟩
    obtain rfl := mem_singleton.mp hmem
    exact Nat.le_refl _
  obtain ⟨hstanding, -, hexpected⟩ := hbefore.recalculateQuorum hbound hvotes false false
    fun hon => absurd hon Bool.false_ne_true
  refine ⟨hstanding, hexpected.trans (Nat.max_eq_left ?_)⟩
  exact Nat.le_trans hbefore.getTotalVotes_le hvotes

/-- A node announces bounded expected votes. -/
theorem announces (hstanding : Standing bound n) (hid : n.us.nodeId ≠ qdeviceNodeid) :
    (∀ first, Moderate bound (.nodeinfo (n.nodeinfoWith first))) ∧
      Moderate bound (.nodeinfo n.qdeviceNodeinfo) := by
  refine ⟨fun first info hinfo => ?_, fun info hinfo => ?_⟩
  · obtain rfl := Message.nodeinfo.inj hinfo
    exact ⟨hstanding.expectedVotes_le, hstanding.castVote, fun hdevice => absurd hdevice hid⟩
  · obtain rfl := Message.nodeinfo.inj hinfo
    exact ⟨Nat.zero_le _, rfl, fun _ => hstanding.qdeviceVotes⟩

end Standing

end Corosync.Votequorum
