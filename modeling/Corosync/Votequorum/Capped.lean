import Corosync.Votequorum.Roster

/-!
# Nodes that expect no more votes than were stored

With `expected_votes_tracking` a node loads a number of votes from a file. As long as the votes it
counts and the expected votes it is told are at most that number, it expects no more either, and
neither the barrier nor the file has to be moved.
-/

namespace Corosync.Votequorum

open List Node

/-- The votes of some ballots, where a node without votes counts as one. -/
def weight (ballots : List Ballot) : ℕ := (ballots.map fun ballot => max ballot.votes 1).sum

/-- The votes of all nodes but one. -/
def Node.besides (n : Node) (nodeid : NodeId) : ℕ :=
  weight (n.ballots.filter (·.nodeId ≠ nodeid))

/-- A node that has loaded a value, with the descriptor closed, and expects no more votes. -/
structure Loaded (bound : ℕ) (n : Node) : Prop where
  tracking : n.evTracking = true
  closed : n.evTrackingFdOpen = false
  file : n.evTrackingFile = some bound
  barrier : n.evTrackingBarrier = bound
  expected : n.us.expectedVotes ≤ bound

/-- A node all of whose votes are at most the value it has loaded. -/
structure Capped (bound : ℕ) (n : Node) : Prop extends Loaded bound n where
  nodup : (n.ballots.map (·.nodeId)).Nodup
  weight : weight n.ballots + n.qdeviceVotes ≤ bound

/-- What a message may announce to a node. -/
def Admits (bound : ℕ) (n : Node) : Message → Prop
  | .nodeinfo info =>
    if info.nodeid = qdeviceNodeid then weight n.ballots + max n.qdeviceVotes info.votes ≤ bound
    else info.expectedVotes ≤ bound ∧
      n.besides info.nodeid + max info.votes 1 + n.qdeviceVotes ≤ bound
  | .reconfigure (.expectedVotes value) => value ≤ bound
  | .reconfigure (.nodeVotes nodeid value) =>
    n.besides nodeid + max value 1 + n.qdeviceVotes ≤ bound ∧
      (nodeid = qdeviceNodeid → weight n.ballots + value ≤ bound)
  | .reconfigure .cancelWfa => True

variable {bound : ℕ} {n n' : Node}

/-- The weight does not depend on the order. -/
theorem weight_perm {first second : List Ballot} (hperm : first.Perm second) :
    weight first = weight second :=
  (hperm.map _).sum_nat

/-- The weight of one more ballot. -/
@[simp] theorem weight_cons (ballot : Ballot) (ballots : List Ballot) :
    weight (ballot :: ballots) = max ballot.votes 1 + weight ballots := by
  simp [weight]

/-- Some of the ballots have a smaller weight. -/
theorem weight_le_of_subperm {some all : List Ballot} (hsub : some.Subperm all) :
    weight some ≤ weight all := by
  obtain ⟨rest, hperm, hsublist⟩ := hsub
  rw [← weight_perm hperm]
  clear hperm
  induction hsublist with
  | slnil => exact Nat.le_refl _
  | cons _ _ _ =>
    rw [weight_cons]
    omega
  | cons_cons _ _ _ =>
    rw [weight_cons, weight_cons]
    omega

/-- The weight is at least the votes. -/
theorem sum_votes_le_weight (ballots : List Ballot) :
    (ballots.map (·.votes)).sum ≤ weight ballots := by
  induction ballots with
  | nil => simp
  | cons _ _ _ =>
    simp only [map_cons, sum_cons, weight_cons]
    omega

/-- The weight is at least the number of nodes. -/
theorem length_le_weight (ballots : List Ballot) : ballots.length ≤ weight ballots := by
  induction ballots with
  | nil => simp
  | cons _ _ _ =>
    simp only [length_cons, weight_cons]
    omega

/-- Neither the votes nor the nodes that are counted exceed the weight. -/
theorem getTotalVotes_le (n : Node) :
    n.getTotalVotes.1 ≤ weight n.ballots + n.qdeviceVotes ∧
      n.getTotalVotes.2 ≤ weight n.ballots + n.qdeviceVotes := by
  have hvotes := sum_votes_le_weight (memberBallots n.ballots)
  have hlength := length_le_weight (memberBallots n.ballots)
  have hfilter : weight (n.ballots.filter (·.state = .member)) ≤ weight n.ballots :=
    weight_le_of_subperm filter_sublist.subperm
  rw [← memberVotes_eq] at hvotes
  rw [← length_members] at hlength
  unfold memberBallots at hvotes hlength
  unfold getTotalVotes
  split <;> refine ⟨Nat.le_trans (Nat.mod_le _ _) ?_, ?_⟩ <;> omega

/-- Ballots one of which is replaced, when there is one for each node. -/
theorem weight_replace_le (nodeid : NodeId) (new : Ballot) (ballots : List Ballot)
    (hnodup : (ballots.map (·.nodeId)).Nodup) (f : Ballot → Ballot)
    (hf : ∀ ballot, max (f ballot).votes 1 ≤ max new.votes 1) :
    weight (ballots.map fun ballot => if ballot.nodeId = nodeid then f ballot else ballot) ≤
      weight (ballots.filter (·.nodeId ≠ nodeid)) + max new.votes 1 := by
  induction ballots with
  | nil => simp [weight]
  | cons ballot ballots ih =>
    rw [map_cons, nodup_cons] at hnodup
    by_cases hid : ballot.nodeId = nodeid
    · -- no other ballot has this id
      have hrest : ∀ other ∈ ballots, other.nodeId ≠ nodeid := by
        intro other hmem heq
        exact hnodup.1 (mem_map.mpr ⟨other, hmem, heq.trans hid.symm⟩)
      have hmap : (ballots.map fun ballot => if ballot.nodeId = nodeid then f ballot else ballot) =
          ballots :=
        (map_congr_left fun other hmem => if_neg (hrest other hmem)).trans (map_id _)
      have hfilter : ballots.filter (·.nodeId ≠ nodeid) = ballots :=
        filter_eq_self.mpr fun other hmem => by simpa using hrest other hmem
      rw [map_cons, hmap, if_pos hid, weight_cons, filter_cons_of_neg (by simp [hid]),
        hfilter]
      have := hf ballot
      omega
    · rw [map_cons, if_neg hid, weight_cons, filter_cons_of_pos (by simp [hid]),
        weight_cons]
      have := ih hnodup.2
      omega

/-- Replacing the ballot of a node leaves the ids as they are. -/
theorem map_nodeId_replace (nodeid : NodeId) (ballots : List Ballot) (f : Ballot → Ballot)
    (hf : ∀ ballot : Ballot, ballot.nodeId = nodeid → (f ballot).nodeId = nodeid) :
    (ballots.map fun ballot => if ballot.nodeId = nodeid then f ballot else ballot).map
      (·.nodeId) = ballots.map (·.nodeId) := by
  rw [map_map]
  refine map_congr_left fun ballot _ => ?_
  simp only [Function.comp_apply]
  split
  · rename_i hid
    rw [hf ballot hid, hid]
  · rfl

variable {expectedVotes : ℕ} {info : Nodeinfo}

namespace Loaded

/-- Expected votes within the bound. -/
theorem setExpectedVotes (hloaded : Loaded bound n)
    (hle : expectedVotes ≤ bound) : Loaded bound (n.setExpectedVotes expectedVotes) :=
  { hloaded with expected := hle }

/-- A change of a record that keeps the expected votes within the bound. -/
theorem updateNode (hloaded : Loaded bound n) (nodeid : NodeId) {change : ClusterNode → ClusterNode}
    (hchange : ∀ node, node.expectedVotes ≤ bound → (change node).expectedVotes ≤ bound) :
    Loaded bound (n.updateNode nodeid change) where
  tracking := hloaded.tracking
  closed := hloaded.closed
  file := hloaded.file
  barrier := hloaded.barrier
  expected := by
    simp only [Node.updateNode, Node.mapNodes]
    split
    · exact hchange _ hloaded.expected
    · exact hloaded.expected

/-- A message with expected votes within the bound. -/
theorem recorded (hloaded : Loaded bound n)
    (hexpected : info.expectedVotes ≤ bound) : Loaded bound (n.recorded info) := by
  have hadopted : n.adopted info ≤ bound := by
    unfold adopted
    split
    · exact hexpected
    · exact hloaded.expected
  have hus : (n.recorded info).us.expectedVotes ≤ bound := by
    rw [n.us_recorded]
    split
    · unfold announcedRecord announcedExpected
      split
      · exact hexpected
      · exact hadopted
    · exact hadopted
  obtain ⟨_, _, _, _, _, heq⟩ := n.recorded_eq info
  rw [heq] at hus ⊢
  exact { hloaded with expected := hus }

end Loaded

variable {nodeid : NodeId}

namespace Capped

section

variable (hcapped : Capped bound n)

include hcapped

/-- Flags do not concern the bound. -/
theorem changeFlags (change : Flags → Flags) : Capped bound (n.changeFlags change) :=
  { hcapped with
    nodup := by
      rw [ballots_changeFlags]
      exact hcapped.nodup
    weight := by
      rw [ballots_changeFlags]
      exact hcapped.weight }

/-- The status of wait for all does not concern the bound. -/
theorem updateWaitForAllStatus (status : Bool) : Capped bound (n.updateWaitForAllStatus status) :=
  { hcapped.changeFlags ({ · with wfastatus := status }) with }

/-- A recalculation that stays within the bound. -/
theorem of_kept (hkept : Kept n n') (hfile : n'.evTrackingFile = n.evTrackingFile)
    (hbarrier : n'.evTrackingBarrier = n.evTrackingBarrier)
    (hexpected : n'.us.expectedVotes ≤ bound) : Capped bound n' where
  tracking := by
    have := congrArg Settings.evTracking hkept.settings
    exact this.trans hcapped.tracking
  closed := hkept.evTrackingFdOpen.trans hcapped.closed
  file := hfile.trans hcapped.file
  barrier := hbarrier.trans hcapped.barrier
  expected := hexpected
  nodup := by
    rw [hkept.ballots]
    exact hcapped.nodup
  weight := by
    rw [hkept.ballots, hkept.qdeviceVotes]
    exact hcapped.weight

/-- A recalculation keeps the bound. -/
theorem recalculate (allowDecrease byCurrentNodes : Bool) :
    Capped bound (n.recalculateQuorum allowDecrease byCurrentNodes) := by
  obtain ⟨htotal, hcount⟩ := getTotalVotes_le n
  have hweight := hcapped.weight
  have hexpected := hcapped.expected
  have hraised : n.raiseExpectedVotes.us.expectedVotes ≤ bound := by
    rw [expectedVotes_raise]
    omega
  have hbarrier : n.raiseExpectedVotes.evTrackingBarrier = n.evTrackingBarrier := by
    unfold raiseExpectedVotes setExpectedVotes
    split <;> rfl
  have hfile : n.raiseExpectedVotes.evTrackingFile = n.evTrackingFile := by
    unfold raiseExpectedVotes setExpectedVotes
    split <;> rfl
  -- nothing exceeds the barrier, so it is not moved
  have htrack : n.raiseExpectedVotes.trackExpectedVotes = n.raiseExpectedVotes := by
    unfold trackExpectedVotes
    rw [if_neg]
    rintro ⟨-, hgt⟩
    rw [hbarrier, hcapped.barrier] at hgt
    omega
  refine hcapped.of_kept (kept_recalculate n _ _) ?_ ?_ ?_
  · rw [recalculateQuorum_eq, (same_areWeQuorate _ _).2.2.1, prepared, htrack,
      (same_updateNodeExpectedVotes _ _).2.1]
    exact hfile
  · rw [recalculateQuorum_eq, (same_areWeQuorate _ _).2.2.2, prepared, htrack,
      (same_updateNodeExpectedVotes _ _).2.2]
    exact hbarrier
  · rw [recalculateQuorum_eq, (same_areWeQuorate _ _).1, prepared, htrack]
    refine expectedVotes_updateNodeExpectedVotes_le hraised ?_
    split <;> omega

/-- The wait for all nodes does not concern the bound. -/
theorem heedQuorateNode (nodeid : NodeId) : Capped bound (n.heedQuorateNode nodeid) := by
  unfold Node.heedQuorateNode
  split
  · split
    · exact hcapped.updateWaitForAllStatus false
    · exact hcapped
  · exact hcapped

/-- Expected votes within the bound. -/
theorem setExpectedVotes (hle : expectedVotes ≤ bound) :
    Capped bound (n.setExpectedVotes expectedVotes) where
  toLoaded := hcapped.toLoaded.setExpectedVotes hle
  nodup := by
    rw [ballots_setExpectedVotes]
    exact hcapped.nodup
  weight := by
    rw [ballots_setExpectedVotes]
    exact hcapped.weight

end

/-- A message of a node with a record. -/
theorem recordNodeinfo (hloaded : Loaded bound n) (old : Option ClusterNode)
    (hnodup : (n.ballots.map (·.nodeId)).Nodup) (hexpected : info.expectedVotes ≤ bound)
    (hweight : n.besides info.nodeid + max info.votes 1 + n.qdeviceVotes ≤ bound) :
    Capped bound (n.recordNodeinfo old info) := by
  have hrecorded : Capped bound (n.recorded info) :=
    { toLoaded := hloaded.recorded hexpected
      nodup := by
        rw [ballots_recorded,
          map_nodeId_replace info.nodeid _ (fun _ => info.ballot) fun _ _ => rfl]
        exact hnodup
      weight := by
        have hreplace := weight_replace_le info.nodeid info.ballot n.ballots hnodup
           (fun _ => info.ballot) fun _ => Nat.le_refl _
        have hdevice : (n.recorded info).qdeviceVotes = n.qdeviceVotes := by
          obtain ⟨_, _, _, _, _, heq⟩ := n.recorded_eq info
          rw [heq]
        rw [ballots_recorded, hdevice]
        have hvotes : info.ballot.votes = info.votes := rfl
        unfold besides at hweight
        omega }
  unfold Node.recordNodeinfo
  refine heedQuorateNode ?_ info.nodeid
  split
  · exact hrecorded.recalculate _ _
  · exact hrecorded

/-- A new record takes a place or that of a dead node. -/
theorem of_allocate (hcapped : Capped bound n)
    (hnew : ∀ ballot ∈ n.ballots, ballot.nodeId ≠ nodeid)
    (halloc : n.allocateNode nodeid = some n') :
    Loaded bound n' ∧ (n'.ballots.map (·.nodeId)).Nodup ∧ n'.qdeviceVotes = n.qdeviceVotes ∧
      n'.besides nodeid ≤ n.besides nodeid := by
  obtain ⟨rest, hperm, hrest⟩ := ballots_allocateNode halloc
  -- the other ballots are some of those before
  have hsub : rest.Subperm n.ballots := by
    obtain ⟨hrest, -⟩ | ⟨dead, -, hrest, -⟩ := hrest
    · exact hrest.symm.subperm
    · exact (sublist_cons_self dead rest).subperm.trans hrest.symm.subperm
  have hids : (n'.ballots.map (·.nodeId)).Nodup := by
    rw [(hperm.map _).nodup_iff, map_cons, nodup_cons]
    refine ⟨fun hmem => ?_, ?_⟩
    · obtain ⟨ballot, hballot, hid⟩ := mem_map.mp hmem
      exact hnew ballot (hsub.subset hballot) hid
    · obtain ⟨same, hsame, hsublist⟩ := hsub
      rw [← (hsame.map _).nodup_iff]
      exact (hsublist.map _).nodup hcapped.nodup
  have hweight : n'.besides nodeid ≤ n.besides nodeid := by
    unfold besides
    rw [weight_perm (hperm.filter _), filter_cons_of_neg (by simp)]
    exact weight_le_of_subperm (hsub.filter _)
  obtain ⟨before, after, entries, rfl⟩ := allocateNode_eq halloc
  exact ⟨{ hcapped.toLoaded with }, hids, rfl, hweight⟩

section

variable (hcapped : Capped bound n)

include hcapped

/-- An admitted `nodeinfo` message. -/
theorem nodeinfoHandler (sender : NodeId)
    (hadmits : Admits bound n (.nodeinfo info)) : Capped bound (n.nodeinfoHandler sender info) := by
  unfold Node.nodeinfoHandler
  by_cases hdevice : info.nodeid = qdeviceNodeid
  · simp only [Admits, if_pos hdevice] at hadmits
    rw [if_pos hdevice]
    unfold qdeviceNodeinfoHandler
    split
    · exact { hcapped with }
    rename_i senderNode _
    have hvotes : n.learnedVotes senderNode info ≤ max n.qdeviceVotes info.votes := by
      unfold learnedVotes
      split <;> omega
    have hchanged : Capped bound { n with qdeviceVotes := n.learnedVotes senderNode info } :=
      { hcapped with
        weight := Nat.le_trans (Nat.add_le_add_left hvotes _) hadmits }
    unfold assignQdeviceVotes
    split
    · exact hchanged.recalculate _ _
    · exact hchanged
  · simp only [Admits, if_neg hdevice] at hadmits
    rw [if_neg hdevice]
    obtain ⟨hexpected, hweight⟩ := hadmits
    split
    · exact recordNodeinfo hcapped.toLoaded _ hcapped.nodup hexpected hweight
    rename_i hfind
    split
    · rename_i allocated halloc
      obtain ⟨hloaded, hnodup, hqdevice, hbesides⟩ :=
        hcapped.of_allocate (ballot_ne_of_find hfind) halloc
      refine recordNodeinfo hloaded _ hnodup hexpected ?_
      omega
    · exact { hcapped with }

/-- A change of the votes of a node. -/
theorem updateVotes {value : ℕ}
    (hweight : n.besides nodeid + max value 1 + n.qdeviceVotes ≤ bound) :
    Capped bound (n.updateNode nodeid ({ · with votes := value })) where
  toLoaded := hcapped.toLoaded.updateNode nodeid fun _ hle => hle
  nodup := by
    rw [ballots_updateNode n _ ({ · with votes := value }) fun _ => rfl,
      map_nodeId_replace nodeid _ ({ · with votes := value }) fun _ hid => hid]
    exact hcapped.nodup
  weight := by
    have hreplace := weight_replace_le nodeid ⟨nodeid, .member, value⟩ n.ballots hcapped.nodup
      ({ · with votes := value }) fun _ => Nat.le_refl _
    rw [ballots_updateNode n _ ({ · with votes := value }) fun _ => rfl]
    unfold besides at hweight
    have hqdevice : (n.updateNode nodeid ({ · with votes := value })).qdeviceVotes =
      n.qdeviceVotes := rfl
    dsimp only at hreplace
    omega

/-- An admitted `reconfigure` message. -/
theorem reconfigureHandler {request : Reconfigure}
    (hadmits : Admits bound n (.reconfigure request)) :
    Capped bound (n.reconfigureHandler request) := by
  cases request with
  | expectedVotes value =>
    have hassigned : Capped bound (n.updateNodeExpectedVotes value) :=
      hcapped.of_kept (kept_updateNodeExpectedVotes n value)
        (n.same_updateNodeExpectedVotes value).2.1
        (n.same_updateNodeExpectedVotes value).2.2
        (expectedVotes_updateNodeExpectedVotes_le hcapped.expected hadmits)
    have hbarrier : Capped bound { n.updateNodeExpectedVotes value with evBarrier := value } :=
      { hassigned with }
    unfold Node.reconfigureHandler
    refine recalculate ?_ true false
    split
    · refine hbarrier.setExpectedVotes ?_
      exact max_le hbarrier.expected (Nat.le_of_eq hbarrier.barrier)
    · exact hbarrier
  | nodeVotes _ _ =>
    obtain ⟨hweight, hdevice⟩ := hadmits
    unfold Node.reconfigureHandler
    dsimp only
    split
    · rename_i hchanged
      refine recalculate ?_ true false
      obtain rfl | ⟨hid, rfl⟩ := setNodeVotes_cases hchanged
      · exact hcapped.updateVotes hweight
      · exact { hcapped with weight := hdevice hid }
    · exact hcapped
  | cancelWfa => exact (hcapped.updateWaitForAllStatus false).recalculate _ _

/-- An admitted message. -/
theorem deliver (sender : NodeId) {message : Message}
    (hadmits : Admits bound n message) : Capped bound (n.deliver sender message) := by
  cases message with
  | nodeinfo _ => exact hcapped.nodeinfoHandler sender hadmits
  | reconfigure _ => exact hcapped.reconfigureHandler hadmits

/-- A new ring. -/
theorem syncInit (memberList : List NodeId) : Capped bound (n.syncInit memberList) := by
  have hexpected : (n.syncInit memberList).us.expectedVotes ≤ bound := by
    obtain ⟨_, _, hus, -⟩ := n.us_syncInit memberList
    rw [hus]
    exact hcapped.expected
  have hnodup : ((n.syncInit memberList).ballots.map (·.nodeId)).Nodup := by
    rw [ballots_syncInit, map_map]
    have hids : ((fun ballot : Ballot => ballot.nodeId) ∘ fun ballot =>
        if ballot.nodeId ∈ n.quorumMembers ∧ ballot.nodeId ∉ memberList then
          { ballot with state := .dead }
        else ballot) = (·.nodeId) := by
      funext ballot
      simp only [Function.comp_apply]
      split <;> rfl
    rw [hids]
    exact hcapped.nodup
  have hweight : Votequorum.weight (n.syncInit memberList).ballots + n.qdeviceVotes ≤ bound := by
    have hvotes : Votequorum.weight (n.syncInit memberList).ballots =
        Votequorum.weight n.ballots := by
      rw [ballots_syncInit, Votequorum.weight, map_map]
      refine congrArg List.sum (map_congr_left fun ballot _ => ?_)
      simp only [Function.comp_apply]
      split <;> rfl
    rw [hvotes]
    exact hcapped.weight
  obtain ⟨_, _, heq, -⟩ := n.syncInit_eq memberList
  rw [heq] at hexpected hnodup hweight ⊢
  exact { hcapped with expected := hexpected, nodup := hnodup, weight := hweight }

/-- The end of a synchronisation. -/
theorem syncActivate : Capped bound n.syncActivate :=
  { hcapped.recalculate false false with }

/-- The timer of last man standing expires. -/
theorem lastManStandingTimerFn : Capped bound n.lastManStandingTimerFn := by
  have hcleared : Capped bound { n with lastManStandingTimerSet := false } := { hcapped with }
  unfold Node.lastManStandingTimerFn
  dsimp only
  split
  · exact hcleared.recalculate _ _
  · exact hcleared

/-- Reading wait for all does not concern the bound. -/
theorem resetWaitForAllStatus (runtime : Bool) :
    Capped bound (n.resetWaitForAllStatus runtime) := by
  obtain ⟨_, flag, heq⟩ := n.resetWaitForAllStatus_eq runtime
  have hchanged := hcapped.changeFlags ({ · with wfastatus := flag })
  rw [heq]
  exact { hchanged with }

end

end Capped

/-- The status of wait for all is no part of the expected votes. -/
theorem Node.expectedVotes_resetWaitForAllStatus (n : Node) (runtime : Bool) :
    (n.resetWaitForAllStatus runtime).us.expectedVotes = n.us.expectedVotes := by
  obtain ⟨_, _, heq⟩ := n.resetWaitForAllStatus_eq runtime
  rw [heq]
  rfl

/-- The votes of the quorum device after a start. -/
def Icmap.startingDeviceVotes (config : Icmap) : ℕ :=
  if config.assignedDeviceVotes = noDeviceVotes then 0 else config.assignedDeviceVotes

/-- A node that has read its configuration for the first time, before the votes are assigned. -/
structure Reading (bound : ℕ) (n : Node) : Prop extends Loaded bound n where
  alone : n.before = [] ∧ n.after = []
  qdeviceVotes : n.qdeviceVotes = 0

variable {config : Icmap}

namespace Reading

/-- Tracking starts with the votes of the file. -/
theorem startTracking (htracking : n.evTracking = true) (hfile : n.evTrackingFile = some bound)
    (hexpected : n.us.expectedVotes ≤ bound) (halone : n.before = [] ∧ n.after = [])
    (hqdevice : n.qdeviceVotes = 0) : Reading bound n.startTracking := by
  have hload : n.loadEvTrackingBarrier =
      { n with evTrackingBarrier := bound, evTrackingFdOpen := false } := by
    unfold loadEvTrackingBarrier
    rw [hfile]
  rw [Node.startTracking, if_pos htracking, hload]
  exact ⟨⟨htracking, rfl, hfile, rfl, hexpected⟩, halone, hqdevice⟩

/-- The configuration is read at the start. -/
theorem readStartup (htracking : config.expectedVotesTracking = true)
    (hfile : n.evTrackingFile = some bound) (hexpected : n.us.expectedVotes ≤ bound)
    (halone : n.before = [] ∧ n.after = []) (hqdevice : n.qdeviceVotes = 0) :
    Reading bound (n.readStartup config) := by
  have hon : (config.expectedVotesTracking || config.allowDownscale) = true := by
    rw [htracking, Bool.true_or]
  unfold Node.readStartup
  refine startTracking ?_ ?_ ?_ ?_ ?_
  all_goals
    unfold readTieBreakerNode
    split
    · split
      · rename_i string _ _
        cases string <;> assumption
      · assumption
    · assumption

/-- What follows from `two_node` does not concern the bound. -/
theorem followTwoNode (hreading : Reading bound n) : Reading bound n.followTwoNode := by
  unfold Node.followTwoNode
  dsimp only
  split <;> split <;> exact { hreading with }

/-- The tie breaker is no part of it. -/
theorem setAutoTieBreaker (hreading : Reading bound n) (autoTieBreaker : AutoTieBreaker) :
    Reading bound { n with autoTieBreaker := autoTieBreaker } :=
  { hreading with }

/-- The configured votes and those of the quorum device are within the bound. -/
theorem assignVotes (hreading : Reading bound n) (hpos : 0 < bound)
    (hvotes : max config.assignedVotes 1 + config.startingDeviceVotes ≤ bound) :
    Capped bound (n.assignVotes config) ∧ (n.assignVotes config).us.expectedVotes = bound := by
  have hexpected : (n.assignVotes config).us.expectedVotes = bound := by
    unfold Node.assignVotes
    dsimp only
    rw [if_pos hreading.tracking, if_pos (by rw [hreading.barrier]; omega), hreading.barrier]
  have hqdevice : (n.assignVotes config).qdeviceVotes = config.startingDeviceVotes := by
    unfold Node.assignVotes Icmap.startingDeviceVotes
    dsimp only
    rw [hreading.qdeviceVotes]
    by_cases hnone : config.assignedDeviceVotes = noDeviceVotes
    · simp [hnone]
    · simp [hnone]
  have hballots : (n.assignVotes config).ballots =
      [⟨n.us.nodeId, n.us.state, config.assignedVotes⟩] := by
    unfold Node.assignVotes Node.ballots Node.clusterMembersList
    dsimp only
    rw [hreading.alone.1, hreading.alone.2]
    rfl
  refine ⟨?_, hexpected⟩
  exact
    { tracking := hreading.tracking
      closed := hreading.closed
      file := hreading.file
      barrier := hreading.barrier
      expected := Nat.le_of_eq hexpected
      nodup := by
        rw [hballots]
        simp
      weight := by
        rw [hballots, hqdevice]
        simpa [weight] using hvotes }

end Reading

/-- The first decision of a node. -/
theorem Capped.start (hcapped : Capped bound n) (hexpected : n.us.expectedVotes = bound) :
    Capped bound ((n.resetWaitForAllStatus false).recalculateQuorum false false) ∧
      ((n.resetWaitForAllStatus false).recalculateQuorum false false).us.expectedVotes = bound := by
  have hstarted := (hcapped.resetWaitForAllStatus false).recalculate false false
  refine ⟨hstarted, Nat.le_antisymm hstarted.expected ?_⟩
  rw [expectedVotes_recalculate, expectedVotes_resetWaitForAllStatus, hexpected]
  exact Nat.le_max_left _ _

/-- A node that has started with a value in the file expects that many votes. -/
theorem Capped.of_execInit (htracking : config.expectedVotesTracking = true) (hpos : 0 < bound)
    (hvotes : max config.assignedVotes 1 + config.startingDeviceVotes ≤ bound)
    (hinit : execInitFn config nodeid (some bound) = .ok n) :
    Capped bound n ∧ n.us.expectedVotes = bound := by
  unfold execInitFn at hinit
  cases hread : (zero nodeid (some bound)).readconfigStartup config with
  | error _ =>
    rw [hread] at hinit
    exact absurd hinit (by simp [Except.map])
  | ok read =>
    rw [hread] at hinit
    obtain rfl := Except.ok.inj hinit
    obtain ⟨read, autoTieBreaker, rfl, -, rfl⟩ := readconfigStartup_ok hread
    have hreading := (Reading.readStartup (n := { zero nodeid (some bound) with
      twoNode := config.twoNode
      qdeviceCanOperate := config.deviceModel || (zero nodeid (some bound)).qdeviceCanOperate })
      htracking rfl (Nat.zero_le bound) ⟨rfl, rfl⟩ rfl).followTwoNode
    obtain ⟨hassigned, hexpected⟩ :=
      (hreading.setAutoTieBreaker autoTieBreaker).assignVotes hpos hvotes
    exact hassigned.start hexpected

end Corosync.Votequorum
