import Corosync.Votequorum.Handlers

/-!
# What a recalculation changes

A recalculation of the quorum changes the decision, the quorum, what follows from them and the
expected votes; who is a member with how many votes it leaves as it is.
-/

namespace Corosync.Votequorum

open ClusterNode

/-- A record without its expected votes. -/
def ClusterNode.base (node : ClusterNode) : ClusterNode := { node with expectedVotes := 0 }

/-- The flags without those that a decision sets. -/
def Flags.base (flags : Flags) : Flags := { flags with quorate := false, wfastatus := false }

/-- What a recalculation leaves as it is. -/
structure Kept (n n' : Node) : Prop where
  settings : n'.toSettings = n.toSettings
  progress : n'.toProgress = n.toProgress
  nodeId : n'.us.nodeId = n.us.nodeId
  state : n'.us.state = n.us.state
  votes : n'.us.votes = n.us.votes
  flags : n'.us.flags.base = n.us.flags.base
  before : n'.before.map base = n.before.map base
  after : n'.after.map base = n.after.map base
  clusterNodesEntries : n'.clusterNodesEntries = n.clusterNodesEntries
  qdeviceVotes : n'.qdeviceVotes = n.qdeviceVotes
  evBarrier : n'.evBarrier = n.evBarrier
  evTrackingFdOpen : n'.evTrackingFdOpen = n.evTrackingFdOpen

namespace Kept

variable {n n' n'' : Node}

/-- A node keeps itself. -/
theorem refl (n : Node) : Kept n n :=
  ⟨rfl, rfl, rfl, rfl, rfl, rfl, rfl, rfl, rfl, rfl, rfl, rfl⟩

/-- Two changes that keep a node so keep it together. -/
theorem trans (h : Kept n n') (h' : Kept n' n'') : Kept n n'' :=
  ⟨h'.settings.trans h.settings, h'.progress.trans h.progress, h'.nodeId.trans h.nodeId,
    h'.state.trans h.state, h'.votes.trans h.votes, h'.flags.trans h.flags,
    h'.before.trans h.before, h'.after.trans h.after,
    h'.clusterNodesEntries.trans h.clusterNodesEntries, h'.qdeviceVotes.trans h.qdeviceVotes,
    h'.evBarrier.trans h.evBarrier, h'.evTrackingFdOpen.trans h.evTrackingFdOpen⟩

end Kept

namespace Node

variable {n n' : Node} {totalVotes : ℕ} {allowDecrease byCurrentNodes : Bool}

/-- The node after a decision. -/
def decided (n : Node) (quorate wfastatus clusterIsQuorate status assertionFailed : Bool)
    (lowest highest : Int) : Node :=
  { n with
    us := { n.us with flags := { n.us.flags with quorate := quorate, wfastatus := wfastatus } }
    clusterIsQuorate := clusterIsQuorate
    waitForAllStatus := status
    lowestNodeId := lowest
    highestNodeId := highest
    assertionFailed := assertionFailed }

/-- A decision changes flags, the status of wait for all and the remembered ids only. -/
theorem areWeQuorate_eq (n : Node) (totalVotes : ℕ) :
    ∃ quorate wfastatus clusterIsQuorate status assertionFailed lowest highest,
      n.areWeQuorate totalVotes =
        n.decided quorate wfastatus clusterIsQuorate status assertionFailed lowest highest := by
  unfold areWeQuorate
  split
  · exact ⟨_, _, _, _, _, _, _, rfl⟩
  · dsimp only
    unfold setQuorate rememberIds updateWaitForAllStatus changeFlags
    dsimp only
    split <;> split <;> split <;> exact ⟨_, _, _, _, _, _, _, rfl⟩

/-- A decision keeps what a recalculation keeps. -/
theorem kept_areWeQuorate (n : Node) (totalVotes : ℕ) : Kept n (n.areWeQuorate totalVotes) := by
  obtain ⟨_, _, _, _, _, _, _, h⟩ := n.areWeQuorate_eq totalVotes
  rw [h]
  exact { Kept.refl n with }

/-- A decision leaves the expected votes, the quorum and their tracking as they are. -/
@[simp] theorem same_areWeQuorate (n : Node) (totalVotes : ℕ) :
    (n.areWeQuorate totalVotes).us.expectedVotes = n.us.expectedVotes ∧
      (n.areWeQuorate totalVotes).quorum = n.quorum ∧
      (n.areWeQuorate totalVotes).evTrackingFile = n.evTrackingFile ∧
      (n.areWeQuorate totalVotes).evTrackingBarrier = n.evTrackingBarrier := by
  obtain ⟨_, _, _, _, _, _, _, h⟩ := n.areWeQuorate_eq totalVotes
  rw [h]
  exact ⟨rfl, rfl, rfl, rfl⟩

/-- The expected votes follow the votes upwards. -/
@[simp] theorem expectedVotes_raise (n : Node) :
    n.raiseExpectedVotes.us.expectedVotes = max n.us.expectedVotes n.getTotalVotes.1 := by
  unfold raiseExpectedVotes setExpectedVotes
  split
  · simp only
    omega
  · omega

/-- Raising the expected votes changes nothing else. -/
theorem kept_raise (n : Node) : Kept n n.raiseExpectedVotes := by
  unfold raiseExpectedVotes setExpectedVotes
  split <;> exact { Kept.refl n with }

/-- Tracking the expected votes changes the barrier and the file. -/
theorem kept_track (n : Node) : Kept n n.trackExpectedVotes := by
  unfold trackExpectedVotes updateEvTrackingBarrier
  split <;> exact { Kept.refl n with }

/-- Tracking the expected votes leaves the records and the quorum as they are. -/
theorem track_eq (n : Node) :
    n.trackExpectedVotes.us = n.us ∧ n.trackExpectedVotes.before = n.before ∧
      n.trackExpectedVotes.after = n.after ∧ n.trackExpectedVotes.quorum = n.quorum := by
  unfold trackExpectedVotes updateEvTrackingBarrier
  split <;> exact ⟨rfl, rfl, rfl, rfl⟩

/-- Setting the expected votes of the members changes nothing else. -/
theorem kept_updateNodeExpectedVotes (n : Node) (expectedVotes : ℕ) :
    Kept n (n.updateNodeExpectedVotes expectedVotes) := by
  have hbase : ∀ nodes : List ClusterNode,
      (nodes.map fun node =>
        if node.state = .member then { node with expectedVotes := expectedVotes }
        else node).map base = nodes.map base := by
    intro nodes
    rw [List.map_map]
    refine List.map_congr_left fun node _ => ?_
    simp only [Function.comp_apply]
    split <;> rfl
  unfold updateNodeExpectedVotes
  split
  · refine ⟨rfl, rfl, ?_, ?_, ?_, ?_, hbase _, hbase _, rfl, rfl, rfl, rfl⟩ <;>
      simp only [mapNodes] <;> split <;> rfl
  · exact Kept.refl n

/-- Setting the expected votes of the members leaves the quorum as it is. -/
@[simp] theorem same_updateNodeExpectedVotes (n : Node) (expectedVotes : ℕ) :
    (n.updateNodeExpectedVotes expectedVotes).quorum = n.quorum ∧
      (n.updateNodeExpectedVotes expectedVotes).evTrackingFile = n.evTrackingFile ∧
      (n.updateNodeExpectedVotes expectedVotes).evTrackingBarrier = n.evTrackingBarrier := by
  unfold updateNodeExpectedVotes
  split <;> exact ⟨rfl, rfl, rfl⟩

/-- The expected votes stay within a bound of the old and the new ones. -/
theorem expectedVotes_updateNodeExpectedVotes_le {expectedVotes bound : ℕ}
    (hold : n.us.expectedVotes ≤ bound) (hnew : expectedVotes ≤ bound) :
    (n.updateNodeExpectedVotes expectedVotes).us.expectedVotes ≤ bound := by
  unfold updateNodeExpectedVotes mapNodes
  split
  · dsimp only
    split
    · exact hnew
    · exact hold
  · exact hold

/-- The node that `recalculate_quorum` passes to `are_we_quorate`. -/
def prepared (n : Node) (allowDecrease byCurrentNodes : Bool) : Node :=
  let tracked := n.raiseExpectedVotes.trackExpectedVotes
  let clusterMembers := if byCurrentNodes then n.getTotalVotes.2 else 0
  { tracked with
    quorum := tracked.calculateQuorum allowDecrease clusterMembers % 2 ^ 8 }.updateNodeExpectedVotes
    clusterMembers

/-- `recalculate_quorum` is a preparation and a decision. -/
theorem recalculateQuorum_eq (n : Node) (allowDecrease byCurrentNodes : Bool) :
    n.recalculateQuorum allowDecrease byCurrentNodes =
      (n.prepared allowDecrease byCurrentNodes).areWeQuorate
        n.raiseExpectedVotes.trackExpectedVotes.countVotes.1 :=
  rfl

/-- The preparation changes the expected votes, the quorum and the barrier only. -/
theorem kept_prepared (n : Node) (allowDecrease byCurrentNodes : Bool) :
    Kept n (n.prepared allowDecrease byCurrentNodes) := by
  have htracked := (kept_raise n).trans (kept_track _)
  refine (htracked.trans ?_).trans (kept_updateNodeExpectedVotes _ _)
  exact { Kept.refl _ with }

/-- A recalculation leaves members and votes as they are. -/
theorem kept_recalculate (n : Node) (allowDecrease byCurrentNodes : Bool) :
    Kept n (n.recalculateQuorum allowDecrease byCurrentNodes) := by
  rw [recalculateQuorum_eq]
  exact (kept_prepared n _ _).trans (kept_areWeQuorate _ _)

/-- Without lowering, the expected votes follow the votes upwards. -/
theorem expectedVotes_recalculate (n : Node) (allowDecrease : Bool) :
    (n.recalculateQuorum allowDecrease false).us.expectedVotes =
      max n.us.expectedVotes n.getTotalVotes.1 := by
  rw [recalculateQuorum_eq, (same_areWeQuorate _ _).1]
  exact (congrArg expectedVotes (track_eq _).1).trans n.expectedVotes_raise

end Node

end Corosync.Votequorum
