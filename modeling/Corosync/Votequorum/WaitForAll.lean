import Corosync.Votequorum.Counting
import Corosync.Votequorum.Decision

/-!
# Wait for all

A node that waits for all nodes is not quorate, so the assertion of `are_we_quorate` holds, as long
as a new configuration does not leave the status behind. And a node that waits becomes quorate only
when it counts all expected votes.
-/

namespace Corosync.Votequorum

open Function Library Node

variable {c : Cluster} {members : ℕ → List NodeId} {s s' : System} {e : Event} {n n' : Node}
  {a : NodeId}

/-- What the assertion of `are_we_quorate` rests on. -/
structure Patient (n : Node) : Prop where
  waits : n.waitForAll = true → n.waitForAllStatus = true → n.clusterIsQuorate = false
  /-- A node that does not wait because of `two_node` has no status left. -/
  autoset : n.waitForAllAutoset = true → n.waitForAll = false → n.waitForAllStatus = false
  assertion : n.assertionFailed = false

namespace Patient

section

variable (hpatient : Patient n)

include hpatient

/-- A node ends its wait. -/
theorem endWait : Patient (n.updateWaitForAllStatus false) :=
  ⟨fun _ hstatus => absurd hstatus Bool.false_ne_true, fun _ _ => rfl, hpatient.assertion⟩

/-- The decision is stored. -/
theorem setQuorate (quorate : Bool) : Patient (n.setQuorate quorate) := by
  unfold Node.setQuorate
  dsimp only
  split
  · rename_i hwait
    refine ⟨fun _ hstatus => ?_, fun _ hoff => ?_, hpatient.assertion⟩
    · exact Bool.not_eq_true' _ ▸ hstatus
    · exact absurd (hwait.symm.trans hoff) (by simp)
  · rename_i hwait
    exact ⟨fun hon => absurd hon hwait, hpatient.autoset, hpatient.assertion⟩

/-- The lowest and the highest id are remembered. -/
theorem rememberIds (totalVotes : ℕ) : Patient (n.rememberIds totalVotes) := by
  unfold Node.rememberIds
  split
  · exact { hpatient with }
  · exact hpatient

/-- A decision ends the wait before it finds a quorum. -/
theorem areWeQuorate (totalVotes : ℕ) : Patient (n.areWeQuorate totalVotes) := by
  unfold Node.areWeQuorate
  split
  · rename_i hwaits
    refine ⟨hpatient.waits, hpatient.autoset, ?_⟩
    simp [hpatient.assertion, hpatient.waits hwaits.1 hwaits.2.1]
  refine setQuorate ?_ _
  have hended : Patient (if n.waitForAll = true ∧ n.waitForAllStatus = true then
      n.updateWaitForAllStatus false else n) := by
    split
    · exact hpatient.endWait
    · exact hpatient
  exact hended.rememberIds totalVotes

/-- Expected votes of the members do not concern the wait. -/
theorem updateNodeExpectedVotes (expectedVotes : ℕ) :
    Patient (n.updateNodeExpectedVotes expectedVotes) := by
  unfold Node.updateNodeExpectedVotes
  split
  · exact { hpatient with }
  · exact hpatient

/-- An assignment of votes has nothing to do with the wait. -/
theorem setNodeVotes {nodeid : NodeId} {votes : ℕ} {n' : Node}
    (hchanged : n.setNodeVotes nodeid votes = some n') : Patient n' := by
  obtain rfl | ⟨-, rfl⟩ := setNodeVotes_cases hchanged
  · exact { hpatient with }
  · exact { hpatient with }

/-- A recalculation is a decision. -/
theorem recalculateQuorum (allowDecrease byCurrentNodes : Bool) :
    Patient (n.recalculateQuorum allowDecrease byCurrentNodes) := by
  rw [recalculateQuorum_eq]
  refine areWeQuorate ?_ _
  have hraise : ∀ n : Node, Patient n → Patient n.raiseExpectedVotes := by
    intro n hpatient
    unfold raiseExpectedVotes
    split
    · exact { hpatient with }
    · exact hpatient
  have htrack : ∀ n : Node, Patient n → Patient n.trackExpectedVotes := by
    intro n hpatient
    unfold trackExpectedVotes
    split
    · exact { hpatient with }
    · exact hpatient
  have htracked := htrack _ (hraise n hpatient)
  refine updateNodeExpectedVotes ?_ _
  exact { htracked with }

/-- The status is set when the configuration is read again. -/
theorem resetWaitForAllStatus (hautoset : n'.waitForAllAutoset = n.waitForAllAutoset)
    (hwait : n'.waitForAllAutoset = false → n'.waitForAll = n.waitForAll)
    (hstatus : n'.waitForAllStatus = n.waitForAllStatus)
    (hquorate : n'.clusterIsQuorate = n.clusterIsQuorate)
    (hassertion : n'.assertionFailed = n.assertionFailed) :
    Patient (n'.resetWaitForAllStatus true) := by
  have hassertion := hassertion.trans hpatient.assertion
  unfold Node.resetWaitForAllStatus
  split
  · rename_i hon
    rw [if_pos rfl]
    refine ⟨fun _ hwaits => ?_, fun _ hoff => absurd (hon.symm.trans hoff) (by simp), hassertion⟩
    rw [hstatus] at hwaits
    rw [hquorate]
    refine hpatient.waits ?_ hwaits
    -- without wait for all before there would be no status
    by_contra hoff
    have hauto : n.waitForAllAutoset = true := by
      by_contra hmanual
      rw [Bool.not_eq_true] at hmanual
      exact hoff ((hwait (hautoset.trans hmanual)).symm.trans hon)
    exact absurd (hwaits.symm.trans (hpatient.autoset hauto (Bool.not_eq_true _ ▸ hoff))) (by simp)
  · rename_i hoff
    split
    · exact ⟨fun hon => absurd hon hoff, fun _ _ => rfl, hassertion⟩
    · rename_i hkeep
      refine ⟨fun hon => absurd hon hoff, fun hauto _ => ?_, hassertion⟩
      exact Bool.not_eq_true _ ▸ fun hon => hkeep ⟨hauto, hon⟩

/-- A configuration that is read to its end. -/
theorem readconfigRuntime {config : Icmap}
    (hodd : ¬(n.initialAutoTieBreaker ≠ .none ∧ n.lastManStanding = true ∧
      config.nodeExpectedVotes % 2 = 1)) : Patient (n.readconfigRuntime config) := by
  unfold Node.readconfigRuntime
  dsimp only
  split
  · exact { hpatient with }
  obtain ⟨twoNode, canOperate, hchoose⟩ : ∃ twoNode canOperate,
      (n.readAgain config).chooseTwoNode config = { n.readAgain config with
        twoNode := twoNode, qdeviceCanOperate := canOperate } := by
    unfold chooseTwoNode
    split
    · split <;> exact ⟨_, _, rfl⟩
    · exact ⟨_, _, rfl⟩
  have hdrop : ∀ m : Node, ∃ autoTieBreaker canOperate,
      (m.dropOddTieBreaker config).disableQdevice config = { m with
        autoTieBreaker := autoTieBreaker, qdeviceCanOperate := canOperate } := by
    intro m
    unfold dropOddTieBreaker disableQdevice
    split <;> split <;> exact ⟨_, _, rfl⟩
  rw [hchoose, followTwoNode_eq]
  split
  · rename_i hexit
    exact absurd ⟨hexit.1.1, hexit.2, hexit.1.2.1⟩ hodd
  obtain ⟨_, _, heq⟩ := hdrop { n.readAgain config with
    toSettings := followedSettings { (n.readAgain config).toSettings with
      twoNode := twoNode, qdeviceCanOperate := canOperate } }
  refine hpatient.resetWaitForAllStatus ?_ ?_ ?_ ?_ ?_
  · rw [heq]
    rfl
  · rw [heq]
    intro hmanual
    have hmanual : n.waitForAllAutoset = false := hmanual
    have hwait : (if n.waitForAllAutoset = true then twoNode else n.waitForAll) =
        n.waitForAll := if_neg (by simp [hmanual])
    exact hwait
  · rw [heq]
    rfl
  · rw [heq]
    rfl
  · rw [heq]
    rfl

end

/-- A node is patient from its start on. -/
theorem start {config : Icmap} {file : Option ℕ} (hinit : execInitFn config a file = .ok n) :
    Patient n := by
  obtain ⟨tie, barrier, fdOpen, file', -, rfl⟩ := execInitFn_eq hinit
  refine recalculateQuorum ?_ false false
  unfold Node.beforeDecision Node.resetWaitForAllStatus
  split
  · rename_i hon
    exact ⟨fun _ _ => rfl, fun _ hoff => absurd (hon.symm.trans hoff) (by simp), rfl⟩
  · split <;> exact ⟨fun _ _ => rfl, fun _ _ => rfl, rfl⟩

/-- A node that has not started. -/
theorem zero (a : NodeId) (file : Option ℕ) : Patient (.zero a file) :=
  ⟨fun _ _ => rfl, fun _ _ => rfl, rfl⟩

/-- A new ring does not concern the wait. -/
theorem syncInit (hpatient : Patient n) (next : List NodeId) : Patient (n.syncInit next) := by
  obtain ⟨_, _, heq, -⟩ := n.syncInit_eq next
  rw [heq]
  exact { hpatient with }

/-- A message of a node with a record. -/
theorem recordNodeinfo (hpatient : Patient n) (old : Option ClusterNode) (info : Nodeinfo) :
    Patient (n.recordNodeinfo old info) := by
  have hrecorded : Patient (n.recorded info) := by
    obtain ⟨_, _, _, _, _, heq⟩ := n.recorded_eq info
    rw [heq]
    exact { hpatient with }
  have hheed : ∀ (n : Node) (nodeid : NodeId), Patient n → Patient (n.heedQuorateNode nodeid) := by
    intro n nodeid hpatient
    obtain heq | heq := n.heedQuorateNode_eq nodeid
    · rw [heq]
      exact hpatient
    · rw [heq]
      exact hpatient.endWait
  unfold Node.recordNodeinfo
  refine hheed _ _ ?_
  split
  · exact hrecorded.recalculateQuorum _ _
  · exact hrecorded

/-- A message. -/
theorem deliver (hpatient : Patient n) (sender : NodeId) (message : Message) :
    Patient (n.deliver sender message) := by
  cases message with
  | nodeinfo info =>
    unfold Node.deliver Node.nodeinfoHandler
    dsimp only
    split
    · unfold qdeviceNodeinfoHandler
      split
      · exact { hpatient with }
      · unfold assignQdeviceVotes
        split
        · refine recalculateQuorum ?_ false false
          exact { hpatient with }
        · exact { hpatient with }
    · split
      · exact hpatient.recordNodeinfo _ info
      split
      · rename_i allocated halloc
        obtain ⟨_, _, _, rfl⟩ := allocateNode_eq halloc
        refine recordNodeinfo ?_ none info
        exact { hpatient with }
      · exact { hpatient with }
  | reconfigure request =>
    cases request with
    | expectedVotes value =>
      have hupdated := hpatient.updateNodeExpectedVotes value
      unfold Node.deliver Node.reconfigureHandler
      dsimp only
      refine recalculateQuorum ?_ true false
      split <;> exact { hupdated with }
    | nodeVotes _ _ =>
      unfold Node.deliver Node.reconfigureHandler
      dsimp only
      split
      · rename_i hchanged
        exact (hpatient.setNodeVotes hchanged).recalculateQuorum true false
      · exact hpatient
    | cancelWfa => exact hpatient.endWait.recalculateQuorum false false

/-- An action, with a configuration that is read to its end. -/
theorem act (hpatient : Patient n) {action : Action}
    (hreload : ∀ config, action = .reload config → ¬(n.initialAutoTieBreaker ≠ .none ∧
      n.lastManStanding = true ∧ config.nodeExpectedVotes % 2 = 1)) :
    Patient (n.act action).1 := by
  by_cases hquiet : action.quiet = true
  · obtain ⟨-, heq⟩ | ⟨_, _, _, _, _, heq, -⟩ := n.act_adjusted hquiet
    · rw [heq]
      unfold lastManStandingTimerFn
      dsimp only
      split
      · refine recalculateQuorum ?_ true true
        exact { hpatient with }
      · exact { hpatient with }
    · rw [heq]
      exact { hpatient with }
  · cases action with
    | reload config => exact hpatient.readconfigRuntime (hreload config rfl)
    | setexpected expectedVotes =>
      obtain ⟨-, heq⟩ | ⟨-, heq⟩ := n.libSetexpected_cases expectedVotes true
      · rw [Node.act, heq]
        exact hpatient
      · rw [Node.act, heq]
        exact hpatient.updateNodeExpectedVotes expectedVotes
    | setvotes nodeid votes =>
      obtain ⟨-, heq⟩ | ⟨_, hchanged, ⟨-, heq⟩ | ⟨-, heq⟩⟩ := n.libSetvotes_cases nodeid votes true
      · rw [Node.act, heq]
        exact hpatient
      · rw [Node.act, heq]
        exact hpatient
      · rw [Node.act, heq]
        exact hpatient.setNodeVotes hchanged
    | cancelWaitForAll => exact hpatient
    | _ => exact absurd rfl hquiet

end Patient

/-- A node does not read a configuration with an odd number of votes while it has a tie breaker and
last man standing. -/
def Heeds (s : System) : Event → Prop
  | .act a (.reload config) => ¬((s.nodes a).initialAutoTieBreaker ≠ .none ∧
      (s.nodes a).lastManStanding = true ∧ config.nodeExpectedVotes % 2 = 1)
  | _ => True

instance (s : System) (e : Event) : Decidable (Heeds s e) :=
  match e with
  | .act _ action =>
    match action with
    | .reload _ => inferInstanceAs (Decidable (¬_))
    | .lastManStandingTimer | .exit | .qdeviceRegister | .qdeviceUnregister | .qdevicePoll _
    | .qdeviceMasterWins _ | .qdeviceTimer | .setexpected _ | .setvotes _ _ | .cancelWaitForAll =>
      isTrue trivial
  | .start _ _ _ | .enter _ _ | .process _ | .transmit _ | .deliver _ | .activate _ =>
    isTrue trivial

/-- Every step keeps the nodes patient. -/
theorem Patient.step (hpatient : ∀ a, Patient (s.nodes a)) (hheeds : Heeds s e)
    (hstep : System.Step members s e s') (a : NodeId) : Patient (s'.nodes a) := by
  by_cases ha : a = e.node
  · subst ha
    cases hstep with
    | start hinit _ =>
      simp only [System.joined, Event.node, update_self]
      exact (Patient.start hinit).syncInit _
    | enter _ _ =>
      simp only [System.joined, Event.node, update_self]
      exact (hpatient _).syncInit _
    | @process a _ _ _ _ =>
      simp only [System.acted, Event.node, update_self, syncProcess_fst]
      have hnode := hpatient a
      exact { hnode with }
    | transmit _ _ => exact hpatient _
    | @deliver a sender packet _ _ =>
      simp only [System.handled, Event.node, update_self]
      cases packet with
      | message message => exact (hpatient a).deliver sender message
      | barrier _ => exact hpatient a
    | @activate a _ _ _ =>
      simp only [System.settled, Event.node, update_self]
      have hrecalculated := (hpatient a).recalculateQuorum false false
      exact { hrecalculated with }
    | @act a _ _ =>
      simp only [System.acted, Event.node, update_self]
      refine (hpatient a).act fun config hreload => ?_
      subst hreload
      exact hheeds
  · rw [(hstep.untouched ha).nodes]
    exact hpatient a

end Corosync.Votequorum
