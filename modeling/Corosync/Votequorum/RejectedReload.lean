import Corosync.Votequorum.Config

/-!
# A configuration that is rejected at run time

Two contradictions make `votequorum_readconfig` leave early when the configuration is read again.
For the first it announces to continue with the current data. But `two_node`, `auto_tie_breaker` and
`qdevice_can_operate` are assigned while the keys are read, and `wait_for_all` follows them, all
before the checks; nothing is put back.
-/

namespace Corosync.Votequorum.Node

variable {config : Icmap} {n : Node}

/-- Neither a node list nor expected votes are configured. -/
def LacksVotes (config : Icmap) : Prop := !config.haveNodelist ∧ config.expectedVotes.getD 0 = 0

instance : Decidable (LacksVotes config) := inferInstanceAs (Decidable (_ ∧ _))

/-- The variables in front of the check of the tie breaker. -/
def readFollowed (config : Icmap) (n : Node) : Node :=
  ((n.readAgain config).chooseTwoNode config).followTwoNode

/-- `votequorum_readconfig` jumps to its end at run time: there are no votes, or there is a tie
breaker with last man standing in a cluster with an odd number of votes. -/
def Rejects (config : Icmap) (n : Node) : Prop :=
  LacksVotes config ∨
    ((n.readFollowed config).OddTieBreaker config ∧ (n.readFollowed config).lastManStanding)

instance : Decidable (n.Rejects config) := inferInstanceAs (Decidable (_ ∨ _))

/-- The new `two_node` and a quorum device exclude each other, and the device is not registered, so
that it has to give way. -/
def deviceGivesWay (config : Icmap) (n : Node) : Bool :=
  config.twoNode && config.deviceModel && !n.us.flags.qdeviceRegistered

/-- The running data are the same. -/
structure SameData (n n' : Node) : Prop where
  twoNode : n'.twoNode = n.twoNode
  waitForAll : n'.waitForAll = n.waitForAll
  waitForAllStatus : n'.waitForAllStatus = n.waitForAllStatus
  autoTieBreaker : n'.autoTieBreaker = n.autoTieBreaker
  qdeviceCanOperate : n'.qdeviceCanOperate = n.qdeviceCanOperate
  votes : n'.us.votes = n.us.votes
  expectedVotes : n'.us.expectedVotes = n.us.expectedVotes
  qdeviceVotes : n'.qdeviceVotes = n.qdeviceVotes
  quorum : n'.quorum = n.quorum
  clusterIsQuorate : n'.clusterIsQuorate = n.clusterIsQuorate

/-- The rejected configuration says about the keys that are read again what the node already does.
Without votes this concerns `two_node`; with a tie breaker in a cluster with an odd number of votes
the node has neither `two_node` nor `wait_for_all`. -/
def Repeats (config : Icmap) (n : Node) : Prop :=
  n.autoTieBreaker = n.initialAutoTieBreaker ∧
    if LacksVotes config then
      n.twoNode = config.twoNode ∧ (config.deviceModel → n.qdeviceCanOperate)
    else
      n.twoNode = false ∧ n.waitForAll = false ∧
        if n.deviceGivesWay config then n.qdeviceCanOperate = false
        else config.deviceModel → n.qdeviceCanOperate

/-- With a tie breaker `two_node` is off in the end, whatever is configured. -/
theorem readFollowed_eq (htie : n.initialAutoTieBreaker ≠ .none) :
    n.readFollowed config =
      { n with
        twoNode := false
        waitForAll := (n.readFollowed config).waitForAll
        autoTieBreaker := n.initialAutoTieBreaker
        qdeviceCanOperate :=
          !n.deviceGivesWay config && (config.deviceModel || n.qdeviceCanOperate) } := by
  cases htwo : config.twoNode <;> cases hdevice : config.deviceModel <;>
    cases hreg : n.us.flags.qdeviceRegistered <;> cases hauto : n.waitForAllAutoset <;>
    simp [readFollowed, readAgain, chooseTwoNode, followTwoNode, deviceGivesWay, htwo, hdevice,
      hreg, hauto, htie]

/-- What is read after `two_node` restores the first tie breaker. -/
theorem readFollowed_autoTieBreaker (config : Icmap) (n : Node) :
    (n.readFollowed config).autoTieBreaker = n.initialAutoTieBreaker := by
  have hfollow : ∀ m : Node, m.followTwoNode.autoTieBreaker = m.autoTieBreaker := by
    intro m
    unfold followTwoNode
    dsimp only
    split <;> split <;> rfl
  have hchoose : ∀ m : Node, (m.chooseTwoNode config).autoTieBreaker = m.autoTieBreaker := by
    intro m
    unfold chooseTwoNode
    split
    · split <;> rfl
    · rfl
  rw [readFollowed, hfollow, hchoose]
  rfl

/-- What is assigned before the first jump. -/
theorem readconfigRuntime_of_lacksVotes (h : LacksVotes config) :
    n.readconfigRuntime config = n.readAgain config := if_pos h

/-- What is assigned before the second jump. -/
theorem readconfigRuntime_of_odd (hvotes : ¬LacksVotes config)
    (hodd : (n.readFollowed config).OddTieBreaker config ∧
      (n.readFollowed config).lastManStanding) :
    n.readconfigRuntime config =
      { n with
        twoNode := false
        waitForAll := false
        autoTieBreaker := n.initialAutoTieBreaker
        qdeviceCanOperate :=
          !n.deviceGivesWay config && (config.deviceModel || n.qdeviceCanOperate) } := by
  have htie : n.initialAutoTieBreaker ≠ .none := by
    rw [← n.readFollowed_autoTieBreaker config]
    exact hodd.1.1
  have hwait : (n.readFollowed config).waitForAll = false := by simpa using hodd.1.2.2
  have hleft : n.readconfigRuntime config = n.readFollowed config :=
    (if_neg hvotes).trans (if_pos hodd)
  rw [hleft, readFollowed_eq htie, hwait]

/-- A rejected configuration leaves the running data as they are if and only if it repeats what
the node already does. -/
theorem refreshConfig_sameData_iff (config : Icmap) (n : Node) (hrejects : n.Rejects config) :
    SameData n (n.refreshConfig config).1 ↔ n.Repeats config := by
  have hnew : (n.refreshConfig config).1 = n.readconfigRuntime config := rfl
  rw [hnew, Repeats]
  by_cases hvotes : LacksVotes config
  · rw [readconfigRuntime_of_lacksVotes hvotes, if_pos hvotes]
    constructor
    · intro h
      have hdevice : (config.deviceModel || n.qdeviceCanOperate) = n.qdeviceCanOperate :=
        h.qdeviceCanOperate
      exact ⟨h.autoTieBreaker.symm, h.twoNode.symm, by simpa using hdevice⟩
    · rintro ⟨htie, htwo, hdevice⟩
      refine ⟨htwo.symm, rfl, rfl, htie.symm, ?_, rfl, rfl, rfl, rfl, rfl⟩
      simpa [readAgain] using hdevice
  · rw [readconfigRuntime_of_odd hvotes (hrejects.resolve_left hvotes), if_neg hvotes]
    have hdevice : (!n.deviceGivesWay config && (config.deviceModel || n.qdeviceCanOperate)) =
          n.qdeviceCanOperate ↔
        if n.deviceGivesWay config then n.qdeviceCanOperate = false
        else config.deviceModel → n.qdeviceCanOperate := by
      cases n.deviceGivesWay config <;> cases config.deviceModel <;> cases n.qdeviceCanOperate <;>
        simp
    constructor
    · intro h
      exact ⟨h.autoTieBreaker.symm, h.twoNode.symm, h.waitForAll.symm,
        hdevice.mp h.qdeviceCanOperate⟩
    · rintro ⟨htie, htwo, hwait, hoperate⟩
      exact ⟨htwo.symm, hwait.symm, rfl, htie.symm, hdevice.mpr hoperate, rfl, rfl, rfl, rfl, rfl⟩

/-- The first of two nodes, alone and quorate because of `two_node`. -/
def survivor : Node :=
  { zero 1 none with
    twoNode := true
    waitForAll := true
    waitForAllAutoset := true
    us := ⟨1, .member, 1, 2, { quorate := true }⟩
    after := [⟨2, .dead, 1, 2, { quorate := true }⟩]
    quorumMembers := [1]
    quorum := 1
    clusterIsQuorate := true }

/-- A configuration that only has `two_node` left is rejected, and nothing changes. -/
theorem refreshConfig_sameData_iff_survivor :
    SameData survivor (survivor.refreshConfig { twoNode := true }).1 :=
  (refreshConfig_sameData_iff { twoNode := true } survivor (by decide)).mpr (by
    simp [Repeats, survivor, zero, LacksVotes, Icmap.haveNodelist])

/-- An empty configuration is rejected, but `two_node` is off. The quorum is still one; the next
recalculation makes it two, and the survivor loses the quorum. -/
theorem two_node_lost_by_rejected_reload :
    let reloaded := (survivor.refreshConfig {}).1
    survivor.Rejects {} ∧ ¬SameData survivor reloaded ∧
      survivor.twoNode = true ∧ reloaded.twoNode = false ∧
      (survivor.recalculateQuorum false false).clusterIsQuorate = true ∧
      (reloaded.recalculateQuorum false false).quorum = 2 ∧
      (reloaded.recalculateQuorum false false).clusterIsQuorate = false := by
  refine ⟨by decide, fun h => ?_, by decide, by decide, by decide, by decide, by decide⟩
  exact absurd h.twoNode (by decide)

end Corosync.Votequorum.Node
