import Corosync.Votequorum.Config

/-!
# A node after its start

What `votequorum_exec_init_fn` leaves in the variables, by the configuration.
-/

namespace Corosync.Votequorum

/-- The setting of the tie breaker in a configuration. -/
def Icmap.tieBreaker (config : Icmap) : AutoTieBreaker :=
  if config.autoTieBreaker then
    match config.autoTieBreakerNode with
    | none => .lowest
    | some .lowest => .lowest
    | some .highest => .highest
    | some (.nodes _ _) => .list
    | some .other => .none
  else .none

/-- The list of tie breaking nodes in a configuration. -/
def Icmap.tieBreakerNodes (config : Icmap) : List NodeId :=
  match config.autoTieBreakerNode with
  | some (.nodes first rest) => if config.autoTieBreaker then first :: rest else []
  | _ => []

namespace Node

variable (config : Icmap) (n : Node)

/-- The flags and the tie breaker that are read at startup. -/
def startupSettings (settings : Settings) : Settings :=
  { settings with
    allowDownscale := config.allowDownscale
    waitForAll := config.waitForAll.getD settings.waitForAll
    waitForAllAutoset := config.waitForAll.isNone
    lastManStanding := config.lastManStanding
    evTracking := config.expectedVotesTracking || config.allowDownscale
    autoTieBreaker := config.tieBreaker
    atbNodelist :=
      if config.tieBreaker = .list then config.tieBreakerNodes else settings.atbNodelist }

/-- The keys that are only read at startup determine settings. -/
theorem readTieBreakerNode_eq :
    (n.readFlags config).readTieBreakerNode config =
      { n with toSettings := startupSettings config n.toSettings } := by
  unfold readTieBreakerNode readFlags startupSettings Icmap.tieBreaker Icmap.tieBreakerNodes
  cases hatb : config.autoTieBreaker
  · cases config.autoTieBreakerNode <;> rfl
  · cases config.autoTieBreakerNode with
    | none => rfl
    | some string => cases string <;> rfl

/-- Loading the tracked value changes the barrier and the file only. -/
theorem startTracking_eq :
    ∃ barrier fdOpen file, n.startTracking = { n with
      evTrackingBarrier := barrier, evTrackingFdOpen := fdOpen, evTrackingFile := file } := by
  unfold startTracking loadEvTrackingBarrier
  split
  · split <;> exact ⟨_, _, _, rfl⟩
  · exact ⟨_, _, _, rfl⟩

/-- What reading the configuration at the start changes. -/
theorem readStartup_eq :
    ∃ barrier fdOpen file, n.readStartup config = { n with
      toSettings := { startupSettings config n.toSettings with
        initialAutoTieBreaker := config.tieBreaker }
      evTrackingBarrier := barrier, evTrackingFdOpen := fdOpen, evTrackingFile := file } := by
  unfold readStartup
  rw [readTieBreakerNode_eq]
  obtain ⟨barrier, fdOpen, file, heq⟩ := startTracking_eq { n with
    toSettings := { startupSettings config n.toSettings with
      initialAutoTieBreaker := config.tieBreaker } }
  exact ⟨barrier, fdOpen, file, heq⟩

/-- The settings of `two_node` and `wait_for_all` that go with each other. -/
def followedSettings (settings : Settings) : Settings :=
  { settings with
    waitForAll := if settings.waitForAllAutoset then settings.twoNode else settings.waitForAll
    twoNode := settings.twoNode && settings.autoTieBreaker == .none }

/-- What follows from `two_node` are settings. -/
theorem followTwoNode_eq :
    n.followTwoNode = { n with toSettings := followedSettings n.toSettings } := by
  obtain ⟨⟨twoNode, waitForAll, autoset, tieBreaker⟩⟩ := n
  cases autoset <;> cases twoNode <;> cases tieBreaker <;> rfl

/-- The settings at startup. -/
def startedSettings (autoTieBreaker : AutoTieBreaker) : Settings :=
  { followedSettings { startupSettings config { (zero 0 none).toSettings with
        twoNode := config.twoNode } with
      initialAutoTieBreaker := config.tieBreaker } with
    autoTieBreaker := autoTieBreaker }

/-- A node that has read its configuration at startup, before the votes are assigned. -/
def configured (nodeid : NodeId) (autoTieBreaker : AutoTieBreaker) (barrier : ℕ) (fdOpen : Bool)
    (file : Option ℕ) : Node :=
  { zero nodeid file with
    toSettings := startedSettings config autoTieBreaker
    evTrackingBarrier := barrier
    evTrackingFdOpen := fdOpen }

/-- The node before its first decision. -/
def beforeDecision (nodeid : NodeId) (autoTieBreaker : AutoTieBreaker) (barrier : ℕ)
    (fdOpen : Bool) (file : Option ℕ) : Node :=
  ((configured config nodeid autoTieBreaker barrier fdOpen file).assignVotes
    config).resetWaitForAllStatus false

/-- A node that has started has read its configuration and takes its first decision. -/
theorem execInitFn_eq {config : Icmap} {nodeid : NodeId} {file : Option ℕ} {n : Node}
    (hinit : execInitFn config nodeid file = .ok n) :
    ∃ autoTieBreaker barrier fdOpen file',
      (autoTieBreaker = config.tieBreaker ∨ autoTieBreaker = .none) ∧
      n = (beforeDecision config nodeid autoTieBreaker barrier fdOpen file').recalculateQuorum
        false false := by
  unfold execInitFn at hinit
  cases hread : (zero nodeid file).readconfigStartup config with
  | error _ =>
    rw [hread] at hinit
    exact absurd hinit (by simp [Except.map])
  | ok _ =>
    rw [hread] at hinit
    obtain rfl := Except.ok.inj hinit
    obtain ⟨read, autoTieBreaker, hfollow, htie, rfl⟩ := readconfigStartup_ok hread
    obtain ⟨barrier, fdOpen, file', hstartup⟩ := readStartup_eq config { zero nodeid file with
      twoNode := config.twoNode
      qdeviceCanOperate := config.deviceModel || (zero nodeid file).qdeviceCanOperate }
    rw [hstartup, followTwoNode_eq] at hfollow
    have hoperate : (config.deviceModel || (zero nodeid file).qdeviceCanOperate) = true :=
      Bool.or_true _
    rw [hoperate] at hfollow
    refine ⟨autoTieBreaker, barrier, fdOpen, file', ?_, ?_⟩
    · rw [hfollow] at htie
      exact htie
    · rw [hfollow]
      rfl

/-- Resetting the status of wait for all changes the status and a flag. -/
theorem resetWaitForAllStatus_eq (runtime : Bool) :
    ∃ status flag, n.resetWaitForAllStatus runtime =
      { n.changeFlags ({ · with wfastatus := flag }) with waitForAllStatus := status } := by
  unfold resetWaitForAllStatus updateWaitForAllStatus
  split
  · split <;> exact ⟨_, _, rfl⟩
  · split <;> exact ⟨_, _, rfl⟩

end Node

end Corosync.Votequorum
