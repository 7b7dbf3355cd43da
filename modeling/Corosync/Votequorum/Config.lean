import Corosync.Uint
import Corosync.Votequorum.Handlers

/-!
# The configuration of votequorum

`votequorum_readconfig` runs at startup and again, with less to read, whenever a key of the
configuration changes. At startup a contradictory configuration is an error; at run time most
contradictions only disable the quorum device.
-/

namespace Corosync.Votequorum

/-- The meaning of `quorum.auto_tie_breaker_node` to `parse_atb_string`. -/
inductive AtbString
  | lowest
  | highest
  | nodes (first : NodeId) (rest : List NodeId)
  | other
deriving DecidableEq, Repr

/-- The keys that votequorum reads. A missing number is `none`, a missing flag is off except for
`wait_for_all`. -/
structure Icmap where
  expectedVotes : Option ℕ := none
  localNodePos : Option ℕ := none
  /-- `nodelist.node.N.quorum_votes` for the nodes of the list in their order. -/
  nodelist : List (Option ℕ) := []
  votes : Option ℕ := none
  /-- `quorum.device.model` is there and not empty. -/
  deviceModel : Bool := false
  deviceVotes : Option ℕ := none
  twoNode : Bool := false
  waitForAll : Option Bool := none
  lastManStanding : Bool := false
  allowDownscale : Bool := false
  expectedVotesTracking : Bool := false
  autoTieBreaker : Bool := false
  autoTieBreakerNode : Option AtbString := none
deriving DecidableEq, Repr

/-- The errors of `votequorum_readconfig`. -/
inductive ConfigError
  | noExpectedVotes
  | twoNodeAndDevice
  | tieBreakerInOddCluster
  | deviceAndLastManStanding
  | deviceAndTieBreaker
  | deviceAndDownscale
  | deviceVotesMissing
  | deviceVotesNeeded
  | deviceVotesTooHigh
deriving DecidableEq, Repr

/-- The value `-1` of `qdevice_votes`, for votes that are not configured. -/
def noDeviceVotes : ℕ := 2 ^ 32 - 1

namespace Icmap

variable (config : Icmap)

/-- `votequorum_read_nodelist_configuration`, its result. -/
def haveNodelist : Bool := config.localNodePos.isSome

/-- The votes of the nodes of the list; one if not configured. -/
def nodeVotes : List ℕ := config.nodelist.map (·.getD 1)

/-- The votes of this node that `votequorum_read_nodelist_configuration` finds. -/
def localVotes : ℕ := (config.localNodePos.bind fun pos => config.nodeVotes[pos]?).getD 0

/-- The expected votes that `votequorum_read_nodelist_configuration` finds. -/
def nodeExpectedVotes : ℕ :=
  if config.haveNodelist then config.nodeVotes.sum % 2 ^ 32 else 0

/-- The number of nodes that `votequorum_read_nodelist_configuration` finds. -/
def nodeCount : ℕ := if config.haveNodelist then config.nodelist.length else 0

/-- `qdevice_votes` after `votequorum_qdevice_is_configured`. -/
def readDeviceVotes : ℕ :=
  if config.deviceModel then config.deviceVotes.getD noDeviceVotes else 0

/-- The device votes are computed from the node list. -/
def autoDeviceVotes : Bool :=
  config.deviceModel && config.readDeviceVotes == noDeviceVotes &&
    config.expectedVotes.getD 0 == 0 && config.haveNodelist &&
    config.nodeCount == config.nodeExpectedVotes

/-- `qdevice_votes` where the votes are assigned. -/
def assignedDeviceVotes : ℕ :=
  if config.autoDeviceVotes then usub config.nodeExpectedVotes 1 else config.readDeviceVotes

/-- `node_expected_votes` where the votes are assigned. -/
def assignedExpectedVotes : ℕ :=
  if config.autoDeviceVotes then uadd config.nodeExpectedVotes config.assignedDeviceVotes
  else config.nodeExpectedVotes

/-- The votes of this node. -/
def assignedVotes : ℕ :=
  if config.haveNodelist then config.localVotes else config.votes.getD 1

end Icmap

namespace Node

variable (config : Icmap) (n : Node)

/-- `parse_atb_string` -/
def parseAtbString : AtbString → Node
  | .lowest => { n with autoTieBreaker := .lowest }
  | .highest => { n with autoTieBreaker := .highest }
  | .nodes first rest => { n with autoTieBreaker := .list, atbNodelist := first :: rest }
  | .other => { n with autoTieBreaker := .none }

/-- `load_ev_tracking_barrier`, when the file operations succeed: the number is read from the file,
or zero is written to a new file. Either way the descriptor is closed again. -/
def loadEvTrackingBarrier : Node :=
  match n.evTrackingFile with
  | some stored => { n with evTrackingBarrier := stored, evTrackingFdOpen := false }
  | none =>
    { n with evTrackingBarrier := 0, evTrackingFile := some 0, evTrackingFdOpen := false }

/-- The flags that are only read at startup. -/
def readFlags : Node :=
  { n with
    allowDownscale := config.allowDownscale
    waitForAll := config.waitForAll.getD n.waitForAll
    waitForAllAutoset := config.waitForAll.isNone
    lastManStanding := config.lastManStanding
    evTracking := config.expectedVotesTracking || config.allowDownscale
    autoTieBreaker := if config.autoTieBreaker then .lowest else .none }

/-- The nodes that break a tie, also read only at startup. -/
def readTieBreakerNode : Node :=
  match config.autoTieBreakerNode with
  | some string => if config.autoTieBreaker then n.parseAtbString string else n
  | none => n

/-- The tracked value is loaded at startup if tracking is on. -/
def startTracking : Node :=
  if n.evTracking then
    n.loadEvTrackingBarrier.updateEvTrackingBarrier n.loadEvTrackingBarrier.evTrackingBarrier
  else n

/-- The keys that are only read at startup. -/
def readStartup : Node :=
  let n := (n.readFlags config).readTieBreakerNode config
  { n with initialAutoTieBreaker := n.autoTieBreaker }.startTracking

/-- `wait_for_all` follows `two_node` unless it is configured, and `two_node` gives way to the tie
breaker. -/
def followTwoNode : Node :=
  let n := if n.waitForAllAutoset then { n with waitForAll := n.twoNode } else n
  if n.twoNode ∧ n.autoTieBreaker ≠ .none then { n with twoNode := false } else n

/-- The checks of a configuration with a quorum device, in their order. -/
def deviceErrors : List ConfigError :=
  let expectedVotes := config.expectedVotes.getD 0
  let votes := config.readDeviceVotes
  (if config.deviceModel ∧ n.lastManStanding then [.deviceAndLastManStanding] else []) ++
  (if config.deviceModel ∧ n.autoTieBreaker ≠ .none then [.deviceAndTieBreaker] else []) ++
  (if config.deviceModel ∧ n.allowDownscale then [.deviceAndDownscale] else []) ++
  (if config.deviceModel ∧ expectedVotes ≠ 0 ∧ votes = noDeviceVotes then [.deviceVotesMissing]
    else []) ++ (if config.deviceModel ∧ votes = noDeviceVotes ∧ config.haveNodelist ∧
      config.nodeCount ≠ config.nodeExpectedVotes then [.deviceVotesNeeded] else []) ++
  -- the difference is an int, so votes that are not configured count as minus one
  (if 0 < votes ∧ expectedVotes ≠ 0 ∧ ((expectedVotes : Int) - votes).bmod (2 ^ 32) < 2 then
    [.deviceVotesTooHigh] else [])

/-- The part of `votequorum_readconfig` that assigns the votes of this node, the expected votes and
the votes of the quorum device. -/
def assignVotes : Node :=
  let configured := if n.evTracking then n.evTrackingBarrier else config.expectedVotes.getD 0
  let expectedVotes :=
    if configured ≠ 0 then configured
    else if config.haveNodelist then config.assignedExpectedVotes
    else n.us.expectedVotes
  { n with
    us := { n.us with votes := config.assignedVotes, expectedVotes := expectedVotes }
    qdeviceVotes :=
      if config.assignedDeviceVotes ≠ noDeviceVotes then config.assignedDeviceVotes
      else if config.deviceModel then n.qdeviceVotes else 0
    evBarrier := expectedVotes }

/-- The end of `votequorum_readconfig`: the status of wait for all. -/
def resetWaitForAllStatus (runtime : Bool) : Node :=
  if n.waitForAll then
    if runtime then n else n.updateWaitForAllStatus true
  else if n.waitForAllAutoset ∧ n.waitForAllStatus then n.updateWaitForAllStatus false
  else n

/-- A tie breaker that does not wait for all nodes, in a cluster with an odd number of votes. -/
def OddTieBreaker : Prop :=
  n.autoTieBreaker ≠ .none ∧ config.nodeExpectedVotes % 2 = 1 ∧ !n.waitForAll

instance : Decidable (n.OddTieBreaker config) := inferInstanceAs (Decidable (_ ∧ _))

/-- Such a tie breaker is switched off. -/
def dropOddTieBreaker : Node :=
  if n.OddTieBreaker config then { n with autoTieBreaker := .none } else n

/-- `votequorum_readconfig (VOTEQUORUM_READCONFIG_STARTUP)`: the variables it leaves, or the first
error. -/
def readconfigStartup : Except ConfigError Node :=
  let n := { n with
    twoNode := config.twoNode
    qdeviceCanOperate := config.deviceModel || n.qdeviceCanOperate }
  if !config.haveNodelist ∧ config.expectedVotes.getD 0 = 0 then .error .noExpectedVotes
  else if n.twoNode ∧ config.deviceModel then .error .twoNodeAndDevice
  else
    let n := (n.readStartup config).followTwoNode
    if n.OddTieBreaker config ∧ n.lastManStanding then .error .tieBreakerInOddCluster
    else match (n.dropOddTieBreaker config).deviceErrors config with
      | error :: _ => .error error
      | [] => .ok (((n.dropOddTieBreaker config).assignVotes config).resetWaitForAllStatus false)

/-- The keys that are read again at run time, before the checks. -/
def readAgain : Node :=
  { n with
    twoNode := config.twoNode
    autoTieBreaker := n.initialAutoTieBreaker
    qdeviceCanOperate := config.deviceModel || n.qdeviceCanOperate }

/-- A quorum device and `two_node` exclude each other, also at run time. -/
def chooseTwoNode : Node :=
  if n.twoNode ∧ config.deviceModel then
    if n.us.flags.qdeviceRegistered then { n with twoNode := false }
    else { n with qdeviceCanOperate := false }
  else n

/-- A contradictory configuration disables the quorum device at run time. -/
def disableQdevice : Node :=
  if n.deviceErrors config ≠ [] then { n with qdeviceCanOperate := false } else n

/-- `votequorum_readconfig (VOTEQUORUM_READCONFIG_RUNTIME)`. Two contradictions end it early, with
the variables assigned so far. -/
def readconfigRuntime : Node :=
  let n := n.readAgain config
  if !config.haveNodelist ∧ config.expectedVotes.getD 0 = 0 then n
  else
    let n := (n.chooseTwoNode config).followTwoNode
    if n.OddTieBreaker config ∧ n.lastManStanding then n
    else
      (((n.dropOddTieBreaker config).disableQdevice config).assignVotes
        config).resetWaitForAllStatus true

/-- `votequorum_refresh_config` after a change of the configuration. -/
def refreshConfig : Node × List Message :=
  let new := n.readconfigRuntime config
  (new, [.nodeinfo new.nodeinfo, .nodeinfo new.qdeviceNodeinfo] ++
    (if new.us.votes ≠ n.us.votes then [.reconfigure (.nodeVotes new.us.nodeId new.us.votes)]
      else []) ++
    (if new.us.expectedVotes ≠ n.us.expectedVotes then
      [.reconfigure (.expectedVotes new.us.expectedVotes)] else []))

/-- The variables at the start of the process, with the records of `us` and the quorum device
allocated. -/
def zero (nodeid : NodeId) (evTrackingFile : Option ℕ) : Node where
  us := ⟨nodeid, .member, 1, 0, { first := true }⟩
  before := []
  after := []
  clusterNodesEntries := 2
  qdeviceVotes := 0
  quorum := 0
  clusterIsQuorate := false
  quorumMembers := []
  previousQuorumMembers := []
  twoNode := false
  waitForAll := false
  waitForAllStatus := false
  waitForAllAutoset := false
  autoTieBreaker := .none
  initialAutoTieBreaker := .none
  atbNodelist := []
  lowestNodeId := -1
  highestNodeId := -1
  lastManStanding := false
  lastManStandingTimerSet := false
  allowDownscale := false
  evBarrier := 0
  evTracking := false
  evTrackingBarrier := 0
  evTrackingFdOpen := false
  evTrackingFile := evTrackingFile
  qdeviceCanOperate := true
  qdeviceMasterWins := false
  qdeviceTimerSet := false
  syncNodeinfoSent := false
  syncWaitForPollOrTimeout := false
  syncInProgress := false
  assertionFailed := false
  aborted := false

/-- `votequorum_exec_init_fn` -/
def execInitFn (nodeid : NodeId) (evTrackingFile : Option ℕ) : Except ConfigError Node :=
  ((zero nodeid evTrackingFile).readconfigStartup config).map (·.recalculateQuorum false false)

/-- A configuration without errors: the tie breaker may have been switched off. -/
theorem readconfigStartup_ok {config : Icmap} {n n' : Node}
    (hread : n.readconfigStartup config = .ok n') :
    ∃ read autoTieBreaker, read = ({ n with
        twoNode := config.twoNode
        qdeviceCanOperate := config.deviceModel || n.qdeviceCanOperate }.readStartup
          config).followTwoNode ∧
      (autoTieBreaker = read.autoTieBreaker ∨ autoTieBreaker = .none) ∧
      n' = ({ read with autoTieBreaker := autoTieBreaker }.assignVotes
        config).resetWaitForAllStatus false := by
  unfold readconfigStartup at hread
  dsimp only at hread
  split at hread
  · cases hread
  split at hread
  · cases hread
  split at hread
  · cases hread
  split at hread
  · cases hread
  · obtain rfl := Except.ok.inj hread
    unfold dropOddTieBreaker
    split
    · exact ⟨_, .none, rfl, Or.inr rfl, rfl⟩
    · exact ⟨_, _, rfl, Or.inl rfl, rfl⟩

end Node

end Corosync.Votequorum
