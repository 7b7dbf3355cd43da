import Mathlib.Algebra.Ring.Nat
import Mathlib.Data.List.Basic

/-!
# The variables of votequorum

`votequorum.c` keeps a record for every node it has heard of, the number of votes a partition needs
and whether the partition of this node has them. Votes are unsigned 32-bit numbers and `quorum` is
an unsigned 8-bit number.
-/

namespace Corosync.Votequorum

/-- Node ids, as the `int` of `struct cluster_node`. -/
abbrev NodeId := Int

/-- `VOTEQUORUM_QDEVICE_NODEID` -/
def qdeviceNodeid : NodeId := 0

/-- `PROCESSOR_COUNT_MAX` -/
def processorCountMax : ℕ := 384

/-- `nodestate_t` -/
inductive NodeState
  /-- Zero, which has no name: what `allocate_node` leaves until the first `nodeinfo`. -/
  | unset
  | member
  | dead
  | leaving
deriving DecidableEq, Repr

/-- The bits of `NODE_FLAGS_*`; the one for the extra information of the quorum device is left
out. -/
structure Flags where
  quorate : Bool := false
  leaving : Bool := false
  wfastatus : Bool := false
  first : Bool := false
  qdeviceRegistered : Bool := false
  qdeviceAlive : Bool := false
  qdeviceCastVote : Bool := false
  qdeviceMasterWins : Bool := false
deriving DecidableEq, Repr

/-- `struct cluster_node` without the extra information of the quorum device. -/
structure ClusterNode where
  nodeId : NodeId
  state : NodeState
  votes : ℕ
  expectedVotes : ℕ
  flags : Flags
deriving DecidableEq, Repr

/-- `auto_tie_breaker` -/
inductive AutoTieBreaker
  | none
  | lowest
  | highest
  | list
deriving DecidableEq, Repr

/-- The settings that come from the configuration. -/
structure Settings where
  twoNode : Bool
  waitForAll : Bool
  waitForAllAutoset : Bool
  autoTieBreaker : AutoTieBreaker
  initialAutoTieBreaker : AutoTieBreaker
  atbNodelist : List NodeId
  lastManStanding : Bool
  allowDownscale : Bool
  evTracking : Bool
  qdeviceCanOperate : Bool
  qdeviceMasterWins : Bool
deriving DecidableEq, Repr

/-- The variables of the synchronisation and of the timers. -/
structure Progress where
  quorumMembers : List NodeId
  previousQuorumMembers : List NodeId
  lastManStandingTimerSet : Bool
  qdeviceTimerSet : Bool
  syncNodeinfoSent : Bool
  syncWaitForPollOrTimeout : Bool
  syncInProgress : Bool
deriving DecidableEq, Repr

/-- The variables of `votequorum.c` on one node, with the `ev_tracking` file in its state
directory. -/
structure Node extends Settings, Progress where
  /-- The record `us` points to. -/
  us : ClusterNode
  /-- The records in front of `us` in `cluster_members_list`. -/
  before : List ClusterNode
  /-- The records behind `us` in `cluster_members_list`. -/
  after : List ClusterNode
  clusterNodesEntries : ℕ
  /-- `qdevice->votes`; nothing else of this record is used. -/
  qdeviceVotes : ℕ
  /-- `quorum`, a `uint8_t`. -/
  quorum : ℕ
  clusterIsQuorate : Bool
  waitForAllStatus : Bool
  lowestNodeId : Int
  highestNodeId : Int
  evBarrier : ℕ
  evTrackingBarrier : ℕ
  /-- `ev_tracking_fd` refers to an open file. -/
  evTrackingFdOpen : Bool
  /-- The number in the `ev_tracking` file, if there is one. -/
  evTrackingFile : Option ℕ
  /-- The assertion of `are_we_quorate` has failed. -/
  assertionFailed : Bool
  /-- The `nodeinfo` handler was left without a record, for a new node or for the sender. -/
  aborted : Bool
deriving DecidableEq, Repr

namespace Node

variable (n : Node)

/-- `cluster_members_list` -/
def clusterMembersList : List ClusterNode := n.before ++ n.us :: n.after

/-- The records with state `NODESTATE_MEMBER`. -/
def members : List ClusterNode := n.clusterMembersList.filter (·.state = .member)

/-- `find_node_by_nodeid` for the id of a node. -/
def findNodeByNodeid (nodeid : NodeId) : Option ClusterNode :=
  if nodeid = n.us.nodeId then some n.us
  else (n.before ++ n.after).find? (·.nodeId = nodeid)

/-- Changes every record. -/
def mapNodes (change : ClusterNode → ClusterNode) : Node :=
  { n with
    us := change n.us
    before := n.before.map change
    after := n.after.map change }

/-- Changes the record of a node. -/
def updateNode (nodeid : NodeId) (change : ClusterNode → ClusterNode) : Node :=
  n.mapNodes fun node => if node.nodeId = nodeid then change node else node

/-- Assigns `us->expected_votes`. -/
def setExpectedVotes (expectedVotes : ℕ) : Node :=
  { n with us := { n.us with expectedVotes := expectedVotes } }

/-- Changes `us->flags`. -/
def changeFlags (change : Flags → Flags) : Node :=
  { n with us := { n.us with flags := change n.us.flags } }

/-- The records in front of `us` after `node_add_ordered`, and those behind it. A new record stands
in front of the first one with a larger id; without such a one it stands in front of the last
record. -/
def nodeAddOrdered (new : ClusterNode) : Node :=
  let larger := fun node : ClusterNode => new.nodeId < node.nodeId
  if n.before.any larger then
    { n with before := n.before.takeWhile (!larger ·) ++ new :: n.before.dropWhile (!larger ·) }
  else if larger n.us then { n with before := n.before ++ [new] }
  else if n.after.any larger then
    { n with after := n.after.takeWhile (!larger ·) ++ new :: n.after.dropWhile (!larger ·) }
  else match n.after.getLast? with
    | some last => { n with after := n.after.dropLast ++ [new, last] }
    | none => { n with before := n.before ++ [new] }

/-- Removes the first record with state `NODESTATE_DEAD`. -/
def dropDead : Option Node :=
  if n.before.any (·.state = .dead) then
    some { n with before := n.before.eraseP (·.state = .dead) }
  else if n.after.any (·.state = .dead) then
    some { n with after := n.after.eraseP (·.state = .dead) }
  else none

/-- A new record, all zero. -/
def fresh (nodeid : NodeId) : ClusterNode := ⟨nodeid, .unset, 0, 0, {}⟩

/-- `allocate_node` for another node. When the array is used up a dead record is taken. Without one
`cl` is the last record and `tmp` the head of the list: the source unlinks the head and clears a
record in use, with its links. No list is left, which is `none`. -/
def allocateNode (nodeid : NodeId) : Option Node :=
  if n.clusterNodesEntries ≤ processorCountMax + 1 then
    some ({ n with clusterNodesEntries := n.clusterNodesEntries + 1 }.nodeAddOrdered
      (fresh nodeid))
  else n.dropDead.map (·.nodeAddOrdered (fresh nodeid))

/-- `get_lowest_node_id` -/
def getLowestNodeId : Int :=
  (n.members.map (·.nodeId)).foldl (fun lowest nodeId => if nodeId < lowest then nodeId else lowest)
    n.us.nodeId

/-- `get_highest_node_id` -/
def getHighestNodeId : Int :=
  (n.members.map (·.nodeId)).foldl
    (fun highest nodeId => if nodeId > highest then nodeId else highest) n.us.nodeId

/-- `check_low_node_id_partition` -/
def checkLowNodeIdPartition : Bool := n.members.any (·.nodeId = n.lowestNodeId)

/-- `check_high_node_id_partition` -/
def checkHighNodeIdPartition : Bool := n.members.any (·.nodeId = n.highestNodeId)

/-- The search of `check_auto_tie_breaker` through the rest of `atb_nodelist`, behind the entries
`passed`. -/
def searchAtbNodelist (passed : List NodeId) : List NodeId → Bool
  | [] => false
  | nodeid :: rest =>
    if nodeid ∈ n.quorumMembers then !passed.any (· ∈ n.previousQuorumMembers)
    else searchAtbNodelist (passed ++ [nodeid]) rest

/-- `check_auto_tie_breaker` -/
def checkAutoTieBreaker : Bool :=
  match n.autoTieBreaker with
  | .lowest => n.checkLowNodeIdPartition
  | .highest => n.checkHighNodeIdPartition
  | _ => n.searchAtbNodelist [] n.atbNodelist

/-- `check_qdevice_master` -/
def checkQdeviceMaster : Bool :=
  n.members.any fun node => node.flags.qdeviceMasterWins && node.flags.qdeviceCastVote

/-- `update_wait_for_all_status` -/
def updateWaitForAllStatus (status : Bool) : Node :=
  { n.changeFlags ({ · with wfastatus := status }) with waitForAllStatus := status }

/-- `update_ev_tracking_barrier`: the file is written only through an open descriptor. -/
def updateEvTrackingBarrier (barrier : ℕ) : Node :=
  { n with
    evTrackingBarrier := barrier
    evTrackingFile := if n.evTrackingFdOpen then some barrier else n.evTrackingFile }

/-- The votes of the members, as an `unsigned int`. -/
def memberVotes : ℕ := (n.members.map (·.votes)).sum

/-- The largest `expected_votes` of a member. -/
def highestExpected : ℕ := (n.members.map (·.expectedVotes)).foldl max 0

/-- The votes and the number of members that `calculate_quorum` counts, those of the quorum device
included if it casts its vote for this node. -/
def countVotes : ℕ × ℕ :=
  if n.us.flags.qdeviceCastVote then
    ((n.memberVotes + n.qdeviceVotes) % 2 ^ 32, n.members.length + 1)
  else (n.memberVotes % 2 ^ 32, n.members.length)

/-- `calculate_quorum`, its result; the total votes it also returns are those of `countVotes`. -/
def calculateQuorum (allowDecrease : Bool) (maxExpected : ℕ) : ℕ :=
  let maxExpected :=
    if n.allowDownscale ∧ allowDecrease ∧ maxExpected ≠ 0 then max n.evBarrier maxExpected
    else maxExpected
  let highestExpected := if 0 < maxExpected then maxExpected else n.highestExpected
  let newquorum := max ((highestExpected + 2) % 2 ^ 32 / 2) ((n.countVotes.1 + 2) % 2 ^ 32 / 2)
  let newquorum := if allowDecrease then newquorum else max n.quorum newquorum
  if n.twoNode ∧ n.countVotes.2 ≤ 2 then 1 else newquorum

/-- `update_node_expected_votes` -/
def updateNodeExpectedVotes (expectedVotes : ℕ) : Node :=
  if expectedVotes ≠ 0 then
    n.mapNodes fun node =>
      if node.state = .member then { node with expectedVotes := expectedVotes } else node
  else n

/-- The condition under which the tie breaker makes a partition quorate. -/
def tieBreak (totalVotes : ℕ) : Bool :=
  n.autoTieBreaker ≠ .none && totalVotes == n.us.expectedVotes / 2 &&
    Decidable.decide ((n.previousQuorumMembers.length : Int) - n.quorumMembers.length < n.quorum) &&
    n.checkAutoTieBreaker

/-- The first part of the decision of `are_we_quorate`: a quorate node remembers the lowest and
the highest id. -/
def rememberIds (totalVotes : ℕ) : Node :=
  if n.quorum ≤ totalVotes then
    { n with lowestNodeId := n.getLowestNodeId, highestNodeId := n.getHighestNodeId }
  else n

/-- Whether `are_we_quorate` finds the partition quorate. -/
def isQuorate (totalVotes : ℕ) : Bool :=
  Decidable.decide (n.quorum ≤ totalVotes) || n.tieBreak totalVotes ||
    (n.qdeviceMasterWins && n.checkQdeviceMaster)

/-- The end of `are_we_quorate`, without the notifications of clients. -/
def setQuorate (quorate : Bool) : Node :=
  let n := { n.changeFlags ({ · with quorate := quorate }) with clusterIsQuorate := quorate }
  if n.waitForAll then n.updateWaitForAllStatus (!quorate) else n

/-- `are_we_quorate` -/
def areWeQuorate (totalVotes : ℕ) : Node :=
  if n.waitForAll ∧ n.waitForAllStatus ∧ totalVotes ≠ n.us.expectedVotes then
    { n with assertionFailed := n.assertionFailed || n.clusterIsQuorate }
  else
    let n := if n.waitForAll ∧ n.waitForAllStatus then n.updateWaitForAllStatus false else n
    let n := n.rememberIds totalVotes
    n.setQuorate (n.isQuorate totalVotes)

/-- `get_total_votes`: the votes of the quorum device are counted whether it casts them or not. -/
def getTotalVotes : ℕ × ℕ :=
  if n.qdeviceVotes ≠ 0 then ((n.memberVotes + n.qdeviceVotes) % 2 ^ 32, n.members.length + 1)
  else (n.memberVotes % 2 ^ 32, n.members.length)

/-- The first part of `recalculate_quorum`: `expected_votes` is at least the number of votes. -/
def raiseExpectedVotes : Node :=
  if n.getTotalVotes.1 > n.us.expectedVotes then n.setExpectedVotes n.getTotalVotes.1 else n

/-- The second part of `recalculate_quorum`. -/
def trackExpectedVotes : Node :=
  if n.evTracking ∧ n.us.expectedVotes > n.evTrackingBarrier then
    n.updateEvTrackingBarrier n.us.expectedVotes
  else n

/-- `recalculate_quorum` -/
def recalculateQuorum (allowDecrease byCurrentNodes : Bool) : Node :=
  let clusterMembers := if byCurrentNodes then n.getTotalVotes.2 else 0
  let n := n.raiseExpectedVotes.trackExpectedVotes
  let totalVotes := n.countVotes.1
  let n := { n with quorum := n.calculateQuorum allowDecrease clusterMembers % 2 ^ 8 }
  (n.updateNodeExpectedVotes clusterMembers).areWeQuorate totalVotes

end Node

end Corosync.Votequorum
