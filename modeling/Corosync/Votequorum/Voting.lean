import Corosync.Library.Tally
import Corosync.Votequorum.Membership

/-!
# Votes of a cluster

All nodes of a cluster have the same node list. As long as no node leaves and nothing is configured
anew, every node announces the votes the list gives it, and a node that has activated a ring counts
the votes of its members.
-/

namespace Corosync.Votequorum

open Library Node

/-- The nodes of a cluster, with their votes in the node list. -/
structure Cluster where
  ids : List NodeId
  votes : NodeId → ℕ
  nodup : ids.Nodup

namespace Cluster

/-- The votes of all nodes. -/
def total (c : Cluster) : ℕ := tally c.votes c.ids

/-- The configuration of a node has the node list of the cluster. -/
structure Lists (c : Cluster) (a : NodeId) (config : Icmap) : Prop where
  mem : a ∈ c.ids
  localNodePos : config.localNodePos = some (c.ids.idxOf a)
  nodeVotes : config.nodeVotes = c.ids.map c.votes

instance (c : Cluster) (a : NodeId) (config : Icmap) : Decidable (c.Lists a config) :=
  decidable_of_iff (a ∈ c.ids ∧ config.localNodePos = some (c.ids.idxOf a) ∧
      config.nodeVotes = c.ids.map c.votes)
    ⟨fun ⟨hmem, hpos, hvotes⟩ => ⟨hmem, hpos, hvotes⟩,
      fun ⟨hmem, hpos, hvotes⟩ => ⟨hmem, hpos, hvotes⟩⟩

variable {c : Cluster} {a : NodeId} {config : Icmap}

/-- A node list of the cluster is one. -/
theorem Lists.haveNodelist (hlists : c.Lists a config) : config.haveNodelist = true := by
  rw [Icmap.haveNodelist, hlists.localNodePos]
  rfl

/-- A node gets its votes in the cluster. -/
theorem Lists.assignedVotes (hlists : c.Lists a config) : config.assignedVotes = c.votes a := by
  have hpos : (c.ids.map c.votes)[c.ids.idxOf a]? = some (c.votes a) := by
    rw [List.getElem?_map, List.getElem?_idxOf hlists.mem]
    rfl
  unfold Icmap.assignedVotes Icmap.localVotes
  rw [if_pos hlists.haveNodelist, hlists.localNodePos, hlists.nodeVotes, Option.bind_some, hpos]
  rfl

/-- The node list adds up to the votes of the cluster. -/
theorem Lists.nodeExpectedVotes (hlists : c.Lists a config) :
    config.nodeExpectedVotes = c.total % 2 ^ 32 := by
  unfold Icmap.nodeExpectedVotes
  rw [if_pos hlists.haveNodelist, hlists.nodeVotes]
  rfl

/-- Nodes of the cluster start with the node list and form rings; no node leaves. -/
def Steady (c : Cluster) (members : ℕ → List NodeId) : Event → Prop
  | .start a config r => c.Lists a config ∧ members r ⊆ c.ids
  | .enter _ r => members r ⊆ c.ids
  | .act _ action => action.quiet = true ∧ action ≠ .exit
  | _ => True

instance (c : Cluster) (members : ℕ → List NodeId) (e : Event) :
    Decidable (c.Steady members e) := by
  cases e <;> dsimp only [Cluster.Steady] <;> infer_instance

/-- A steady event is quiet. -/
theorem Steady.quiet {members : ℕ → List NodeId} {e : Event} (hsteady : c.Steady members e) :
    e.quiet = true := by
  cases e with
  | act _ _ => exact hsteady.1
  | _ => rfl

end Cluster

/-- The records of a node show the votes of the cluster. -/
structure Voting (votes : NodeId → ℕ) (n : Node) : Prop where
  state : n.us.state = .member
  leaving : n.us.flags.leaving = false
  ballots : ∀ ballot ∈ n.ballots, ballot.votes = votes ballot.nodeId ∧ ballot.state ≠ .leaving

/-- A message announces the votes of the cluster. -/
def Announcing (votes : NodeId → ℕ) (message : Message) : Prop :=
  ∀ info, message = .nodeinfo info → info.nodeid ≠ qdeviceNodeid →
    info.votes = votes info.nodeid ∧ info.flags.leaving = false

namespace Voting

variable {votes : NodeId → ℕ} {n n' : Node} {a : NodeId} {ring : List NodeId} {info : Nodeinfo}

section

variable (hvoting : Voting votes n)

include hvoting

/-- A node has its own votes. -/
theorem us : n.us.votes = votes n.us.nodeId :=
  (hvoting.ballots _ n.ballot_us_mem).1

/-- A recalculation leaves the votes as they are. -/
theorem of_kept (hkept : Kept n n') : Voting votes n' where
  state := hkept.state.trans hvoting.state
  leaving := by
    have hbase := congrArg Flags.leaving hkept.flags
    exact hbase.trans hvoting.leaving
  ballots := hkept.ballots ▸ hvoting.ballots

end

/-- A node announces itself and has a record, which may be new. -/
theorem recordNodeinfo (old : Option ClusterNode) (hstate : n.us.state = .member)
    (hleaving : n.us.flags.leaving = false)
    (hothers : ∀ ballot ∈ n.ballots, ballot.nodeId ≠ info.nodeid →
      ballot.votes = votes ballot.nodeId ∧ ballot.state ≠ .leaving)
    (hvotes : info.votes = votes info.nodeid) (hstays : info.flags.leaving = false) :
    Voting votes (n.recordNodeinfo old info) := by
  have hannounced : announcedState info = .member := by simp [announcedState, hstays]
  have hrecord : Voting votes (n.recorded info) :=
    { state := by
        rw [us_recorded]
        split
        · exact hannounced
        · exact hstate
      leaving := by
        rw [us_recorded]
        split
        · exact hstays
        · exact hleaving
      ballots := by
        intro ballot hmem
        rw [ballots_recorded] at hmem
        obtain ⟨before, hbefore, rfl⟩ := List.mem_map.mp hmem
        by_cases hid : before.nodeId = info.nodeid
        · rw [if_pos hid]
          refine ⟨hvotes, ?_⟩
          rw [Nodeinfo.ballot, hannounced]
          simp
        · rw [if_neg hid]
          exact hothers before hbefore hid }
  exact hrecord.of_kept (n.kept_recordNodeinfo old info)

/-- A message about the quorum device leaves the votes of the nodes as they are. -/
theorem qdeviceNodeinfoHandler (hvoting : Voting votes n) (sender : NodeId) (info : Nodeinfo) :
    Voting votes (n.qdeviceNodeinfoHandler sender info) := by
  obtain ⟨votes, aborted, hkept⟩ := n.kept_qdeviceNodeinfoHandler sender info
  exact of_kept (n := { n with qdeviceVotes := votes, aborted := aborted }) { hvoting with } hkept

/-- A message that announces the votes of its node. -/
theorem nodeinfoHandler (hvoting : Voting votes n) (hroster : Roster a ring n)
    (hring : IsRing a ring) (sender : NodeId) (hinfo : Announcing votes (.nodeinfo info)) :
    Voting votes (n.nodeinfoHandler sender info) := by
  by_cases hnode : info.nodeid = qdeviceNodeid
  · unfold Node.nodeinfoHandler
    rw [if_pos hnode]
    exact hvoting.qdeviceNodeinfoHandler sender info
  obtain ⟨hvotes, hstays⟩ := hinfo info rfl hnode
  obtain ⟨base, old, heq, ⟨rfl, -⟩ | ⟨-, -, halloc⟩⟩ :=
    hroster.nodeinfoHandler_eq hring sender hnode
  · rw [heq]
    exact recordNodeinfo old hvoting.state hvoting.leaving
      (fun ballot hmem _ => hvoting.ballots ballot hmem) hvotes hstays
  obtain ⟨rest, hperm, hcases⟩ := ballots_allocateNode halloc
  have hothers : ∀ ballot ∈ base.ballots, ballot.nodeId ≠ info.nodeid →
      ballot.votes = votes ballot.nodeId ∧ ballot.state ≠ .leaving := by
    intro ballot hmem hother
    obtain rfl | hmem := List.mem_cons.mp (hperm.mem_iff.mp hmem)
    · exact absurd rfl hother
    · refine hvoting.ballots ballot ?_
      obtain ⟨hrest, -⟩ | ⟨dead, -, hrest, -⟩ := hcases
      · exact hrest.mem_iff.mpr hmem
      · exact hrest.mem_iff.mpr (List.mem_cons_of_mem _ hmem)
  rw [heq]
  obtain ⟨_, _, _, rfl⟩ := allocateNode_eq halloc
  exact recordNodeinfo old hvoting.state hvoting.leaving hothers hvotes hstays

/-- In a new ring a member keeps its votes. -/
theorem syncInit (hvoting : Voting votes n) {next : List NodeId} (hmem : n.us.nodeId ∈ next) :
    Voting votes (n.syncInit next) := by
  obtain ⟨_, _, hus, hstate⟩ := n.us_syncInit next
  exact
    { state := by
        rw [hus]
        exact (hstate hmem).trans hvoting.state
      leaving := by
        rw [hus]
        exact hvoting.leaving
      ballots := by
        intro ballot hballot
        rw [ballots_syncInit] at hballot
        obtain ⟨before, hbefore, rfl⟩ := List.mem_map.mp hballot
        split
        · exact ⟨(hvoting.ballots before hbefore).1, by simp⟩
        · exact hvoting.ballots before hbefore }

/-- A node starts with its votes in the cluster. -/
theorem start {c : Cluster} {config : Icmap} {file : Option ℕ} (hlists : c.Lists a config)
    (hinit : execInitFn config a file = .ok n) : Voting c.votes n := by
  obtain ⟨tie, barrier, fdOpen, file', -, rfl⟩ := execInitFn_eq hinit
  refine of_kept ?_ (kept_recalculate _ false false)
  obtain ⟨status, flag, hreset⟩ := resetWaitForAllStatus_eq
    ((configured config a tie barrier fdOpen file').assignVotes config) false
  rw [beforeDecision, hreset]
  refine ⟨rfl, rfl, fun ballot hmem => ?_⟩
  obtain rfl := List.mem_singleton.mp hmem
  refine ⟨hlists.assignedVotes, ?_⟩
  simp [ClusterNode.ballot, changeFlags, assignVotes, configured, zero]

/-- What a node does about its quorum device, and the timer of last man standing. -/
theorem act (hvoting : Voting votes n) {action : Action} (hquiet : action.quiet = true)
    (hexit : action ≠ .exit) : Voting votes (n.act action).1 := by
  have hballots := ballots_act n hquiet
  obtain ⟨-, heq⟩ | ⟨_, _, _, _, _, heq, hleaving⟩ := n.act_adjusted hquiet
  · rw [heq]
    exact of_kept (n := { n with lastManStandingTimerSet := false }) { hvoting with }
      n.kept_lastManStandingTimerFn
  · rw [heq] at hballots ⊢
    exact ⟨hvoting.state, (hleaving hexit).trans hvoting.leaving, hballots ▸ hvoting.ballots⟩

end Voting

end Corosync.Votequorum
