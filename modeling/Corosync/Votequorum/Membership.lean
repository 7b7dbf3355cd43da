import Mathlib.Data.List.Nodup
import Corosync.Votequorum.Announced

/-!
# Only ring members are counted

When `votequorum_sync_activate` runs, the records with state `NODESTATE_MEMBER` are those of the
members of the ring that have not announced that they leave, each with the votes it has announced
last. The votes of the quorum device come on top of theirs.
-/

namespace Corosync.Votequorum

open Function Library List Node

/-- What a packet announces about a node. -/
def announcement (b : NodeId) : Packet → Option Nodeinfo
  | .message (.nodeinfo info) => if info.nodeid = b then some info else none
  | _ => none

/-- What was announced last about a node. -/
def latest (b : NodeId) (heard : List (NodeId × Packet)) : Option Nodeinfo :=
  (heard.filterMap fun entry => announcement b entry.2).getLast?

/-- The announcements and one more packet. -/
theorem latest_concat (b : NodeId) (heard : List (NodeId × Packet)) (entry : NodeId × Packet) :
    latest b (heard ++ [entry]) = (announcement b entry.2).or (latest b heard) := by
  unfold latest
  rw [filterMap_append, getLast?_append]
  cases hann : announcement b entry.2 <;> simp [hann]

variable {heard : List (NodeId × Packet)} {info : Nodeinfo}

/-- Every packet that announces something leaves something announced. -/
theorem exists_latest {b sender : NodeId} (hid : info.nodeid = b)
    (hmem : (sender, .message (.nodeinfo info)) ∈ heard) :
    ∃ last, latest b heard = some last := by
  have hann : info ∈ heard.filterMap fun entry => announcement b entry.2 :=
    mem_filterMap.mpr ⟨_, hmem, if_pos hid⟩
  exact ⟨_, getLast?_eq_some_getLast (ne_nil_of_mem hann)⟩

/-- The latest announcement about a node has been heard. -/
theorem latest_eq_some {b : NodeId} (hlatest : latest b heard = some info) :
    info.nodeid = b ∧ ∃ sender, (sender, .message (.nodeinfo info)) ∈ heard := by
  obtain ⟨entry, hmem, hann⟩ := mem_filterMap.mp (mem_of_getLast? hlatest)
  obtain ⟨sender, packet⟩ := entry
  unfold announcement at hann
  split at hann
  · rename_i other hpacket
    obtain ⟨hid, hinfo⟩ := Option.ite_none_right_eq_some.mp hann
    cases hinfo
    exact ⟨hid, sender, hpacket ▸ hmem⟩
  · cases hann

variable {n n' : Node} {a b : NodeId} {ring : List NodeId}

/-- Nobody announces that it is dead. -/
theorem announcedState_ne_dead (info : Nodeinfo) : announcedState info ≠ .dead := by
  unfold announcedState
  split <;> simp

/-- A `nodeinfo` message about the quorum device leaves the ballots as they are. -/
theorem ballots_qdeviceNodeinfoHandler (n : Node) (sender : NodeId) (info : Nodeinfo) :
    (n.qdeviceNodeinfoHandler sender info).ballots = n.ballots := by
  obtain ⟨_, _, hkept⟩ := n.kept_qdeviceNodeinfoHandler sender info
  exact hkept.ballots

/-- The ballots after a `nodeinfo` message of a member: its own is there, and those of the other
nodes that are not dead. -/
theorem Roster.mem_ballots_nodeinfoHandler (hroster : Roster a ring n) (hring : IsRing a ring)
    (sender : NodeId) (hnode : info.nodeid ≠ qdeviceNodeid) :
    info.ballot ∈ (n.nodeinfoHandler sender info).ballots ∧
      ∀ ballot ∈ n.ballots, ballot.nodeId ≠ info.nodeid → ballot.state ≠ .dead →
        ballot ∈ (n.nodeinfoHandler sender info).ballots := by
  have hrecord : ∀ (n : Node) (old : Option ClusterNode) (own : Ballot), own ∈ n.ballots →
      own.nodeId = info.nodeid → info.ballot ∈ (n.recordNodeinfo old info).ballots ∧
        ∀ ballot ∈ n.ballots, ballot.nodeId ≠ info.nodeid →
          ballot ∈ (n.recordNodeinfo old info).ballots := by
    intro n old own hown hid
    rw [ballots_recordNodeinfo]
    refine ⟨mem_map.mpr ⟨own, hown, if_pos hid⟩, fun ballot hmem hother => ?_⟩
    exact mem_map.mpr ⟨ballot, hmem, if_neg hother⟩
  obtain ⟨base, old, heq, ⟨rfl, node, -, hfind⟩ | ⟨-, hfind, halloc⟩⟩ :=
    hroster.nodeinfoHandler_eq hring sender hnode
  · obtain ⟨hmem, hid⟩ := mem_of_find hfind
    obtain ⟨hnew, hothers⟩ := hrecord base old node.ballot (mem_map_of_mem hmem) hid
    rw [heq]
    exact ⟨hnew, fun ballot hballot hother _ => hothers ballot hballot hother⟩
  · obtain ⟨rest, hperm, hcases⟩ := ballots_allocateNode halloc
    obtain ⟨hnew, hothers⟩ := hrecord base old ⟨info.nodeid, .unset, 0⟩
      (hperm.mem_iff.mpr mem_cons_self) rfl
    rw [heq]
    refine ⟨hnew, fun ballot hballot hother halive => hothers ballot ?_ hother⟩
    refine hperm.mem_iff.mpr (mem_cons_of_mem _ ?_)
    -- a record that is dropped is dead
    obtain ⟨hrest, -⟩ | ⟨dead, hdead, hrest, -⟩ := hcases
    · exact hrest.mem_iff.mp hballot
    · obtain rfl | hmem := mem_cons.mp (hrest.mem_iff.mp hballot)
      · exact absurd hdead halive
      · exact hmem

/-- A quiet action leaves the ballots as they are. -/
theorem ballots_act (n : Node) {action : Action} (hquiet : action.quiet = true) :
    (n.act action).1.ballots = n.ballots := by
  obtain ⟨-, heq⟩ | ⟨_, _, _, _, _, heq, -⟩ := n.act_adjusted hquiet
  · rw [heq]
    exact n.kept_lastManStandingTimerFn.ballots
  · rw [heq]
    simp [ballots, clusterMembersList, adjusted, ClusterNode.ballot]

/-- What holds in every quiet run: the records of the members that a node has heard of say what
they have announced last. -/
structure Recorded (members : ℕ → List NodeId) (s : System) : Prop extends Sound members s where
  nodeinfos : Everywhere members (fun _ _ _ => True)
    (fun _ message => ∃ info, message = .nodeinfo info) s
  ledger : ∀ a, 0 < s.ring a → ∀ b info, b ≠ qdeviceNodeid → latest b (s.heard a) = some info →
    info.ballot ∈ (s.nodes a).ballots

namespace Recorded

variable {members : ℕ → List NodeId} {s s' : System} {e : Event}

/-- Before the first start there is nothing to record. -/
theorem cold : Recorded members System.cold :=
  ⟨Sound.cold, Everywhere.cold, fun _ hring => absurd hring (Nat.lt_irrefl 0)⟩

/-- A quiet step sends `nodeinfo` messages only. -/
theorem step_nodeinfos (hrecorded : Recorded members s) (hquiet : e.quiet = true)
    (hstep : System.Step members s e s') :
    Everywhere members (fun _ _ _ => True)
      (fun _ message => ∃ info, message = .nodeinfo info) s' := by
  refine hrecorded.nodeinfos.step hstep (fun _ => trivial) fun message hmem => ?_
  obtain heq | heq | ⟨hloud, -⟩ := s.messages_cases e message hmem
  · exact ⟨_, heq⟩
  · exact ⟨_, heq⟩
  · exact absurd hquiet (by simp [hloud])

/-- The latest announcement is in the records after a delivery. -/
theorem deliver_ledger (hrecorded : Recorded members s) {a b sender : NodeId} {packet : Packet}
    (hring : 0 < s.ring a) (hmem : (sender, packet) ∈ s.log (s.ring a))
    (hb : b ≠ qdeviceNodeid) (hlatest : latest b (s.heard a ++ [(sender, packet)]) = some info) :
    info.ballot ∈ (System.delivery (s.nodes a) sender packet).ballots := by
  have hold := hrecorded.ledger a hring b
  obtain ⟨hisRing, hroster⟩ := hrecorded.everywhere.node a hring
  rw [latest_concat] at hlatest
  cases packet with
  | barrier _ => exact hold info hb hlatest
  | message _ =>
    obtain ⟨delivered, rfl⟩ := hrecorded.nodeinfos.log _ _ _ hmem
    dsimp only [announcement] at hlatest
    by_cases hid : delivered.nodeid = b
    · rw [if_pos hid] at hlatest
      cases hlatest
      exact (hroster.mem_ballots_nodeinfoHandler hisRing sender (hid ▸ hb)).1
    rw [if_neg hid] at hlatest
    have hballot := hold info hb hlatest
    by_cases hdevice : delivered.nodeid = qdeviceNodeid
    · have hballots : (System.delivery (s.nodes a) sender
          (.message (.nodeinfo delivered))).ballots = (s.nodes a).ballots := by
        simp only [System.delivery, deliver, nodeinfoHandler, if_pos hdevice]
        exact ballots_qdeviceNodeinfoHandler _ _ _
      rw [hballots]
      exact hballot
    · refine (hroster.mem_ballots_nodeinfoHandler hisRing sender hdevice).2 _ hballot ?_ ?_
      · exact fun heq => hid ((latest_eq_some hlatest).1 ▸ heq.symm)
      · exact announcedState_ne_dead info

/-- On the node of a step the latest announcements stay in the records. -/
theorem step_ledger_self (hrecorded : Recorded members s) (hquiet : e.quiet = true)
    (hstep : System.Step members s e s') (b : NodeId) (info : Nodeinfo) (hb : b ≠ qdeviceNodeid)
    (hlatest : latest b (s'.heard e.node) = some info) :
    info.ballot ∈ (s'.nodes e.node).ballots := by
  have hheard := fun hring hdelivered =>
    hstep.heard_eq (b := e.node) hring hdelivered (hrecorded.delivered e.node)
  have hold := hrecorded.ledger e.node
  cases hstep with
  | start | enter =>
    exact absurd hlatest (by simp [System.heard, System.joined, Event.node, latest])
  | @process a hring _ _ _ =>
    simp only [System.acted, Event.node, update_self, syncProcess_fst]
    exact hold hring b info hb hlatest
  | @transmit _ _ _ hring _ =>
    rw [hheard rfl rfl] at hlatest
    exact hold hring b info hb hlatest
  | @deliver _ _ _ hring hnext =>
    rw [Event.node, System.heard_handled hnext] at hlatest
    simp only [System.handled, Event.node, update_self]
    exact hrecorded.deliver_ledger hring (mem_of_getElem? hnext) hb hlatest
  | @activate a hring _ _ =>
    simp only [System.settled, Event.node, update_self]
    have hballots : (s.nodes a).syncActivate.ballots = (s.nodes a).ballots :=
      ((s.nodes a).kept_recalculate false false).ballots
    rw [hballots]
    exact hold hring b info hb hlatest
  | @act _ _ hring =>
    simp only [System.acted, Event.node, update_self, ballots_act _ hquiet]
    exact hold hring b info hb hlatest

/-- A quiet step keeps the records. -/
theorem step (hrecorded : Recorded members s) (hquiet : e.quiet = true)
    (hstep : System.Step members s e s') : Recorded members s' where
  toSound := hrecorded.toSound.step hstep
  nodeinfos := hrecorded.step_nodeinfos hquiet hstep
  ledger c hring b info hb hlatest := by
    by_cases hc : c = e.node
    · subst hc
      exact hrecorded.step_ledger_self hquiet hstep b info hb hlatest
    · have huntouched := hstep.untouched hc
      rw [huntouched.ring] at hring
      rw [hstep.heard_eq huntouched.ring huntouched.delivered (hrecorded.delivered c)] at hlatest
      rw [huntouched.nodes]
      exact hrecorded.ledger c hring b info hb hlatest

/-- The records of a quiet run. -/
theorem of_run {events : List Event} (hquiet : ∀ e ∈ events, e.quiet = true)
    (hrun : run (System.step members) System.cold events = some s) : Recorded members s := by
  refine run_invariant_of_forall (Q := fun e => e.quiet = true) ?_ hquiet cold hrun
  intro s e s' hquiet hrecorded hstep
  exact hrecorded.step hquiet (System.step_eq_some hstep)

end Recorded

/-- A node that has announced itself and not that it leaves. -/
def staying (heard : List (NodeId × Packet)) (b : NodeId) : Bool :=
  match latest b heard with
  | some info => !info.flags.leaving
  | none => false

/-- The votes a node has announced last. -/
def announcedVotes (heard : List (NodeId × Packet)) (b : NodeId) : ℕ :=
  ((latest b heard).map (·.votes)).getD 0

/-- The total that `recalculate_quorum` passes to `are_we_quorate`. -/
def Node.decisionVotes (n : Node) : ℕ := n.raiseExpectedVotes.trackExpectedVotes.countVotes.1

/-- It is the total of the records and of the quorum device, if it casts its vote. -/
theorem Node.decisionVotes_eq (n : Node) :
    n.decisionVotes = (((memberBallots n.ballots).map (·.votes)).sum +
      if n.us.flags.qdeviceCastVote then n.qdeviceVotes else 0) % 2 ^ 32 := by
  have hkept : Kept n n.raiseExpectedVotes.trackExpectedVotes :=
    (kept_raise n).trans (kept_track _)
  have hcast : n.raiseExpectedVotes.trackExpectedVotes.us.flags.qdeviceCastVote =
      n.us.flags.qdeviceCastVote := by
    have hbase := congrArg Flags.qdeviceCastVote hkept.flags
    exact hbase
  unfold decisionVotes countVotes
  rw [hcast, memberVotes_eq, hkept.ballots, hkept.qdeviceVotes]
  split <;> rfl

namespace Recorded

variable {members : ℕ → List NodeId} {s : System}

/-- Every member of the ring has announced itself when the barriers are there. -/
theorem exists_latest_of_synchronised (hrecorded : Recorded members s)
    (hall : s.Synchronised members a) (hb : b ∈ members (s.ring a)) :
    ∃ info, latest b (s.heard a) = some info := by
  obtain ⟨info, hid, hmem⟩ := hrecorded.announced_of_barrier (hall b hb)
  exact exists_latest hid hmem

/-- A ballot is the one that was announced last. -/
theorem ballot_eq (hrecorded : Recorded members s) (hring : 0 < s.ring a) {ballot : Ballot}
    (hmem : ballot ∈ (s.nodes a).ballots) (hid : ballot.nodeId ≠ qdeviceNodeid)
    (hlatest : latest ballot.nodeId (s.heard a) = some info) : ballot = info.ballot := by
  have hnodup := (hrecorded.everywhere.node a hring).2.nodup
  rw [roll_eq, map_map] at hnodup
  have hannounced := hrecorded.ledger a hring _ info hid hlatest
  exact inj_on_of_nodup_map hnodup hmem hannounced (latest_eq_some hlatest).1.symm

/-- The ballots of the members when all members of the ring have been heard. -/
theorem memberBallots_perm (hrecorded : Recorded members s) (hring : 0 < s.ring a)
    (hall : s.Synchronised members a) :
    (memberBallots (s.nodes a).ballots).Perm
      (((members (s.ring a)).filter (staying (s.heard a))).map fun b =>
        ⟨b, .member, announcedVotes (s.heard a) b⟩) := by
  obtain ⟨hisRing, hroster⟩ := hrecorded.everywhere.node a hring
  have hids := hroster.nodup
  rw [roll_eq, map_map] at hids
  refine (perm_ext_iff_of_nodup ((List.Nodup.of_map _ hids).filter _)
    ((hisRing.nodup.filter _).map fun _ _ heq => (Ballot.mk.inj heq).1)).mpr fun ballot => ?_
  constructor
  · intro hmem
    obtain ⟨hballot, hstate⟩ := mem_filter.mp hmem
    have hstate := of_decide_eq_true hstate
    have hmember : ballot.nodeId ∈ members (s.ring a) := by
      refine hroster.alive (ballot.nodeId, ballot.state) ?_ (by simp [hstate])
      rw [roll_eq]
      exact mem_map.mpr ⟨ballot, hballot, rfl⟩
    obtain ⟨info, hlatest⟩ := hrecorded.exists_latest_of_synchronised hall hmember
    have heq := hrecorded.ballot_eq hring hballot
      (fun hdevice => hisRing.qdevice (hdevice ▸ hmember)) hlatest
    have hleaving : info.flags.leaving = false := by
      have hannounced : announcedState info = .member := by
        rw [← hstate, heq]
        rfl
      unfold announcedState at hannounced
      split at hannounced
      · cases hannounced
      · rename_i hstays
        exact Bool.eq_false_iff.mpr hstays
    refine mem_map.mpr ⟨ballot.nodeId, mem_filter.mpr ⟨hmember, ?_⟩, ?_⟩
    · simp [staying, hlatest, hleaving]
    · have hvotes : announcedVotes (s.heard a) ballot.nodeId = ballot.votes := by
        rw [announcedVotes, hlatest, heq]
        rfl
      rw [hvotes, ← hstate]
  · intro hmem
    obtain ⟨b, hb, rfl⟩ := mem_map.mp hmem
    obtain ⟨hmember, hstays⟩ := mem_filter.mp hb
    obtain ⟨info, hlatest⟩ := hrecorded.exists_latest_of_synchronised hall hmember
    have hleaving : info.flags.leaving = false := by
      simpa [staying, hlatest] using hstays
    have hballot := hrecorded.ledger a hring b info
      (fun hdevice => hisRing.qdevice (hdevice ▸ hmember)) hlatest
    have heq : info.ballot = ⟨b, .member, announcedVotes (s.heard a) b⟩ := by
      simp [Nodeinfo.ballot, announcedState, hleaving, announcedVotes, hlatest,
        (latest_eq_some hlatest).1]
    rw [← heq]
    refine mem_filter.mpr ⟨hballot, ?_⟩
    rw [heq]
    rfl

/-- The members when all members of the ring have been heard. -/
theorem member_iff (hrecorded : Recorded members s) (hring : 0 < s.ring a)
    (hall : s.Synchronised members a) (b : NodeId) :
    (∃ node ∈ (s.nodes a).clusterMembersList, node.nodeId = b ∧ node.state = .member) ↔
      b ∈ members (s.ring a) ∧ staying (s.heard a) b = true := by
  have hperm := (hrecorded.memberBallots_perm hring hall).map (·.nodeId)
  rw [map_map] at hperm
  have hmembers := hperm.mem_iff (a := b)
  simp only [memberBallots, ballots, mem_map, mem_filter, comp_apply,
    exists_eq_right] at hmembers
  rw [← hmembers]
  constructor
  · rintro ⟨node, hmem, rfl, hstate⟩
    exact ⟨node.ballot, ⟨⟨node, hmem, rfl⟩, decide_eq_true hstate⟩, rfl⟩
  · rintro ⟨ballot, ⟨⟨node, hmem, rfl⟩, hstate⟩, rfl⟩
    exact ⟨node, hmem, rfl, of_decide_eq_true hstate⟩

end Recorded

/-- When `votequorum_sync_activate` runs there is one record for each node, the members are those of
the ring that have not announced that they leave, and the total is what they have announced last,
with the votes of the quorum device if it casts its vote for this node. -/
theorem activate_counts_members {members : ℕ → List NodeId} {s s' : System} {events : List Event}
    (hquiet : ∀ e ∈ events, e.quiet = true)
    (hrun : run (System.step members) System.cold events = some s)
    (hactivate : s.step members (.activate a) = some s') :
    ((s.nodes a).clusterMembersList.map (·.nodeId)).Nodup ∧
      (∀ b, (∃ node ∈ (s.nodes a).clusterMembersList, node.nodeId = b ∧ node.state = .member) ↔
        b ∈ members (s.ring a) ∧ staying (s.heard a) b = true) ∧
      (s.nodes a).decisionVotes =
        ((((members (s.ring a)).filter (staying (s.heard a))).map
          (announcedVotes (s.heard a))).sum +
            if (s.nodes a).us.flags.qdeviceCastVote then (s.nodes a).qdeviceVotes
            else 0) % 2 ^ 32 := by
  have hrecorded := Recorded.of_run hquiet hrun
  cases System.step_eq_some hactivate with
  | activate hring _ hall =>
    have hperm := hrecorded.memberBallots_perm hring hall
    refine ⟨?_, fun b => ?_, ?_⟩
    · have hnodup := (hrecorded.everywhere.node a hring).2.nodup
      rwa [roll, map_map] at hnodup
    · exact hrecorded.member_iff hring hall b
    · rw [decisionVotes_eq, (hperm.map (·.votes)).sum_nat, map_map]
      rfl

/-- The configuration of the first node of a node list. -/
def firstOf (count : ℕ) : Icmap := { localNodePos := some 0, nodelist := List.replicate count none }

/-- Two nodes of three form a ring and synchronise. -/
def twoOfThree : List Event :=
  [.start 1 (firstOf 3) 1, .start 2 (firstOf 3) 1, .process 1, .process 2] ++
    List.replicate 4 (.transmit 1) ++ List.replicate 4 (.transmit 2) ++
    List.replicate 8 (.deliver 1)

/-- Their votes are counted. -/
theorem activate_counts_members_twoOfThree :
    ∃ s s', run (System.step fun _ => [1, 2]) System.cold twoOfThree = some s ∧
      s.step (fun _ => [1, 2]) (.activate 1) = some s' ∧
      ((s.nodes 1).clusterMembersList.map (·.nodeId)).Nodup ∧ (s.nodes 1).decisionVotes = 2 :=
  ⟨_, _, rfl, rfl,
    (@activate_counts_members 1 (fun _ => [1, 2]) _ _ twoOfThree (by decide) rfl rfl).1, rfl⟩

/-- In every run, a settled node has heard of every member of its ring. -/
theorem settled_heard {members : ℕ → List NodeId} {s : System} {events : List Event}
    (hrun : run (System.step members) System.cold events = some s) (ha : 0 < s.ring a)
    (hsync : (s.nodes a).syncInProgress = false) (hb : b ∈ members (s.ring a)) :
    ∃ info : Nodeinfo, info.nodeid = b ∧ (b, .message (.nodeinfo info)) ∈ s.heard a := by
  have hsound : Sound members s :=
    run_invariant (fun _ _ _ h hstep => h.step (System.step_eq_some hstep)) .cold hrun
  exact hsound.announced_of_barrier ((hsound.settled a ha hsync).1 b hb)

/-- Of two nodes in a ring one has heard of the other. -/
theorem settled_heard_twoOfThree :
    ∃ s, run (System.step fun _ => [1, 2]) System.cold (twoOfThree ++ [.activate 1]) = some s ∧
      ∃ info : Nodeinfo, info.nodeid = 2 ∧ (2, .message (.nodeinfo info)) ∈ s.heard 1 :=
  exists_run_imp (fun s => 0 < s.ring 1 ∧ (s.nodes 1).syncInProgress = false) (by decide)
    fun _ hrun h => settled_heard hrun h.1 h.2 (by decide)

/-- A node of three is alone; its quorum device, which has two votes, casts them. -/
def castAlone : List Event :=
  [.start 1 { firstOf 3 with deviceModel := true } 1, .act 1 .qdeviceRegister,
    .act 1 (.qdevicePoll true), .process 1] ++ List.replicate 7 (.transmit 1) ++
    List.replicate 7 (.deliver 1)

/-- The total is three although the only member has announced one vote. -/
theorem castAlone_counts_device :
    ∃ s s', run (System.step fun _ => [1]) System.cold castAlone = some s ∧
      s.step (fun _ => [1]) (.activate 1) = some s' ∧
      (([1] : List NodeId).map (announcedVotes (s.heard 1))).sum = 1 ∧
      (s.nodes 1).decisionVotes = 3 :=
  ⟨_, _, rfl, rfl, rfl, rfl⟩

end Corosync.Votequorum
