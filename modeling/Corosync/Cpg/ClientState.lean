import Corosync.Cpg.LocalSteps

/-!
# The state of a connection and the list of processes

The head of `cpg.c` has a table of the states of a connection. A connection in one of the two
joined states is meant to be in the list of processes, and one whose leave has been delivered is
meant to be unjoined again. The second part fails: the loop in `notify_lib_joinlist` that resets a
connection runs over the entries of the joined list, of which a leave has none.
-/

namespace Corosync.Cpg

open Library List Bool

namespace Local

/-- What the table says. -/
structure FollowsTable (s : Local) : Prop where
  member : ∀ client ∈ s.clients,
    (client.cpdState = .joinCompleted ∨ client.cpdState = .leaveStarted) ↔
      s.own client.pid client.groupName.bytes = true
  unjoined : ∀ left ∈ s.left, ∀ client ∈ s.clients, client.conn = left.1 →
    client.cpdState = .unjoined
  rejoin : ∀ left ∈ s.left, ∀ cpd ∈ s.node.cpgPdList, cpd.conn = left.1 →
    ∀ (pid : ℕ) (group : CpgName), group.bytes.length ≤ cpgMaxNameLength →
      (∀ other ∈ s.clients, other.conn ≠ cpd.conn →
        ¬ (other.pid = pid ∧ other.groupName.bytes = group.bytes)) →
      s.own pid group.bytes = false → ¬ (pid = 0 ∧ group.bytes = []) →
      (s.node.libCpgJoin cpd pid group).2 = .ok
  quiet : ∀ left ∈ s.left, ∀ sent ∈ s.node.dispatched.drop left.2, sent.1 ≠ left.1

/-- A leave of this node is delivered only when no connection has its process and group. -/
def Unattended (s : Local) : LocalEvent → Prop
  | .deliver =>
    match s.inFlight with
    | .procleave group pid _ :: _ =>
      ∀ client ∈ s.clients, ¬ (client.pid = pid ∧ client.groupName.bytes = group.bytes)
    | _ => True
  | _ => True

instance (s : Local) (event : LocalEvent) : Decidable (s.Unattended event) := by
  obtain ⟨node, inFlight, used, left⟩ := s
  cases event with
  | deliver =>
    rcases inFlight with _ | ⟨message, rest⟩
    · exact isTrue trivial
    · cases message <;> dsimp only [Unattended] <;> infer_instance
  | _ => exact isTrue trivial

/-- What holds in every state of such a run. -/
structure TableInv (s : Local) : Prop where
  conns : s.Conns
  zero : ∀ client ∈ s.clients, client.cpdState = .unjoined →
    client.pid = 0 ∧ client.groupName.bytes = []
  member : ∀ client ∈ s.clients,
    (client.cpdState = .joinCompleted ∨ client.cpdState = .leaveStarted) ↔
      s.own client.pid client.groupName.bytes = true
  joins : ∀ group pid, .procjoin group pid ∈ s.announcements → ¬ (pid = 0 ∧ group.bytes = [])
  none : s.own 0 [] = false
  left : s.left = []

variable {s s' : Local} {event : LocalEvent}

/-- Before the first client. -/
theorem TableInv.start (nodeid : ℕ) : (Local.start nodeid).TableInv where
  conns := start_conns nodeid
  zero := nofun
  member := nofun
  joins := nofun
  none := rfl
  left := rfl

/-- The state of a connection fits the list of processes. -/
def Fits (s : Local) (client : Client) : Prop :=
  (client.cpdState = .unjoined → client.pid = 0 ∧ client.groupName.bytes = []) ∧
    ((client.cpdState = .joinCompleted ∨ client.cpdState = .leaveStarted) ↔
      s.own client.pid client.groupName.bytes = true)

/-- The same processes fit the same clients. -/
theorem Fits.congr {client : Client} (h : s.Fits client)
    (hown : ∀ pid bytes, s'.own pid bytes = s.own pid bytes) : s'.Fits client := by
  unfold Fits
  rw [hown]
  exact h

/-- The own join is delivered. -/
theorem TableInv.deliverJoin (h : s.TableInv) {pid : ℕ} {group : CpgName}
    (hkey : ¬ (pid = 0 ∧ group.bytes = [])) (hfits : ∀ client ∈ s.clients, s.Fits client)
    (hclients : s'.clients = if s.own pid group.bytes then s.clients
      else s.clients.map (Client.complete pid group.bytes))
    (hown : ∀ pid' bytes, s'.own pid' bytes =
      (s.own pid' bytes || (pid == pid' && group.bytes == bytes))) :
    (∀ client ∈ s'.clients, s'.Fits client) ∧ s'.own 0 [] = false := by
  refine ⟨fun client hclient => ?_, ?_⟩
  · rw [hclients] at hclient
    split at hclient
    · rename_i hfound
      refine (hfits client hclient).congr fun pid' bytes => ?_
      rw [hown, or_eq_left_iff_imp]
      simp only [and_eq_true, beq_iff_eq]
      rintro ⟨rfl, rfl⟩
      exact hfound
    · obtain ⟨before, hbefore, rfl⟩ := mem_map.mp hclient
      unfold Client.complete
      split
      · rename_i hsame
        simp [Fits, hown, hsame.1, hsame.2]
      rename_i hother
      refine ⟨(hfits before hbefore).1, (hfits before hbefore).2.trans ?_⟩
      rw [hown, or_eq_true]
      refine ⟨Or.inl, fun hor => hor.resolve_right fun hsame => hother ?_⟩
      simp only [and_eq_true, beq_iff_eq] at hsame
      exact ⟨hsame.1.symm, hsame.2.symm⟩
  · rw [hown, h.none, Bool.false_or, Bool.eq_false_iff]
    intro hsame
    simp only [and_eq_true, beq_iff_eq] at hsame
    exact hkey hsame

/-- Every unattended step keeps the table. -/
theorem TableInv.step (h : s.TableInv) (hcond : s.Unattended event)
    (hstep : s.step event = some s') : s'.TableInv := by
  have houtcome := step_outcome h.conns hstep
  have hfits : ∀ client ∈ s.clients, s.Fits client :=
    fun client hclient => ⟨h.zero client hclient, h.member client hclient⟩
  -- what has to be said about each kind of step
  have hof : (∀ client ∈ s'.clients, s'.Fits client) → s'.own 0 [] = false → s'.left = [] →
      s'.TableInv := by
    refine fun hall hnone hleft =>
      ⟨h.conns.step hstep, fun client hclient => (hall client hclient).1,
      fun client hclient => (hall client hclient).2, fun group pid hmem => ?_, hnone, hleft⟩
    rcases houtcome.procjoin_mem hmem with hmem | ⟨client, hclient, -, hstate, hnew⟩
    · exact h.joins group pid hmem
    · rintro ⟨rfl, hbytes⟩
      obtain ⟨hpid, hzero⟩ := h.zero client hclient hstate
      exact hnew client hclient ⟨hpid, hzero.trans hbytes.symm⟩
  have hnone : (∀ pid bytes, s'.own pid bytes = s.own pid bytes) → s'.own 0 [] = false :=
    fun hown => (hown 0 []).trans h.none
  cases houtcome with
  | quiet hclients _ hown _ _ hleft =>
    refine hof (fun client hclient => ?_) (hnone hown) (hleft.trans h.left)
    exact (hfits client (hclients ▸ hclient)).congr hown
  | init _ _ _ hclients _ hown _ _ hleft =>
    refine hof (fun client hclient => ?_) (hnone hown) (hleft.trans h.left)
    rw [hclients] at hclient
    rcases mem_cons.mp hclient with rfl | hclient
    · simp [Fits, hown, CpgName.zero, h.none]
    · exact (hfits client hclient).congr hown
  | join _ _ _ _ hclient hstate hnew hfree hclients _ hown _ _ hleft =>
    refine hof (fun other hother => ?_) (hnone hown) (by rw [hleft, h.left]; rfl)
    rw [hclients] at hother
    obtain ⟨before, hbefore, rfl⟩ := mem_map.mp hother
    unfold Client.become
    split
    · simp [Fits, hown, hfree]
    · exact (hfits before hbefore).congr hown
  | leave client _ _ _ hclient hstate hclients _ hown _ _ hleft =>
    refine hof (fun other hother => ?_) (hnone hown) (hleft.trans h.left)
    rw [hclients] at hother
    obtain ⟨before, hbefore, rfl⟩ := mem_map.mp hother
    unfold Client.become
    split
    · have hlisted := (h.member client hclient).mp (Or.inl hstate)
      simp [Fits, hown, hlisted]
    · exact (hfits before hbefore).congr hown
  | finalize _ _ _ hclients _ hown _ _ hleft | exit _ _ _ hclients _ hown _ _ hleft =>
    refine hof (fun other hother => ?_) (hnone hown) (hleft.trans h.left)
    exact (hfits other (mem_filter.mp (hclients ▸ hother)).1).congr hown
  | deliverJoin group pid _ _ hclients _ hown hannouncements _ hleft =>
    have hkey := h.joins group pid (by rw [hannouncements]; exact mem_cons_self)
    obtain ⟨hall, hnone⟩ := h.deliverJoin hkey hfits hclients hown
    exact hof hall hnone (hleft.trans h.left)
  | deliverLeave _ _ _ hevent hinFlight hclients _ hown _ _ hleft =>
    subst hevent
    simp only [Unattended, hinFlight] at hcond
    refine hof (fun client hclient => ?_) (by rw [hown, h.none]; rfl) ?_
    · rw [hclients] at hclient
      refine ⟨h.zero client hclient, (h.member client hclient).trans ?_⟩
      rw [hown, and_eq_true]
      refine ⟨fun htrue => ⟨htrue, ?_⟩, fun hboth => hboth.1⟩
      rw [not_eq_true', eq_false_iff]
      intro hsame
      simp only [and_eq_true, beq_iff_eq] at hsame
      exact hcond client hclient ⟨hsame.1.symm, hsame.2.symm⟩
    · rw [eq_nil_iff_forall_not_mem]
      intro left hmem
      rcases hleft left hmem with hmem | hmem
      · rw [h.left] at hmem
        cases hmem
      · obtain ⟨cpd, hcpd, -⟩ := mem_map.mp hmem
        obtain ⟨hcpd, hsame⟩ := mem_filter.mp hcpd
        simp only [and_eq_true, beq_iff_eq] at hsame
        exact hcond cpd.core (mem_map_of_mem hcpd) ⟨hsame.1.2, hsame.2⟩

/-- In every run in which no connection is left when its leave is delivered, the table is
followed. -/
theorem follows_table {nodeid : ℕ} {events : List LocalEvent} {s : Local}
    (hrun : run (restrict Unattended Local.step) (start nodeid) events = some s) :
    s.FollowsTable := by
  have h : s.TableInv := by
    refine run_invariant (fun s event s' hinv hstep => ?_) (TableInv.start nodeid) hrun
    obtain ⟨hcond, hstep⟩ := restrict_eq_some.mp hstep
    exact hinv.step hcond hstep
  refine ⟨h.member, ?_, ?_, ?_⟩ <;>
  · intro left hmem
    rw [h.left] at hmem
    cases hmem

/-- A group. -/
def groupA : CpgName := ⟨[97], List.replicate 127 0⟩

/-- A process joins and disconnects, and joins again on a new connection. -/
def joinExitJoin : List LocalEvent :=
  [.syncCompleted, .init 1, .join 1 10 groupA, .transmit, .deliver, .exit 1, .transmit, .deliver,
    .init 2, .join 2 10 groupA, .transmit, .deliver]

/-- The table is followed there. -/
theorem follows_table_joinExitJoin :
    ∃ s, run (restrict Unattended Local.step) (start 1) joinExitJoin = some s ∧
      s.FollowsTable ∧ s.own 10 groupA.bytes = true :=
  ⟨_, rfl, @follows_table 1 joinExitJoin _ rfl, rfl⟩

/-- A process joins and leaves while it stays connected. Its state remains that of a started
leave: it is not in the list, may not join again and still gets the messages of the group. -/
theorem left_connection_not_reset :
    ∃ s, run Local.step (start 1) [.syncCompleted, .init 1, .join 1 10 groupA, .transmit,
        .deliver, .foreign 2 (.procjoin groupA 20), .leave 1 10 groupA, .transmit, .deliver,
        .foreign 2 (.mcast groupA 20 [1])] = some s ∧
      s.left = [(1, 3)] ∧ s.clients = [⟨1, groupA, 10, .leaveStarted⟩] ∧
      s.own 10 groupA.bytes = false ∧
      (s.node.cpgPdList.map fun cpd => (s.node.libCpgJoin cpd 11 groupA).2) = [.busy] ∧
      s.node.dispatched.drop 3 = [(1, .deliver groupA 2 20 [1])] ∧ ¬ s.FollowsTable := by
  refine ⟨_, rfl, rfl, rfl, rfl, rfl, rfl, fun h => ?_⟩
  have := h.unjoined (1, 3) mem_cons_self ⟨1, groupA, 10, .leaveStarted⟩ mem_cons_self rfl
  cases this

end Local

end Corosync.Cpg
