import Corosync.Cpg.LocalSteps

/-!
# Processes without a connection

A join and a leave of one process may travel through different queues: what is sent during a
configuration change is transmitted before what was queued earlier. If a connection is closed
while its join is still queued, the leave can be delivered first and the process stays in the list
forever. When connections are closed only after their join has been delivered, the list agrees
with the connections as soon as nothing is on its way.
-/

namespace Corosync.Cpg

open Library List

namespace Local

/-- The list of processes agrees with the connections. -/
structure NoGhosts (s : Local) : Prop where
  entry : ∀ pi ∈ s.node.processInfoList, pi.nodeid = s.node.nodeid →
    ∃ client ∈ s.clients ++ s.closing, client.pid = pi.pid ∧
      client.groupName.bytes = pi.group.bytes ∧ client.cpdState = .joinCompleted
  member : ∀ client ∈ s.clients ++ s.closing, client.cpdState = .joinCompleted →
    s.own client.pid client.groupName.bytes = true

/-- Everything the node has queued is delivered. -/
def Quiescent (s : Local) : Prop :=
  s.inFlight = [] ∧ s.node.totem.newMessageQueueTrans = [] ∧ s.node.totem.newMessageQueue = []

/-- A connection is closed or finalized only after its join is delivered, with a group that has a
name and while messages are accepted; a leave names the process and the group of the
connection. -/
def Orderly (s : Local) : LocalEvent → Prop
  | .exit conn =>
    s.node.totem.room = true ∧ ∀ client ∈ s.clients ++ s.closing, client.conn = conn →
      client.cpdState ≠ .joinStarted ∧
        (client.cpdState = .joinCompleted → client.groupName.bytes ≠ [])
  | .finalize conn => ∀ client ∈ s.clients, client.conn = conn → client.cpdState ≠ .joinStarted
  | .leave conn pid group =>
    ∀ client ∈ s.clients, client.conn = conn →
      client.pid = pid ∧ client.groupName.bytes = group.bytes
  | _ => True

instance (s : Local) (event : LocalEvent) : Decidable (s.Orderly event) :=
  match event with
  | .exit _ => inferInstanceAs (Decidable (_ ∧ _))
  | .finalize _ | .leave .. => inferInstanceAs (Decidable (∀ client ∈ s.clients, _))
  | .init .. | .join .. | .mcast .. | .partialMcast .. | .transmit | .deliver | .foreign ..
  | .room .. | .syncInit .. | .syncProcess | .syncAbort | .syncActivate | .syncCompleted =>
    isTrue trivial

/-- A connection of a process and a group. -/
def Client.is (pid : ℕ) (bytes : List UInt8) (client : Client) : Bool :=
  client.pid == pid && client.groupName.bytes == bytes

/-- The join of a process. -/
def isJoin (pid : ℕ) (bytes : List UInt8) : CpgMessage → Bool
  | .procjoin group p => p == pid && group.bytes == bytes
  | _ => false

/-- The leave of a process. -/
def isLeave (pid : ℕ) (bytes : List UInt8) : CpgMessage → Bool
  | .procleave group p _ => p == pid && group.bytes == bytes
  | _ => false

/-- Connections whose join has started. -/
def starting (list : List Client) (pid : ℕ) (bytes : List UInt8) : ℕ :=
  list.countP fun client => Client.is pid bytes client && client.cpdState == .joinStarted

/-- Connections that have joined. -/
def joined (list : List Client) (pid : ℕ) (bytes : List UInt8) : ℕ :=
  list.countP fun client => Client.is pid bytes client && client.cpdState == .joinCompleted

/-- Connections that are not unjoined. -/
def engaged (list : List Client) (pid : ℕ) (bytes : List UInt8) : ℕ :=
  list.countP fun client => Client.is pid bytes client && client.cpdState != .unjoined

/-- A process goes through four phases: it has no connection; its join is on its way; it is in the
list and has a connection; its leave is on its way. -/
structure Phase (s : Local) (pid : ℕ) (bytes : List UInt8) : Prop where
  joins : s.announcements.countP (isJoin pid bytes) = starting s.clients pid bytes
  present : joined (s.clients ++ s.closing) pid bytes +
    s.announcements.countP (isLeave pid bytes) = (s.own pid bytes).toNat
  absent : starting s.clients pid bytes + (s.own pid bytes).toNat ≤ 1
  listed : engaged s.clients pid bytes ≤ 1

/-- What holds in every state of such a run. -/
structure GhostInv (s : Local) : Prop where
  conns : s.Conns
  zero : ∀ client ∈ s.clients ++ s.closing,
    client.cpdState = .unjoined ↔ client.pid = 0 ∧ client.groupName.bytes = []
  closing : ∀ client ∈ s.closing, client.cpdState ≠ .joinStarted
  phase : ∀ pid bytes, s.Phase pid bytes

variable {s s' : Local} {event : LocalEvent} {pid : ℕ} {bytes : List UInt8} {client : Client}
  {group : CpgName} {list : List Client} {p : ℕ}

/-- Before the first client. -/
theorem GhostInv.start (nodeid : ℕ) : (Local.start nodeid).GhostInv where
  conns := start_conns nodeid
  zero := nofun
  closing := nofun
  phase := fun _ _ => ⟨rfl, rfl, Nat.zero_le _, Nat.zero_le _⟩

/-- A client and the others. -/
theorem perm_cons_filter (hnodup : (list.map Client.conn).Nodup) (hclient : client ∈ list) :
    list.Perm (client :: list.filter fun other => other.conn != client.conn) := by
  induction list with
  | nil => cases hclient
  | cons first rest ih =>
    rw [map_cons, nodup_cons] at hnodup
    rcases mem_cons.mp hclient with rfl | hclient
    · have hrest : rest.filter (fun other => other.conn != client.conn) = rest := by
        refine filter_eq_self.mpr fun other hother => ?_
        have hne : other.conn ≠ client.conn :=
          fun heq => hnodup.1 (heq ▸ mem_map_of_mem hother)
        simpa using hne
      rw [filter_cons_of_neg (by simp), hrest]
    · have hne : first.conn ≠ client.conn :=
        fun heq => hnodup.1 (heq ▸ mem_map_of_mem hclient)
      rw [filter_cons_of_pos (by simpa using hne)]
      exact ((ih hnodup.2 hclient).cons first).trans (List.Perm.swap _ _ _)

/-- A client that has changed and the others. -/
theorem perm_map_become (hnodup : (list.map Client.conn).Nodup)
    (hclient : client ∈ list) (p : ℕ) (group : CpgName) (state : CpdState) :
    (list.map (Client.become client.conn p group state)).Perm
      (⟨client.conn, group, p, state⟩ :: list.filter fun other => other.conn != client.conn) := by
  refine ((perm_cons_filter hnodup hclient).map _).trans ?_
  rw [map_cons, Client.become, if_pos rfl]
  refine List.Perm.cons _ ?_
  have hrest : (list.filter fun other => other.conn != client.conn).map
      (Client.become client.conn p group state) =
        list.filter fun other => other.conn != client.conn := by
    rw [map_congr_left, map_id]
    intro other hother
    have hne : other.conn ≠ client.conn := by simpa using (mem_filter.mp hother).2
    exact if_neg hne
  rw [hrest]

/-- A connection of the process in a state, counted as one. -/
def one (pid : ℕ) (bytes : List UInt8) (client : Client) (state : CpdState) : ℕ :=
  if client.pid = pid ∧ client.groupName.bytes = bytes ∧ client.cpdState = state then 1 else 0

/-- The counts of a list in which one connection is set apart. -/
structure Counts (list rest : List Client) (client : Client) (pid : ℕ) (bytes : List UInt8) :
    Prop where
  starting : starting list pid bytes =
    Local.starting rest pid bytes + one pid bytes client .joinStarted
  joined : joined list pid bytes =
    Local.joined rest pid bytes + one pid bytes client .joinCompleted
  engaged : engaged list pid bytes = Local.engaged rest pid bytes +
    one pid bytes client .joinStarted + one pid bytes client .joinCompleted +
      one pid bytes client .leaveStarted

/-- The counts with and without one client. -/
theorem counts_of_perm {list rest : List Client}
    (hperm : list.Perm (client :: rest)) (pid : ℕ) (bytes : List UInt8) :
    Counts list rest client pid bytes where
  starting := by
    rw [starting, hperm.countP_eq, countP_cons]
    simp only [starting, Client.is, one, Bool.and_eq_true, beq_iff_eq, and_assoc]
  joined := by
    rw [joined, hperm.countP_eq, countP_cons]
    simp only [joined, Client.is, one, Bool.and_eq_true, beq_iff_eq, and_assoc]
  engaged := by
    rw [engaged, hperm.countP_eq, countP_cons]
    simp only [engaged, Client.is, one, Bool.and_eq_true, beq_iff_eq, bne_iff_ne, and_assoc]
    cases client.cpdState <;> simp

/-- Clients that have joined, in two lists. -/
theorem joined_append (a b : List Client) :
    joined (a ++ b) pid bytes = joined a pid bytes + joined b pid bytes :=
  countP_append

/-- Clients that start are engaged. -/
theorem starting_le (list : List Client) : starting list pid bytes ≤ engaged list pid bytes := by
  refine countP_mono_left fun client _ hclient => ?_
  simp only [Bool.and_eq_true, beq_iff_eq, bne_iff_ne] at hclient ⊢
  refine ⟨hclient.1, ?_⟩
  rw [hclient.2]
  simp

/-- Without a client of the group none is engaged. -/
theorem engaged_eq_zero
    (hnone : ∀ client ∈ list, ¬ (client.pid = pid ∧ client.groupName.bytes = bytes)) :
    engaged list pid bytes = 0 := by
  refine countP_eq_zero.mpr fun client hclient hengaged => ?_
  simp only [Client.is, Bool.and_eq_true, beq_iff_eq] at hengaged
  exact hnone client hclient hengaged.1

/-- Clients have different connections. -/
theorem Conns.clients_nodup (h : s.Conns) : (s.clients.map Client.conn).Nodup := by
  have hnodup := h.nodup
  rw [map_append] at hnodup
  exact hnodup.of_append_left

/-- The announcements of a process after one more join. -/
theorem countP_join {list list' : List CpgMessage}
    (hperm : list'.Perm (.procjoin group p :: list)) (pid : ℕ) (bytes : List UInt8) :
    list'.countP (isJoin pid bytes) =
        list.countP (isJoin pid bytes) + (if p = pid ∧ group.bytes = bytes then 1 else 0) ∧
      list'.countP (isLeave pid bytes) = list.countP (isLeave pid bytes) := by
  simp [hperm.countP_eq, countP_cons, isJoin, isLeave]

/-- The announcements of a process after one more leave. -/
theorem countP_leave {list list' : List CpgMessage} {reason : Reason}
    (hperm : list'.Perm (.procleave group p reason :: list)) (pid : ℕ) (bytes : List UInt8) :
    list'.countP (isJoin pid bytes) = list.countP (isJoin pid bytes) ∧
      list'.countP (isLeave pid bytes) =
        list.countP (isLeave pid bytes) + if p = pid ∧ group.bytes = bytes then 1 else 0 := by
  simp [hperm.countP_eq, countP_cons, isJoin, isLeave]

/-- One client changes. -/
theorem GhostInv.become (h : s.GhostInv)
    {state : CpdState} (hclient : client ∈ s.clients) (hstate : state ≠ .unjoined)
    (hkey : ¬ (p = 0 ∧ group.bytes = []))
    (hclients : s'.clients = s.clients.map (Client.become client.conn p group state))
    (hclosing : s'.closing = s.closing) (hconns : s'.Conns)
    (hphase : ∀ pid bytes rest, Counts s.clients rest client pid bytes →
      Counts s'.clients rest ⟨client.conn, group, p, state⟩ pid bytes → s'.Phase pid bytes) :
    s'.GhostInv := by
  have hbefore := perm_cons_filter h.conns.clients_nodup hclient
  have hafter := perm_map_become h.conns.clients_nodup hclient p group state
  rw [← hclients] at hafter
  refine ⟨hconns, fun other hother => ?_, hclosing ▸ h.closing, fun pid bytes =>
    hphase pid bytes _ (counts_of_perm hbefore pid bytes) (counts_of_perm hafter pid bytes)⟩
  rcases mem_append.mp hother with hother | hother
  · rcases mem_cons.mp (hafter.mem_iff.mp hother) with rfl | hother
    · simp [hstate, hkey]
    · exact h.zero other (mem_append_left _ (mem_filter.mp hother).1)
  · exact h.zero other (mem_append_right _ (hclosing ▸ hother))

/-- A client asks to join. -/
theorem GhostInv.join (h : s.GhostInv)
    (hclient : client ∈ s.clients) (hstate : client.cpdState = .unjoined)
    (hnew : ∀ other ∈ s.clients, ¬ (other.pid = p ∧ other.groupName.bytes = group.bytes))
    (hnone : s.own p group.bytes = false)
    (hclients : s'.clients = s.clients.map (Client.become client.conn p group .joinStarted))
    (hclosing : s'.closing = s.closing) (hown : ∀ pid bytes, s'.own pid bytes = s.own pid bytes)
    (hannouncements : s'.announcements.Perm (.procjoin group p :: s.announcements))
    (hconns : s'.Conns) : s'.GhostInv := by
  have hkey : ¬ (p = 0 ∧ group.bytes = []) := by
    rintro ⟨rfl, hbytes⟩
    obtain ⟨hpid, hzero⟩ := (h.zero client (mem_append_left _ hclient)).mp hstate
    exact hnew client hclient ⟨hpid, hzero.trans hbytes.symm⟩
  refine h.become hclient (by simp) hkey hclients hclosing hconns
    fun pid bytes rest ⟨hstarting, hjoined, hengaged⟩ ⟨hstarting', hjoined', hengaged'⟩ => ?_
  obtain ⟨hjoins, hpresent, habsent, hlisted⟩ := h.phase pid bytes
  obtain ⟨hcountJoin, hcountLeave⟩ := countP_join hannouncements pid bytes
  simp only [one, hstate, reduceCtorEq, and_false, if_false, and_true, Nat.add_zero] at *
  have hfresh : p = pid ∧ group.bytes = bytes →
      engaged s.clients pid bytes = 0 ∧ (s.own pid bytes).toNat = 0 := by
    rintro ⟨rfl, rfl⟩
    exact ⟨engaged_eq_zero hnew, by rw [hnone, Bool.toNat_false]⟩
  have hle := @starting_le pid bytes s.clients
  rw [joined_append] at hpresent
  refine ⟨by omega, ?_, ?_, ?_⟩
  · rw [joined_append, hclosing, hown]
    omega
  · rw [hown, hstarting']
    split
    · rename_i hsame
      have hfresh := hfresh hsame
      omega
    · omega
  · rw [hengaged']
    split
    · rename_i hsame
      have hfresh := hfresh hsame
      omega
    · omega

/-- A client asks to leave. -/
theorem GhostInv.leave (h : s.GhostInv)
    (hclient : client ∈ s.clients) (hstate : client.cpdState = .joinCompleted)
    (hgroup : client.groupName.bytes = group.bytes)
    (hclients : s'.clients =
      s.clients.map (Client.become client.conn client.pid client.groupName .leaveStarted))
    (hclosing : s'.closing = s.closing) (hown : ∀ pid bytes, s'.own pid bytes = s.own pid bytes)
    (hannouncements : s'.announcements.Perm (.procleave group client.pid .leave :: s.announcements))
    (hconns : s'.Conns) : s'.GhostInv := by
  have hkey : ¬ (client.pid = 0 ∧ client.groupName.bytes = []) := by
    rw [← h.zero client (mem_append_left _ hclient), hstate]
    simp
  refine h.become hclient (by simp) hkey hclients hclosing hconns
    fun pid bytes rest ⟨hstarting, hjoined, hengaged⟩ ⟨hstarting', hjoined', hengaged'⟩ => ?_
  obtain ⟨hjoins, hpresent, habsent, hlisted⟩ := h.phase pid bytes
  obtain ⟨hcountJoin, hcountLeave⟩ := countP_leave hannouncements pid bytes
  rw [← hgroup] at hcountLeave
  simp only [one, hstate, reduceCtorEq, and_false, if_false, and_true, Nat.add_zero] at *
  rw [joined_append] at hpresent
  refine ⟨by omega, ?_, ?_, by omega⟩
  · rw [joined_append, hclosing, hown]
    omega
  · rw [hown]
    omega

/-- A client is taken off the list. -/
theorem GhostInv.finalize (h : s.GhostInv) (hclient : client ∈ s.clients)
    (hstate : client.cpdState ≠ .joinStarted)
    (hclients : s'.clients = s.clients.filter fun other => other.conn != client.conn)
    (hclosing : s'.closing = client :: s.closing)
    (hown : ∀ pid bytes, s'.own pid bytes = s.own pid bytes)
    (hannouncements : s'.announcements = s.announcements) (hconns : s'.Conns) : s'.GhostInv := by
  have hbefore := perm_cons_filter h.conns.clients_nodup hclient
  rw [← hclients] at hbefore
  refine ⟨hconns, fun other hother => ?_, fun other hother => ?_, fun pid bytes => ?_⟩
  · rw [hclients, hclosing] at hother
    refine h.zero other ?_
    rcases mem_append.mp hother with hother | hother
    · exact mem_append_left _ (mem_filter.mp hother).1
    · rcases mem_cons.mp hother with rfl | hother
      · exact mem_append_left _ hclient
      · exact mem_append_right _ hother
  · rw [hclosing] at hother
    rcases mem_cons.mp hother with rfl | hother
    · exact hstate
    · exact h.closing other hother
  · obtain ⟨hjoins, hpresent, habsent, hlisted⟩ := h.phase pid bytes
    obtain ⟨hstarting, hjoined, hengaged⟩ := counts_of_perm hbefore pid bytes
    have hclosed := (counts_of_perm (List.Perm.refl (client :: s.closing)) pid bytes).joined
    simp only [one, hstate, and_false, if_false, Nat.add_zero] at hstarting hjoined hengaged hclosed
    rw [joined_append] at hpresent
    refine ⟨?_, ?_, ?_, by omega⟩
    · rw [hannouncements]
      omega
    · rw [joined_append, hclosing, hclosed, hown, hannouncements]
      omega
    · rw [hown]
      omega

/-- A connection is closed, and the leave is sent. -/
theorem GhostInv.exit (h : s.GhostInv) (hclient : client ∈ s.clients ++ s.closing)
    (hstate : client.cpdState ≠ .joinStarted)
    (hname : client.cpdState = .joinCompleted → client.groupName.bytes ≠ [])
    (hroom : s.node.totem.room = true)
    (hclients : s'.clients = s.clients.filter fun other => other.conn != client.conn)
    (hclosing : s'.closing = s.closing.filter fun other => other.conn != client.conn)
    (hown : ∀ pid bytes, s'.own pid bytes = s.own pid bytes)
    (hannouncements : s'.announcements.Perm
      (if client.groupName.bytes ≠ [] ∧ client.cpdState ≠ .leaveStarted ∧
          s.node.totem.room = true then
        .procleave client.groupName client.pid .procdown :: s.announcements
      else s.announcements))
    (hconns : s'.Conns) : s'.GhostInv := by
  have hall := perm_cons_filter h.conns.nodup hclient
  rw [filter_append, ← hclients, ← hclosing] at hall
  have hsub : ∀ other ∈ s'.clients ++ s'.closing, other ∈ s.clients ++ s.closing :=
    fun other hother => hall.mem_iff.mpr (mem_cons_of_mem _ hother)
  refine ⟨hconns, fun other hother => h.zero other (hsub other hother), fun other hother => ?_,
    fun pid bytes => ?_⟩
  · exact h.closing other (mem_filter.mp (hclosing ▸ hother)).1
  obtain ⟨hjoins, hpresent, habsent, hlisted⟩ := h.phase pid bytes
  have hjoined := (counts_of_perm hall pid bytes).joined
  have hstarting : starting s'.clients pid bytes = starting s.clients pid bytes := by
    rw [hclients, starting, countP_filter, starting]
    refine countP_congr fun other hother => ?_
    simp only [Bool.and_eq_true, beq_iff_eq, bne_iff_ne]
    refine ⟨fun hboth => hboth.1, fun hstarted => ⟨hstarted, fun hconn => ?_⟩⟩
    have hsame := h.conns.eq_of_conn (mem_append_left _ hother) hclient hconn
    exact hstate (hsame ▸ hstarted.2)
  have hengaged : engaged s'.clients pid bytes ≤ engaged s.clients pid bytes := by
    rw [hclients]
    exact filter_sublist.countP_le
  -- a leave is sent for a connection that has joined, and only for such a one
  have hsent : s'.announcements.countP (isJoin pid bytes) =
        s.announcements.countP (isJoin pid bytes) ∧
      s'.announcements.countP (isLeave pid bytes) =
        s.announcements.countP (isLeave pid bytes) + one pid bytes client .joinCompleted := by
    have hzero := h.zero client hclient
    cases hcase : client.cpdState with
    | unjoined => simp [hannouncements.countP_eq, (hzero.mp hcase).2, one, hcase]
    | leaveStarted => simp [hannouncements.countP_eq, one, hcase]
    | joinStarted => exact absurd hcase hstate
    | joinCompleted =>
      rw [if_pos ⟨hname hcase, by simp [hcase], hroom⟩] at hannouncements
      simpa [one, hcase] using countP_leave hannouncements pid bytes
  refine ⟨by omega, ?_, ?_, by omega⟩
  · rw [hown]
    omega
  · rw [hown]
    omega

/-- A completed join is one of the same process. -/
theorem is_complete (p : ℕ) (b : List UInt8) (client : Client) :
    Client.is pid bytes (Client.complete p b client) = Client.is pid bytes client := by
  unfold Client.complete
  split <;> rfl

/-- Completing the join of a process changes no count of another process. -/
theorem counts_complete_of_ne {b : List UInt8} (hne : ¬ (p = pid ∧ b = bytes))
    (list : List Client) :
    starting (list.map (Client.complete p b)) pid bytes = starting list pid bytes ∧
      joined (list.map (Client.complete p b)) pid bytes = joined list pid bytes ∧
      engaged (list.map (Client.complete p b)) pid bytes = engaged list pid bytes := by
  have hcount : ∀ f : CpdState → Bool,
      (list.map (Client.complete p b)).countP
          (fun client => Client.is pid bytes client && f client.cpdState) =
        list.countP fun client => Client.is pid bytes client && f client.cpdState := by
    intro f
    rw [countP_map]
    refine countP_congr fun client _ => ?_
    simp only [Function.comp_apply, is_complete]
    by_cases his : Client.is pid bytes client = true
    · have hkey := his
      simp only [Client.is, Bool.and_eq_true, beq_iff_eq] at hkey
      have hsame : Client.complete p b client = client :=
        if_neg fun hboth => hne ⟨hboth.1.symm.trans hkey.1, hboth.2.symm.trans hkey.2⟩
      rw [hsame]
    · simp [his]
  exact ⟨hcount (· == .joinStarted), hcount (· == .joinCompleted), hcount (· != .unjoined)⟩

/-- Completing the join of a process whose connections are engaged. -/
theorem counts_complete (hengaged : ∀ client ∈ list,
      client.pid = pid → client.groupName.bytes = bytes → client.cpdState ≠ .unjoined) :
    starting (list.map (Client.complete pid bytes)) pid bytes = 0 ∧
      joined (list.map (Client.complete pid bytes)) pid bytes = engaged list pid bytes ∧
      engaged (list.map (Client.complete pid bytes)) pid bytes = engaged list pid bytes := by
  have hcount : ∀ f : CpdState → Bool, (list.map (Client.complete pid bytes)).countP
      (fun client => Client.is pid bytes client && f client.cpdState) =
        list.countP fun client => f .joinCompleted &&
          (Client.is pid bytes client && client.cpdState != .unjoined) := by
    intro f
    rw [countP_map]
    refine countP_congr fun client hclient => ?_
    simp only [Function.comp_apply, is_complete]
    by_cases his : Client.is pid bytes client = true
    · have hkey := his
      simp only [Client.is, Bool.and_eq_true, beq_iff_eq] at hkey
      have hcomplete : Client.complete pid bytes client =
        { client with cpdState := .joinCompleted } := if_pos hkey
      simp [hcomplete, his, hengaged client hclient hkey.1 hkey.2]
    · simp [his]
  exact ⟨(hcount (· == .joinStarted)).trans (by simp), hcount (· == .joinCompleted),
    hcount (· != .unjoined)⟩

/-- The join of a process is delivered: its connection has joined. -/
theorem GhostInv.deliverJoin (h : s.GhostInv)
    (hclients : s'.clients = if s.own p group.bytes then s.clients
      else s.clients.map (Client.complete p group.bytes))
    (hclosing : s'.closing = s.closing)
    (hown : ∀ pid bytes, s'.own pid bytes =
      (s.own pid bytes || (p == pid && group.bytes == bytes)))
    (hannouncements : s.announcements = .procjoin group p :: s'.announcements)
    (hconns : s'.Conns) : s'.GhostInv := by
  have hcount := countP_join (List.Perm.of_eq hannouncements)
  -- the process is not in the list yet and has one connection, whose join has started
  obtain ⟨hjoins, hpresent, habsent, hlisted⟩ := h.phase p group.bytes
  have hone := (hcount p group.bytes).1
  rw [if_pos ⟨rfl, rfl⟩] at hone
  have hnone : s.own p group.bytes = false := by
    rw [Bool.eq_false_iff]
    intro htrue
    rw [htrue, Bool.toNat_true] at habsent
    omega
  rw [hnone] at hclients hpresent habsent
  rw [if_neg Bool.false_ne_true] at hclients
  have hle := @starting_le p group.bytes s.clients
  obtain ⟨started, hstarted, hfound⟩ := countP_pos_iff.mp
    (show 0 < starting s.clients p group.bytes by omega)
  simp only [Client.is, Bool.and_eq_true, beq_iff_eq] at hfound
  have hkey : ¬ (p = 0 ∧ group.bytes = []) := by
    rw [← hfound.1.1, ← hfound.1.2, ← h.zero started (mem_append_left _ hstarted), hfound.2]
    simp
  refine ⟨hconns, fun other hother => ?_, hclosing ▸ h.closing, fun pid bytes => ?_⟩
  · rcases mem_append.mp hother with hother | hother
    · rw [hclients] at hother
      obtain ⟨before, hbefore, rfl⟩ := mem_map.mp hother
      unfold Client.complete
      split
      · rename_i hsame
        simpa [hsame] using hkey
      · exact h.zero before (mem_append_left _ hbefore)
    · exact h.zero other (mem_append_right _ (hclosing ▸ hother))
  · obtain ⟨hjoin, hleave⟩ := hcount pid bytes
    by_cases hsame : p = pid ∧ group.bytes = bytes
    · obtain ⟨rfl, rfl⟩ := hsame
      have hengaged : ∀ client ∈ s.clients, client.pid = p →
          client.groupName.bytes = group.bytes → client.cpdState ≠ .unjoined := by
        rintro client hclient rfl hbytes hunjoined
        rw [h.zero client (mem_append_left _ hclient), hbytes] at hunjoined
        exact hkey hunjoined
      obtain ⟨hstarting', hjoined', hengaged'⟩ := counts_complete hengaged
      rw [← hclients] at hstarting' hjoined' hengaged'
      rw [joined_append] at hpresent
      simp only [Bool.toNat_false] at hpresent habsent
      have hpresentAfter : (s'.own p group.bytes).toNat = 1 := by simp [hown]
      refine ⟨by omega, ?_, by omega, by omega⟩
      rw [joined_append, hclosing]
      omega
    · obtain ⟨hjoins', hpresent', habsent', hlisted'⟩ := h.phase pid bytes
      obtain ⟨hstarting', hjoined', hengaged'⟩ := counts_complete_of_ne hsame s.clients
      rw [← hclients] at hstarting' hjoined' hengaged'
      rw [if_neg hsame] at hjoin
      have hsameOwn : s'.own pid bytes = s.own pid bytes := by
        rw [hown]
        simpa using fun hpid hbytes => absurd ⟨hpid, hbytes⟩ hsame
      rw [joined_append] at hpresent'
      refine ⟨by omega, ?_, ?_, by omega⟩
      · rw [joined_append, hclosing, hsameOwn]
        omega
      · rw [hsameOwn]
        omega

/-- The own leave is delivered. -/
theorem GhostInv.deliverLeave (h : s.GhostInv) {reason : Reason}
    (hclients : s'.clients = s.clients) (hclosing : s'.closing = s.closing)
    (hown : ∀ pid bytes, s'.own pid bytes =
      (s.own pid bytes && !(p == pid && group.bytes == bytes)))
    (hannouncements : s.announcements = .procleave group p reason :: s'.announcements)
    (hconns : s'.Conns) : s'.GhostInv := by
  refine ⟨hconns, ?_, hclosing ▸ h.closing, fun pid bytes => ?_⟩
  · rw [hclients, hclosing]
    exact h.zero
  obtain ⟨hjoins, hpresent, habsent, hlisted⟩ := h.phase pid bytes
  obtain ⟨hjoin, hleave⟩ := countP_leave (List.Perm.of_eq hannouncements) pid bytes
  have hle := Bool.toNat_le (s.own pid bytes)
  have hownNat : (s'.own pid bytes).toNat =
      if p = pid ∧ group.bytes = bytes then 0 else (s.own pid bytes).toNat := by
    rw [hown]
    split
    · rename_i hsame
      simp [hsame]
    · rename_i hsame
      rw [show (p == pid && group.bytes == bytes) = false by simpa using hsame]
      simp
  refine ⟨by rw [hclients]; omega, ?_, ?_, hclients ▸ hlisted⟩
  · rw [hclients, hclosing, hownNat]
    split at hleave
    · rename_i hsame
      rw [if_pos hsame]
      omega
    · rename_i hsame
      rw [if_neg hsame]
      omega
  · rw [hclients, hownNat]
    split <;> omega

/-- Every orderly step keeps the counts. -/
theorem GhostInv.step (h : s.GhostInv) (hcond : s.Orderly event)
    (hstep : s.step event = some s') : s'.GhostInv := by
  have hconns := h.conns.step hstep
  cases step_outcome h.conns hstep with
  | quiet hclients hclosing hown hannouncements _ _ =>
    refine ⟨hconns, ?_, hclosing ▸ h.closing, fun pid bytes => ?_⟩
    · rw [hclients, hclosing]
      exact h.zero
    obtain ⟨hjoins, hpresent, habsent, hlisted⟩ := h.phase pid bytes
    refine ⟨?_, ?_, ?_, by rw [hclients]; exact hlisted⟩
    · rw [hclients, hannouncements.countP_eq]
      exact hjoins
    · rw [hclients, hclosing, hannouncements.countP_eq, hown]
      exact hpresent
    · rw [hclients, hown]
      exact habsent
  | init conn _ _ hclients hclosing hown hannouncements _ _ =>
    refine ⟨hconns, fun client hclient => ?_, hclosing ▸ h.closing, fun pid bytes => ?_⟩
    · rw [hclients, hclosing, cons_append] at hclient
      rcases mem_cons.mp hclient with rfl | hclient
      · exact ⟨fun _ => ⟨rfl, rfl⟩, fun _ => rfl⟩
      · exact h.zero client hclient
    · obtain ⟨hjoins, hpresent, habsent, hlisted⟩ := h.phase pid bytes
      obtain ⟨hstarting, hjoined, hengaged⟩ := counts_of_perm
        (List.Perm.refl (⟨conn, .zero, 0, .unjoined⟩ :: s.clients)) pid bytes
      rw [← hclients] at hstarting hjoined hengaged
      simp only [one, reduceCtorEq, and_false, if_false, Nat.add_zero] at hstarting hjoined hengaged
      rw [joined_append] at hpresent
      refine ⟨?_, ?_, ?_, by omega⟩
      · rw [hannouncements]
        omega
      · rw [joined_append, hclosing, hannouncements, hown]
        omega
      · rw [hown]
        omega
  | join _ _ _ _ hclient hstate hnew hnone hclients hclosing hown hannouncements _ _ =>
    exact h.join hclient hstate hnew hnone hclients hclosing hown hannouncements hconns
  | leave client _ _ hevent hclient hstate hclients hclosing hown hannouncements _ _ =>
    subst hevent
    obtain ⟨rfl, hgroup⟩ := hcond client hclient rfl
    exact h.leave hclient hstate hgroup hclients hclosing hown hannouncements hconns
  | finalize client hevent hclient hclients hclosing hown hannouncements _ _ =>
    subst hevent
    exact h.finalize hclient (hcond client hclient rfl) hclients hclosing hown hannouncements hconns
  | exit client hevent hclient hclients hclosing hown hannouncements _ _ =>
    subst hevent
    obtain ⟨hstate, hname⟩ := hcond.2 client hclient rfl
    exact h.exit hclient hstate hname hcond.1 hclients hclosing hown hannouncements hconns
  | deliverJoin _ _ _ _ hclients hclosing hown hannouncements _ _ =>
    exact h.deliverJoin hclients hclosing hown hannouncements hconns
  | deliverLeave _ _ _ _ _ hclients hclosing hown hannouncements _ _ =>
    exact h.deliverLeave hclients hclosing hown hannouncements hconns

/-- With nothing on its way the list agrees with the connections. -/
theorem GhostInv.noGhosts (h : s.GhostInv) (hquiescent : s.Quiescent) : s.NoGhosts := by
  have hannouncements : s.announcements = [] := by
    obtain ⟨hinFlight, htrans, hnew⟩ := hquiescent
    simp [announcements, Totem.queued, hinFlight, htrans, hnew]
  have hjoined : ∀ pid bytes, joined (s.clients ++ s.closing) pid bytes =
      (s.own pid bytes).toNat := by
    intro pid bytes
    have hpresent := (h.phase pid bytes).present
    rw [hannouncements] at hpresent
    exact hpresent
  refine ⟨fun pi hpi hnodeid => ?_, fun client hclient hstate => ?_⟩
  · have hown : s.own pi.pid pi.group.bytes = true :=
      CpgNode.has_iff.mpr ⟨pi, hpi, rfl, hnodeid, rfl⟩
    have hpos : 0 < joined (s.clients ++ s.closing) pi.pid pi.group.bytes := by
      rw [hjoined, hown]
      exact Nat.one_pos
    obtain ⟨client, hclient, hcount⟩ := countP_pos_iff.mp hpos
    simp only [Client.is, Bool.and_eq_true, beq_iff_eq] at hcount
    exact ⟨client, hclient, hcount.1.1, hcount.1.2, hcount.2⟩
  · have hpos : 0 < joined (s.clients ++ s.closing) client.pid client.groupName.bytes := by
      refine countP_pos_iff.mpr ⟨client, hclient, ?_⟩
      simp [Client.is, hstate]
    rw [hjoined] at hpos
    cases hown : s.own client.pid client.groupName.bytes with
    | true => rfl
    | false =>
      rw [hown] at hpos
      exact absurd hpos (Nat.lt_irrefl 0)

/-- In every orderly run the list agrees with the connections whenever everything the node has
queued is delivered. -/
theorem no_ghosts {nodeid : ℕ} {events : List LocalEvent} {s : Local}
    (hrun : run (restrict Orderly Local.step) (start nodeid) events = some s)
    (hquiescent : s.Quiescent) : s.NoGhosts := by
  have h : s.GhostInv := by
    refine run_invariant (fun s event s' hinv hstep => ?_) (GhostInv.start nodeid) hrun
    obtain ⟨hcond, hstep⟩ := restrict_eq_some.mp hstep
    exact hinv.step hcond hstep
  exact h.noGhosts hquiescent

/-- A group. -/
def groupG : CpgName := ⟨[103], List.replicate 127 0⟩

/-- Two processes join; during a configuration change one of them is closed. -/
def joinJoinExit : List LocalEvent :=
  [.syncCompleted, .init 1, .join 1 10 groupG, .init 2, .join 2 20 groupG, .transmit, .transmit,
    .deliver, .deliver, .syncInit [1] [1], .exit 1, .syncProcess, .transmit, .transmit, .transmit,
    .deliver, .deliver, .deliver, .syncActivate, .syncCompleted]

/-- The list agrees with the connections there. -/
theorem no_ghosts_joinJoinExit :
    ∃ s, run (restrict Orderly Local.step) (start 1) joinJoinExit = some s ∧ s.NoGhosts ∧
      s.own 10 groupG.bytes = false ∧ s.own 20 groupG.bytes = true :=
  ⟨_, rfl, @no_ghosts 1 joinJoinExit _ rfl ⟨rfl, rfl, rfl⟩, rfl, rfl⟩

/-- A connection is closed during a configuration change while its join is still queued. The leave
is delivered first, then the join, and the process stays in the list. -/
theorem leave_overtakes_join :
    ∃ s, run Local.step (start 1) [.syncCompleted, .init 1, .join 1 10 groupG,
        .syncInit [1] [1], .exit 1, .transmit, .deliver, .syncActivate, .syncCompleted, .transmit,
        .deliver] = some s ∧
      s.Quiescent ∧ s.node.processInfoList = [⟨1, 10, groupG⟩] ∧ s.clients ++ s.closing = [] ∧
      ¬ s.NoGhosts := by
  refine ⟨_, rfl, ⟨rfl, rfl, rfl⟩, rfl, rfl, fun h => ?_⟩
  obtain ⟨client, hclient, -⟩ := h.entry ⟨1, 10, groupG⟩ mem_cons_self rfl
  cases hclient

end Local

end Corosync.Cpg
