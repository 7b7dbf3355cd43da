import Mathlib.Data.List.Chain
import Corosync.Cpg.Effects

/-!
# Configuration changes of a group

A connection that starts with the members of its join and then applies every configuration change,
taking out those that left and adding those that joined, is meant to have the members that the
change itself lists, which are the processes of the group in the list of the node. It is said here
what a single event, and the events of a map with one entry for each group, do to this.
-/

namespace Corosync.Cpg

open List CpgNode

/-- A configuration change that is sent to a connection. -/
structure Confchg where
  group : CpgName
  memberList : List CpgAddress
  leftList : List CpgAddress
  joinedList : List CpgAddress
  deriving DecidableEq, Repr

/-- A list names a process. -/
def named (list : List CpgAddress) (nodeid pid : ℕ) : Bool :=
  list.any fun address => address.nodeid == nodeid && address.pid == pid

/-- The members after a change are those before it without those that left and with those that
joined. -/
def Confchg.Follows (before change : Confchg) : Prop :=
  ∀ nodeid pid, named change.memberList nodeid pid =
    ((named before.memberList nodeid pid && !named change.leftList nodeid pid) ||
      named change.joinedList nodeid pid)

/-- A connection that is told of the changes in its group. -/
def Client.joined (client : Client) : Bool :=
  client.cpdState == .joinCompleted || client.cpdState == .leaveStarted

namespace CpgNode

variable (node : CpgNode)

/-- The listed connections. -/
def clients : List Client := node.cpgPdList.map CpgPd.core

/-- What one message to a connection says. -/
def confchgTo (conn : ℕ) : ℕ × Dispatch → Option Confchg
  | (receiver, .confchg group members left joined) =>
    if receiver = conn then some ⟨group, members, left, joined⟩ else none
  | _ => none

/-- The changes a connection was told of, oldest first. -/
def confchgs (conn : ℕ) : List Confchg := node.dispatched.filterMap (confchgTo conn)

/-- A connection can replay the changes from its join to the members of its group. -/
structure ReplaysTo (client : Client) (members : ℕ → ℕ → Bool) : Prop where
  first : ∀ change, (node.confchgs client.conn).head? = some change →
    named change.joinedList node.nodeid client.pid = true
  group : ∀ change ∈ node.confchgs client.conn, change.group.bytes = client.groupName.bytes
  chain : (node.confchgs client.conn).IsChain Confchg.Follows
  last : ∃ change, (node.confchgs client.conn).getLast? = some change ∧
    ∀ nodeid pid, named change.memberList nodeid pid = members nodeid pid

/-- Every connection that has joined a group can replay to the list of processes. -/
def Replays : Prop :=
  ∀ client ∈ node.clients, client.joined = true →
    node.ReplaysTo client fun nodeid pid => node.has nodeid pid client.groupName.bytes

/-- Every connection can replay to a view of the groups; those that have not joined were told
nothing. -/
structure Told (view : List UInt8 → ℕ → ℕ → Bool) : Prop where
  nodup : (node.clients.map Client.conn).Nodup
  joined : ∀ client ∈ node.clients, client.joined = true →
    node.ReplaysTo client (view client.groupName.bytes)
  silent : ∀ client ∈ node.clients, client.joined = false → node.confchgs client.conn = []

/-- The processes of a group. -/
def view (bytes : List UInt8) (nodeid pid : ℕ) : Bool := node.has nodeid pid bytes

/-- A connection after an event. -/
def complete (joinedList : List CpgAddress) (group : CpgName) (client : Client) : Client :=
  if named joinedList node.nodeid client.pid && client.groupName.bytes == group.bytes then
    { client with cpdState := .joinCompleted }
  else
    client

/-- The connection is told of an event. -/
def tells (joinedList : List CpgAddress) (group : CpgName) (client : Client) : Bool :=
  (node.complete joinedList group client).joined && client.groupName.bytes == group.bytes

end CpgNode

variable {node node' : CpgNode} {group : CpgName} {joinedList leftList : List CpgAddress}
  {view : List UInt8 → ℕ → ℕ → Bool}

section Notify

/-- A completed join leaves the connection as it is. -/
@[simp]
theorem complete_conn (client : Client) :
    (node.complete joinedList group client).conn = client.conn := by
  unfold complete
  split <;> rfl

/-- A completed join leaves the group as it is. -/
@[simp]
theorem complete_groupName (client : Client) :
    (node.complete joinedList group client).groupName = client.groupName := by
  unfold complete
  split <;> rfl

/-- A completed join leaves the process as it is. -/
@[simp]
theorem complete_pid (client : Client) :
    (node.complete joinedList group client).pid = client.pid := by
  unfold complete
  split <;> rfl

/-- What a completed join changes of a client. -/
theorem completeJoin_core (cpd : CpgPd) :
    (node.completeJoin joinedList group cpd).core = node.complete joinedList group cpd.core := by
  unfold completeJoin complete
  have hsame : node.names joinedList group cpd =
      (named joinedList node.nodeid cpd.core.pid && cpd.core.groupName.bytes == group.bytes) := rfl
  rw [hsame]
  split <;> rfl

/-- Who receives the event after completed joins. -/
theorem completeJoin_receives (cpd : CpgPd) :
    (node.completeJoin joinedList group cpd).receives group =
      node.tells joinedList group cpd.core := by
  have hcore := @completeJoin_core node group joinedList cpd
  have hbytes : (node.completeJoin joinedList group cpd).groupName = cpd.core.groupName := by
    have := congrArg Client.groupName hcore
    rwa [complete_groupName] at this
  have hstate : (node.completeJoin joinedList group cpd).cpdState =
      (node.complete joinedList group cpd.core).cpdState := congrArg Client.cpdState hcore
  rw [CpgPd.receives, hbytes, hstate, Bool.and_comm]
  rfl

/-- The event completes the joins of the clients it names. -/
theorem notify_clients (honly : joinedList = [] ∨ leftList = []) :
    (node.notifyLibJoinlist group joinedList leftList).clients =
      node.clients.map (node.complete joinedList group) := by
  rw [clients, notifyLibJoinlist_core honly, clients, map_map]
  refine map_congr_left fun cpd _ => ?_
  exact completeJoin_core cpd

/-- What an event sends to a connection. -/
theorem filterMap_confchgTo {list : List CpgPd} (members : List CpgAddress)
    (hnodup : (list.map CpgPd.conn).Nodup) {cpd : CpgPd} (hcpd : cpd ∈ list) :
    (((list.map (node.completeJoin joinedList group)).filter
        fun cpd => cpd.receives group).map fun cpd =>
          (cpd.conn, Dispatch.confchg group members leftList joinedList)).filterMap
        (confchgTo cpd.conn) =
      if node.tells joinedList group cpd.core then [⟨group, members, leftList, joinedList⟩]
      else [] := by
  have hconn : ∀ other : CpgPd, (node.completeJoin joinedList group other).conn = other.conn := by
    intro other
    have := congrArg Client.conn (@completeJoin_core node group joinedList other)
    rwa [complete_conn] at this
  have hnone : ∀ list : List CpgPd, cpd.conn ∉ list.map CpgPd.conn →
      (((list.map (node.completeJoin joinedList group)).filter
        fun cpd => cpd.receives group).map fun cpd =>
          (cpd.conn, Dispatch.confchg group members leftList joinedList)).filterMap
        (confchgTo cpd.conn) = [] := by
    intro list hnot
    rw [filterMap_eq_nil_iff]
    intro sent hsent
    obtain ⟨other, hother, rfl⟩ := mem_map.mp hsent
    obtain ⟨before, hbefore, rfl⟩ := mem_map.mp (mem_filter.mp hother).1
    refine if_neg fun heq => hnot ?_
    rw [← heq, hconn]
    exact mem_map_of_mem hbefore
  induction list with
  | nil => cases hcpd
  | cons first rest ih =>
    rw [map_cons, nodup_cons] at hnodup
    rw [map_cons, filter_cons]
    rcases mem_cons.mp hcpd with rfl | hrest
    · rw [completeJoin_receives]
      split
      · rename_i htells
        rw [map_cons, filterMap_cons, hnone rest hnodup.1, hconn]
        simp [confchgTo]
      · exact hnone rest hnodup.1
    · have hne : first.conn ≠ cpd.conn := fun heq =>
        hnodup.1 (heq ▸ mem_map_of_mem hrest)
      split
      · rw [map_cons, filterMap_cons, hconn]
        simp only [confchgTo, if_neg hne]
        exact ih hnodup.2 hrest
      · exact ih hnodup.2 hrest

/-- The changes of a connection after an event. -/
theorem notify_confchgs (hnodup : (node.clients.map Client.conn).Nodup) {client : Client}
    (hclient : client ∈ node.clients) :
    (node.notifyLibJoinlist group joinedList leftList).confchgs client.conn =
      node.confchgs client.conn ++
        if node.tells joinedList group client then
          [⟨group, node.fillMemberList group leftList, leftList, joinedList⟩]
        else [] := by
  obtain ⟨cpd, hcpd, rfl⟩ := mem_map.mp hclient
  rw [clients, map_map] at hnodup
  simp only [confchgs, notifyLibJoinlist, filterMap_append]
  congr 1
  exact filterMap_confchgTo (node.fillMemberList group leftList) hnodup hcpd

section Replays

variable {client client' : Client} {members : ℕ → ℕ → Bool} {change : Confchg}

/-- A connection that gets no event replays as before. -/
theorem CpgNode.ReplaysTo.congr (h : node.ReplaysTo client members)
    (hnodeid : node'.nodeid = node.nodeid) (hconn : client'.conn = client.conn)
    (hpid : client'.pid = client.pid) (hname : client'.groupName = client.groupName)
    (hconfchgs : node'.confchgs client.conn = node.confchgs client.conn) :
    node'.ReplaysTo client' members := by
  obtain ⟨hfirst, hgroup, hchain, hlast⟩ := h
  rw [← hconfchgs, ← hconn] at hfirst hgroup hchain hlast
  rw [← hnodeid, ← hpid] at hfirst
  rw [← hname] at hgroup
  exact ⟨hfirst, hgroup, hchain, hlast⟩

/-- The first event of a connection is its own join. -/
theorem CpgNode.replaysTo_singleton (hconfchgs : node.confchgs client.conn = [change])
    (hgroup : change.group.bytes = client.groupName.bytes)
    (hnames : named change.joinedList node.nodeid client.pid = true) :
    node.ReplaysTo client (named change.memberList) := by
  refine ⟨fun first hfirst => ?_, fun other hother => ?_, ?_, change, ?_, fun _ _ => rfl⟩
  · rw [hconfchgs] at hfirst
    cases hfirst
    exact hnames
  · rw [hconfchgs] at hother
    rw [mem_singleton.mp hother]
    exact hgroup
  · rw [hconfchgs]
    exact isChain_singleton _
  · rw [hconfchgs]
    rfl

/-- A connection replays one more event. -/
theorem CpgNode.ReplaysTo.concat (h : node.ReplaysTo client members)
    (hconfchgs : node'.confchgs client.conn = node.confchgs client.conn ++ [change])
    (hnodeid : node'.nodeid = node.nodeid)
    (hgroup : change.group.bytes = client.groupName.bytes)
    (hfollows : ∀ nodeid pid, named change.memberList nodeid pid =
      ((members nodeid pid && !named change.leftList nodeid pid) ||
        named change.joinedList nodeid pid)) :
    node'.ReplaysTo client (named change.memberList) := by
  obtain ⟨hfirst, hsame, hchain, last, hlast, hmembers⟩ := h
  have hne : node.confchgs client.conn ≠ [] := by
    intro heq
    rw [heq] at hlast
    cases hlast
  refine ⟨fun first hfirst' => ?_, fun other hother => ?_, ?_, change, ?_, fun _ _ => rfl⟩
  · rw [hconfchgs, head?_append_of_ne_nil _ hne] at hfirst'
    rw [hnodeid]
    exact hfirst first hfirst'
  · rw [hconfchgs] at hother
    rcases mem_append.mp hother with hother | hother
    · exact hsame other hother
    · rw [mem_singleton.mp hother]
      exact hgroup
  · rw [hconfchgs]
    refine List.IsChain.append hchain (isChain_singleton _) fun before hbefore new hnew => ?_
    obtain rfl : new = _ := (Option.some.inj hnew).symm
    obtain rfl : before = last := Option.some.inj (hbefore.symm.trans hlast)
    intro nodeid pid
    rw [hmembers]
    exact hfollows nodeid pid
  · rw [hconfchgs]
    exact getLast?_concat

end Replays

/-- The connections stay the same. -/
theorem notify_clients_conn (honly : joinedList = [] ∨ leftList = []) :
    (node.notifyLibJoinlist group joinedList leftList).clients.map Client.conn =
      node.clients.map Client.conn := by
  rw [notify_clients honly, map_map]
  exact map_congr_left fun client _ => complete_conn client

/-- The other clients stay as they are. -/
theorem complete_of_not_joins {client : Client}
    (hnot : ¬(named joinedList node.nodeid client.pid = true ∧
      client.groupName.bytes = group.bytes)) : node.complete joinedList group client = client :=
  if_neg fun hboth => hnot (by simpa using hboth)

/-- A client that has joined stays so. -/
theorem joined_complete {client : Client} (h : client.joined = true) :
    (node.complete joinedList group client).joined = true := by
  unfold complete
  split
  · rfl
  · exact h

/-- An event that follows from the view of its group makes the connections of the group see the
members that it lists. -/
theorem CpgNode.Told.notify (h : node.Told view) (honly : joinedList = [] ∨ leftList = [])
    (hfollows : ∀ nodeid pid, named (node.fillMemberList group leftList) nodeid pid =
      ((view group.bytes nodeid pid && !named leftList nodeid pid) ||
        named joinedList nodeid pid)) :
    (node.notifyLibJoinlist group joinedList leftList).Told
      (Function.update view group.bytes (named (node.fillMemberList group leftList))) := by
  refine ⟨by rw [notify_clients_conn honly]; exact h.nodup, fun after hafter hjoined => ?_,
    fun after hafter hjoined => ?_⟩ <;>
    rw [notify_clients honly] at hafter <;>
    obtain ⟨client, hclient, rfl⟩ := mem_map.mp hafter <;>
    have hconfchgs := @notify_confchgs node group joinedList leftList h.nodup client hclient
  · by_cases hgroup : client.groupName.bytes = group.bytes
    · have htells : node.tells joinedList group client = true := by
        rw [tells, hjoined, Bool.true_and, hgroup]
        exact beq_self_eq_true _
      rw [if_pos htells] at hconfchgs
      rw [complete_groupName, hgroup, Function.update_self]
      have hreplays : (node.notifyLibJoinlist group joinedList leftList).ReplaysTo client
          (named (node.fillMemberList group leftList)) := by
        -- the connection had joined before, or this is its join
        cases hbefore : client.joined with
        | true =>
          have hreplays := h.joined client hclient hbefore
          rw [hgroup] at hreplays
          exact hreplays.concat hconfchgs rfl hgroup.symm hfollows
        | false =>
          rw [h.silent client hclient hbefore, nil_append] at hconfchgs
          have hnames : named joinedList node.nodeid client.pid = true := by
            by_contra hnot
            rw [complete_of_not_joins fun hboth => hnot hboth.1, hbefore] at hjoined
            cases hjoined
          exact replaysTo_singleton hconfchgs hgroup.symm hnames
      exact hreplays.congr rfl (complete_conn _) (complete_pid _) (complete_groupName _) rfl
    · have htells : node.tells joinedList group client = false := by
        rw [tells, Bool.and_eq_false_iff]
        exact Or.inr (beq_eq_false_iff_ne.mpr hgroup)
      rw [htells, if_neg Bool.false_ne_true, append_nil] at hconfchgs
      rw [complete_of_not_joins fun hboth => hgroup hboth.2] at hjoined ⊢
      rw [Function.update_of_ne hgroup]
      exact (h.joined client hclient hjoined).congr rfl rfl rfl rfl hconfchgs
  · have hbefore : client.joined = false := by
      rw [Bool.eq_false_iff]
      exact fun htrue => absurd (hjoined.symm.trans (joined_complete htrue)) (by simp)
    have htells : node.tells joinedList group client = false := by
      rw [tells, hjoined, Bool.false_and]
    rw [complete_conn, hconfchgs, htells, if_neg Bool.false_ne_true, append_nil]
    exact h.silent client hclient hbefore

end Notify

end Corosync.Cpg
