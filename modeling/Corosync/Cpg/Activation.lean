import Corosync.Cpg.Confchg

/-!
# The events of the handlers

A join and a leave send one event each. An activation sends one event to each group that has lost
processes with a node, one to each group that gets processes from the joinlists, and one for each
process that has disappeared from the joinlist of its node.
-/

namespace Corosync.Cpg

open Function Library List CpgNode

variable {node node' : CpgNode} {group : CpgName} {view : List UInt8 → ℕ → ℕ → Bool}
  {items : List (CpgName × CpgAddress)}

namespace CpgNode

/-- Other connections that have joined come from such ones, and nothing is sent. -/
theorem Told.of_clients (h : node.Told view) (hnodup : (node'.clients.map Client.conn).Nodup)
    (hconfchgs : ∀ conn, node'.confchgs conn = node.confchgs conn)
    (hnodeid : node'.nodeid = node.nodeid)
    (hjoined : ∀ client ∈ node'.clients, client.joined = true → ∃ before ∈ node.clients,
      before.joined = true ∧ before.conn = client.conn ∧ before.pid = client.pid ∧
        before.groupName = client.groupName)
    (hsilent : ∀ client ∈ node'.clients, client.joined = false →
      node.confchgs client.conn = []) : node'.Told view := by
  refine ⟨hnodup, fun client hclient hstate => ?_, fun client hclient hstate => ?_⟩
  · obtain ⟨before, hbefore, hbeforeState, hconn, hpid, hname⟩ := hjoined client hclient hstate
    rw [← hname]
    exact (h.joined before hbefore hbeforeState).congr hnodeid hconn.symm hpid.symm hname.symm
      (hconfchgs before.conn)
  · rw [hconfchgs]
    exact hsilent client hclient hstate

/-- The same clients with the same events are told the same. -/
theorem Told.congr (h : node.Told view) (hclients : node'.clients = node.clients)
    (hconfchgs : ∀ conn, node'.confchgs conn = node.confchgs conn)
    (hnodeid : node'.nodeid = node.nodeid) : node'.Told view := by
  refine h.of_clients ?_ hconfchgs hnodeid ?_ ?_
  · rw [hclients]
    exact h.nodup
  · rw [hclients]
    exact fun client hclient hstate => ⟨client, hclient, hstate, rfl, rfl, rfl⟩
  · rw [hclients]
    exact h.silent

/-- What the connections are told is right when it is the list of processes. -/
theorem Told.replays (h : node.Told node.view) : node.Replays := h.joined

end CpgNode

/-- The list of members names those that have not left. -/
theorem named_fillMemberList (group : CpgName) (left : List CpgAddress) (nodeid pid : ℕ) :
    named (node.fillMemberList group left) nodeid pid =
      (node.has nodeid pid group.bytes && !named left nodeid pid) := by
  rw [Bool.eq_iff_iff, Bool.and_eq_true, has_iff, named, any_eq_true]
  simp only [fillMemberList, mem_map, mem_filter, Bool.and_eq_true, beq_iff_eq]
  constructor
  · rintro ⟨address, ⟨pi, ⟨hpi, hbytes, hleft⟩, rfl⟩, rfl, rfl⟩
    exact ⟨⟨pi, hpi, rfl, rfl, hbytes⟩, hleft⟩
  · rintro ⟨⟨pi, hpi, rfl, rfl, hbytes⟩, hleft⟩
    exact ⟨_, ⟨pi, ⟨hpi, hbytes, hleft⟩, rfl⟩, rfl, rfl⟩

/-- An event that takes the connections of a group from one view to another one. -/
theorem CpgNode.Told.notify_to {joinedList leftList : List CpgAddress} (h : node.Told view)
    (honly : joinedList = [] ∨ leftList = []) {new : List UInt8 → ℕ → ℕ → Bool}
    (hmembers : ∀ n p, new group.bytes n p = (node.has n p group.bytes && !named leftList n p))
    (hfollows : ∀ n p, new group.bytes n p =
      ((view group.bytes n p && !named leftList n p) || named joinedList n p))
    (hother : ∀ bytes, bytes ≠ group.bytes → new bytes = view bytes) :
    (node.notifyLibJoinlist group joinedList leftList).Told new := by
  have hlist : named (node.fillMemberList group leftList) = new group.bytes := by
    funext n p
    rw [named_fillMemberList, hmembers]
  have htold := h.notify honly fun n p => (congrFun (congrFun hlist n) p).trans (hfollows n p)
  have hnew : Function.update view group.bytes (named (node.fillMemberList group leftList)) =
      new := by
    funext bytes
    by_cases hbytes : bytes = group.bytes
    · rw [hbytes, update_self, hlist]
    · rw [update_of_ne hbytes, hother bytes hbytes]
  rwa [hnew] at htold

/-- An empty list names nobody. -/
theorem named_nil (n p : ℕ) : named [] n p = false := rfl

/-- A list of one address names its process. -/
theorem named_singleton (nodeid pid : ℕ) (reason : Reason) (n p : ℕ) :
    named [⟨nodeid, pid, reason⟩] n p = (pid == p && nodeid == n) := by
  rw [named, any_cons, any_nil, Bool.or_false, Bool.and_comm]

/-- A join is told to the clients of the group. -/
theorem doProcJoin_told (h : node.Told node.view) (pid nodeid : ℕ) (reason : Reason) :
    (node.doProcJoin group pid nodeid reason).Told
      (node.doProcJoin group pid nodeid reason).view := by
  by_cases hfind : node.processInfoFind group pid nodeid = true
  · have hsame : node.doProcJoin group pid nodeid reason = node := if_pos hfind
    rw [hsame]
    exact h
  have hjoin : node.doProcJoin group pid nodeid reason =
      (node.insertProcess ⟨nodeid, pid, group⟩).notifyLibJoinlist group
        [⟨nodeid, pid, reason⟩] [] := if_neg hfind
  have hinsert : (node.insertProcess ⟨nodeid, pid, group⟩).Told node.view :=
    h.congr rfl (fun _ => rfl) rfl
  have hview : ∀ bytes n p, (node.doProcJoin group pid nodeid reason).view bytes n p =
      (node.view bytes n p || (pid == p && nodeid == n && group.bytes == bytes)) :=
    fun bytes n p => has_doProcJoin pid nodeid reason
  generalize (node.doProcJoin group pid nodeid reason).view = new at hview ⊢
  rw [hjoin]
  refine hinsert.notify_to (.inr rfl) (fun n p => ?_) (fun n p => ?_) fun bytes hbytes => ?_
  · rw [hview, has_insertProcess, named_nil, Bool.not_false, Bool.and_true]
    rfl
  · rw [hview, named_nil, named_singleton, Bool.not_false, Bool.and_true, beq_self_eq_true,
      Bool.and_true]
  · funext n p
    have hfalse : (group.bytes == bytes) = false := beq_eq_false_iff_ne.mpr (Ne.symm hbytes)
    rw [hview, hfalse, Bool.and_false, Bool.or_false]

/-- A leave is told to the clients of the group. -/
theorem doProcLeave_told (h : node.Told node.view) (pid nodeid : ℕ) (reason : Reason) :
    (node.doProcLeave group pid nodeid reason).Told
      (node.doProcLeave group pid nodeid reason).view := by
  have hview : ∀ bytes n p, (node.doProcLeave group pid nodeid reason).view bytes n p =
      (node.view bytes n p && !(pid == p && nodeid == n && group.bytes == bytes)) :=
    fun bytes n p => has_doProcLeave pid nodeid reason
  generalize (node.doProcLeave group pid nodeid reason).view = new at hview ⊢
  have htold : (node.notifyLibJoinlist group [] [⟨nodeid, pid, reason⟩]).Told new := by
    refine h.notify_to (.inl rfl) (fun n p => ?_) (fun n p => ?_) fun bytes hbytes => ?_
    · rw [hview, named_singleton, beq_self_eq_true, Bool.and_true]
      rfl
    · rw [hview, named_singleton, named_nil, beq_self_eq_true, Bool.and_true, Bool.or_false]
    · funext n p
      have hfalse : (group.bytes == bytes) = false := beq_eq_false_iff_ne.mpr (Ne.symm hbytes)
      rw [hview, hfalse, Bool.and_false, Bool.not_false, Bool.and_true]
  exact htold.congr rfl (fun _ => rfl) rfl

/-- The events of a leave name the process that left. -/
theorem doProcLeave_confchgs (h : (node.clients.map Client.conn).Nodup) (pid nodeid : ℕ)
    (reason : Reason) {client : Client} (hclient : client ∈ node.clients) :
    ∃ changes, (node.doProcLeave group pid nodeid reason).confchgs client.conn =
        node.confchgs client.conn ++ changes ∧
      ∀ change ∈ changes, change.leftList = [⟨nodeid, pid, reason⟩] ∧ change.joinedList = [] := by
  refine ⟨_, notify_confchgs h hclient, fun change hchange => ?_⟩
  split at hchange
  · rw [mem_singleton.mp hchange]
    exact ⟨rfl, rfl⟩
  · cases hchange

/-- Other dispatches are not configuration changes. -/
theorem sendToGroup_confchgs {nodeid : ℕ} {dispatch : Dispatch}
    (hdispatch : ∀ conn receiver, confchgTo conn (receiver, dispatch) = none) (conn : ℕ) :
    (node.sendToGroup group nodeid dispatch).confchgs conn = node.confchgs conn := by
  unfold sendToGroup
  split
  · simp only [confchgs, filterMap_append]
    refine (congrArg _ ?_).trans (append_nil _)
    rw [filterMap_eq_nil_iff]
    intro sent hsent
    obtain ⟨cpd, -, rfl⟩ := mem_map.mp hsent
    exact hdispatch conn cpd.conn
  · rfl

/-- They leave the clients told. -/
theorem sendToGroup_told {nodeid : ℕ} {dispatch : Dispatch} (h : node.Told node.view)
    (hdispatch : ∀ conn receiver, confchgTo conn (receiver, dispatch) = none) :
    (node.sendToGroup group nodeid dispatch).Told
      (node.sendToGroup group nodeid dispatch).view := by
  have hconfchgs := @sendToGroup_confchgs node group nodeid dispatch hdispatch
  rw [sendToGroup_eq] at hconfchgs ⊢
  exact h.congr rfl hconfchgs rfl

/-- Every message leaves the clients told. -/
theorem execHandler_told (h : node.Told node.view) (nodeid : ℕ) (message : CpgMessage) :
    (node.execHandler nodeid message).Told (node.execHandler nodeid message).view := by
  cases message with
  | procjoin _ pid => exact doProcJoin_told h pid nodeid .join
  | procleave _ pid reason => exact doProcLeave_told h pid nodeid reason
  | joinlist _ => exact h.congr rfl (fun _ => rfl) rfl
  | downlist => exact h
  | mcast | partialMcast => exact sendToGroup_told h fun _ _ => rfl

/-- An entry names the collected processes of its group. -/
theorem GroupMap.Collects.named_eq {map : GroupMap} (hmap : map.Collects items)
    {entry} (hentry : entry ∈ map) (nodeid pid : ℕ) :
    named entry.2.2 nodeid pid = collected items entry.2.1.bytes nodeid pid := by
  rw [hmap.list entry hentry, named, ofGroup, any_map, any_filter]
  rfl

section Events

variable {map : GroupMap} {new : List UInt8 → ℕ → ℕ → Bool}
  (joinedOf leftOf : List CpgAddress → List CpgAddress)

/-- The events of a map with one entry for each group: the connections of all groups see the
members that the list of processes has. -/
theorem CpgNode.Told.notifyMap (h : node.Told view)
    (honly : ∀ list, joinedOf list = [] ∨ leftOf list = [])
    (hnodup : (map.map fun entry => entry.2.1.bytes).Nodup)
    (hmembers : ∀ entry ∈ map, ∀ nodeid pid,
      named (node.fillMemberList entry.2.1 (leftOf entry.2.2)) nodeid pid =
        new entry.2.1.bytes nodeid pid)
    (hfollows : ∀ entry ∈ map, ∀ nodeid pid, new entry.2.1.bytes nodeid pid =
      ((view entry.2.1.bytes nodeid pid && !named (leftOf entry.2.2) nodeid pid) ||
        named (joinedOf entry.2.2) nodeid pid))
    (hother : ∀ bytes, (∀ entry ∈ map, entry.2.1.bytes ≠ bytes) → view bytes = new bytes) :
    (node.notifyMap map fun node group list =>
      node.notifyLibJoinlist group (joinedOf list) (leftOf list)).Told new := by
  induction map generalizing node view with
  | nil =>
    have hsame : view = new := funext fun bytes =>
      hother bytes nofun
    rw [← hsame]
    exact h
  | cons entry rest ih =>
    rw [map_cons, nodup_cons] at hnodup
    have hne : ∀ other ∈ rest, other.2.1.bytes ≠ entry.2.1.bytes := fun other hmem heq =>
      hnodup.1 (mem_map.mpr ⟨other, hmem, heq⟩)
    have hnew : named (node.fillMemberList entry.2.1 (leftOf entry.2.2)) = new entry.2.1.bytes := by
      funext nodeid pid
      exact hmembers entry mem_cons_self nodeid pid
    have hfirst : ∀ nodeid pid,
        named (node.fillMemberList entry.2.1 (leftOf entry.2.2)) nodeid pid =
          ((view entry.2.1.bytes nodeid pid && !named (leftOf entry.2.2) nodeid pid) ||
            named (joinedOf entry.2.2) nodeid pid) := by
      rw [hnew]
      exact hfollows entry mem_cons_self
    have htold := h.notify (honly entry.2.2) hfirst
    rw [hnew] at htold
    refine ih htold hnodup.2 (fun other hmem => hmembers other (mem_cons_of_mem _ hmem))
      (fun other hmem nodeid pid => ?_) (fun bytes hnone => ?_)
    · rw [update_of_ne (hne other hmem)]
      exact hfollows other (mem_cons_of_mem _ hmem) nodeid pid
    by_cases hsame : bytes = entry.2.1.bytes
    · rw [hsame, update_self]
    · rw [update_of_ne hsame]
      refine hother bytes fun other hmem => ?_
      rcases mem_cons.mp hmem with rfl | hmem
      · exact Ne.symm hsame
      · exact hnone other hmem

/-- Each client gets at most the event of its group, with the addresses of the map. -/
theorem notifyMap_confchgs
    (honly : ∀ list, joinedOf list = [] ∨ leftOf list = [])
    (hnodup : (map.map fun entry => entry.2.1.bytes).Nodup)
    (hconns : (node.clients.map Client.conn).Nodup) {client : Client}
    (hclient : client ∈ node.clients) :
    ∃ changes, (node.notifyMap map fun node group list =>
        node.notifyLibJoinlist group (joinedOf list) (leftOf list)).confchgs client.conn =
          node.confchgs client.conn ++ changes ∧ changes.length ≤ 1 ∧
      ∀ change ∈ changes, change.group.bytes = client.groupName.bytes ∧
        ∃ entry ∈ map, change.group = entry.2.1 ∧ change.leftList = leftOf entry.2.2 ∧
          change.joinedList = joinedOf entry.2.2 := by
  induction map generalizing node client with
  | nil =>
    exact ⟨[], (append_nil _).symm, Nat.zero_le _, nofun⟩
  | cons entry rest ih =>
    rw [map_cons, nodup_cons] at hnodup
    have hmem : node.complete (joinedOf entry.2.2) entry.2.1 client ∈
        (node.notifyLibJoinlist entry.2.1 (joinedOf entry.2.2) (leftOf entry.2.2)).clients := by
      rw [notify_clients (honly entry.2.2)]
      exact mem_map_of_mem hclient
    obtain ⟨changes, hchanges, hlength, hfrom⟩ := ih hnodup.2
      (by rw [notify_clients_conn (honly entry.2.2)]; exact hconns) hmem
    rw [complete_conn, notify_confchgs hconns hclient] at hchanges
    by_cases htells : node.tells (joinedOf entry.2.2) entry.2.1 client = true
    · have hgroup : client.groupName.bytes = entry.2.1.bytes := by
        simp only [tells, Bool.and_eq_true, beq_iff_eq] at htells
        exact htells.2
      -- the rest of the map has other groups
      have hnone : changes = [] := by
        rw [eq_nil_iff_forall_not_mem]
        intro change hchange
        obtain ⟨hbytes, other, hother, heq, -⟩ := hfrom change hchange
        rw [complete_groupName, hgroup, heq] at hbytes
        exact hnodup.1 (mem_map.mpr ⟨other, hother, hbytes⟩)
      rw [if_pos htells, hnone, append_nil] at hchanges
      refine ⟨_, hchanges, Nat.le_refl _, fun change hchange => ?_⟩
      rw [mem_singleton.mp hchange]
      exact ⟨hgroup.symm, entry, mem_cons_self, rfl, rfl, rfl⟩
    · rw [if_neg htells, append_nil] at hchanges
      refine ⟨changes, hchanges, hlength, fun change hchange => ?_⟩
      obtain ⟨hbytes, other, hother, hrest⟩ := hfrom change hchange
      rw [complete_groupName] at hbytes
      exact ⟨hbytes, other, mem_cons_of_mem _ hother, hrest⟩

end Events

section Downlist

/-- What is collected of a process on a node that is gone. -/
def goneItem (pi : ProcessInfo) : CpgName × CpgAddress :=
  (⟨pi.group.bytes, 0 :: pi.group.rest.tail⟩, ⟨pi.nodeid, pi.pid, .nodedown⟩)

/-- The processes of a group on nodes that are gone. -/
def CpgNode.departing (node : CpgNode) (bytes : List UInt8) : List ProcessInfo :=
  (node.processInfoList.filter fun pi => pi.nodeid ∈ node.downlist).filter
    fun pi => pi.group.bytes == bytes

/-- A group has as many items as processes. -/
theorem length_ofGroup_goneItem (left : List ProcessInfo) (bytes : List UInt8) :
    (ofGroup (left.map goneItem) bytes).length =
      (left.filter fun pi => pi.group.bytes == bytes).length := by
  rw [ofGroup, length_map, filter_map, length_map]
  rfl

/-- With plain names and room for every group the map has the processes on these nodes. -/
theorem downlistMap_collects {left : List ProcessInfo} (hplain : ∀ pi ∈ left, pi.group.Plain)
    (hroom : ∀ bytes,
      (left.filter fun pi => pi.group.bytes == bytes).length ≤ cpgMembersMax) :
    ∃ map, downlistMap left = some map ∧ map.Collects (left.map goneItem) := by
  refine foldlM_total (fun done (map : GroupMap) => map.Collects (done.map goneItem))
    (fun done pi map hbefore hmap => ?_) GroupMap.Collects.nil
  have hpi := hplain pi (hbefore.subset (mem_append_right _ mem_cons_self))
  have hplace : (ofGroup (done.map goneItem) (goneItem pi).1.bytes).length < cpgMembersMax := by
    have hle := Nat.le_trans (hbefore.sublist.filter _).length_le (hroom pi.group.bytes)
    rw [filter_append, filter_singleton, beq_self_eq_true, length_append] at hle
    rw [length_ofGroup_goneItem]
    exact hle
  have hkey : cString (goneItem pi).1.value = some pi.group.bytes := cString_append hpi.bytes
  obtain ⟨next, hnext⟩ := GroupMap.Collects.exists_add hmap (goneItem pi).2 hplace
  refine ⟨next, ?_, ?_⟩
  · rw [CpgName.terminated, if_pos hpi.short, Option.bind_some]
    exact (congrArg (Option.bind · _) hkey).trans hnext
  · rw [map_append]
    exact hmap.add hplace hnext

/-- `downlist_inform_clients` sends the events of this map. -/
theorem downlistInformClients_collects
    (hplain : ∀ pi ∈ node.processInfoList, pi.group.Plain)
    (hroom : ∀ bytes, (node.departing bytes).length ≤ cpgMembersMax) :
    ∃ map : GroupMap, map.Collects
        ((node.processInfoList.filter fun pi => pi.nodeid ∈ node.downlist).map goneItem) ∧
      node.downlistInformClients = some (node.withoutGone.notifyMap map
        fun node group left => node.notifyLibJoinlist group [] left) := by
  obtain ⟨map, hmap, hcollects⟩ :=
    downlistMap_collects (fun pi hpi => hplain pi (mem_filter.mp hpi).1) hroom
  refine ⟨map, hcollects, ?_⟩
  rw [downlistInformClients, hmap]
  rfl

/-- The collected processes are those of the list on these nodes. -/
theorem collected_gone (bytes : List UInt8) (nodeid pid : ℕ) :
    collected ((node.processInfoList.filter fun pi => pi.nodeid ∈ node.downlist).map goneItem)
      bytes nodeid pid = (node.has nodeid pid bytes && decide (nodeid ∈ node.downlist)) := by
  rw [Bool.eq_iff_iff, Bool.and_eq_true, has_iff, decide_eq_true_eq, collected,
    any_map, any_eq_true]
  simp only [mem_filter, decide_eq_true_eq, comp_apply, goneItem, Bool.and_eq_true,
    beq_iff_eq]
  constructor
  · rintro ⟨pi, ⟨hpi, hdown⟩, hbytes, rfl, rfl⟩
    exact ⟨⟨pi, hpi, rfl, rfl, hbytes⟩, hdown⟩
  · rintro ⟨⟨pi, hpi, rfl, rfl, hbytes⟩, hdown⟩
    exact ⟨pi, ⟨hpi, hdown⟩, hbytes, rfl, rfl⟩

/-- `downlist_inform_clients` tells the connections what it removes. -/
theorem downlistInformClients_told (h : node.Told node.view)
    (hplain : ∀ pi ∈ node.processInfoList, pi.group.Plain)
    (hroom : ∀ bytes, (node.departing bytes).length ≤ cpgMembersMax)
    (hdown : node.downlistInformClients = some node') : node'.Told node'.view := by
  have hview : ∀ bytes n p, node'.view bytes n p =
      (node.view bytes n p && decide (n ∉ node.downlist)) :=
    fun bytes n p => has_downlistInformClients hdown
  have hhas : ∀ bytes n p, node.withoutGone.has n p bytes =
      (node.view bytes n p && decide (n ∉ node.downlist)) := by
    intro bytes n p
    rw [← hview]
    exact (downlistInformClients_notified hdown).has.symm
  obtain ⟨map, hcollects, hresult⟩ := downlistInformClients_collects hplain hroom
  obtain rfl := Option.some.inj (hdown.symm.trans hresult)
  have hremoved : node.withoutGone.Told node.view := h.congr rfl (fun _ => rfl) rfl
  have hnamed : ∀ entry ∈ map, ∀ n p, named entry.2.2 n p =
      (node.view entry.2.1.bytes n p && decide (n ∈ node.downlist)) := by
    intro entry hentry n p
    rw [hcollects.named_eq hentry]
    exact collected_gone entry.2.1.bytes n p
  refine hremoved.notifyMap (fun _ => []) id (fun _ => .inl rfl)
    hcollects.nodup (fun entry hentry n p => ?_) (fun entry hentry n p => ?_)
    (fun bytes hnone => ?_)
  · rw [named_fillMemberList, hhas, hview, id, hnamed entry hentry]
    by_cases hmem : n ∈ node.downlist
    · simp [hmem]
    · simp [hmem]
  · rw [hview, id, hnamed entry hentry, named_nil, Bool.or_false]
    by_cases hmem : n ∈ node.downlist
    · simp [hmem]
    · simp [hmem]
  · funext n p
    have hfalse := hcollects.collected_eq_false hnone n p
    rw [collected_gone] at hfalse
    rw [hview]
    by_cases hmem : n ∈ node.downlist
    · rw [decide_eq_true hmem, Bool.and_true] at hfalse
      change node.has n p bytes = (node.has n p bytes && _)
      rw [hfalse, Bool.false_and]
    · rw [decide_eq_true hmem, Bool.and_true]

/-- It sends a connection at most one event, about processes of its group. -/
theorem downlistInformClients_confchgs
    (hconns : (node.clients.map Client.conn).Nodup)
    (hplain : ∀ pi ∈ node.processInfoList, pi.group.Plain)
    (hroom : ∀ bytes, (node.departing bytes).length ≤ cpgMembersMax)
    (hdown : node.downlistInformClients = some node') {client : Client}
    (hclient : client ∈ node.clients) :
    ∃ changes, node'.confchgs client.conn = node.confchgs client.conn ++ changes ∧
      changes.length ≤ 1 ∧ ∀ change ∈ changes, change.joinedList = [] ∧
        ∀ address ∈ change.leftList, ∃ pi ∈ node.processInfoList, pi.nodeid = address.nodeid ∧
          pi.pid = address.pid ∧ pi.group.bytes = change.group.bytes := by
  obtain ⟨map, hcollects, hresult⟩ := downlistInformClients_collects hplain hroom
  obtain rfl := Option.some.inj (hdown.symm.trans hresult)
  have hconns' : (node.withoutGone.clients.map Client.conn).Nodup := hconns
  have hclient' : client ∈ node.withoutGone.clients := hclient
  obtain ⟨changes, hchanges, hlength, hfrom⟩ :=
    notifyMap_confchgs (fun _ => []) id (fun _ => .inl rfl) hcollects.nodup hconns' hclient'
  refine ⟨changes, hchanges, hlength, fun change hchange => ?_⟩
  obtain ⟨-, entry, hentry, hgroup, hleft, hjoined⟩ := hfrom change hchange
  refine ⟨hjoined, fun address haddress => ?_⟩
  rw [hleft] at haddress
  obtain ⟨item, hitem, hbytes, rfl⟩ := hcollects.mem_list hentry haddress
  obtain ⟨pi, hpi, rfl⟩ := mem_map.mp hitem
  refine ⟨pi, (mem_filter.mp hpi).1, rfl, rfl, ?_⟩
  rw [hgroup]
  exact hbytes

end Downlist

section Joinlists

/-- The events about the processes of the joinlists. -/
def CpgNode.notifyJoined (joined : CpgNode × GroupMap) : CpgNode :=
  notifyMap joined.1 joined.2
    fun node group joined => node.notifyLibJoinlist group joined []

/-- The events change no process. -/
theorem notifyJoined_processInfoList (joined : CpgNode × GroupMap) :
    (notifyJoined joined).processInfoList = joined.1.processInfoList := by
  have hlist : ∀ (map : GroupMap) (node : CpgNode), (notifyMap node map
      fun node group joined => node.notifyLibJoinlist group joined []).processInfoList =
        node.processInfoList := by
    intro map
    induction map with
    | nil => exact fun _ => rfl
    | cons _ _ ih => exact fun node => ih _
  exact hlist joined.2 joined.1

/-- The events about nodes that have come tell the connections what is added. -/
theorem notifyJoined_told {joined : CpgNode × GroupMap} (h : node.Told node.view)
    (hplain : ∀ stored ∈ node.joinlistMessages, stored.groupName.Plain)
    (hroom : ∀ bytes,
      (node.joinlistMessages.filter (node.arrives bytes)).length ≤ cpgMembersMax)
    (hstored : JoinedStored node node.joinlistMessages joined items) :
    (notifyJoined joined).Told (notifyJoined joined).view := by
  have hcollects := hstored.collects hplain hroom
  have hview : ∀ bytes n p, (notifyJoined joined).view bytes n p =
      (node.view bytes n p || collected items bytes n p) := by
    intro bytes n p
    rw [view, has, notifyJoined_processInfoList]
    exact hstored.has n p bytes
  have hjoined : joined.1.Told node.view := by
    refine h.congr ?_ (fun conn => ?_) ?_
    · rw [hstored.eq]
      rfl
    · rw [hstored.eq]
      rfl
    · rw [hstored.eq]
  refine hjoined.notifyMap id (fun _ => []) (fun _ => .inr rfl)
    hcollects.nodup (fun entry hentry n p => ?_) (fun entry hentry n p => ?_)
    (fun bytes hnone => ?_)
  · rw [named_fillMemberList, named_nil, Bool.not_false, Bool.and_true, hview]
    exact hstored.has n p entry.2.1.bytes
  · rw [hview, named_nil, Bool.not_false, Bool.and_true, id, hcollects.named_eq hentry]
  · funext n p
    rw [hview, hcollects.collected_eq_false hnone, Bool.or_false]

/-- They send a connection at most one event, about processes of its group. -/
theorem notifyJoined_confchgs {joined : CpgNode × GroupMap}
    (hconns : (node.clients.map Client.conn).Nodup)
    (hplain : ∀ stored ∈ node.joinlistMessages, stored.groupName.Plain)
    (hroom : ∀ bytes,
      (node.joinlistMessages.filter (node.arrives bytes)).length ≤ cpgMembersMax)
    (hstored : JoinedStored node node.joinlistMessages joined items) {client : Client}
    (hclient : client ∈ node.clients) :
    ∃ changes, (notifyJoined joined).confchgs client.conn =
        node.confchgs client.conn ++ changes ∧ changes.length ≤ 1 ∧
      ∀ change ∈ changes, change.leftList = [] ∧ ∀ address ∈ change.joinedList,
        ∃ stored ∈ node.joinlistMessages, stored.senderNodeid = address.nodeid ∧
          stored.pid = address.pid ∧ stored.groupName.bytes = change.group.bytes := by
  have hcollects := hstored.collects hplain hroom
  have hclients : joined.1.clients = node.clients := by
    rw [hstored.eq]
    rfl
  have hconfchgs : joined.1.confchgs client.conn = node.confchgs client.conn := by
    rw [hstored.eq]
    rfl
  obtain ⟨changes, hchanges, hlength, hfrom⟩ :=
    notifyMap_confchgs id (fun _ => []) (fun _ => .inr rfl) hcollects.nodup
      (by rw [hclients]; exact hconns) (by rw [hclients]; exact hclient)
  rw [hconfchgs] at hchanges
  refine ⟨changes, hchanges, hlength, fun change hchange => ?_⟩
  obtain ⟨-, entry, hentry, hgroup, hleft, hjoined⟩ := hfrom change hchange
  refine ⟨hleft, fun address haddress => ?_⟩
  rw [hjoined] at haddress
  obtain ⟨item, hitem, hbytes, rfl⟩ := hcollects.mem_list hentry haddress
  obtain ⟨stored, hmem, -, hnodeid, hpid, hname⟩ := hstored.stored item hitem
  refine ⟨stored, hmem, hnodeid, hpid, ?_⟩
  rw [hgroup]
  exact hname.trans hbytes

end Joinlists

section Zombies

/-- Each removal sends the change of the list. -/
theorem removeZombies_told {current : CpgNode} (h : current.Told current.view)
    (list : List ProcessInfo) :
    (list.foldl node.removeZombie current).Told (list.foldl node.removeZombie current).view := by
  refine List.foldlRecOn (motive := fun current : CpgNode => current.Told current.view)
    list _ h fun current hcurrent pi _ => ?_
  unfold removeZombie
  split
  · exact hcurrent
  · exact doProcLeave_told hcurrent pi.pid pi.nodeid .procdown

/-- What the removals send to a connection. -/
theorem removeZombies_confchgs {current : CpgNode}
    (hconns : (current.clients.map Client.conn).Nodup) (list : List ProcessInfo) {client : Client}
    (hclient : client ∈ current.clients) :
    ∃ changes, (list.foldl node.removeZombie current).confchgs client.conn =
        current.confchgs client.conn ++ changes ∧
      ∀ change ∈ changes, (∀ address ∈ change.leftList, address.reason = .procdown) ∧
        change.joinedList = [] := by
  induction list generalizing current with
  | nil =>
    exact ⟨[], (append_nil _).symm, nofun⟩
  | cons pi _ ih =>
    rw [foldl_cons]
    by_cases hkeep : (pi.nodeid == node.nodeid || node.inJoinlist pi) = true
    · have hsame : node.removeZombie current pi = current := if_pos hkeep
      rw [hsame]
      exact ih hconns hclient
    have hleave : node.removeZombie current pi =
        current.doProcLeave pi.group pi.pid pi.nodeid .procdown := if_neg hkeep
    have hcore : (current.doProcLeave pi.group pi.pid pi.nodeid .procdown).clients =
        current.clients := (doProcLeave_informs pi.pid pi.nodeid .procdown).core
    obtain ⟨first, hfirst, hfirstLeft⟩ :=
      @doProcLeave_confchgs current pi.group hconns pi.pid pi.nodeid .procdown client hclient
    rw [hleave]
    obtain ⟨changes, hchanges, hall⟩ := ih (by rw [hcore]; exact hconns) (by
      rw [hcore]
      exact hclient)
    rw [hfirst, append_assoc] at hchanges
    refine ⟨_, hchanges, fun change hchange => ?_⟩
    rcases mem_append.mp hchange with hchange | hchange
    · obtain ⟨hleft, hjoined⟩ := hfirstLeft change hchange
      refine ⟨fun address haddress => ?_, hjoined⟩
      rw [hleft] at haddress
      rw [mem_singleton.mp haddress]
    · exact hall change hchange

end Zombies

end Corosync.Cpg
