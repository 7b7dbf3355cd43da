import Corosync.Cpg.GroupMap
import Corosync.Library.Run

/-!
# What the handlers change

For the list of processes it is said for every process whether it is in the list afterwards; for
the connections, that they keep what identifies them and their state unless a process of this node
joins.
-/

namespace Corosync.Cpg

open Library List Option CpgNode

/-- What identifies a connection, and its state. -/
structure Client where
  conn : ℕ
  groupName : CpgName
  pid : ℕ
  cpdState : CpdState
  deriving DecidableEq, Repr

/-- A record without its counters. -/
def CpgPd.core (cpd : CpgPd) : Client := ⟨cpd.conn, cpd.groupName, cpd.pid, cpd.cpdState⟩

/-- Whether a process is in the list. -/
def CpgNode.has (node : CpgNode) (nodeid pid : ℕ) (bytes : List UInt8) : Bool :=
  node.processInfoList.any fun pi =>
    pi.pid == pid && pi.nodeid == nodeid && pi.group.bytes == bytes

/-- Whether a process is in the stored joinlist of another node. -/
def CpgNode.stored (node : CpgNode) (nodeid pid : ℕ) (bytes : List UInt8) : Bool :=
  node.joinlistMessages.any fun stored =>
    stored.senderNodeid != node.nodeid && stored.senderNodeid == nodeid &&
      stored.pid == pid && stored.groupName.bytes == bytes

variable {node node' node'' : CpgNode} {group : CpgName} {nodeid pid : ℕ} {bytes : List UInt8}

/-- A process of the table. -/
theorem CpgNode.has_iff : node.has nodeid pid bytes = true ↔
    ∃ pi ∈ node.processInfoList, pi.pid = pid ∧ pi.nodeid = nodeid ∧ pi.group.bytes = bytes := by
  simp [has, and_assoc]

/-- A process of the stored lists. -/
theorem CpgNode.stored_iff : node.stored nodeid pid bytes = true ↔
    ∃ stored ∈ node.joinlistMessages, stored.senderNodeid ≠ node.nodeid ∧
      stored.senderNodeid = nodeid ∧ stored.pid = pid ∧ stored.groupName.bytes = bytes := by
  simp [stored, and_assoc]

/-- `process_info_find` looks in the table. -/
theorem CpgNode.processInfoFind_eq :
    node.processInfoFind group pid nodeid = node.has nodeid pid group.bytes := rfl

/-- What is sent is sent to listed connections. -/
structure Sends (node node' : CpgNode) : Prop where
  conns : node'.cpgPdList.map CpgPd.conn = node.cpgPdList.map CpgPd.conn
  dispatched : ∃ sent, node'.dispatched = node.dispatched ++ sent ∧
    ∀ dispatch ∈ sent, dispatch.1 ∈ node.cpgPdList.map CpgPd.conn

/-- Without a new dispatch nothing is sent. -/
theorem sends_of_eq (hlist : node'.cpgPdList = node.cpgPdList)
    (hdispatched : node'.dispatched = node.dispatched) : Sends node node' := by
  refine ⟨by rw [hlist], [], ?_, nofun⟩
  rw [hdispatched, append_nil]

/-- What is sent one after the other. -/
theorem Sends.trans (h : Sends node node') (h' : Sends node' node'') : Sends node node'' := by
  obtain ⟨first, hfirst, hfirstTo⟩ := h.dispatched
  obtain ⟨second, hsecond, hsecondTo⟩ := h'.dispatched
  refine ⟨h'.conns.trans h.conns, first ++ second, ?_, fun dispatch hmem => ?_⟩
  · rw [hsecond, hfirst, append_assoc]
  · rcases mem_append.mp hmem with hmem | hmem
    · exact hfirstTo dispatch hmem
    · rw [← h.conns]
      exact hsecondTo dispatch hmem

/-- Only the list of processes, dispatches and counters of connections change. -/
structure Informs (node node' : CpgNode) : Prop where
  eq : node' = { node with
    processInfoList := node'.processInfoList
    cpgPdList := node'.cpgPdList
    dispatched := node'.dispatched }
  core : node'.cpgPdList.map CpgPd.core = node.cpgPdList.map CpgPd.core
  sends : Sends node node'

/-- Another list of processes. -/
theorem informs_list (list : List ProcessInfo) :
    Informs node { node with processInfoList := list } :=
  ⟨rfl, rfl, sends_of_eq rfl rfl⟩

/-- Nobody is informed. -/
theorem Informs.refl (node : CpgNode) : Informs node node := informs_list node.processInfoList

/-- Clients are informed one after the other. -/
theorem Informs.trans (h : Informs node node') (h' : Informs node' node'') :
    Informs node node'' where
  eq := by
    rw [h'.eq, h.eq]
  core := h'.core.trans h.core
  sends := h.sends.trans h'.sends

/-- The node keeps its id. -/
theorem Informs.nodeid_eq (h : Informs node node') : node'.nodeid = node.nodeid := by
  rw [h.eq]

/-- The stored lists stay as they are. -/
theorem Informs.stored (h : Informs node node') :
    node'.stored nodeid pid bytes = node.stored nodeid pid bytes := by
  rw [h.eq]
  rfl

/-- Only dispatches and counters of connections change. -/
structure Notified (node node' : CpgNode) : Prop extends Informs node node' where
  list : node'.processInfoList = node.processInfoList

/-- Nobody is notified. -/
theorem Notified.refl (node : CpgNode) : Notified node node := ⟨Informs.refl node, rfl⟩

/-- Clients are notified one after the other. -/
theorem Notified.trans (h : Notified node node') (h' : Notified node' node'') :
    Notified node node'' :=
  ⟨h.toInforms.trans h'.toInforms, h'.list.trans h.list⟩

/-- A list without processes of the node names no connection. -/
theorem CpgNode.names_eq_false {list : List CpgAddress} {cpd : CpgPd}
    (hlist : ∀ address ∈ list, address.nodeid ≠ node.nodeid) :
    node.names list group cpd = false := by
  rw [names, Bool.and_eq_false_iff]
  left
  rw [List.any_eq_false]
  intro address haddress
  simp [hlist address haddress]

/-- Being told does not change a client. -/
@[simp]
theorem CpgPd.told_core (cpd : CpgPd) (group : CpgName) : (cpd.told group).core = cpd.core := by
  unfold CpgPd.told
  split <;> rfl

/-- An event is sent to clients of the list. -/
theorem sends_notify {joined left : List CpgAddress} :
    Sends node (node.notifyLibJoinlist group joined left) := by
  have hcomplete : ∀ cpd : CpgPd, (node.completeJoin joined group cpd).conn = cpd.conn := by
    intro cpd
    unfold completeJoin
    split <;> rfl
  have hreset : ∀ cpd : CpgPd,
      (node.resetLeft (left.take joined.length) group cpd).conn = cpd.conn := by
    intro cpd
    unfold resetLeft
    split <;> rfl
  have htold : ∀ cpd : CpgPd, (cpd.told group).conn = cpd.conn := by
    intro cpd
    unfold CpgPd.told
    split <;> rfl
  refine ⟨?_, _, rfl, fun dispatch hmem => ?_⟩
  · simp only [notifyLibJoinlist, List.map_map]
    refine List.map_congr_left fun cpd _ => ?_
    simp only [Function.comp_apply, hreset, htold, hcomplete]
  · obtain ⟨cpd, hcpd, rfl⟩ := mem_map.mp hmem
    obtain ⟨before, hbefore, rfl⟩ := mem_map.mp (mem_filter.mp hcpd).1
    rw [hcomplete]
    exact mem_map_of_mem hbefore

section

variable {joined left : List CpgAddress} (honly : joined = [] ∨ left = [])

include honly

/-- Nobody is reset: an event has joined or left processes, not both. -/
theorem CpgNode.resetLeft_eq (cpd : CpgPd) : node.resetLeft
    (left.take joined.length) group cpd = cpd := by
  have hnil : left.take joined.length = [] := by
    rcases honly with rfl | rfl
    · rfl
    · exact take_nil
  rw [hnil]
  rfl

/-- The connections after an event: those that are named as joined have completed their join. -/
theorem CpgNode.notifyLibJoinlist_core :
    (node.notifyLibJoinlist group joined left).cpgPdList.map CpgPd.core =
      node.cpgPdList.map fun cpd => (node.completeJoin joined group cpd).core := by
  simp only [notifyLibJoinlist, List.map_map]
  refine List.map_congr_left fun cpd _ => ?_
  simp only [Function.comp_apply, resetLeft_eq honly, CpgPd.told_core]

/-- An event about joins on other nodes. -/
theorem notifyLibJoinlist_notified (hjoined : ∀ address ∈ joined, address.nodeid ≠ node.nodeid) :
    Notified node (node.notifyLibJoinlist group joined left) where
  eq := rfl
  core := by
    rw [notifyLibJoinlist_core honly]
    refine map_congr_left fun cpd _ => ?_
    rw [completeJoin, names_eq_false hjoined]
    rfl
  sends := sends_notify
  list := rfl

end

/-- An event about processes that left. -/
theorem notifyLibJoinlist_left_notified (node : CpgNode) (group : CpgName)
    (left : List CpgAddress) : Notified node (node.notifyLibJoinlist group [] left) :=
  notifyLibJoinlist_notified (.inl rfl) (by simp)

variable {map : GroupMap}

/-- The events of a map, one after the other. -/
theorem notifyMap_notified {event : CpgNode → CpgName → List CpgAddress → CpgNode}
    (hevent : ∀ (current : CpgNode) (entry : List UInt8 × CpgName × List CpgAddress),
      Notified node current → entry ∈ map → Notified current (event current entry.2.1 entry.2.2)) :
    Notified node (node.notifyMap map event) :=
  List.foldlRecOn map _ (Notified.refl node) fun current hcurrent entry hentry =>
    hcurrent.trans (hevent current entry hcurrent hentry)

/-- The node without the processes on nodes that are gone. -/
def CpgNode.withoutGone (node : CpgNode) : CpgNode :=
  { node with processInfoList := node.processInfoList.filter fun pi => pi.nodeid ∉ node.downlist }

/-- What the nodes that are gone lead to. -/
theorem downlistInformClients_eq (h : node.downlistInformClients = some node') :
    ∃ map, downlistMap
        (node.processInfoList.filter fun pi => pi.nodeid ∈ node.downlist) = some map ∧
      node' = node.withoutGone.notifyMap map
        fun node group left => node.notifyLibJoinlist group [] left := by
  obtain ⟨map, hmap, heq⟩ := map_eq_some_iff.mp h
  exact ⟨map, hmap, heq.symm⟩

/-- Clients are notified of the nodes that are gone. -/
theorem downlistInformClients_notified (h : node.downlistInformClients = some node') :
    Notified node.withoutGone node' := by
  obtain ⟨map, -, rfl⟩ := downlistInformClients_eq h
  exact notifyMap_notified fun current entry _ _ =>
    notifyLibJoinlist_left_notified current entry.2.1 entry.2.2

variable {n : ℕ}

section Has

/-- The table stays as it is. -/
theorem Notified.has (h : Notified node node') :
    node'.has nodeid pid bytes = node.has nodeid pid bytes := by
  rw [CpgNode.has, h.list]
  rfl

variable {pi : ProcessInfo}

/-- The table with one more process. -/
theorem mem_insertProcess {other : ProcessInfo} :
    other ∈ (node.insertProcess pi).processInfoList ↔
      other = pi ∨ other ∈ node.processInfoList := by
  have hsplit := @takeWhile_append_dropWhile _
    (fun entry : ProcessInfo => !entry.after pi.nodeid pi.pid) node.processInfoList
  conv_rhs => rw [← hsplit]
  simp only [insertProcess, mem_append, mem_cons]
  exact or_left_comm

/-- The same for the processes it has. -/
theorem has_insertProcess (pi : ProcessInfo) :
    (node.insertProcess pi).has nodeid pid bytes =
      (node.has nodeid pid bytes ||
        (pi.pid == pid && pi.nodeid == nodeid && pi.group.bytes == bytes)) := by
  rw [Bool.eq_iff_iff]
  simp only [has, List.any_eq_true, Bool.or_eq_true, mem_insertProcess]
  constructor
  · rintro ⟨other, rfl | hmem, hother⟩
    · exact .inr hother
    · exact .inl ⟨other, hmem, hother⟩
  · rintro (⟨other, hmem, hother⟩ | hpi)
    · exact ⟨other, .inr hmem, hother⟩
    · exact ⟨pi, .inl rfl, hpi⟩

/-- The table after a join. -/
theorem has_doProcJoin (p n : ℕ) (reason : Reason) :
    (node.doProcJoin group p n reason).has nodeid pid bytes =
      (node.has nodeid pid bytes || (p == pid && n == nodeid && group.bytes == bytes)) := by
  unfold doProcJoin
  split
  · rename_i hfind
    rw [processInfoFind_eq] at hfind
    cases hsame : (p == pid && n == nodeid && group.bytes == bytes) with
    | false => simp
    | true =>
      simp only [Bool.and_eq_true, beq_iff_eq] at hsame
      obtain ⟨⟨rfl, rfl⟩, rfl⟩ := hsame
      simp [hfind]
  · exact has_insertProcess _

/-- Whether an entry is the one that leaves. -/
theorem ProcessInfo.is_comm {p : ℕ} :
    pi.is group p n = (p == pi.pid && n == pi.nodeid && group.bytes == pi.group.bytes) := by
  rw [ProcessInfo.is, @Bool.beq_comm _ _ _ pi.pid, @Bool.beq_comm _ _ _ pi.nodeid,
    @Bool.beq_comm _ _ _ pi.group.bytes]

/-- The table after a leave. -/
theorem has_doProcLeave (p n : ℕ) (reason : Reason) :
    (node.doProcLeave group p n reason).has nodeid pid bytes =
      (node.has nodeid pid bytes && !(p == pid && n == nodeid && group.bytes == bytes)) := by
  rw [Bool.eq_iff_iff, Bool.and_eq_true, has_iff, has_iff]
  simp only [doProcLeave, mem_filter, ProcessInfo.is_comm]
  constructor
  · rintro ⟨pi, ⟨hmem, hne⟩, rfl, rfl, rfl⟩
    exact ⟨⟨pi, hmem, rfl, rfl, rfl⟩, hne⟩
  · rintro ⟨⟨pi, hmem, rfl, rfl, rfl⟩, hne⟩
    exact ⟨pi, ⟨hmem, hne⟩, rfl, rfl, rfl⟩

/-- The table without the nodes that are gone. -/
theorem has_downlistInformClients (h : node.downlistInformClients = some node') :
    node'.has nodeid pid bytes =
      (node.has nodeid pid bytes && decide (nodeid ∉ node.downlist)) := by
  rw [(downlistInformClients_notified h).has, Bool.eq_iff_iff, Bool.and_eq_true, has_iff,
    has_iff, decide_eq_true_eq]
  simp only [withoutGone, mem_filter, decide_eq_true_eq]
  constructor
  · rintro ⟨pi, ⟨hmem, hnot⟩, rfl, rfl, rfl⟩
    exact ⟨⟨pi, hmem, rfl, rfl, rfl⟩, hnot⟩
  · rintro ⟨⟨pi, hmem, rfl, rfl, rfl⟩, hnot⟩
    exact ⟨pi, ⟨hmem, hnot⟩, rfl, rfl, rfl⟩

end Has

/-- A stored process of another node that is in a group and not in the list yet. -/
def CpgNode.arrives (node : CpgNode) (bytes : List UInt8) (stored : JoinlistMsg) : Bool :=
  stored.senderNodeid != node.nodeid && stored.groupName.bytes == bytes &&
    !node.has stored.senderNodeid stored.pid bytes

variable {stored : JoinlistMsg}

/-- A joinlist entry is an arrival of its own group only. -/
theorem arrives_iff :
    node.arrives bytes stored = true ↔ stored.senderNodeid ≠ node.nodeid ∧
      stored.groupName.bytes = bytes ∧ node.has stored.senderNodeid stored.pid bytes = false := by
  simp [arrives, and_assoc]

/-- What the loop over the stored joinlists has done after some of them. -/
structure JoinedStored (node : CpgNode) (done : List JoinlistMsg) (result : CpgNode × GroupMap)
    (items : List (CpgName × CpgAddress)) : Prop where
  eq : result.1 = { node with processInfoList := result.1.processInfoList }
  has : ∀ nodeid pid bytes, result.1.has nodeid pid bytes =
    (node.has nodeid pid bytes || collected items bytes nodeid pid)
  stored : ∀ item ∈ items, ∃ stored ∈ node.joinlistMessages, stored.senderNodeid ≠ node.nodeid ∧
    stored.senderNodeid = item.2.nodeid ∧ stored.pid = item.2.pid ∧
      stored.groupName.bytes = item.1.bytes
  complete : ∀ stored ∈ done, stored.senderNodeid ≠ node.nodeid →
    result.1.has stored.senderNodeid stored.pid stored.groupName.bytes = true
  map : result.2.All fun address => address.nodeid ≠ node.nodeid
  list : ∀ pi ∈ result.1.processInfoList, pi ∈ node.processInfoList ∨
    ∃ stored ∈ node.joinlistMessages, pi.group = stored.groupName
  count : ∀ bytes, (ofGroup items bytes).length ≤ (done.filter (node.arrives bytes)).length
  collects : (∀ stored ∈ done, stored.groupName.Plain) →
    (∀ bytes, (done.filter (node.arrives bytes)).length ≤ cpgMembersMax) → result.2.Collects items

variable {done : List JoinlistMsg} {result : CpgNode × GroupMap}
  {items : List (CpgName × CpgAddress)}

/-- Only the list of processes is changed. -/
theorem JoinedStored.informs (h : JoinedStored node done result items) :
    Informs node result.1 :=
  h.eq ▸ informs_list _

/-- `do_proc_join` with a map: a known process changes nothing, a new one goes to both. -/
theorem doProcJoinMap_spec {reason : Reason} {map' : GroupMap} {p : ℕ}
    (h : node.doProcJoinMap group p n reason map = some (node', map')) :
    (node' = node ∧ map' = map ∧ node.has n p group.bytes = true) ∨
    ∃ key, node' = node.insertProcess ⟨n, p, group⟩ ∧ cString group.value = some key ∧
      map.add key group ⟨n, p, reason⟩ = some map' ∧ node.has n p group.bytes = false := by
  unfold doProcJoinMap at h
  rw [processInfoFind_eq] at h
  split at h
  · rename_i hfind
    cases h
    exact .inl ⟨rfl, rfl, hfind⟩
  · rename_i hfind
    obtain ⟨key, hkey, h⟩ := bind_eq_some_iff.mp h
    obtain ⟨added, hadded, heq⟩ := map_eq_some_iff.mp h
    obtain ⟨rfl, rfl⟩ := Prod.mk.inj heq
    exact .inr ⟨key, rfl, hkey, hadded, by simpa using hfind⟩

variable {current : CpgNode × GroupMap}

/-- A process that is not in the list yet arrives. -/
theorem JoinedStored.arrives (h : JoinedStored node done current items)
    (hother : stored.senderNodeid ≠ node.nodeid)
    (hnew : current.1.has stored.senderNodeid stored.pid stored.groupName.bytes = false) :
    node.arrives stored.groupName.bytes stored = true := by
  rw [h.has, Bool.or_eq_false_iff] at hnew
  exact arrives_iff.mpr ⟨hother, rfl, hnew.1⟩

/-- Then its group has a place left. -/
theorem JoinedStored.room (h : JoinedStored node done current items)
    (harrives : node.arrives stored.groupName.bytes stored = true)
    (hroom : ∀ bytes, ((done ++ [stored]).filter (node.arrives bytes)).length ≤ cpgMembersMax) :
    (ofGroup items stored.groupName.bytes).length < cpgMembersMax := by
  have hcount := h.count stored.groupName.bytes
  have hle := hroom stored.groupName.bytes
  rw [filter_append, filter_singleton, harrives, length_append] at hle
  exact Nat.lt_of_le_of_lt hcount hle

/-- One stored process more. -/
theorem JoinedStored.step {next : CpgNode × GroupMap}
    (h : JoinedStored node done current items) (hmem : stored ∈ node.joinlistMessages)
    (hstep : (if stored.senderNodeid = node.nodeid then some current
      else current.1.doProcJoinMap stored.groupName stored.pid stored.senderNodeid .nodeup
        current.2) = some next) :
    ∃ items', JoinedStored node (done ++ [stored]) next items' := by
  have hmono : ∀ bytes, (done.filter (node.arrives bytes)).length ≤
      ((done ++ [stored]).filter (node.arrives bytes)).length :=
    fun bytes => ((sublist_append_left done [stored]).filter _).length_le
  have hcomplete : (stored.senderNodeid ≠ node.nodeid →
      current.1.has stored.senderNodeid stored.pid stored.groupName.bytes = true) →
      JoinedStored node (done ++ [stored]) current items := by
    refine fun hhas => { h with
      complete := fun other hother hne => ?_
      count := fun bytes => Nat.le_trans (h.count bytes) (hmono bytes)
      collects := fun hplain hroom => h.collects
        (fun other hother => hplain other (mem_append_left _ hother))
        fun bytes => Nat.le_trans (hmono bytes) (hroom bytes) }
    rcases mem_append.mp hother with hother | hother
    · exact h.complete other hother hne
    · rw [mem_singleton.mp hother] at hne ⊢
      exact hhas hne
  split at hstep
  · rename_i hown
    cases hstep
    exact ⟨items, hcomplete fun hne => absurd hown hne⟩
  rename_i hother
  obtain ⟨node', map'⟩ := next
  rcases doProcJoinMap_spec hstep with ⟨rfl, rfl, hfound⟩ | ⟨key, rfl, hkey, hadd, hnew⟩
  · exact ⟨items, hcomplete fun _ => hfound⟩
  have harrives := h.arrives hother hnew
  have heq : current.1.insertProcess ⟨stored.senderNodeid, stored.pid, stored.groupName⟩ =
      { node with processInfoList := (current.1.insertProcess
        ⟨stored.senderNodeid, stored.pid, stored.groupName⟩).processInfoList } := by
    rw [insertProcess, h.eq]
  refine ⟨items ++ [(stored.groupName, ⟨stored.senderNodeid, stored.pid, .nodeup⟩)], heq,
    fun nodeid pid bytes => ?_, fun item hitem => ?_, fun other hdone hne => ?_,
    h.map.add hother hadd, fun pi hpi => ?_, fun bytes => ?_, fun hplain hroom => ?_⟩
  · rw [has_insertProcess, h.has, collected_snoc, Bool.or_assoc]
    congr 2
    rw [Bool.and_comm, Bool.and_comm (stored.pid == pid)]
  · rcases mem_append.mp hitem with hitem | hitem
    · exact h.stored item hitem
    · rw [mem_singleton.mp hitem]
      exact ⟨stored, hmem, hother, rfl, rfl, rfl⟩
  · rw [has_insertProcess, Bool.or_eq_true]
    rcases mem_append.mp hdone with hdone | hdone
    · exact .inl (h.complete other hdone hne)
    · rw [mem_singleton.mp hdone]
      exact .inr (by simp)
  · rcases mem_insertProcess.mp hpi with rfl | hpi
    · exact .inr ⟨stored, hmem, rfl⟩
    · exact h.list pi hpi
  · rw [ofGroup_snoc, length_append]
    split
    · rename_i hbytes
      rw [← hbytes, filter_append, filter_singleton, harrives, length_append]
      exact Nat.add_le_add_right (h.count _) 1
    · exact Nat.le_trans (h.count bytes) (hmono bytes)
  · rw [(hplain stored (mem_append_right _ mem_cons_self)).cString_value] at hkey
    cases hkey
    refine (h.collects (fun other hother => ?_) fun bytes => ?_).add (h.room harrives hroom) hadd
    · exact hplain other (mem_append_left _ hother)
    · exact Nat.le_trans (hmono bytes) (hroom bytes)

/-- Before the loop. -/
theorem JoinedStored.nil : JoinedStored node [] (node, []) [] :=
  ⟨rfl, fun _ _ _ => (Bool.or_false _).symm, nofun, nofun, nofun, fun _ hpi => .inl hpi,
    fun _ => Nat.le_refl _, fun _ _ => GroupMap.Collects.nil⟩

/-- The loop over the stored joinlists. -/
theorem joinStored_spec (h : node.joinStored = some result) :
    ∃ items, JoinedStored node node.joinlistMessages result items := by
  refine foldlM_invariant (fun done result => ∃ items, JoinedStored node done result items)
    (fun done stored current next hmem ⟨items, hcurrent⟩ hnext => hcurrent.step hmem hnext)
    ⟨[], ?_⟩ h
  exact JoinedStored.nil

/-- With a plain name and room for its group one stored process more is no failure. -/
theorem JoinedStored.exists_next (h : JoinedStored node done current items)
    (hplain : ∀ other ∈ done ++ [stored], other.groupName.Plain)
    (hroom : ∀ bytes, ((done ++ [stored]).filter (node.arrives bytes)).length ≤ cpgMembersMax) :
    ∃ next, (if stored.senderNodeid = node.nodeid then some current
      else current.1.doProcJoinMap stored.groupName stored.pid stored.senderNodeid .nodeup
        current.2) = some next := by
  split
  · exact ⟨current, rfl⟩
  rename_i hother
  unfold doProcJoinMap
  rw [processInfoFind_eq]
  split
  · exact ⟨_, rfl⟩
  rename_i hnew
  have hcollects := h.collects (fun other hother => hplain other (mem_append_left _ hother))
    fun bytes => Nat.le_trans ((sublist_append_left done [stored]).filter _).length_le (hroom bytes)
  have hplace := h.room (h.arrives hother (by simpa using hnew)) hroom
  obtain ⟨map, hmap⟩ :=
    hcollects.exists_add ⟨stored.senderNodeid, stored.pid, .nodeup⟩ hplace
  rw [(hplain stored (mem_append_right _ mem_cons_self)).cString_value, Option.bind_some, hmap]
  exact ⟨_, rfl⟩

/-- With plain names and room for every group the loop returns. -/
theorem exists_joinStored (hplain : ∀ stored ∈ node.joinlistMessages, stored.groupName.Plain)
    (hroom : ∀ bytes,
      (node.joinlistMessages.filter (node.arrives bytes)).length ≤ cpgMembersMax) :
    ∃ result, node.joinStored = some result := by
  have hloop := foldlM_total (fun done result => ∃ items, JoinedStored node done result items)
    (fun done stored current hbefore ⟨items, hcurrent⟩ => by
      obtain ⟨next, hnext⟩ := hcurrent.exists_next
        (fun other hother => hplain other (hbefore.subset hother))
        fun bytes => Nat.le_trans (hbefore.sublist.filter _).length_le (hroom bytes)
      have hstored := hbefore.subset (mem_append_right _ mem_cons_self)
      exact ⟨next, hnext, hcurrent.step hstored hnext⟩)
    ⟨[], @JoinedStored.nil node⟩
  exact ⟨hloop.choose, hloop.choose_spec.1⟩

/-- What a join changes. -/
theorem doProcJoin_eq (node : CpgNode) (group : CpgName) (pid nodeid : ℕ) (reason : Reason) :
    node.doProcJoin group pid nodeid reason =
      { node with
        processInfoList := (node.doProcJoin group pid nodeid reason).processInfoList
        cpgPdList := (node.doProcJoin group pid nodeid reason).cpgPdList
        dispatched := (node.doProcJoin group pid nodeid reason).dispatched } := by
  unfold doProcJoin
  split <;> rfl

/-- A dispatch to a group changes nothing else. -/
theorem sendToGroup_eq (node : CpgNode) (group : CpgName) (nodeid : ℕ) (dispatch : Dispatch) :
    node.sendToGroup group nodeid dispatch =
      { node with dispatched := (node.sendToGroup group nodeid dispatch).dispatched } := by
  unfold sendToGroup
  split <;> rfl

/-- A leave informs clients. -/
theorem doProcLeave_informs (p n : ℕ) (reason : Reason) :
    Informs node (node.doProcLeave group p n reason) :=
  (notifyLibJoinlist_left_notified node group [⟨n, p, reason⟩]).toInforms.trans (informs_list _)

/-- A process joins that is not one of this node. -/
theorem doProcJoin_informs (p : ℕ) (reason : Reason) (hn : n ≠ node.nodeid) :
    Informs node (node.doProcJoin group p n reason) := by
  unfold doProcJoin
  split
  · exact Informs.refl node
  · have hnotified : Notified (node.insertProcess ⟨n, p, group⟩)
        ((node.insertProcess ⟨n, p, group⟩).notifyLibJoinlist group [⟨n, p, reason⟩] []) :=
      notifyLibJoinlist_notified (.inr rfl) (by simpa [insertProcess] using hn)
    exact (informs_list _).trans hnotified.toInforms

/-- The list is that of the joinlists as far as other nodes are concerned. -/
theorem CpgNode.inJoinlist_eq (node : CpgNode) (pi : ProcessInfo) :
    node.inJoinlist pi = node.stored pi.nodeid pi.pid pi.group.bytes := by
  unfold inJoinlist stored
  refine any_congr rfl fun stored => ?_
  rw [@Bool.beq_comm _ _ _ pi.group.bytes]

/-- A process that is not in the joinlist of its node is removed. -/
def CpgNode.removeZombie (node current : CpgNode) (pi : ProcessInfo) : CpgNode :=
  if pi.nodeid == node.nodeid || node.inJoinlist pi then current
  else current.doProcLeave pi.group pi.pid pi.nodeid .procdown

/-- Processes that are not in the joinlist of their node are removed. -/
theorem joinlistRemoveZombiePiEntries_spec (node : CpgNode) :
    Informs node node.joinlistRemoveZombiePiEntries ∧ ∀ nodeid pid bytes,
      node.joinlistRemoveZombiePiEntries.has nodeid pid bytes =
        (node.has nodeid pid bytes && (nodeid == node.nodeid || node.stored nodeid pid bytes)) := by
  -- the loop over a part of the list removes the processes of that part
  have hloop : ∀ (list : List ProcessInfo) (current : CpgNode), Informs node current →
      Informs node (list.foldl node.removeZombie current) ∧
      ∀ nodeid pid bytes, (list.foldl node.removeZombie current).has nodeid pid bytes =
        (current.has nodeid pid bytes && (nodeid == node.nodeid || node.stored nodeid pid bytes ||
          !list.any fun pi =>
            pi.pid == pid && pi.nodeid == nodeid && pi.group.bytes == bytes)) := by
    intro list
    induction list with
    | nil => exact fun current hcurrent => ⟨hcurrent, fun _ _ _ => by simp⟩
    | cons pi _ ih =>
      intro current hcurrent
      rw [foldl_cons, removeZombie]
      split
      · rename_i hkeep
        refine ⟨(ih current hcurrent).1, fun nodeid pid bytes => ?_⟩
        rw [(ih current hcurrent).2, any_cons]
        rw [inJoinlist_eq] at hkeep
        cases hsame : (pi.pid == pid && pi.nodeid == nodeid && pi.group.bytes == bytes) with
        | false => rw [Bool.false_or]
        | true =>
          simp only [Bool.and_eq_true, beq_iff_eq] at hsame
          obtain ⟨⟨rfl, rfl⟩, rfl⟩ := hsame
          rw [hkeep]
          simp
      · rename_i hzombie
        have hleave := hcurrent.trans
          (@doProcLeave_informs current pi.group pi.pid pi.nodeid .procdown)
        refine ⟨(ih _ hleave).1, fun nodeid pid bytes => ?_⟩
        rw [(ih _ hleave).2, has_doProcLeave, any_cons]
        rw [inJoinlist_eq, Bool.not_eq_true] at hzombie
        cases hsame : (pi.pid == pid && pi.nodeid == nodeid && pi.group.bytes == bytes) with
        | false => simp
        | true =>
          simp only [Bool.and_eq_true, beq_iff_eq] at hsame
          obtain ⟨⟨rfl, rfl⟩, rfl⟩ := hsame
          rw [hzombie]
          simp
  obtain ⟨hinforms, hhas⟩ := hloop node.processInfoList node (Informs.refl node)
  refine ⟨hinforms, fun nodeid pid bytes => (hhas nodeid pid bytes).trans ?_⟩
  change (node.has nodeid pid bytes && (_ || !node.has nodeid pid bytes)) = _
  cases node.has nodeid pid bytes with
  | false => rfl
  | true => simp

/-- `joinlist_inform_clients`: processes of other nodes are those of the joinlists. -/
theorem joinlistInformClients_spec (h : node.joinlistInformClients = some node') :
    Informs node node' ∧ ∀ nodeid pid bytes, node'.has nodeid pid bytes =
      if nodeid = node.nodeid then node.has nodeid pid bytes
      else node.stored nodeid pid bytes := by
  obtain ⟨⟨joined, map⟩, hjoined, rfl⟩ := map_eq_some_iff.mp h
  obtain ⟨items, hstored⟩ := joinStored_spec hjoined
  have hnotified : Notified joined (joined.notifyMap map
      fun node group joined => node.notifyLibJoinlist group joined []) := by
    refine notifyMap_notified fun current entry hcurrent hentry => ?_
    refine notifyLibJoinlist_notified (.inr rfl) fun address haddress => ?_
    rw [hcurrent.nodeid_eq, hstored.informs.nodeid_eq]
    exact hstored.map entry hentry address haddress
  obtain ⟨hinforms, hhas⟩ := joinlistRemoveZombiePiEntries_spec
    (joined.notifyMap map fun node group joined => node.notifyLibJoinlist group joined [])
  have hbefore := hstored.informs.trans hnotified.toInforms
  refine ⟨hbefore.trans hinforms, fun nodeid pid bytes => ?_⟩
  rw [hhas, hbefore.nodeid_eq, hbefore.stored, hnotified.has]
  by_cases hnodeid : nodeid = node.nodeid
  · have hnone : collected items bytes nodeid pid = false := by
      rw [collected, List.any_eq_false]
      intro item hitem hsame
      simp only [Bool.and_eq_true, beq_iff_eq] at hsame
      obtain ⟨stored, -, hne, hsender, -⟩ := hstored.stored item hitem
      exact hne (hsender.trans (hsame.2.1.trans hnodeid))
    rw [if_pos hnodeid, hstored.has, hnone, Bool.or_false, beq_iff_eq.mpr hnodeid, Bool.true_or,
      Bool.and_true]
  · rw [if_neg hnodeid, beq_eq_false_iff_ne.mpr hnodeid, Bool.false_or, Bool.and_eq_right_iff_imp,
      stored_iff]
    rintro ⟨stored, hmem, hne, rfl, rfl, rfl⟩
    exact hstored.complete stored hmem hne

/-- `downlist_inform_clients` informs the connections. -/
theorem downlistInformClients_informs (h : node.downlistInformClients = some node') :
    Informs node node' :=
  (informs_list _).trans (downlistInformClients_notified h).toInforms

/-- `cpg_sync_activate` informs the connections and forgets the joinlists. -/
theorem cpgSyncActivate_informs (h : node.cpgSyncActivate = some node') :
    Informs { node with myOldMemberList := node.myMemberList, joinlistMessages := [] } node' := by
  obtain ⟨down, hdown, h⟩ := bind_eq_some_iff.mp h
  obtain ⟨joined, hjoined, rfl⟩ := map_eq_some_iff.mp h
  have hboth := (downlistInformClients_informs hdown).trans (joinlistInformClients_spec hjoined).1
  refine ⟨?_, hboth.core, hboth.sends.conns, hboth.sends.dispatched⟩
  rw [hboth.eq]

/-- `cpg_sync_activate`: the list has the processes of this node and those of the joinlists. -/
theorem cpgSyncActivate_has (h : node.cpgSyncActivate = some node')
    (hown : node.nodeid ∉ node.downlist) :
    node'.has nodeid pid bytes =
      if nodeid = node.nodeid then node.has nodeid pid bytes
      else node.stored nodeid pid bytes := by
  obtain ⟨down, hdown, h⟩ := bind_eq_some_iff.mp h
  obtain ⟨joined, hjoined, rfl⟩ := map_eq_some_iff.mp h
  have hinforms := downlistInformClients_informs hdown
  change joined.has nodeid pid bytes = _
  rw [(joinlistInformClients_spec hjoined).2, hinforms.nodeid_eq, hinforms.stored,
    has_downlistInformClients hdown]
  change (if nodeid = node.nodeid then
    (node.has nodeid pid bytes && decide (nodeid ∉ node.downlist))
    else node.stored nodeid pid bytes) = _
  split
  · rename_i heq
    rw [heq, decide_eq_true hown, Bool.and_true]
  · rfl

end Corosync.Cpg
