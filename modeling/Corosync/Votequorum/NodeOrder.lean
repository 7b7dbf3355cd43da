import Corosync.Library.Run
import Corosync.Votequorum.Config
import Corosync.Votequorum.Records

/-!
# The order of the records

`node_add_ordered` looks for the first record with a larger id and puts the new one in front of it.
Without such a record its loop ends at the last one, and the new record is put in front of that as
well. When the array of records is used up `allocate_node` takes a dead one, and destroys the list
if there is none. The list is kept in the order of the ids as long as a larger id is found and a
dead record when it is needed.
-/

namespace Corosync.Votequorum

open Library List Node

namespace Node

variable {n n' : Node} {nodeid : NodeId}

/-- The ids in `cluster_members_list`. -/
def nodeIds (n : Node) : List NodeId := n.clusterMembersList.map (·.nodeId)

/-- The id whose record `allocate_node` takes for a new node. -/
def recycled (n : Node) : Option NodeId :=
  if n.clusterNodesEntries ≤ processorCountMax + 1 then none
  else ((n.before ++ n.after).find? (·.state = .dead)).map (·.nodeId)

/-- The array has a free record, or there is a dead one. -/
def HasRecord (n : Node) : Prop :=
  processorCountMax + 1 < n.clusterNodesEntries → ∃ node ∈ n.before ++ n.after, node.state = .dead

instance (n : Node) : Decidable n.HasRecord := inferInstanceAs (Decidable (_ → _))

/-- `allocate_node` leaves a list if and only if it finds a record. -/
theorem allocateNode_isSome_iff : (n.allocateNode nodeid).isSome ↔ n.HasRecord := by
  refine ⟨fun hsome hfull => ?_, allocateNode_isSome⟩
  obtain ⟨n', halloc⟩ := Option.isSome_iff_exists.mp hsome
  rw [allocateNode, if_neg (by omega)] at halloc
  obtain ⟨dropped, hdrop, -⟩ := Option.map_eq_some_iff.mp halloc
  obtain ⟨-, dead, -, hfind, -⟩ := dropDead_split hdrop
  exact ⟨dead, mem_of_find?_eq_some hfind, by simpa using find?_some hfind⟩

/-- The ids that are in the list when the new record is put into it. -/
def staying (n : Node) : List NodeId :=
  n.nodeIds.filter fun nodeid => some nodeid ≠ n.recycled

/-- A new record in an ordered list: the list is ordered again if and only if there is a larger
id. -/
theorem ordered_nodeAddOrdered (hordered : n.nodeIds.Pairwise (· < ·)) (new : ClusterNode)
    (hnew : new.nodeId ∉ n.nodeIds) :
    (n.nodeAddOrdered new).nodeIds.Pairwise (· < ·) ↔
      ∃ nodeid ∈ n.nodeIds, new.nodeId < nodeid := by
  obtain ⟨first, node, second, hlist, hadded, hfirst, hplace⟩ := n.nodeAddOrdered_split new
  have hids : n.nodeIds = first.map (·.nodeId) ++ node.nodeId :: second.map (·.nodeId) := by
    rw [nodeIds, hlist, map_append, map_cons]
  rw [hids] at hordered hnew ⊢
  rw [nodeIds, hadded, map_append, map_cons, map_cons]
  constructor
  · intro hafter
    have htail := (pairwise_append.mp hafter).2.1
    exact ⟨node.nodeId, mem_append_right _ mem_cons_self,
      (pairwise_cons.mp htail).1 node.nodeId mem_cons_self⟩
  · rintro ⟨larger, hmem, hlt⟩
    obtain ⟨hfront, hback, hcross⟩ := pairwise_append.mp hordered
    have hnode : new.nodeId < node.nodeId := by
      obtain hplace | rfl := hplace
      · exact hplace
      · obtain hmem | hmem := mem_append.mp hmem
        · obtain ⟨other, hother, rfl⟩ := mem_map.mp hmem
          exact absurd hlt (not_lt.mpr (hfirst other hother))
        · rwa [mem_singleton.mp hmem] at hlt
    refine pairwise_append.mpr ⟨hfront, pairwise_cons.mpr ⟨fun other hother => ?_, hback⟩,
      fun before hbefore other hother => ?_⟩
    · obtain rfl | hother := mem_cons.mp hother
      · exact hnode
      · exact hnode.trans ((pairwise_cons.mp hback).1 other hother)
    · obtain rfl | hother := mem_cons.mp hother
      · have hne : before ≠ new.nodeId := fun heq => hnew (heq ▸ mem_append_left _ hbefore)
        obtain ⟨record, hrecord, rfl⟩ := mem_map.mp hbefore
        exact lt_of_le_of_ne (hfirst record hrecord) hne
      · exact hcross before hbefore other hother

/-- `node_add_ordered` adds one id. -/
theorem mem_nodeAddOrdered (n : Node) (new : ClusterNode) {nodeid : NodeId} :
    nodeid ∈ (n.nodeAddOrdered new).nodeIds ↔ nodeid = new.nodeId ∨ nodeid ∈ n.nodeIds :=
  ((n.perm_nodeAddOrdered new).map (·.nodeId)).mem_iff.trans mem_cons

/-- `allocate_node` puts the record into what is left of the list. -/
theorem allocateNode_cases (hordered : n.nodeIds.Pairwise (· < ·))
    (halloc : n.allocateNode nodeid = some n') :
    ∃ kept : Node, n' = kept.nodeAddOrdered (fresh nodeid) ∧ kept.nodeIds = n.staying := by
  unfold staying recycled
  unfold allocateNode at halloc
  split at halloc
  · rename_i hroom
    cases halloc
    refine ⟨_, rfl, ?_⟩
    simp only [if_pos hroom, ne_eq, reduceCtorEq, not_false_eq_true, decide_true, filter_true]
    rfl
  · rename_i hfull
    obtain ⟨dropped, hdrop, rfl⟩ := Option.map_eq_some_iff.mp halloc
    obtain ⟨first, dead, second, hfind, hlist, hdropped⟩ := dropDead_split hdrop
    refine ⟨dropped, rfl, ?_⟩
    rw [nodeIds, hlist] at hordered
    -- the ids are different, so that only the dead record has its id
    have hother : ∀ record ∈ first ++ second, record.nodeId ≠ dead.nodeId := by
      have hnodup := (hordered.imp ne_of_lt).perm ((perm_middle).map _) Ne.symm
      rw [map_cons, pairwise_cons] at hnodup
      exact fun record hrecord => (hnodup.1 _ (mem_map_of_mem hrecord)).symm
    have hkept : ∀ records ⊆ first ++ second, (records.map (·.nodeId)).filter
        (fun nodeid => some nodeid ≠ some dead.nodeId) = records.map (·.nodeId) := by
      intro records hsub
      refine filter_eq_self.mpr fun id hid => ?_
      obtain ⟨record, hrecord, rfl⟩ := mem_map.mp hid
      simpa using hother record (hsub hrecord)
    rw [if_neg hfull, hfind, nodeIds, nodeIds, hdropped, hlist, map_append, map_append,
      map_cons, filter_append, filter_cons_of_neg (by simp), Option.map_some,
      hkept first (subset_append_left _ _), hkept second (subset_append_right _ _)]

end Node

/-- The list, and the nodes that have a record. -/
structure NodeList where
  node : Option Node
  allocated : List NodeId

/-- What happens to the list. -/
inductive ListEvent where
  /-- `allocate_node` is called with an id that has no record. -/
  | allocate (nodeid : NodeId)
  | states (state : NodeId → NodeState)

namespace NodeList

/-- The calls of `votequorum_exec_init_fn`, for the quorum device and for this node. -/
def start (nodeid : NodeId) : NodeList := ⟨some (.zero nodeid none), [nodeid, qdeviceNodeid]⟩

/-- The node after a change of the states of the other nodes. -/
def changeStates (state : NodeId → NodeState) (node : Node) : Node :=
  { node with
    before := node.before.map fun record => { record with state := state record.nodeId }
    after := node.after.map fun record => { record with state := state record.nodeId } }

/-- One step. -/
def step (s : NodeList) : ListEvent → Option NodeList
  | .allocate nodeid =>
    if nodeid ∈ s.allocated then none
    else match s.node with
      | some node => some ⟨node.allocateNode nodeid,
          nodeid :: s.allocated.filter fun other => some other ≠ node.recycled⟩
      | none => some ⟨none, nodeid :: s.allocated⟩
  | .states state => some { s with node := s.node.map (changeStates state) }

/-- There is a record for a new node, and its id is below one that is in the list. -/
def BelowLargest (s : NodeList) : ListEvent → Prop
  | .allocate nodeid =>
    ∀ node ∈ s.node, node.HasRecord ∧ ∃ other ∈ node.staying, nodeid < other
  | .states _ => True

instance (s : NodeList) (event : ListEvent) : Decidable (s.BelowLargest event) :=
  match event with
  | .allocate nodeid => inferInstanceAs (Decidable (∀ node ∈ s.node,
      node.HasRecord ∧ ∃ other ∈ node.staying, nodeid < other))
  | .states _ => isTrue trivial

/-- The list of a node is in the order of the ids, and has the nodes that have a record but the
quorum device. -/
structure InOrder (allocated : List NodeId) (node : Node) : Prop where
  sorted : node.nodeIds.Pairwise (· < ·)
  mem_iff : ∀ nodeid, nodeid ∈ node.nodeIds ↔ nodeid ∈ allocated ∧ nodeid ≠ qdeviceNodeid
  device : qdeviceNodeid ∈ allocated

/-- There is a list, and it is in order. -/
def Ordered (s : NodeList) : Prop := ∃ node, s.node = some node ∧ InOrder s.allocated node

/-- The list of a node that starts has only itself. -/
theorem Ordered.start {nodeid : NodeId} (hnode : nodeid ≠ qdeviceNodeid) :
    (NodeList.start nodeid).Ordered := by
  refine ⟨_, rfl, pairwise_singleton _ _, fun other => ?_, mem_cons_of_mem _ mem_cons_self⟩
  simp only [nodeIds, NodeList.start, zero, clusterMembersList, nil_append,
    map_cons, map_nil, mem_cons, not_mem_nil, or_false]
  constructor
  · rintro rfl
    exact ⟨.inl rfl, hnode⟩
  · rintro ⟨hother | hother, hne⟩
    · exact hother
    · exact absurd hother hne

variable {s s' : NodeList} {node node' : Node} {allocated : List NodeId} {nodeid : NodeId}

/-- The record of the quorum device is never taken for another node. -/
theorem InOrder.device_ne_recycled (h : InOrder allocated node) :
    some qdeviceNodeid ≠ node.recycled := by
  intro heq
  unfold recycled at heq
  split at heq
  · cases heq
  · obtain ⟨dead, hdead, hid⟩ := Option.map_eq_some_iff.mp heq.symm
    have hlisted : dead ∈ node.clusterMembersList := by
      refine mem_append.mpr ?_
      exact (mem_append.mp (mem_of_find?_eq_some hdead)).imp_right (mem_cons_of_mem _)
    exact ((h.mem_iff dead.nodeId).mp (mem_map_of_mem hlisted)).2 hid

/-- A call that finds a record keeps the order if and only if there is a larger id. -/
theorem InOrder.allocate (h : InOrder allocated node) (hnew : nodeid ∉ allocated)
    (halloc : node.allocateNode nodeid = some node') :
    InOrder (nodeid :: allocated.filter fun other => some other ≠ node.recycled) node' ↔
      ∃ other ∈ node.staying, nodeid < other := by
  obtain ⟨kept, rfl, hkept⟩ := allocateNode_cases h.sorted halloc
  have hmem : ∀ other, other ∈ kept.nodeIds ↔
      (other ∈ allocated ∧ other ≠ qdeviceNodeid) ∧ some other ≠ node.recycled := by
    intro other
    rw [hkept, staying, mem_filter, h.mem_iff, decide_eq_true_iff]
  have hiff := ordered_nodeAddOrdered (hkept ▸ h.sorted.filter _) (fresh nodeid)
    fun hold => hnew ((hmem nodeid).mp hold).1.1
  rw [← hkept]
  refine Iff.trans ⟨fun hafter => hafter.sorted, fun hsorted => ⟨hsorted, fun other => ?_, ?_⟩⟩ hiff
  · rw [mem_nodeAddOrdered, hmem, mem_cons, mem_filter, decide_eq_true_iff]
    constructor
    · rintro (rfl | ⟨⟨hold, hne⟩, hother⟩)
      · exact ⟨.inl rfl, fun heq => hnew (heq ▸ h.device)⟩
      · exact ⟨.inr ⟨hold, hother⟩, hne⟩
    · rintro ⟨rfl | ⟨hold, hother⟩, hne⟩
      · exact .inl rfl
      · exact .inr ⟨⟨hold, hne⟩, hother⟩
  · exact mem_cons_of_mem _
      (mem_filter.mpr ⟨h.device, decide_eq_true h.device_ne_recycled⟩)

/-- One call keeps the order if and only if there is a record and a larger id. -/
theorem Ordered.allocate (h : s.Ordered) (hstep : s.step (.allocate nodeid) = some s') :
    s'.Ordered ↔ s.BelowLargest (.allocate nodeid) := by
  obtain ⟨node, hnode, hinOrder⟩ := h
  obtain ⟨hnew, hstep⟩ := Option.ite_none_left_eq_some.mp hstep
  rw [hnode] at hstep
  cases hstep
  have hbelow : s.BelowLargest (.allocate nodeid) ↔
      node.HasRecord ∧ ∃ other ∈ node.staying, nodeid < other := by
    simp [BelowLargest, hnode]
  rw [hbelow, ← show (node.allocateNode nodeid).isSome ↔ _ from allocateNode_isSome_iff]
  constructor
  · rintro ⟨node', halloc, hafter⟩
    exact ⟨Option.isSome_of_eq_some halloc, (hinOrder.allocate hnew halloc).mp hafter⟩
  · rintro ⟨hsome, hlarger⟩
    obtain ⟨node', halloc⟩ := Option.isSome_iff_exists.mp hsome
    exact ⟨node', halloc, (hinOrder.allocate hnew halloc).mpr hlarger⟩

/-- A change of states leaves the list as it is. -/
theorem Ordered.states {state : NodeId → NodeState} (h : s.Ordered)
    (hstep : s.step (.states state) = some s') : s'.Ordered := by
  obtain ⟨node, hnode, hinOrder⟩ := h
  cases hstep
  have hids : (changeStates state node).nodeIds = node.nodeIds := by
    simp [changeStates, nodeIds, clusterMembersList, Function.comp_def]
  refine ⟨changeStates state node, by rw [hnode]; rfl, ?_⟩
  exact ⟨hids ▸ hinOrder.sorted, hids ▸ hinOrder.mem_iff, hinOrder.device⟩

/-- The list is ordered and complete all along a history if and only if every new node has found a
record and a larger id in the list. -/
theorem ordered_history_iff {nodeid : NodeId} {events : List ListEvent} {s : NodeList}
    (hnode : nodeid ≠ qdeviceNodeid) (hrun : run step (start nodeid) events = some s) :
    (∀ first t, first <+: events → run step (start nodeid) first = some t → t.Ordered) ↔
      run (restrict BelowLargest step) (start nodeid) events = some s := by
  refine run_restrict_iff (fun s e s' hs hstep => ?_) (.start hnode) hrun
  cases e with
  | allocate other => exact hs.allocate hstep
  | states state => exact iff_of_true (hs.states hstep) trivial

/-- The ids 2 and 3 are put in front of 5. -/
theorem ordered_history_below_five :
    ∃ s, run step (start 5) [.allocate 2, .allocate 3] = some s ∧
      ∀ first t, first <+: [.allocate 2, .allocate 3] →
        run step (start 5) first = some t → t.Ordered := by
  obtain ⟨s, hrun, hadmitted⟩ : ∃ s, run step (start 5) [.allocate 2, .allocate 3] = some s ∧
      run (restrict BelowLargest step) (start 5) [.allocate 2, .allocate 3] = some s :=
    ⟨_, rfl, rfl⟩
  exact ⟨s, hrun, (ordered_history_iff (by decide) hrun).mpr hadmitted⟩

/-- The second node of node 1 is put in front of it. -/
theorem second_node_misplaced :
    ∃ s, run step (start 1) [.allocate 2] = some s ∧ s.node.map nodeIds = some [2, 1] ∧
      ¬s.Ordered := by
  refine ⟨_, rfl, rfl, ?_⟩
  rintro ⟨node, hnode, h⟩
  cases hnode
  exact absurd h.sorted (by decide)

end NodeList

end Corosync.Votequorum
