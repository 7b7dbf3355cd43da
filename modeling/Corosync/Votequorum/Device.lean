import Corosync.Votequorum.Expecting

/-!
# For which nodes the quorum device counts

The quorum device counts for a node that it casts its vote for, and with master wins for a node that
knows a member it casts its vote for. A node tells the others when that changes, and decides anew
when it hears of it itself.
-/

namespace Corosync.Votequorum

open Library List Node ClusterNode

/-- A member for which the quorum device casts its vote, with master wins. -/
def ClusterNode.master (node : ClusterNode) : Bool :=
  node.state = .member && (node.flags.qdeviceMasterWins && node.flags.qdeviceCastVote)

/-- Which records are those of masters. -/
def Node.masters (n : Node) : List (NodeId × Bool) :=
  n.clusterMembersList.map fun node => (node.nodeId, node.master)

/-- The quorum device counts for a node. -/
def Node.Backed (n : Node) : Prop :=
  n.us.flags.qdeviceCastVote = true ∨ n.checkQdeviceMaster = true

instance (n : Node) : Decidable n.Backed := inferInstanceAs (Decidable (_ ∨ _))

variable {n n' : Node} {a nodeid : NodeId} {ring : List NodeId} {info : Nodeinfo}

namespace Node

/-- A master wins if one of the records has its flags. -/
theorem checkQdeviceMaster_eq (n : Node) : n.checkQdeviceMaster = n.masters.any (·.2) := by
  unfold checkQdeviceMaster masters members
  rw [any_filter, any_map]
  rfl

end Node

/-- A recalculation leaves the masters as they are. -/
theorem Kept.masters (hkept : Kept n n') : n'.masters = n.masters := by
  have hlist : ∀ nodes nodes' : List ClusterNode,
      nodes'.map base = nodes.map base →
        (nodes'.map fun node => (node.nodeId, node.master)) =
          nodes.map fun node => (node.nodeId, node.master) := by
    intro nodes nodes' hbase
    have hmap := congrArg (List.map fun node : ClusterNode => (node.nodeId, node.master)) hbase
    rw [map_map, map_map] at hmap
    exact hmap
  have hus : n'.us.master = n.us.master := by
    have hwins := congrArg Flags.qdeviceMasterWins hkept.flags
    have hcast := congrArg Flags.qdeviceCastVote hkept.flags
    simp only [Flags.base] at hwins hcast
    simp only [master, hkept.state, hwins, hcast]
  simp only [Node.masters, Node.clusterMembersList, map_append, map_cons,
    hlist _ _ hkept.before, hlist _ _ hkept.after, hus, hkept.nodeId]

namespace Node

/-- The masters after a `nodeinfo` message. -/
theorem masters_recordNodeinfo (n : Node) (old : Option ClusterNode) (info : Nodeinfo) :
    (n.recordNodeinfo old info).masters = n.masters.map fun entry =>
      if entry.1 = info.nodeid then (info.nodeid, (n.announcedRecord info).master) else entry := by
  have hrecord : (n.recorded info).masters = n.masters.map fun entry =>
      if entry.1 = info.nodeid then (info.nodeid, (n.announcedRecord info).master) else entry := by
    have hset : (n.setExpectedVotes (n.adopted info)).masters = n.masters := by
      simp [masters, clusterMembersList, setExpectedVotes, master]
    rw [masters, clusterMembersList_recorded, ← hset, masters, map_map, map_map]
    refine map_congr_left fun node _ => ?_
    simp only [Function.comp_apply]
    split <;> rfl
  rw [(n.kept_recordNodeinfo old info).masters, hrecord]

/-- A master after a `nodeinfo` message was one before, unless the message announces the vote of the
quorum device. -/
theorem checkQdeviceMaster_recordNodeinfo (n : Node) (old : Option ClusterNode) (info : Nodeinfo)
    (hmaster : (n.recordNodeinfo old info).checkQdeviceMaster = true) :
    info.flags.qdeviceCastVote = true ∨ n.checkQdeviceMaster = true := by
  rw [checkQdeviceMaster_eq, masters_recordNodeinfo, any_map] at hmaster
  obtain ⟨entry, hmem, hentry⟩ := any_eq_true.mp hmaster
  simp only [Function.comp_apply] at hentry
  split at hentry
  · refine .inl ?_
    simp only [master, announcedRecord, Bool.and_eq_true] at hentry
    exact hentry.2.2
  · refine .inr ?_
    rw [checkQdeviceMaster_eq]
    exact any_eq_true.mpr ⟨entry, hmem, hentry⟩

/-- A `nodeinfo` message about the quorum device does not make a master. -/
theorem masters_qdeviceNodeinfoHandler (n : Node) (sender : NodeId) (info : Nodeinfo) :
    (n.qdeviceNodeinfoHandler sender info).masters = n.masters := by
  obtain ⟨_, _, hkept⟩ := n.kept_qdeviceNodeinfoHandler sender info
  exact hkept.masters

/-- A master after a `nodeinfo` message was one before, unless the message announces the vote of the
quorum device. -/
theorem checkQdeviceMaster_nodeinfoHandler (n : Node) (sender : NodeId) (info : Nodeinfo)
    (hmaster : (n.nodeinfoHandler sender info).checkQdeviceMaster = true) :
    info.flags.qdeviceCastVote = true ∨ n.checkQdeviceMaster = true := by
  unfold nodeinfoHandler at hmaster
  split at hmaster
  · rw [checkQdeviceMaster_eq, masters_qdeviceNodeinfoHandler, ← checkQdeviceMaster_eq] at hmaster
    exact .inr hmaster
  split at hmaster
  · exact n.checkQdeviceMaster_recordNodeinfo _ info hmaster
  split at hmaster
  · rename_i allocated halloc
    refine (allocated.checkQdeviceMaster_recordNodeinfo none info hmaster).imp_right ?_
    rw [checkQdeviceMaster_eq, checkQdeviceMaster_eq]
    intro hany
    obtain ⟨entry, hentry, hmaster⟩ := any_eq_true.mp hany
    obtain ⟨node, hnode, rfl⟩ := mem_map.mp hentry
    obtain rfl | hold := mem_allocateNode halloc hnode
    · exact absurd hmaster (by simp [fresh, master])
    · exact any_eq_true.mpr ⟨_, mem_map_of_mem hold, hmaster⟩
  · exact .inr hmaster

/-- The masters are the same if nothing is recalculated. -/
theorem masters_of_unmoved (hroster : Roster a ring n) (sender : NodeId)
    (hunmoved : n.Unmoved info) : (n.nodeinfoHandler sender info).masters = n.masters := by
  by_cases hnode : info.nodeid = qdeviceNodeid
  · rw [nodeinfoHandler, if_pos hnode]
    exact masters_qdeviceNodeinfoHandler n sender info
  obtain ⟨old, hfind, hsame⟩ := hunmoved.resolve_left hnode
  rw [nodeinfoHandler, if_neg hnode, hfind]
  dsimp only
  -- the record of the node is what the message announces
  have hnew : n.announcedRecord info = old := by
    have hfound : (n.recorded info).findNodeByNodeid info.nodeid = some old := by
      simp only [recordChanged, Bool.or_eq_true, not_or, decide_eq_true_eq, ne_eq,
        Decidable.not_not] at hsame
      exact hsame.2
    obtain ⟨hmem, hid⟩ := mem_of_find hfound
    rw [clusterMembersList_recorded] at hmem
    obtain ⟨node, -, heq⟩ := mem_map.mp hmem
    split at heq
    · exact heq
    · rename_i hother
      exact absurd (heq ▸ hid) hother
  rw [masters_recordNodeinfo]
  refine (map_congr_left fun entry hentry => ?_).trans (map_id _)
  split
  · rename_i hid
    obtain ⟨node, hmem, rfl⟩ := mem_map.mp hentry
    have hids := hroster.nodup
    rw [roll, map_map] at hids
    obtain ⟨hold, holdId⟩ := mem_of_find hfind
    obtain rfl := inj_on_of_nodup_map hids hmem hold (hid.trans holdId.symm)
    rw [hnew]
    exact Prod.ext hid.symm rfl
  · rfl

/-- A `nodeinfo` message after which nothing is recalculated is not about this node. -/
theorem ne_of_unmoved (hroster : Roster a ring n) (hring : IsRing a ring)
    (hunmoved : n.Unmoved info) : info.nodeid ≠ n.us.nodeId := by
  obtain hdevice | ⟨old, -, hsame⟩ := hunmoved
  · rw [hdevice, hroster.nodeId]
    exact fun heq => hring.qdevice (heq ▸ hring.mem)
  · have hother := ne_of_not_recordChanged hsame
    rwa [nodeId_recorded] at hother

/-- For which nodes the quorum device counts is the same if nothing is recalculated. -/
theorem backed_of_unmoved (hroster : Roster a ring n) (hring : IsRing a ring) (sender : NodeId)
    (hunmoved : n.Unmoved info) (hbacked : n.Backed) : (n.nodeinfoHandler sender info).Backed := by
  refine hbacked.imp (fun hcast => ?_) fun hmaster => ?_
  · obtain hflags | ⟨hus, -, -⟩ := n.flags_nodeinfoHandler sender info
    · have hsame := congrArg Flags.qdeviceCastVote hflags
      exact hsame.trans hcast
    · exact absurd hus (ne_of_unmoved hroster hring hunmoved)
  · rw [checkQdeviceMaster_eq, masters_of_unmoved hroster sender hunmoved, ← checkQdeviceMaster_eq]
    exact hmaster

/-- A `nodeinfo` message makes the quorum device count only if it announces its vote. -/
theorem backed_nodeinfoHandler (n : Node) (sender : NodeId) (info : Nodeinfo)
    (hbacked : (n.nodeinfoHandler sender info).Backed) :
    info.flags.qdeviceCastVote = true ∨ n.Backed := by
  obtain hcast | hmaster := hbacked
  · obtain hflags | ⟨-, -, hflags⟩ := n.flags_nodeinfoHandler sender info
    · have hsame := congrArg Flags.qdeviceCastVote hflags
      exact .inr (.inl (hsame.symm.trans hcast))
    · have hsame := congrArg Flags.qdeviceCastVote hflags
      exact .inl (hsame.symm.trans hcast)
  · exact (n.checkQdeviceMaster_nodeinfoHandler sender info hmaster).imp_right .inr

end Node

/-- A recalculation does not change for which nodes the quorum device counts. -/
theorem Kept.backed (hkept : Kept n n') (hbacked : n'.Backed) : n.Backed := by
  refine hbacked.imp (fun hcast => ?_) fun hmaster => ?_
  · have hsame := congrArg Flags.qdeviceCastVote hkept.flags
    exact hsame.symm.trans hcast
  · rw [checkQdeviceMaster_eq, hkept.masters, ← checkQdeviceMaster_eq] at hmaster
    exact hmaster

/-- What is done about the quorum device. -/
def Action.device : Action → Bool
  | .qdeviceRegister => true
  | .qdeviceUnregister => true
  | .qdevicePoll _ => true
  | .qdeviceMasterWins _ => true
  | .qdeviceTimer => true
  | _ => false

/-- What an action about the quorum device changes: flags of this node, which it announces then. -/
structure DeviceStep (n : Node) (action : Action) (n' : Node) (messages : List Message) : Prop where
  adjusted : ∃ flags progress masterWins fdOpen, n' = n.adjusted flags progress masterWins fdOpen
  announced : n'.us.flags = n.us.flags ∨ .nodeinfo n'.nodeinfo ∈ messages
  castVote : n'.us.flags.qdeviceCastVote = true →
    n.us.flags.qdeviceCastVote = true ∨ action = .qdevicePoll true
  masterWins : n'.qdeviceMasterWins = true →
    n.qdeviceMasterWins = true ∨ action = .qdeviceMasterWins true

/-- Nothing happens. -/
theorem DeviceStep.refl (n : Node) (action : Action) : DeviceStep n action n [] :=
  ⟨⟨n.us.flags, n.toProgress, n.qdeviceMasterWins, n.evTrackingFdOpen, rfl⟩, .inl rfl, .inl,
    .inl⟩

/-- What an action of the quorum device does. -/
theorem DeviceStep.act (n : Node) {action : Action} (hdevice : action.device = true) :
    DeviceStep n action (n.act action).1 (n.act action).2 := by
  cases action with
  | qdeviceRegister =>
    unfold Node.act Node.qdeviceRegister
    dsimp only
    split
    · exact ⟨⟨_, _, _, _, rfl⟩, .inr (by simp), .inl, .inl⟩
    · exact .refl n _
  | qdeviceUnregister =>
    unfold Node.act Node.qdeviceUnregister
    dsimp only
    split
    · split
      · exact ⟨⟨_, _, _, _, rfl⟩, .inr (by simp), fun hcast => absurd hcast Bool.false_ne_true,
          .inl⟩
      · exact ⟨⟨_, _, _, _, rfl⟩, .inr (by simp), fun hcast => absurd hcast Bool.false_ne_true,
          .inl⟩
    · exact .refl n _
  | qdevicePoll _ =>
    unfold Node.act Node.qdevicePoll
    dsimp only
    split
    · refine ⟨⟨_, _, _, _, rfl⟩, ?_, fun hcast => .inr ?_, .inl⟩
      · split
        · exact .inr (by simp)
        · rename_i hsame
          exact .inl (Decidable.not_not.mp hsame)
      · exact congrArg Action.qdevicePoll hcast
    · exact .refl n _
  | qdeviceMasterWins _ =>
    unfold Node.act Node.qdeviceAllowMasterWins
    dsimp only
    split
    · refine ⟨⟨_, _, _, _, rfl⟩, ?_, .inl, fun hwins => .inr ?_⟩
      · split
        · exact .inr (by simp)
        · rename_i hsame
          exact .inl (Decidable.not_not.mp hsame)
      · exact congrArg Action.qdeviceMasterWins hwins
    · exact .refl n _
  | qdeviceTimer =>
    unfold Node.act Node.qdeviceTimerFn
    dsimp only
    split
    · exact ⟨⟨_, _, _, _, rfl⟩, .inr (by simp), fun hcast => absurd hcast Bool.false_ne_true,
        .inl⟩
    · exact .refl n _
  | _ => exact absurd hdevice Bool.false_ne_true

/-- Only a poll with a vote makes a node backed. -/
theorem DeviceStep.backed {action : Action} {messages : List Message}
    (hstep : DeviceStep n action n' messages) (hbacked : n'.Backed) :
    n.Backed ∨ action = .qdevicePoll true := by
  have hcast := hstep.castVote
  obtain ⟨flags, progress, masterWins, fdOpen, rfl⟩ := hstep.adjusted
  obtain hcasts | hmaster := hbacked
  · exact (hcast hcasts).imp_left .inl
  rw [checkQdeviceMaster_eq] at hmaster
  obtain ⟨entry, hentry, hmaster⟩ := any_eq_true.mp hmaster
  obtain ⟨node, hnode, rfl⟩ := mem_map.mp hentry
  simp only [clusterMembersList, mem_append, mem_cons] at hnode
  have hold : node ∈ n.before ++ n.after → n.Backed := by
    intro hmem
    refine .inr ?_
    rw [checkQdeviceMaster_eq]
    refine any_eq_true.mpr ⟨_, mem_map.mpr ⟨node, ?_, rfl⟩, hmaster⟩
    simp only [clusterMembersList, mem_append, mem_cons] at hmem ⊢
    exact hmem.imp_right .inr
  obtain hbefore | rfl | hafter := hnode
  · exact .inl (hold (mem_append_left _ hbefore))
  · simp only [master, Bool.and_eq_true] at hmaster
    exact (hcast hmaster.2.2).imp_left .inl
  · exact .inl (hold (mem_append_right _ hafter))

/-- For which nodes the quorum device counts is the same with the same flags. -/
theorem DeviceStep.backed_of_flags {action : Action} {messages : List Message}
    (hstep : DeviceStep n action n' messages) (hflags : n'.us.flags = n.us.flags)
    (hbacked : n.Backed) : n'.Backed := by
  obtain ⟨flags, progress, masterWins, fdOpen, rfl⟩ := hstep.adjusted
  obtain rfl : flags = n.us.flags := hflags
  exact hbacked

end Corosync.Votequorum
