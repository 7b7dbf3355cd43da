import Corosync.Cpg.Activation
import Corosync.Cpg.ProcessView

/-!
# Connections can replay the configuration changes

With plain names every connection that has joined a group can replay the changes it was told of to
the list of processes, after every event. Two groups whose names have the same string share one
event of an activation, and one group whose name is followed by different bytes gets several; then
the replay fails.
-/

namespace Corosync.Cpg

open Library List Option CpgNode Confchg

/-- An event about nodes that are gone. -/
def Confchg.isNodedown (change : Confchg) : Bool :=
  change.leftList.any fun address => address.reason == .nodedown

/-- An event about nodes that have come. -/
def Confchg.isNodeup (change : Confchg) : Bool :=
  change.joinedList.any fun address => address.reason == .nodeup

namespace CpgNode

/-- The states between the events of an activation: after those about nodes that are gone, after
those about nodes that have come, and after each removal of a process. -/
def activationStates (node : CpgNode) : Option (List CpgNode) :=
  ({ node with myOldMemberList := node.myMemberList : CpgNode }.downlistInformClients).bind
    fun down => down.joinStored.map fun joined =>
      down :: (List.range ((notifyJoined joined).processInfoList.length + 1)).map fun k =>
        ((notifyJoined joined).processInfoList.take k).foldl (notifyJoined joined).removeZombie
          (notifyJoined joined)

/-- An activation tells a connection at most once of nodes that are gone and at most once of nodes
that have come, and names only processes of the group. -/
structure OncePerGroup (node node' : CpgNode) (client : Client) : Prop where
  changes : ∃ changes, node'.confchgs client.conn = node.confchgs client.conn ++ changes ∧
    changes.countP isNodedown ≤ 1 ∧ changes.countP isNodeup ≤ 1 ∧
    (∀ change ∈ changes, change.isNodedown = true → ∀ address ∈ change.leftList,
      ∃ pi ∈ node.processInfoList, pi.nodeid = address.nodeid ∧ pi.pid = address.pid ∧
        pi.group.bytes = change.group.bytes) ∧
    (∀ change ∈ changes, change.isNodeup = true → ∀ address ∈ change.joinedList,
      ∃ stored ∈ node.joinlistMessages, stored.senderNodeid = address.nodeid ∧
        stored.pid = address.pid ∧ stored.groupName.bytes = change.group.bytes)

/-- The names that the node has. -/
structure PlainLists (node : CpgNode) : Prop where
  processes : ∀ pi ∈ node.processInfoList, pi.group.Plain
  stored : ∀ stored ∈ node.joinlistMessages, stored.groupName.Plain

/-- An activation has at most `CPG_MEMBERS_MAX` processes of a group that go with their nodes, and
at most as many of the joinlists that are not in the list. -/
structure Room (node : CpgNode) : Prop where
  departing : ∀ pi ∈ node.processInfoList,
    (node.departing pi.group.bytes).length ≤ cpgMembersMax
  arriving : ∀ stored ∈ node.joinlistMessages, (node.joinlistMessages.filter
    (node.withoutGone.arrives stored.groupName.bytes)).length ≤ cpgMembersMax

instance (node : CpgNode) : Decidable node.Room :=
  decidable_of_iff ((∀ pi ∈ node.processInfoList,
      (node.departing pi.group.bytes).length ≤ cpgMembersMax) ∧
    ∀ stored ∈ node.joinlistMessages, (node.joinlistMessages.filter
      (node.withoutGone.arrives stored.groupName.bytes)).length ≤ cpgMembersMax)
    ⟨fun ⟨hdeparting, harriving⟩ => ⟨hdeparting, harriving⟩,
      fun ⟨hdeparting, harriving⟩ => ⟨hdeparting, harriving⟩⟩

end CpgNode

/-- The names that a message puts into the lists. -/
def CpgMessage.Plain : CpgMessage → Prop
  | .procjoin group _ => group.Plain
  | .joinlist entries => ∀ entry ∈ entries, entry.2.Plain
  | _ => True

instance (message : CpgMessage) : Decidable message.Plain :=
  match message with
  | .procjoin group _ => inferInstanceAs (Decidable group.Plain)
  | .joinlist entries => inferInstanceAs (Decidable (∀ entry ∈ entries, entry.2.Plain))
  | .procleave .. | .downlist | .mcast .. | .partialMcast .. => isTrue trivial

variable {node node' : CpgNode}

section Activate

/-- Elements of one kind, whose number is bounded when there is one. -/
theorem length_filter_le {α : Type*} {list : List α} {p : α → Bool} {bound : ℕ}
    (h : ∀ a ∈ list, p a = true → (list.filter p).length ≤ bound) :
    (list.filter p).length ≤ bound := by
  cases hfilter : list.filter p with
  | nil => exact Nat.zero_le _
  | cons first rest =>
    have hfirst : first ∈ list.filter p := by
      rw [hfilter]
      exact mem_cons_self
    obtain ⟨hmem, hp⟩ := mem_filter.mp hfirst
    rw [← hfilter]
    exact h first hmem hp

/-- Every group has room among the processes that go. -/
theorem CpgNode.Room.departing_le (h : node.Room) (bytes : List UInt8) :
    (node.departing bytes).length ≤ cpgMembersMax := by
  refine length_filter_le fun pi hpi hbytes => ?_
  have hroom := h.departing pi (mem_filter.mp hpi).1
  rwa [beq_iff_eq.mp hbytes] at hroom

/-- Every group has room among the processes that come. -/
theorem CpgNode.Room.arriving_le (h : node.Room) (bytes : List UInt8) :
    (node.joinlistMessages.filter (node.withoutGone.arrives bytes)).length ≤ cpgMembersMax := by
  refine length_filter_le fun stored hstored harrives => ?_
  have hroom := h.arriving stored hstored
  rwa [(arrives_iff.mp harrives).2.1] at hroom

/-- The processes that come are the same after the first events. -/
theorem arrives_of_downlistInformClients (hdown : node.downlistInformClients = some node')
    (bytes : List UInt8) : node'.arrives bytes = node.withoutGone.arrives bytes := by
  have hnotified := downlistInformClients_notified hdown
  funext stored
  rw [CpgNode.arrives, hnotified.has, hnotified.nodeid_eq]
  rfl

/-- So there is room for them. -/
theorem CpgNode.Room.arriving_of_downlistInformClients (h : node.Room)
    (hdown : node.downlistInformClients = some node') (bytes : List UInt8) :
    (node'.joinlistMessages.filter (node'.arrives bytes)).length ≤ cpgMembersMax := by
  rw [arrives_of_downlistInformClients hdown, (downlistInformClients_informs hdown).eq]
  exact h.arriving_le bytes

/-- The three parts of `cpg_sync_activate`. -/
theorem cpgSyncActivate_stages (h : node.cpgSyncActivate = some node') :
    ∃ down joined, ({ node with myOldMemberList := node.myMemberList :
        CpgNode }.downlistInformClients) = some down ∧ down.joinStored = some joined ∧
      node' = { (notifyJoined joined).processInfoList.foldl
        (notifyJoined joined).removeZombie (notifyJoined joined) with
          joinlistMessages := [] } := by
  obtain ⟨down, hdown, h⟩ := bind_eq_some_iff.mp h
  obtain ⟨result, hresult, rfl⟩ := map_eq_some_iff.mp h
  obtain ⟨joined, hjoined, rfl⟩ := map_eq_some_iff.mp hresult
  exact ⟨down, joined, hdown, hjoined, rfl⟩

/-- The names stay plain. -/
theorem downlistInformClients_plain (hdown : node.downlistInformClients = some node')
    (hplain : node.PlainLists) : node'.PlainLists := by
  have hnotified := downlistInformClients_notified hdown
  refine ⟨fun pi hpi => ?_, fun stored hstored => ?_⟩
  · rw [hnotified.list] at hpi
    exact hplain.processes pi (mem_filter.mp hpi).1
  · rw [hnotified.eq] at hstored
    exact hplain.stored stored hstored

/-- With plain names and room an activation returns. -/
theorem exists_cpgSyncActivate (hplain : node.PlainLists) (hroom : node.Room) :
    ∃ node', node.cpgSyncActivate = some node' := by
  obtain ⟨map, -, hdown⟩ :=
    @downlistInformClients_collects { node with myOldMemberList := node.myMemberList }
      hplain.processes hroom.departing_le
  have hroom' : ({ node with myOldMemberList := node.myMemberList } : CpgNode).Room :=
    ⟨hroom.departing, hroom.arriving⟩
  obtain ⟨joined, hjoined⟩ := exists_joinStored
    (downlistInformClients_plain hdown ⟨hplain.processes, hplain.stored⟩).stored
    (hroom'.arriving_of_downlistInformClients hdown)
  rw [cpgSyncActivate, hdown, bind_some, joinlistInformClients, hjoined]
  exact ⟨_, rfl⟩

/-- The connections are told of every change of an activation. -/
theorem cpgSyncActivate_told (h : node.Told node.view) (hplain : node.PlainLists)
    (hroom : node.Room) (hactivate : node.cpgSyncActivate = some node') :
    node'.Told node'.view ∧
      ∃ states, node.activationStates = some states ∧ ∀ state ∈ states, state.Replays := by
  obtain ⟨down, joined, hdown, hjoined, rfl⟩ := cpgSyncActivate_stages hactivate
  have hstart : ({ node with myOldMemberList := node.myMemberList } : CpgNode).Told node.view :=
    h.congr rfl (fun _ => rfl) rfl
  have hroom' : ({ node with myOldMemberList := node.myMemberList } : CpgNode).Room :=
    ⟨hroom.departing, hroom.arriving⟩
  have hdownTold := downlistInformClients_told hstart hplain.processes hroom'.departing_le hdown
  have hdownPlain := downlistInformClients_plain hdown ⟨hplain.processes, hplain.stored⟩
  obtain ⟨items, hstored⟩ := joinStored_spec hjoined
  have hjoinedTold := notifyJoined_told hdownTold hdownPlain.stored
    (hroom'.arriving_of_downlistInformClients hdown) hstored
  have hstates : node.activationStates = some (down ::
      (List.range ((notifyJoined joined).processInfoList.length + 1)).map fun k =>
        ((notifyJoined joined).processInfoList.take k).foldl
          (notifyJoined joined).removeZombie (notifyJoined joined)) := by
    rw [activationStates, hdown, bind_some, hjoined, map_some]
  refine ⟨?_, _, hstates, ?_⟩
  · exact (removeZombies_told hjoinedTold _).congr rfl (fun _ => rfl) rfl
  · intro state hstate
    rcases mem_cons.mp hstate with rfl | hstate
    · exact hdownTold.replays
    · obtain ⟨k, -, rfl⟩ := mem_map.mp hstate
      exact (removeZombies_told hjoinedTold _).replays

/-- A list with at most one element has at most one of a kind. -/
theorem countP_append_le_one {α : Type*} {p : α → Bool} {first second : List α}
    (hfirst : first.length ≤ 1) (hsecond : ∀ a ∈ second, p a = false) :
    (first ++ second).countP p ≤ 1 := by
  have hzero : second.countP p = 0 := by
    rw [countP_eq_zero]
    intro a ha
    simp [hsecond a ha]
  rw [countP_append, hzero, Nat.add_zero]
  exact Nat.le_trans countP_le_length hfirst

/-- An activation has at most one event of each kind for a group. -/
theorem cpgSyncActivate_once (hconns : (node.clients.map Client.conn).Nodup)
    (hplain : node.PlainLists) (hroom : node.Room)
    (hactivate : node.cpgSyncActivate = some node') {client : Client}
    (hclient : client ∈ node.clients) : CpgNode.OncePerGroup node node' client := by
  obtain ⟨down, joined, hdown, hjoined, rfl⟩ := cpgSyncActivate_stages hactivate
  have hdownPlain := downlistInformClients_plain hdown ⟨hplain.processes, hplain.stored⟩
  have hdownClients : down.clients = node.clients :=
    (downlistInformClients_informs hdown).core
  have hdownStored : down.joinlistMessages = node.joinlistMessages := by
    rw [(downlistInformClients_informs hdown).eq]
  obtain ⟨items, hstored⟩ := joinStored_spec hjoined
  obtain ⟨gone, hgone, hgoneLength, hgoneFrom⟩ :=
    @downlistInformClients_confchgs { node with myOldMemberList := node.myMemberList } down hconns
      hplain.processes hroom.departing_le hdown client hclient
  have hroom' : ({ node with myOldMemberList := node.myMemberList } : CpgNode).Room :=
    ⟨hroom.departing, hroom.arriving⟩
  obtain ⟨come, hcome, hcomeLength, hcomeFrom⟩ := notifyJoined_confchgs
    (by rw [hdownClients]; exact hconns) hdownPlain.stored
    (hroom'.arriving_of_downlistInformClients hdown) hstored
    (by rw [hdownClients]; exact hclient)
  have hjoinedClients : (notifyJoined joined).clients = node.clients := by
    have hresult : down.joinlistInformClients =
        some (notifyJoined joined).joinlistRemoveZombiePiEntries := by
      rw [joinlistInformClients, hjoined]
      rfl
    have hall := (joinlistInformClients_spec hresult).1.core
    have hzombies := (joinlistRemoveZombiePiEntries_spec (notifyJoined joined)).1.core
    exact (hzombies.symm.trans hall).trans hdownClients
  obtain ⟨removed, hremoved, hremovedFrom⟩ :=
    @removeZombies_confchgs (notifyJoined joined) (notifyJoined joined)
      (by rw [hjoinedClients]; exact hconns) (notifyJoined joined).processInfoList client
      (by rw [hjoinedClients]; exact hclient)
  -- the three kinds of events
  have hgoneUp : ∀ change ∈ gone, change.isNodeup = false := by
    intro change hchange
    rw [isNodeup, (hgoneFrom change hchange).1]
    rfl
  have hcomeDown : ∀ change ∈ come, change.isNodedown = false := by
    intro change hchange
    rw [isNodedown, (hcomeFrom change hchange).1]
    rfl
  have hremovedUp : ∀ change ∈ removed, change.isNodeup = false := by
    intro change hchange
    rw [isNodeup, (hremovedFrom change hchange).2]
    rfl
  have hremovedDown : ∀ change ∈ removed, change.isNodedown = false := by
    intro change hchange
    rw [isNodedown, List.any_eq_false]
    intro address haddress
    rw [(hremovedFrom change hchange).1 address haddress]
    decide
  have hconfchgs : ({ (notifyJoined joined).processInfoList.foldl
      (notifyJoined joined).removeZombie (notifyJoined joined) with
        joinlistMessages := [] } : CpgNode).confchgs client.conn =
      node.confchgs client.conn ++ (gone ++ (come ++ removed)) := by
    refine hremoved.trans ?_
    rw [hcome, hgone, append_assoc, append_assoc]
    rfl
  refine ⟨_, hconfchgs, ?_, ?_, fun change hchange hkind => ?_, fun change hchange hkind => ?_⟩
  · refine countP_append_le_one hgoneLength fun change hchange => ?_
    rcases mem_append.mp hchange with hchange | hchange
    · exact hcomeDown change hchange
    · exact hremovedDown change hchange
  · have hzero : gone.countP isNodeup = 0 := by
      rw [countP_eq_zero]
      intro change hchange
      simp [hgoneUp change hchange]
    rw [countP_append, hzero, Nat.zero_add]
    exact countP_append_le_one hcomeLength hremovedUp
  · rcases mem_append.mp hchange with hchange | hchange
    · exact (hgoneFrom change hchange).2
    · rcases mem_append.mp hchange with hchange | hchange
      · exact absurd (hkind.symm.trans (hcomeDown change hchange)) (by simp)
      · exact absurd (hkind.symm.trans (hremovedDown change hchange)) (by simp)
  · rcases mem_append.mp hchange with hchange | hchange
    · exact absurd (hkind.symm.trans (hgoneUp change hchange)) (by simp)
    · rcases mem_append.mp hchange with hchange | hchange
      · rw [← hdownStored]
        exact (hcomeFrom change hchange).2
      · exact absurd (hkind.symm.trans (hremovedUp change hchange)) (by simp)

/-- The names stay plain in an activation. -/
theorem cpgSyncActivate_plain (hplain : node.PlainLists)
    (hactivate : node.cpgSyncActivate = some node') : node'.PlainLists := by
  obtain ⟨down, joined, hdown, hjoined, rfl⟩ := cpgSyncActivate_stages hactivate
  have hdownPlain := downlistInformClients_plain hdown ⟨hplain.processes, hplain.stored⟩
  obtain ⟨items, hstored⟩ := joinStored_spec hjoined
  have hjoinedPlain : ∀ pi ∈ joined.1.processInfoList, pi.group.Plain := by
    intro pi hpi
    rcases hstored.list pi hpi with hpi | ⟨stored, hmem, hgroup⟩
    · exact hdownPlain.processes pi hpi
    · rw [hgroup]
      exact hdownPlain.stored stored hmem
  refine ⟨?_, fun stored hstored => absurd hstored not_mem_nil⟩
  refine List.foldlRecOn
    (motive := fun current : CpgNode => ∀ pi ∈ current.processInfoList, pi.group.Plain)
    _ (notifyJoined joined).removeZombie ?_ fun current hcurrent pi _ => ?_
  · rw [notifyJoined_processInfoList]
    exact hjoinedPlain
  · unfold removeZombie
    split
    · exact hcurrent
    · exact fun other hother => hcurrent other (mem_filter.mp hother).1

end Activate

namespace Local

open List Option

/-- Names in requests and in messages of other nodes are plain, and an activation has room for the
events of every group. -/
def PlainNames (s : Local) : LocalEvent → Prop
  | .join _ _ group => group.Plain
  | .foreign _ message => message.Plain
  | .syncActivate => s.node.Room
  | _ => True

instance (s : Local) (event : LocalEvent) : Decidable (s.PlainNames event) :=
  match event with
  | .join _ _ group => inferInstanceAs (Decidable group.Plain)
  | .foreign _ message => inferInstanceAs (Decidable message.Plain)
  | .syncActivate => inferInstanceAs (Decidable s.node.Room)
  | .init .. | .leave .. | .finalize .. | .exit .. | .mcast .. | .partialMcast .. | .transmit
  | .deliver | .room .. | .syncInit .. | .syncProcess | .syncAbort | .syncCompleted =>
    isTrue trivial

/-- What holds in every state of such a run. -/
structure ReplayInv (s : Local) : Prop where
  conns : s.Conns
  told : s.node.Told s.node.view
  fresh : ∀ conn, conn ∉ s.used → s.node.confchgs conn = []
  lists : s.node.PlainLists
  joins : ∀ group pid, .procjoin group pid ∈ s.announcements → group.Plain
  joinlists : ∀ entries, .joinlist entries ∈ s.inFlight ++ s.node.totem.queued →
    ∀ entry ∈ entries, entry.2.Plain

variable {s s' : Local} {event : LocalEvent} {node : CpgNode} {node node' : CpgNode}

/-- Before the first client. -/
theorem ReplayInv.start (nodeid : ℕ) : (Local.start nodeid).ReplayInv where
  conns := start_conns nodeid
  told := ⟨nodup_nil, nofun, nofun⟩
  fresh := fun _ _ => rfl
  lists := ⟨nofun, nofun⟩
  joins := nofun
  joinlists := nofun

section Clients

/-- Announced joins have plain names. -/
theorem ReplayInv.joins_step (h : s.ReplayInv) (hcond : s.PlainNames event)
    (hstep : s.step event = some s') :
    ∀ group pid, .procjoin group pid ∈ s'.announcements → group.Plain := by
  intro group pid hmem
  rcases (step_outcome h.conns hstep).procjoin_mem hmem with hmem | ⟨client, -, rfl, -⟩
  · exact h.joins group pid hmem
  · exact hcond

/-- Listed clients have different connections. -/
theorem Conns.listed_nodup (h : s.Conns) : (s.node.clients.map Client.conn).Nodup := by
  have hnodup := h.nodup
  rw [map_append] at hnodup
  exact (nodup_append.mp hnodup).1

/-- What the connections are told stays right when a connection does something. -/
theorem ReplayInv.told_client (h : s.ReplayInv) (hclient : event.ofClient = true)
    (hstep : s.step event = some s') : s'.node.Told s.node.view := by
  have hframe := clientFrame hclient hstep
  have hconfchgs : ∀ conn, s'.node.confchgs conn = s.node.confchgs conn := by
    intro conn
    simp only [confchgs, hframe.dispatched]
  have hnodup := (h.conns.step hstep).listed_nodup
  -- a connection is as before, is told nothing, or was joined before
  have hof : (∀ other ∈ s'.clients, other ∈ s.clients ∨
      (other.joined = false ∧ s.node.confchgs other.conn = []) ∨
      (other.joined = true ∧ ∃ before ∈ s.clients, before.joined = true ∧
        before.conn = other.conn ∧ before.pid = other.pid ∧ before.groupName = other.groupName)) →
      s'.node.Told s.node.view := by
    intro hall
    refine h.told.of_clients hnodup hconfchgs hframe.nodeid (fun other hother hstate => ?_)
      (fun other hother hstate => ?_)
    · rcases hall other hother with hsame | ⟨hnot, -⟩ | ⟨-, hbefore⟩
      · exact ⟨other, hsame, hstate, rfl, rfl, rfl⟩
      · exact absurd (hstate.symm.trans hnot) (by simp)
      · exact hbefore
    · rcases hall other hother with hsame | ⟨-, hsilent⟩ | ⟨hjoined, -⟩
      · exact h.told.silent other hsame hstate
      · exact hsilent
      · exact absurd (hstate.symm.trans hjoined) (by simp)
  cases step_outcome h.conns hstep with
  | quiet hclients => exact h.told.congr hclients hconfchgs hframe.nodeid
  | init conn _ hfresh hclients =>
    refine hof fun other hother => ?_
    rw [hclients] at hother
    rcases mem_cons.mp hother with rfl | hother
    · exact .inr (.inl ⟨rfl, h.fresh conn hfresh⟩)
    · exact .inl hother
  | join client _ _ _ hmem hunjoined _ _ hclients =>
    have hsilent : s.node.confchgs client.conn = [] :=
      h.told.silent client hmem (by simp [Client.joined, hunjoined])
    refine hof fun other hother => ?_
    rw [hclients] at hother
    obtain ⟨before, hbefore, rfl⟩ := mem_map.mp hother
    unfold Client.become
    split
    · exact .inr (.inl ⟨rfl, hsilent⟩)
    · exact .inl hbefore
  | leave client _ _ _ hmem hcompleted hclients =>
    refine hof fun other hother => ?_
    rw [hclients] at hother
    obtain ⟨before, hbefore, rfl⟩ := mem_map.mp hother
    unfold Client.become
    split
    · exact .inr (.inr ⟨rfl, client, hmem, by simp [Client.joined, hcompleted], rfl, rfl, rfl⟩)
    · exact .inl hbefore
  | finalize _ _ _ hclients | exit _ _ _ hclients =>
    exact hof fun other hother => .inl (mem_filter.mp (hclients ▸ hother)).1
  | deliverJoin _ _ hevent | deliverLeave _ _ _ hevent =>
    rw [hevent] at hclient
    cases hclient

end Clients

section Sends

/-- A connection without a client gets no event. -/
theorem confchgs_of_sends (h : Sends node node') {conn : ℕ}
    (hnot : conn ∉ node.cpgPdList.map CpgPd.conn) : node'.confchgs conn = node.confchgs conn := by
  obtain ⟨sent, hsent, hto⟩ := h.dispatched
  rw [confchgs, hsent, filterMap_append]
  refine (congrArg _ ?_).trans (append_nil _)
  rw [filterMap_eq_nil_iff]
  rintro ⟨receiver, dispatch⟩ hmem
  have hne : receiver ≠ conn := by
    rintro rfl
    exact hnot (hto _ hmem)
  cases dispatch with
  | confchg _ _ _ _ => exact if_neg hne
  | deliver | partialDeliver => rfl

/-- A dispatch goes to clients of the list. -/
theorem sends_sendToGroup {group : CpgName} {nodeid : ℕ} {dispatch : Dispatch} :
    Sends node (node.sendToGroup group nodeid dispatch) := by
  unfold sendToGroup
  split
  · refine ⟨rfl, _, rfl, fun sent hmem => ?_⟩
    obtain ⟨cpd, hcpd, rfl⟩ := mem_map.mp hmem
    exact mem_map_of_mem (mem_filter.mp hcpd).1
  · exact sends_of_eq rfl rfl

/-- So does what a message leads to. -/
theorem sends_execHandler (node : CpgNode) (nodeid : ℕ) (message : CpgMessage) :
    Sends node (node.execHandler nodeid message) := by
  cases message with
  | procjoin group pid =>
    simp only [execHandler, doProcJoin]
    split
    · exact sends_of_eq rfl rfl
    · exact (informs_list _).sends.trans sends_notify
  | procleave _ pid reason => exact (doProcLeave_informs pid nodeid reason).sends
  | joinlist | downlist => exact sends_of_eq rfl rfl
  | mcast | partialMcast => exact sends_sendToGroup

end Sends

section Steps

/-- A connection that does not exist is not listed. -/
theorem Conns.not_listed (h : s.Conns) {conn : ℕ} (hfresh : conn ∉ s.used) :
    conn ∉ s.node.cpgPdList.map CpgPd.conn := by
  intro hmem
  obtain ⟨cpd, hcpd, rfl⟩ := mem_map.mp hmem
  exact hfresh (h.used cpd.core (mem_append_left _ (mem_map_of_mem hcpd)))

/-- A message with plain names leaves the names plain. -/
theorem execHandler_plain (h : node.PlainLists) (nodeid : ℕ)
    {message : CpgMessage} (hmessage : message.Plain) :
    (node.execHandler nodeid message).PlainLists := by
  cases message with
  | procjoin _ _ =>
    simp only [execHandler, doProcJoin]
    split
    · exact h
    · refine ⟨fun pi hpi => ?_, h.stored⟩
      rcases mem_insertProcess.mp hpi with rfl | hpi
      · exact hmessage
      · exact h.processes pi hpi
  | procleave _ _ _ =>
    exact ⟨fun pi hpi => h.processes pi (mem_filter.mp hpi).1, h.stored⟩
  | joinlist _ =>
    refine ⟨h.processes, fun stored hstored => ?_⟩
    rcases mem_storeJoinlist.mp hstored with hstored | ⟨entry, hentry, rfl⟩
    · exact h.stored stored hstored
    · exact hmessage entry hentry
  | downlist => exact h
  | mcast | partialMcast =>
    simp only [execHandler, sendToGroup]
    split
    · exact ⟨h.processes, h.stored⟩
    · exact h

/-- A step that sends to clients and leaves them told. -/
theorem ReplayInv.of_sends (h : s.ReplayInv) (hcond : s.PlainNames event)
    (hstep : s.step event = some s') (hused : s'.used = s.used)
    (hsends : Sends s.node s'.node) (htold : s'.node.Told s'.node.view)
    (hlists : s'.node.PlainLists)
    (hjoinlists : ∀ entries, .joinlist entries ∈ s'.inFlight ++ s'.node.totem.queued →
      ∀ entry ∈ entries, entry.2.Plain) : s'.ReplayInv := by
  refine ⟨h.conns.step hstep, htold, fun conn hfresh => ?_, hlists, h.joins_step hcond hstep,
    hjoinlists⟩
  rw [hused] at hfresh
  rw [confchgs_of_sends hsends (h.conns.not_listed hfresh)]
  exact h.fresh conn hfresh

/-- A step that sends nothing. -/
theorem ReplayInv.of_same (h : s.ReplayInv) (hcond : s.PlainNames event)
    (hstep : s.step event = some s') (hused : s'.used = s.used)
    (hlist : s'.node.processInfoList = s.node.processInfoList)
    (hpds : s'.node.cpgPdList = s.node.cpgPdList)
    (hdispatched : s'.node.dispatched = s.node.dispatched)
    (hnodeid : s'.node.nodeid = s.node.nodeid)
    (hstored : ∀ stored ∈ s'.node.joinlistMessages, stored ∈ s.node.joinlistMessages)
    (hjoinlists : ∀ entries, .joinlist entries ∈ s'.inFlight ++ s'.node.totem.queued →
      ∀ entry ∈ entries, entry.2.Plain) : s'.ReplayInv := by
  have hview : s'.node.view = s.node.view := by
    funext bytes n p
    simp only [view, has, hlist]
  refine h.of_sends hcond hstep hused (sends_of_eq hpds hdispatched) ?_ ?_ hjoinlists
  · rw [hview]
    refine h.told.congr ?_ (fun conn => ?_) hnodeid
    · simp only [CpgNode.clients, hpds]
    · simp only [CpgNode.confchgs, hdispatched]
  · refine ⟨?_, fun stored hmem => h.lists.stored stored (hstored stored hmem)⟩
    rw [hlist]
    exact h.lists.processes

/-- A request of a client. -/
theorem ReplayInv.client (h : s.ReplayInv) (hcond : s.PlainNames event)
    (hclient : event.ofClient = true) (hstep : s.step event = some s') : s'.ReplayInv := by
  have hframe := clientFrame hclient hstep
  have hview : s'.node.view = s.node.view := by
    funext bytes n p
    simp only [view, has, hframe.processes]
  refine ⟨h.conns.step hstep, ?_, fun conn hfresh => ?_, ⟨?_, ?_⟩, h.joins_step hcond hstep,
    fun entries hmem => ?_⟩
  · rw [hview]
    exact h.told_client hclient hstep
  · rw [confchgs, hframe.dispatched]
    exact h.fresh conn fun hused => hfresh ((step_outcome h.conns hstep).used_subset hused)
  · rw [hframe.processes]
    exact h.lists.processes
  · rw [hframe.joinlists]
    exact h.lists.stored
  · refine h.joinlists entries ?_
    obtain ⟨trans, htrans, htransAdded⟩ := hframe.totem.trans
    obtain ⟨main, hmain, hmainAdded⟩ := hframe.totem.main
    rw [hframe.inFlight, Totem.queued, htrans, hmain] at hmem
    rcases mem_append.mp hmem with hmem | hmem
    · exact mem_append_left _ hmem
    refine mem_append_right _ ?_
    rcases mem_append.mp hmem with hmem | hmem
    · rcases mem_append.mp hmem with hmem | hmem
      · exact mem_append_left _ hmem
      · exact absurd (htransAdded _ hmem) (by simp [CpgMessage.isJoinlist])
    · rcases mem_append.mp hmem with hmem | hmem
      · exact mem_append_right _ hmem
      · exact absurd (hmainAdded _ hmem) (by simp [CpgMessage.isJoinlist])

/-- A queued message is the multicast one or was there before. -/
theorem mem_mcast {totem : Totem} {message other : CpgMessage}
    (h : other ∈ (totem.mcast message).1.queued) : other ∈ totem.queued ∨ other = message := by
  have hmem := (Totem.mcast_queued totem message).mem_iff.mp h
  split at hmem
  · rcases mem_cons.mp hmem with rfl | hmem
    · exact .inr rfl
    · exact .inl hmem
  · exact .inl hmem

/-- The list that `cpg_sync_process` queues. -/
theorem mem_cpgSyncProcess {entries : List (ℕ × CpgName)}
    (h : .joinlist entries ∈ node.cpgSyncProcess.1.totem.queued) :
    .joinlist entries ∈ node.totem.queued ∨ entries = node.ownProcesses := by
  have hdownlist : .joinlist entries ∈ node.cpgExecSendDownlist.1.totem.queued →
      .joinlist entries ∈ node.totem.queued := by
    unfold cpgExecSendDownlist
    split
    · intro hmem
      rcases mem_mcast hmem with hmem | heq
      · exact hmem
      · cases heq
    · exact id
  unfold cpgSyncProcess at h
  split at h
  · unfold cpgExecSendJoinlist at h
    split at h
    · exact .inl (hdownlist h)
    · rcases mem_mcast h with hmem | heq
      · exact .inl (hdownlist hmem)
      · refine .inr ((CpgMessage.joinlist.inj heq).trans ?_)
        unfold cpgExecSendDownlist
        split <;> rfl
  · exact .inl (hdownlist h)

/-- Every step with plain names keeps the clients told. -/
theorem ReplayInv.step (h : s.ReplayInv) (hcond : s.PlainNames event)
    (hstep : s.step event = some s') : s'.ReplayInv := by
  have hstep' := hstep
  cases event with
  | init | join | leave | finalize | exit | mcast | partialMcast | room =>
    exact h.client hcond rfl hstep
  | transmit =>
    obtain ⟨⟨message, totem⟩, htransmit, rfl⟩ := map_eq_some_iff.mp hstep'
    refine h.of_same hcond hstep rfl rfl rfl rfl rfl (fun _ hmem => hmem) fun entries hmem => ?_
    refine h.joinlists entries ?_
    have hperm : (s.inFlight ++ [message] ++ totem.queued).Perm
        (s.inFlight ++ s.node.totem.queued) := by
      rw [append_assoc]
      exact (Totem.transmit_queued htransmit).symm.append_left _
    exact hperm.mem_iff.mp hmem
  | deliver =>
    simp only [Local.step] at hstep'
    split at hstep'
    · cases hstep'
    rename_i message rest hinFlight
    cases hstep'
    have hmessage : message.Plain := by
      cases message with
      | procjoin group pid =>
        refine h.joins group pid (mem_filter.mpr ⟨?_, rfl⟩)
        rw [hinFlight]
        exact mem_append_left _ mem_cons_self
      | joinlist entries =>
        refine h.joinlists entries ?_
        rw [hinFlight]
        exact mem_append_left _ mem_cons_self
      | procleave | downlist | mcast | partialMcast => exact trivial
    refine h.of_sends hcond hstep rfl (sends_execHandler _ _ _)
      (execHandler_told h.told s.node.nodeid message)
      (execHandler_plain h.lists s.node.nodeid hmessage) fun entries hmem => ?_
    refine h.joinlists entries ?_
    rw [hinFlight]
    have htotem := (execHandler_frame s.node s.node.nodeid message).2.1
    change _ ∈ rest ++ (s.node.execHandler s.node.nodeid message).totem.queued at hmem
    rw [htotem] at hmem
    exact mem_cons_of_mem _ hmem
  | foreign nodeid message =>
    simp only [Local.step] at hstep'
    split at hstep'
    · cases hstep'
    cases hstep'
    refine h.of_sends hcond hstep rfl (sends_execHandler _ _ _)
      (execHandler_told h.told nodeid message) (execHandler_plain h.lists nodeid hcond)
      fun entries hmem => h.joinlists entries ?_
    have htotem := (execHandler_frame s.node nodeid message).2.1
    change _ ∈ s.inFlight ++ (s.node.execHandler nodeid message).totem.queued at hmem
    rwa [htotem] at hmem
  | syncInit _ _ =>
    simp only [Local.step] at hstep'
    split at hstep'
    · cases hstep'
      exact h.of_same hcond hstep rfl rfl rfl rfl rfl (fun _ hmem => hmem) h.joinlists
    · cases hstep'
  | syncProcess =>
    cases hstep'
    have heq := (cpgSyncProcess_silent s.node).eq
    have hstored : s.node.cpgSyncProcess.1.joinlistMessages = s.node.joinlistMessages := by
      rw [heq]
    refine h.of_same hcond hstep rfl ?_ ?_ ?_ ?_ (fun _ hmem => hstored ▸ hmem)
      fun entries hmem => ?_
    · rw [heq]
    · rw [heq]
    · rw [heq]
    · rw [heq]
    · rcases mem_append.mp hmem with hmem | hmem
      · exact h.joinlists entries (mem_append_left _ hmem)
      · rcases mem_cpgSyncProcess hmem with hmem | rfl
        · exact h.joinlists entries (mem_append_right _ hmem)
        · intro entry hentry
          obtain ⟨pi, hpi, rfl⟩ := mem_map.mp hentry
          exact h.lists.processes pi (mem_filter.mp hpi).1
  | syncAbort =>
    cases hstep'
    exact h.of_same hcond hstep rfl rfl rfl rfl rfl (fun _ hmem => absurd hmem not_mem_nil)
      h.joinlists
  | syncActivate =>
    obtain ⟨node, hnode, rfl⟩ := map_eq_some_iff.mp hstep'
    have hinforms := cpgSyncActivate_informs hnode
    refine h.of_sends hcond hstep rfl ⟨hinforms.sends.conns, hinforms.sends.dispatched⟩
      (cpgSyncActivate_told h.told h.lists hcond hnode).1 (cpgSyncActivate_plain h.lists hnode)
      fun entries hmem => h.joinlists entries ?_
    have htotem : node.totem = s.node.totem := by
      rw [hinforms.eq]
    change _ ∈ s.inFlight ++ node.totem.queued at hmem
    rwa [htotem] at hmem
  | syncCompleted =>
    cases hstep'
    exact h.of_same hcond hstep rfl rfl rfl rfl rfl (fun _ hmem => hmem) h.joinlists

/-- In every run with plain names and room for the events the connections can replay the
configuration changes. An activation with room returns, the connections can replay also between
its events, and it has at most one event of each kind for a group. -/
theorem confchgs_replay {nodeid : ℕ} {events : List LocalEvent} {s : Local}
    (hrun : run (restrict PlainNames Local.step) (start nodeid) events = some s) :
    s.node.Replays ∧ (s.node.Room → ∃ node', s.node.cpgSyncActivate = some node' ∧
      (∃ states, s.node.activationStates = some states ∧ ∀ state ∈ states, state.Replays) ∧
        ∀ client ∈ s.node.clients, CpgNode.OncePerGroup s.node node' client) := by
  have h : s.ReplayInv := by
    refine run_invariant (fun s event s' hinv hstep => ?_) (ReplayInv.start nodeid) hrun
    obtain ⟨hcond, hstep⟩ := restrict_eq_some.mp hstep
    exact hinv.step hcond hstep
  refine ⟨h.told.replays, fun hroom => ?_⟩
  obtain ⟨node', hactivate⟩ := exists_cpgSyncActivate h.lists hroom
  exact ⟨node', hactivate, (cpgSyncActivate_told h.told h.lists hroom hactivate).2,
    fun client hclient => cpgSyncActivate_once h.told.nodup h.lists hroom hactivate hclient⟩

/-- A plain name. -/
def groupP : CpgName := ⟨[112], List.replicate 127 0⟩

/-- A process joins, the processes of another node come with it, and the node goes away again. -/
def comeAndGo : List LocalEvent :=
  [.syncCompleted, .init 1, .join 1 10 groupP, .transmit, .deliver, .syncInit [1] [1, 2],
    .foreign 2 (.joinlist [(20, groupP), (21, groupP)]), .syncActivate, .syncCompleted,
    .syncInit [1] [1]]

/-- The connection can replay there. -/
theorem confchgs_replay_comeAndGo :
    ∃ s node', run (restrict PlainNames Local.step) (start 1) comeAndGo = some s ∧
      s.node.Room ∧ s.node.cpgSyncActivate = some node' ∧ (s.node.confchgs 1).length = 2 ∧
      (node'.confchgs 1).length = 3 ∧ s.node.Replays ∧
      ∀ client ∈ s.node.clients, CpgNode.OncePerGroup s.node node' client := by
  obtain ⟨s, hrun, hroom, htwo, hthree⟩ := @exists_run_of_any _ _
    (restrict PlainNames Local.step) (start 1) comeAndGo
    (fun s => s.node.Room ∧ (s.node.confchgs 1).length = 2 ∧
      (s.node.cpgSyncActivate.map fun node' => (node'.confchgs 1).length) = some 3) _ rfl
  obtain ⟨hreplays, hactivates⟩ := confchgs_replay hrun
  obtain ⟨node', hactivate, -, honce⟩ := hactivates hroom
  rw [hactivate, map_some, some_inj] at hthree
  exact ⟨s, node', hrun, hroom, hactivate, htwo, hthree, hreplays, honce⟩

/-- Two names with a zero in the middle and the same string. -/
def groupNulB : CpgName := ⟨[97, 0, 98], List.replicate 125 0⟩

/-- The other one. -/
def groupNulC : CpgName := ⟨[97, 0, 99], List.replicate 125 0⟩

/-- When a node with processes in both groups goes away there is one event: the connections of the
first group are told of a process of the second one, those of the second one are told nothing. -/
theorem same_string_shares_event :
    ∃ s, run Local.step (start 1) [.syncInit [1] [1, 2], .syncActivate, .syncCompleted, .init 1,
        .join 1 10 groupNulB, .transmit, .deliver, .init 2, .join 2 11 groupNulC, .transmit,
        .deliver, .foreign 2 (.procjoin groupNulB 20), .foreign 2 (.procjoin groupNulC 21),
        .syncInit [1] [1], .syncActivate] = some s ∧
      s.node.processInfoList = [⟨1, 10, groupNulB⟩, ⟨1, 11, groupNulC⟩] ∧
      ((s.node.confchgs 1).getLast?.map fun change => change.leftList) =
        some [⟨2, 20, .nodedown⟩, ⟨2, 21, .nodedown⟩] ∧
      ((s.node.confchgs 2).getLast?.map fun change => change.memberList) =
        some [⟨1, 11, .undefined⟩, ⟨2, 21, .undefined⟩] ∧ ¬ s.node.Replays := by
  refine ⟨_, rfl, rfl, rfl, rfl, fun h => ?_⟩
  obtain ⟨change, hlast, hmembers⟩ :=
    (h ⟨2, groupNulC, 11, .joinCompleted⟩ mem_cons_self rfl).last
  cases hlast
  exact absurd (hmembers 2 21) (by decide)

end Steps

end Local

end Corosync.Cpg
