import Corosync.Cpg.Effects
import Corosync.Cpg.Ring

/-!
# What a step of a node can do

Most steps change neither the connections nor the processes of the node nor the announcements of
joins and leaves that are on their way. The others are listed here, with their guards.
-/

namespace Corosync.Cpg

open List Option CpgNode CpgPd

/-- Joins and leaves. -/
def CpgMessage.announces : CpgMessage → Bool
  | .procjoin _ _ => true
  | .procleave _ _ _ => true
  | _ => false

/-- Joinlists. -/
def CpgMessage.isJoinlist : CpgMessage → Bool
  | .joinlist _ => true
  | _ => false

namespace Totem

variable {totem totem' : Totem} {message : CpgMessage}

/-- The messages in both queues. -/
def queued (totem : Totem) : List CpgMessage :=
  totem.newMessageQueueTrans ++ totem.newMessageQueue

/-- A multicast is queued if there is room. -/
theorem mcast_queued (totem : Totem) (message : CpgMessage) :
    (totem.mcast message).1.queued.Perm
      (if totem.room then message :: totem.queued else totem.queued) := by
  unfold mcast
  split
  · split
    · simp only [queued, append_assoc, singleton_append]
      exact perm_middle
    · simp only [queued, ← append_assoc]
      exact perm_append_singleton _ _
  · exact List.Perm.refl _

/-- A transmitted message was queued. -/
theorem transmit_queued (h : totem.transmit = some (message, totem')) :
    totem.queued.Perm (message :: totem'.queued) := by
  unfold transmit at h
  split at h
  · split at h
    · cases h
    · rename_i hqueue
      cases h
      simp only [queued, hqueue, cons_append]
      exact List.Perm.refl _
  · split at h
    · cases h
    · rename_i hqueue
      cases h
      simp only [queued, hqueue]
      exact perm_middle

/-- What is added to the queues is no joinlist. -/
structure Adds (totem totem' : Totem) : Prop where
  waiting : totem'.waitingTransAck = totem.waitingTransAck
  trans : ∃ added, totem'.newMessageQueueTrans = totem.newMessageQueueTrans ++ added ∧
    ∀ message ∈ added, message.isJoinlist = false
  main : ∃ added, totem'.newMessageQueue = totem.newMessageQueue ++ added ∧
    ∀ message ∈ added, message.isJoinlist = false

/-- Nothing is queued. -/
theorem Adds.refl (totem : Totem) : totem.Adds totem :=
  ⟨rfl, ⟨[], by simp⟩, [], by simp⟩

/-- A message other than a list is queued. -/
theorem adds_mcast (totem : Totem) {message : CpgMessage}
    (hmessage : message.isJoinlist = false) : totem.Adds (totem.mcast message).1 := by
  unfold Totem.mcast
  split
  · split
    · exact ⟨rfl, ⟨[message], rfl, by simpa using hmessage⟩, [], by simp⟩
    · exact ⟨rfl, ⟨[], by simp⟩, [message], rfl, by simpa using hmessage⟩
  · exact Adds.refl totem

end Totem

namespace Local

/-- The listed connections. -/
def clients (s : Local) : List Client := s.node.cpgPdList.map core

/-- The connections after a finalize request. -/
def closing (s : Local) : List Client := s.node.finalized.map core

/-- Whether a process of this node is in the list. -/
def own (s : Local) (pid : ℕ) (bytes : List UInt8) : Bool := s.node.has s.node.nodeid pid bytes

/-- The joins and leaves of this node that are not delivered yet. -/
def announcements (s : Local) : List CpgMessage :=
  (s.inFlight ++ s.node.totem.queued).filter CpgMessage.announces

/-- A connection gets another process, group and state. -/
def Client.become (conn pid : ℕ) (group : CpgName) (state : CpdState) (client : Client) : Client :=
  if client.conn = conn then ⟨conn, group, pid, state⟩ else client

/-- A connection with this process and group completes its join. -/
def Client.complete (pid : ℕ) (bytes : List UInt8) (client : Client) : Client :=
  if client.pid = pid ∧ client.groupName.bytes = bytes then
    { client with cpdState := .joinCompleted }
  else
    client

/-- What a step can do. -/
inductive Outcome (s : Local) (event : LocalEvent) (s' : Local) : Prop where
  | quiet (hclients : s'.clients = s.clients) (hclosing : s'.closing = s.closing)
    (hown : ∀ pid bytes, s'.own pid bytes = s.own pid bytes)
    (hannouncements : s'.announcements.Perm s.announcements)
    (hused : s'.used = s.used) (hleft : s'.left = s.left)
  | init (conn : ℕ) (hevent : event = .init conn) (hfresh : conn ∉ s.used)
    (hclients : s'.clients = ⟨conn, .zero, 0, .unjoined⟩ :: s.clients)
    (hclosing : s'.closing = s.closing) (hown : ∀ pid bytes, s'.own pid bytes = s.own pid bytes)
    (hannouncements : s'.announcements = s.announcements)
    (hused : s'.used = conn :: s.used) (hleft : s'.left = s.left)
  | join (client : Client) (pid : ℕ) (group : CpgName)
    (hevent : event = .join client.conn pid group)
    (hclient : client ∈ s.clients) (hstate : client.cpdState = .unjoined)
    (hnew : ∀ other ∈ s.clients, ¬ (other.pid = pid ∧ other.groupName.bytes = group.bytes))
    (hnone : s.own pid group.bytes = false)
    (hclients : s'.clients = s.clients.map (Client.become client.conn pid group .joinStarted))
    (hclosing : s'.closing = s.closing) (hown : ∀ pid bytes, s'.own pid bytes = s.own pid bytes)
    (hannouncements : s'.announcements.Perm (.procjoin group pid :: s.announcements))
    (hused : s'.used = s.used) (hleft : s'.left = s.left.filter fun left => left.1 != client.conn)
  | leave (client : Client) (pid : ℕ) (group : CpgName)
    (hevent : event = .leave client.conn pid group)
    (hclient : client ∈ s.clients) (hstate : client.cpdState = .joinCompleted)
    (hclients : s'.clients =
      s.clients.map (Client.become client.conn client.pid client.groupName .leaveStarted))
    (hclosing : s'.closing = s.closing) (hown : ∀ pid bytes, s'.own pid bytes = s.own pid bytes)
    (hannouncements : s'.announcements.Perm (.procleave group pid .leave :: s.announcements))
    (hused : s'.used = s.used) (hleft : s'.left = s.left)
  | finalize (client : Client) (hevent : event = .finalize client.conn)
    (hclient : client ∈ s.clients)
    (hclients : s'.clients = s.clients.filter fun other => other.conn != client.conn)
    (hclosing : s'.closing = client :: s.closing)
    (hown : ∀ pid bytes, s'.own pid bytes = s.own pid bytes)
    (hannouncements : s'.announcements = s.announcements)
    (hused : s'.used = s.used) (hleft : s'.left = s.left)
  | exit (client : Client) (hevent : event = .exit client.conn)
    (hclient : client ∈ s.clients ++ s.closing)
    (hclients : s'.clients = s.clients.filter fun other => other.conn != client.conn)
    (hclosing : s'.closing = s.closing.filter fun other => other.conn != client.conn)
    (hown : ∀ pid bytes, s'.own pid bytes = s.own pid bytes)
    (hannouncements : s'.announcements.Perm
      (if client.groupName.bytes ≠ [] ∧ client.cpdState ≠ .leaveStarted ∧
          s.node.totem.room = true then
        .procleave client.groupName client.pid .procdown :: s.announcements
      else s.announcements))
    (hused : s'.used = s.used) (hleft : s'.left = s.left)
  | deliverJoin (group : CpgName) (pid : ℕ) (hevent : event = .deliver)
    (hinFlight : s.inFlight = .procjoin group pid :: s'.inFlight)
    (hclients : s'.clients =
      if s.own pid group.bytes then s.clients
      else s.clients.map (Client.complete pid group.bytes))
    (hclosing : s'.closing = s.closing)
    (hown : ∀ pid' bytes, s'.own pid' bytes =
      (s.own pid' bytes || (pid == pid' && group.bytes == bytes)))
    (hannouncements : s.announcements = .procjoin group pid :: s'.announcements)
    (hused : s'.used = s.used) (hleft : s'.left = s.left)
  | deliverLeave (group : CpgName) (pid : ℕ) (reason : Reason) (hevent : event = .deliver)
    (hinFlight : s.inFlight = .procleave group pid reason :: s'.inFlight)
    (hclients : s'.clients = s.clients) (hclosing : s'.closing = s.closing)
    (hown : ∀ pid' bytes, s'.own pid' bytes =
      (s.own pid' bytes && !(pid == pid' && group.bytes == bytes)))
    (hannouncements : s.announcements = .procleave group pid reason :: s'.announcements)
    (hused : s'.used = s.used)
    (hleft : ∀ left ∈ s'.left, left ∈ s.left ∨ left.1 ∈ s.leaving group pid)

variable {s s' : Local} {event : LocalEvent} {node : CpgNode} {conn : ℕ} {message : List UInt8}

/-- A connection that is found is one of the list. -/
theorem cpd_eq_some {cpd : CpgPd} (h : s.cpd conn = some cpd) :
    cpd ∈ s.node.cpgPdList ∧ cpd.conn = conn :=
  ⟨mem_of_find?_eq_some h, by simpa using find?_some h⟩

/-- Requests are handled for listed connections while messages are accepted. -/
theorem request_eq_some {handle : CpgPd → Option Local} (h : s.request conn handle = some s') :
    s.node.totem.room = true ∧ s.node.totem.waitingTransAck = false ∧
      ∃ cpd ∈ s.node.cpgPdList, cpd.conn = conn ∧ handle cpd = some s' := by
  obtain ⟨hallowed, h⟩ := ite_none_right_eq_some.mp h
  obtain ⟨cpd, hcpd, hhandle⟩ := bind_eq_some_iff.mp h
  obtain ⟨hmem, hconn⟩ := cpd_eq_some hcpd
  exact ⟨hallowed.1, hallowed.2, cpd, hmem, hconn, hhandle⟩

/-- What is announced after a multicast. -/
theorem announcements_mcast {message : CpgMessage} (hinFlight : s'.inFlight = s.inFlight)
    (htotem : s'.node.totem = (s.node.totem.mcast message).1) :
    s'.announcements.Perm
      (if message.announces = true ∧ s.node.totem.room = true then message :: s.announcements
      else s.announcements) := by
  have hqueued := s.node.totem.mcast_queued message
  rw [← htotem] at hqueued
  have hperm := (hqueued.append_left s.inFlight).filter CpgMessage.announces
  rw [← hinFlight] at hperm
  refine hperm.trans ?_
  rw [hinFlight]
  by_cases hroom : s.node.totem.room = true
  · rw [if_pos hroom]
    refine (perm_middle.filter _).trans ?_
    by_cases hannounces : message.announces = true
    · rw [if_pos ⟨hannounces, hroom⟩, filter_cons_of_pos hannounces]
      exact List.Perm.refl _
    · rw [if_neg fun hboth => hannounces hboth.1, filter_cons_of_neg hannounces]
      exact List.Perm.refl _
  · rw [if_neg hroom, if_neg fun hboth => hroom hboth.2]
    exact List.Perm.refl _

/-- An accepted announcement. -/
theorem announcements_send {message : CpgMessage} (hannounces : message.announces = true)
    (hroom : s.node.totem.room = true) (hinFlight : s'.inFlight = s.inFlight)
    (htotem : s'.node.totem = (s.node.totem.mcast message).1) :
    s'.announcements.Perm (message :: s.announcements) := by
  have hperm := announcements_mcast hinFlight htotem
  rwa [if_pos ⟨hannounces, hroom⟩] at hperm

/-- A refused one. -/
theorem announcements_refused {message : CpgMessage} (hroom : ¬ s.node.totem.room = true)
    (hinFlight : s'.inFlight = s.inFlight)
    (htotem : s'.node.totem = (s.node.totem.mcast message).1) :
    s'.announcements.Perm s.announcements := by
  have hperm := announcements_mcast hinFlight htotem
  rwa [if_neg fun hboth => hroom hboth.2] at hperm

/-- What is sent by a request to multicast. -/
theorem libCpgMcast_cases {node node' : CpgNode} {cpd : CpgPd}
    (h : node.libCpgMcast cpd message = some node') :
    node' = node ∨ node' = (node.totemMcast (.mcast cpd.groupName cpd.pid message)).1 := by
  simp only [libCpgMcast] at h
  split at h
  · rw [ite_none_right_eq_some] at h
    exact .inr (some.inj h.2).symm
  · exact .inl (some.inj h).symm

/-- What is sent by a request to multicast a fragment. -/
theorem libCpgPartialMcast_cases {result : CpgNode × CsError} {cpd : CpgPd}
    {type : PartialType} {msglen : ℕ}
    (h : node.libCpgPartialMcast cpd type msglen message = some result) :
    let started := node.updatePd cpd.conn fun cpd => cpd.startFragments type
    result.1 = started ∨ result.1 =
      (started.totemMcast (.partialMcast cpd.groupName cpd.pid type msglen message)).1 := by
  simp only [libCpgPartialMcast] at h
  split at h
  · rw [ite_none_right_eq_some] at h
    exact .inr (congrArg Prod.fst (some.inj h.2)).symm
  · exact .inl (congrArg Prod.fst (some.inj h)).symm

/-- What an event of a connection leaves alone. -/
structure ClientFrame (s s' : Local) : Prop where
  processes : s'.node.processInfoList = s.node.processInfoList
  nodeid : s'.node.nodeid = s.node.nodeid
  joinlists : s'.node.joinlistMessages = s.node.joinlistMessages
  downlist : s'.node.downlist = s.node.downlist
  inFlight : s'.inFlight = s.inFlight
  dispatched : s'.node.dispatched = s.node.dispatched
  totem : s.node.totem.Adds s'.node.totem

/-- What a client's request leaves as it is. -/
theorem clientFrame (hclient : event.ofClient = true) (h : s.step event = some s') :
    s.ClientFrame s' := by
  have hsame : s.ClientFrame s := ⟨rfl, rfl, rfl, rfl, rfl, rfl, Totem.Adds.refl _⟩
  cases event with
  | init _ =>
    obtain ⟨_, h⟩ := ite_none_left_eq_some.mp h
    cases h
    exact { hsame with }
  | join _ _ _ =>
    obtain ⟨-, -, cpd, -, rfl, hhandle⟩ := request_eq_some h
    cases hhandle
    unfold libCpgJoin
    repeat' split
    all_goals first
      | exact { hsame with }
      | exact { hsame with totem := Totem.adds_mcast _ rfl }
  | leave _ _ _ =>
    obtain ⟨-, -, cpd, -, rfl, hhandle⟩ := request_eq_some h
    cases hhandle
    unfold libCpgLeave
    split
    · exact { hsame with }
    · exact { hsame with }
    · exact { hsame with }
    · exact { hsame with totem := Totem.adds_mcast _ rfl }
  | finalize _ =>
    obtain ⟨-, -, cpd, -, rfl, hhandle⟩ := request_eq_some h
    cases hhandle
    exact { hsame with }
  | exit _ =>
    obtain ⟨cpd, -, rfl⟩ := map_eq_some_iff.mp h
    unfold cpgLibExitFn
    split
    · exact { hsame with totem := Totem.adds_mcast _ rfl }
    · exact { hsame with }
  | mcast _ _ =>
    obtain ⟨-, -, cpd, -, rfl, hhandle⟩ := request_eq_some h
    obtain ⟨node, hnode, rfl⟩ := map_eq_some_iff.mp hhandle
    rcases libCpgMcast_cases hnode with rfl | rfl
    · exact { hsame with }
    · exact { hsame with totem := Totem.adds_mcast _ rfl }
  | partialMcast _ _ _ _ =>
    obtain ⟨-, -, cpd, -, rfl, hhandle⟩ := request_eq_some h
    obtain ⟨⟨node, error⟩, hnode, rfl⟩ := map_eq_some_iff.mp hhandle
    rcases libCpgPartialMcast_cases hnode with hsame | hsame <;> cases hsame
    · exact { hsame with }
    · exact { hsame with totem := Totem.adds_mcast _ rfl }
  | room _ =>
    cases h
    exact ⟨rfl, rfl, rfl, rfl, rfl, rfl, rfl, ⟨[], by simp⟩, [], by simp⟩
  | transmit | deliver | foreign | syncInit | syncProcess | syncAbort | syncActivate
  | syncCompleted => cases hclient

/-- A change of a listed record is a change of the connection. -/
theorem updatePd_core {f : CpgPd → CpgPd} {g : Client → Client}
    (hf : ∀ cpd ∈ node.cpgPdList, cpd.conn = conn → (f cpd).core = g cpd.core)
    (hg : ∀ client : Client, client.conn ≠ conn → g client = client) :
    (node.updatePd conn f).cpgPdList.map core = (node.cpgPdList.map core).map g := by
  simp only [updatePd, List.map_map]
  refine List.map_congr_left fun cpd hcpd => ?_
  simp only [Function.comp_apply]
  split
  · rename_i hconn
    exact hf cpd hcpd hconn
  · rename_i hconn
    exact (hg cpd.core hconn).symm

/-- A handler that leaves everything of interest alone. -/
theorem Outcome.of_informs (h : Informs s.node node)
    (hown : ∀ pid bytes, node.has s.node.nodeid pid bytes = s.own pid bytes) :
    Outcome s event { s with node := node } := by
  refine .quiet h.core ?_ (fun pid bytes => ?_) ?_ rfl rfl
  · simp only [closing]
    rw [h.eq]
  · simp only [own, h.nodeid_eq]
    exact hown pid bytes
  · simp only [announcements]
    rw [h.eq]

/-- Connections are unique and known. -/
structure Conns (s : Local) : Prop where
  nodup : ((s.clients ++ s.closing).map Client.conn).Nodup
  used : ∀ client ∈ s.clients ++ s.closing, client.conn ∈ s.used
  downlist : s.node.nodeid ∉ s.node.downlist

/-- With unique connections a listed record is found by its connection. -/
theorem Conns.eq_of_conn (h : s.Conns) {a b : Client} (ha : a ∈ s.clients ++ s.closing)
    (hb : b ∈ s.clients ++ s.closing) (hconn : a.conn = b.conn) : a = b :=
  inj_on_of_nodup_map h.nodup ha hb hconn

/-- Nothing happens. -/
theorem Outcome.refl (s : Local) (event : LocalEvent) : Outcome s event s :=
  .quiet rfl rfl (fun _ _ => rfl) (List.Perm.refl _) rfl rfl

/-- The outcome of a join. -/
theorem step_join {conn pid : ℕ} {group : CpgName}
    (h : s.step (.join conn pid group) = some s') : Outcome s (.join conn pid group) s' := by
  obtain ⟨hroom, -, cpd, hcpd, rfl, hhandle⟩ := request_eq_some h
  cases hhandle
  unfold libCpgJoin
  split
  · exact Outcome.refl s _
  rename_i hlisted
  split
  · exact Outcome.refl s _
  rename_i hprocess
  split
  · exact Outcome.refl s _
  split
  · rename_i hstate
    refine .join cpd.core pid group rfl (mem_map_of_mem hcpd) hstate ?_ ?_ ?_ rfl
      (fun _ _ => rfl) ?_ rfl rfl
    · intro other hother ⟨hpid, hbytes⟩
      obtain ⟨item, hitem, rfl⟩ := mem_map.mp hother
      apply hlisted
      refine any_eq_true.mpr ⟨item, hitem, ?_⟩
      simpa using ⟨hpid, hbytes.symm⟩
    · rw [own, Bool.eq_false_iff]
      intro htrue
      apply hprocess
      obtain ⟨pi, hpi, hpid, hnodeid, hbytes⟩ := has_iff.mp htrue
      refine any_eq_true.mpr ⟨pi, hpi, ?_⟩
      simpa using ⟨⟨hnodeid, hpid⟩, hbytes.symm⟩
    · refine updatePd_core (fun other hother hconn => ?_) (fun client hne => if_neg hne)
      simp [Client.become, core, hconn]
    · exact announcements_send rfl hroom rfl rfl
  · exact Outcome.refl s _
  · exact Outcome.refl s _
  · exact Outcome.refl s _

/-- The outcome of a leave. -/
theorem step_leave {conn pid : ℕ} {group : CpgName} (hconns : s.Conns)
    (h : s.step (.leave conn pid group) = some s') : Outcome s (.leave conn pid group) s' := by
  obtain ⟨hroom, -, cpd, hcpd, rfl, hhandle⟩ := request_eq_some h
  cases hhandle
  unfold libCpgLeave
  split
  · exact Outcome.refl s _
  · exact Outcome.refl s _
  · exact Outcome.refl s _
  · rename_i hstate
    refine .leave cpd.core pid group rfl (mem_map_of_mem hcpd) hstate ?_ rfl
      (fun _ _ => rfl) ?_ rfl rfl
    · refine updatePd_core (fun other hother hconn => ?_) (fun client hne => if_neg hne)
      have hsame : other.core = cpd.core :=
        hconns.eq_of_conn (mem_append_left _ (mem_map_of_mem hother))
          (mem_append_left _ (mem_map_of_mem hcpd)) hconn
      rw [← hsame]
      simp [Client.become, core]
    · exact announcements_send rfl hroom rfl rfl

/-- The clients without one connection. -/
theorem filter_core (list : List CpgPd) (conn : ℕ) :
    (list.filter fun other => other.conn != conn).map core =
      (list.map core).filter fun other => other.conn != conn := by
  rw [List.filter_map]
  rfl

/-- The outcome of a finalize. -/
theorem step_finalize (h : s.step (.finalize conn) = some s') : Outcome s (.finalize conn) s' := by
  obtain ⟨-, -, cpd, hcpd, rfl, hhandle⟩ := request_eq_some h
  cases hhandle
  exact .finalize cpd.core rfl (mem_map_of_mem hcpd) (filter_core _ _) rfl (fun _ _ => rfl) rfl
    rfl rfl

/-- The outcome of a closed connection. -/
theorem step_exit (h : s.step (.exit conn) = some s') : Outcome s (.exit conn) s' := by
  obtain ⟨cpd, hcpd, rfl⟩ := map_eq_some_iff.mp h
  have hconn : LocalEvent.exit conn = .exit cpd.core.conn := by
    have hsame : cpd.conn = conn := by simpa using find?_some hcpd
    rw [← hsame]
    rfl
  have hmem : cpd.core ∈ s.clients ++ s.closing := by
    rw [clients, closing, ← map_append]
    exact mem_map_of_mem (mem_of_find?_eq_some hcpd)
  unfold cpgLibExitFn
  split
  · rename_i hsend
    refine .exit cpd.core hconn hmem (filter_core _ _) (filter_core _ _) (fun _ _ => rfl) ?_ rfl rfl
    by_cases hroom : s.node.totem.room = true
    · rw [if_pos ⟨hsend.1, hsend.2, hroom⟩]
      exact announcements_send rfl hroom rfl rfl
    · rw [if_neg fun hall => hroom hall.2.2]
      exact announcements_refused hroom rfl rfl
  · rename_i hsend
    refine .exit cpd.core hconn hmem (filter_core _ _) (filter_core _ _) (fun _ _ => rfl) ?_ rfl rfl
    rw [if_neg fun hall => hsend ⟨hall.1, hall.2.1⟩]
    exact List.Perm.refl _

/-- Only messages that announce nothing are queued. -/
structure Silent (node node' : CpgNode) : Prop where
  eq : node' = { node with mySyncState := node'.mySyncState, totem := node'.totem }
  perm : (node'.totem.queued.filter CpgMessage.announces).Perm
    (node.totem.queued.filter CpgMessage.announces)

/-- Two silent changes. -/
theorem Silent.trans {node node' node'' : CpgNode} (h : Silent node node')
    (h' : Silent node' node'') : Silent node node'' where
  eq := by
    rw [h'.eq, h.eq]
  perm := h'.perm.trans h.perm

/-- A multicast that announces nothing is silent. -/
theorem totemMcast_silent {message : CpgMessage}
    (hannounces : message.announces = false) : Silent node (node.totemMcast message).1 where
  eq := rfl
  perm := by
    refine ((node.totem.mcast_queued message).filter _).trans ?_
    split
    · rw [filter_cons_of_neg (by simp [hannounces])]
    · exact List.Perm.refl _

/-- The outcome of a silent change. -/
theorem Outcome.of_silent {list : List CpgPd} (hcore : list.map CpgPd.core = s.clients)
    (h : Silent { s.node with cpgPdList := list } node) :
    Outcome s event { s with node := node } := by
  refine .quiet ?_ ?_ (fun pid bytes => ?_) ?_ rfl rfl
  · simp only [clients]
    rw [h.eq]
    exact hcore
  · simp only [closing]
    rw [h.eq]
  · simp only [own]
    rw [h.eq]
    rfl
  · simp only [announcements, filter_append]
    exact h.perm.append_left _

/-- The outcome of a message of a client. -/
theorem step_mcast
    (h : s.step (.mcast conn message) = some s') : Outcome s (.mcast conn message) s' := by
  obtain ⟨-, -, cpd, -, rfl, hhandle⟩ := request_eq_some h
  obtain ⟨node, hnode, rfl⟩ := map_eq_some_iff.mp hhandle
  rcases libCpgMcast_cases hnode with rfl | rfl
  · exact Outcome.refl s _
  · exact Outcome.of_silent rfl (totemMcast_silent rfl)

/-- Fragments do not concern the clients. -/
theorem updatePd_startFragments (node : CpgNode) (conn : ℕ) (type : PartialType) :
    (node.updatePd conn fun cpd => cpd.startFragments type).cpgPdList.map core =
      node.cpgPdList.map core := by
  refine (updatePd_core (g := id) (fun cpd _ _ => ?_) fun _ _ => rfl).trans (map_id _)
  unfold startFragments
  split <;> rfl

/-- The outcome of a fragment. -/
theorem step_partialMcast {type : PartialType} {msglen : ℕ}
    (h : s.step (.partialMcast conn type msglen message) = some s') :
    Outcome s (.partialMcast conn type msglen message) s' := by
  obtain ⟨-, -, cpd, -, rfl, hhandle⟩ := request_eq_some h
  obtain ⟨⟨node, error⟩, hnode, rfl⟩ := map_eq_some_iff.mp hhandle
  have hcore := updatePd_startFragments s.node cpd.conn type
  rcases libCpgPartialMcast_cases hnode with hsame | hsame <;> cases hsame
  · exact Outcome.of_silent hcore ⟨rfl, List.Perm.refl _⟩
  · exact Outcome.of_silent hcore (totemMcast_silent rfl)

/-- The outcome of a transmission. -/
theorem step_transmit (h : s.step .transmit = some s') : Outcome s .transmit s' := by
  obtain ⟨⟨message, totem⟩, htransmit, rfl⟩ := map_eq_some_iff.mp h
  refine .quiet rfl rfl (fun _ _ => rfl) ?_ rfl rfl
  refine List.Perm.filter _ ?_
  simp only [append_assoc, singleton_append]
  exact (Totem.transmit_queued htransmit).symm.append_left s.inFlight

/-- The outcome of a dispatch. -/
theorem sendToGroup_outcome (group : CpgName) (nodeid : ℕ) (dispatch : Dispatch) :
    Outcome s event { s with node := s.node.sendToGroup group nodeid dispatch } := by
  unfold sendToGroup
  split
  · exact .quiet rfl rfl (fun _ _ => rfl) (List.Perm.refl _) rfl rfl
  · exact Outcome.refl s _

/-- Messages of other nodes do not concern the own processes. -/
theorem foreign_own {nodeid : ℕ} (hnodeid : nodeid ≠ s.node.nodeid) (message : CpgMessage) :
    Outcome s event { s with node := s.node.execHandler nodeid message } := by
  have hne : (nodeid == s.node.nodeid) = false := beq_eq_false_iff_ne.mpr hnodeid
  cases message with
  | procjoin _ pid =>
    refine Outcome.of_informs (doProcJoin_informs pid .join hnodeid) fun pid' bytes => ?_
    simp only [execHandler, has_doProcJoin, hne, Bool.and_false, Bool.false_and,
      Bool.or_false, own]
  | procleave _ pid reason =>
    refine Outcome.of_informs (doProcLeave_informs pid nodeid reason) fun pid' bytes => ?_
    simp only [execHandler, has_doProcLeave, hne, Bool.and_false, Bool.false_and,
      Bool.not_false, Bool.and_true, own]
  | joinlist _ => exact .quiet rfl rfl (fun _ _ => rfl) (List.Perm.refl _) rfl rfl
  | downlist => exact Outcome.refl s _
  | mcast group _ _ =>
    exact sendToGroup_outcome group nodeid _
  | partialMcast group _ _ _ _ =>
    exact sendToGroup_outcome group nodeid _

/-- Connections of the process and the group of a join of this node. -/
theorem completeJoin_core (node : CpgNode) (group : CpgName) (pid : ℕ) (reason : Reason)
    (cpd : CpgPd) : (node.completeJoin [⟨node.nodeid, pid, reason⟩] group cpd).core =
      Client.complete pid group.bytes cpd.core := by
  have hnames : node.names [⟨node.nodeid, pid, reason⟩] group cpd = true ↔
      cpd.core.pid = pid ∧ cpd.core.groupName.bytes = group.bytes := by
    simp only [names, any_cons, any_nil, Bool.or_false, beq_self_eq_true,
      Bool.true_and, Bool.and_eq_true, beq_iff_eq]
    exact and_congr_left fun _ => eq_comm
  simp only [completeJoin, Client.complete, hnames]
  split <;> rfl

/-- The clients after the own join. -/
theorem doProcJoin_core (node : CpgNode) (group : CpgName) (pid : ℕ) (reason : Reason) :
    (node.doProcJoin group pid node.nodeid reason).cpgPdList.map core =
      if node.has node.nodeid pid group.bytes then node.cpgPdList.map core
      else (node.cpgPdList.map core).map (Client.complete pid group.bytes) := by
  unfold doProcJoin
  rw [processInfoFind_eq]
  split
  · rfl
  · rw [notifyLibJoinlist_core (.inr rfl), List.map_map]
    refine List.map_congr_left fun cpd _ => ?_
    exact completeJoin_core (node.insertProcess ⟨node.nodeid, pid, group⟩) group pid reason cpd

/-- A delivered announcement is the first one. -/
theorem announcements_deliver {message : CpgMessage} {rest : List CpgMessage}
    (hinFlight : s.inFlight = message :: rest) (hrest : s'.inFlight = rest)
    (htotem : s'.node.totem = s.node.totem) :
    s.announcements =
      if message.announces then message :: s'.announcements else s'.announcements := by
  simp only [announcements, hinFlight, hrest, htotem, cons_append, filter_cons]

/-- The delivery of a message that announces nothing. -/
theorem Outcome.of_deliver {message : CpgMessage} {rest : List CpgMessage}
    (hinFlight : s.inFlight = message :: rest) (hannounces : message.announces = false)
    (heq : node = { s.node with
      joinlistMessages := node.joinlistMessages
      dispatched := node.dispatched }) :
    Outcome s event { s with node := node, inFlight := rest } := by
  refine .quiet ?_ ?_ (fun pid bytes => ?_) ?_ rfl rfl
  · simp only [clients]
    rw [heq]
  · simp only [closing]
    rw [heq]
  · simp only [own]
    rw [heq]
    rfl
  · have hsame := @announcements_deliver s { s with node := node, inFlight := rest } message rest
      hinFlight rfl (by
        dsimp only
        rw [heq])
    rw [hannounces] at hsame
    exact hsame ▸ List.Perm.refl _

/-- The outcome of the delivery of an own message. -/
theorem step_deliver (h : s.step .deliver = some s') : Outcome s .deliver s' := by
  simp only [step] at h
  split at h
  · cases h
  rename_i message rest hinFlight
  cases h
  simp only [deliverOwn]
  cases message with
  | procjoin group pid =>
    have heq := doProcJoin_eq s.node group pid s.node.nodeid .join
    have hnodeid : (s.node.doProcJoin group pid s.node.nodeid .join).nodeid = s.node.nodeid := by
      rw [heq]
    refine .deliverJoin group pid rfl hinFlight (doProcJoin_core s.node group pid .join) ?_
      (fun pid' bytes => ?_) ?_ rfl (append_nil _)
    · simp only [closing, execHandler]
      rw [heq]
    · simp only [own, execHandler, hnodeid, has_doProcJoin, beq_self_eq_true,
        Bool.and_true]
    · refine announcements_deliver hinFlight rfl ?_
      simp only [execHandler]
      rw [heq]
  | procleave group pid reason =>
    refine .deliverLeave group pid reason rfl hinFlight
      (doProcLeave_informs pid s.node.nodeid reason).core rfl (fun pid' bytes => ?_)
      (announcements_deliver hinFlight rfl rfl) rfl fun left hleft => ?_
    · change (s.node.doProcLeave group pid s.node.nodeid reason).has s.node.nodeid pid' bytes = _
      rw [has_doProcLeave, beq_self_eq_true, Bool.and_true]
      rfl
    · rcases mem_append.mp hleft with hleft | hleft
      · exact .inl hleft
      · obtain ⟨conn, hconn, rfl⟩ := mem_map.mp hleft
        exact .inr hconn
  | joinlist | downlist =>
    simp only [append_nil]
    exact Outcome.of_deliver hinFlight rfl rfl
  | mcast | partialMcast =>
    simp only [append_nil]
    refine Outcome.of_deliver hinFlight rfl ?_
    simp only [execHandler]
    rw [sendToGroup_eq]

/-- Lists that are sent announce nothing. -/
theorem cpgSyncProcess_silent (node : CpgNode) : Silent node node.cpgSyncProcess.1 := by
  have hrefl : ∀ node : CpgNode, Silent node node := fun node => ⟨rfl, List.Perm.refl _⟩
  have hjoinlist : ∀ node : CpgNode, Silent node node.cpgExecSendJoinlist.1 := by
    intro node
    unfold cpgExecSendJoinlist
    split
    · exact hrefl node
    · exact totemMcast_silent rfl
  have hdownlist : Silent node node.cpgExecSendDownlist.1 := by
    unfold cpgExecSendDownlist
    split
    · exact totemMcast_silent rfl
    · exact hrefl node
  unfold cpgSyncProcess
  split
  · refine hdownlist.trans (Silent.trans ?_ (hjoinlist _))
    exact ⟨rfl, List.Perm.refl _⟩
  · exact hdownlist

/-- The outcome of `cpg_sync_process`. -/
theorem step_syncProcess (h : s.step .syncProcess = some s') : Outcome s .syncProcess s' := by
  cases h
  exact Outcome.of_silent rfl (cpgSyncProcess_silent s.node)

/-- The outcomes of a step. -/
theorem step_outcome (hconns : s.Conns) (h : s.step event = some s') : Outcome s event s' := by
  cases event with
  | init conn =>
    obtain ⟨hfresh, h⟩ := ite_none_left_eq_some.mp h
    cases h
    exact .init conn rfl hfresh rfl rfl (fun _ _ => rfl) rfl rfl rfl
  | join _ _ _ => exact step_join h
  | leave _ _ _ => exact step_leave hconns h
  | finalize _ => exact step_finalize h
  | exit _ => exact step_exit h
  | mcast _ _ => exact step_mcast h
  | partialMcast _ _ _ _ => exact step_partialMcast h
  | transmit => exact step_transmit h
  | deliver => exact step_deliver h
  | foreign _ message =>
    obtain ⟨hnodeid, h⟩ := ite_none_left_eq_some.mp h
    cases h
    exact foreign_own hnodeid message
  | syncInit _ _ =>
    simp only [step, ite_none_right_eq_some] at h
    obtain rfl := some.inj h.2
    exact .quiet rfl rfl (fun _ _ => rfl) (List.Perm.refl _) rfl rfl
  | syncProcess => exact step_syncProcess h
  | syncActivate =>
    obtain ⟨node, hnode, rfl⟩ := map_eq_some_iff.mp h
    have hinforms := cpgSyncActivate_informs hnode
    refine .quiet hinforms.core ?_ (fun pid bytes => ?_) ?_ rfl rfl
    · simp only [closing]
      rw [hinforms.eq]
    · simp only [own, hinforms.nodeid_eq, cpgSyncActivate_has hnode hconns.downlist, if_true]
    · simp only [announcements]
      rw [hinforms.eq]
  | room | syncAbort | syncCompleted =>
    cases h
    exact .quiet rfl rfl (fun _ _ => rfl) (List.Perm.refl _) rfl rfl

/-- The handlers change neither the layer below nor what the synchronisation has set. -/
theorem execHandler_frame (node : CpgNode) (sender : ℕ) (message : CpgMessage) :
    (node.execHandler sender message).nodeid = node.nodeid ∧
      (node.execHandler sender message).totem = node.totem ∧
      (node.execHandler sender message).downlist = node.downlist := by
  cases message with
  | procjoin _ _ =>
    simp only [execHandler]
    rw [doProcJoin_eq]
    exact ⟨rfl, rfl, rfl⟩
  | procleave | joinlist | downlist => exact ⟨rfl, rfl, rfl⟩
  | mcast | partialMcast =>
    simp only [execHandler]
    rw [sendToGroup_eq]
    exact ⟨rfl, rfl, rfl⟩

/-- The node keeps its id, and the downlist changes only when a synchronisation starts. -/
theorem step_ring (h : s.step event = some s') :
    s'.node.nodeid = s.node.nodeid ∧
      (s'.node.downlist = s.node.downlist ∨ s'.node.nodeid ∉ s'.node.downlist) := by
  cases event with
  | init | join | leave | finalize | exit | mcast | partialMcast | room =>
    have hframe := clientFrame rfl h
    exact ⟨hframe.nodeid, .inl hframe.downlist⟩
  | transmit =>
    obtain ⟨taken, -, rfl⟩ := map_eq_some_iff.mp h
    exact ⟨rfl, .inl rfl⟩
  | deliver | foreign =>
    simp only [step] at h
    split at h
    · cases h
    · cases h
      obtain ⟨hnodeid, -, hdownlist⟩ := execHandler_frame s.node _ _
      exact ⟨hnodeid, .inl hdownlist⟩
  | syncInit _ _ =>
    simp only [step, ite_none_right_eq_some] at h
    obtain ⟨hown, h⟩ := h
    cases h
    refine ⟨rfl, .inr ?_⟩
    simp [cpgSyncInit, hown]
  | syncProcess =>
    cases h
    dsimp only
    rw [(cpgSyncProcess_silent s.node).eq]
    exact ⟨rfl, .inl rfl⟩
  | syncActivate =>
    obtain ⟨node, hnode, rfl⟩ := map_eq_some_iff.mp h
    have heq := (cpgSyncActivate_informs hnode).eq
    dsimp only
    rw [heq]
    exact ⟨rfl, .inl rfl⟩
  | syncAbort | syncCompleted =>
    cases h
    exact ⟨rfl, .inl rfl⟩

/-- A change that leaves the connections as they are. -/
theorem map_conn_map {f : Client → Client} (hf : ∀ client, (f client).conn = client.conn)
    (list : List Client) : (list.map f).map Client.conn = list.map Client.conn := by
  rw [List.map_map]
  exact List.map_congr_left fun client _ => hf client

/-- A client that changes keeps its connection. -/
theorem become_conn (conn pid : ℕ) (group : CpgName) (state : CpdState) (client : Client) :
    (Client.become conn pid group state client).conn = client.conn := by
  unfold Client.become
  split
  · rename_i heq
    exact heq.symm
  · rfl

/-- A completed join leaves the connection as it is. -/
theorem complete_conn (pid : ℕ) (bytes : List UInt8) (client : Client) :
    (Client.complete pid bytes client).conn = client.conn := by
  unfold Client.complete
  split <;> rfl

/-- The same connections. -/
theorem Conns.of_map (h : s.Conns) (hdownlist : s'.node.nodeid ∉ s'.node.downlist)
    (hclients : s'.clients.map Client.conn = s.clients.map Client.conn)
    (hclosing : s'.closing = s.closing) (hused : s'.used = s.used) : s'.Conns where
  nodup := by
    rw [map_append, hclients, hclosing, ← map_append]
    exact h.nodup
  used := fun client hclient => by
    rw [hused]
    have hconn : client.conn ∈ (s.clients ++ s.closing).map Client.conn := by
      rw [map_append, ← hclients, ← hclosing, ← map_append]
      exact mem_map_of_mem hclient
    obtain ⟨other, hother, hsame⟩ := mem_map.mp hconn
    rw [← hsame]
    exact h.used other hother
  downlist := hdownlist

/-- Joins are only announced by requests of unjoined connections. -/
theorem Outcome.procjoin_mem (h : Outcome s event s') {group : CpgName} {pid : ℕ}
    (hmem : .procjoin group pid ∈ s'.announcements) :
    .procjoin group pid ∈ s.announcements ∨
      ∃ client ∈ s.clients, event = .join client.conn pid group ∧ client.cpdState = .unjoined ∧
        ∀ other ∈ s.clients, ¬ (other.pid = pid ∧ other.groupName.bytes = group.bytes) := by
  cases h with
  | join client _ _ hevent hclient hstate hnew _ _ _ _ hannouncements =>
    rcases mem_cons.mp (hannouncements.mem_iff.mp hmem) with heq | hmem
    · cases heq
      exact .inr ⟨client, hclient, hevent, hstate, hnew⟩
    · exact .inl hmem
  | exit _ _ _ _ _ _ hannouncements =>
    have hmem := hannouncements.mem_iff.mp hmem
    split at hmem <;> simp_all
  | quiet | init | leave | finalize | deliverJoin | deliverLeave => grind [List.Perm.mem_iff]

/-- Connections that were used stay so. -/
theorem Outcome.used_subset (h : Outcome s event s') : s.used ⊆ s'.used := by
  cases h <;> simp_all

/-- Every step keeps the connections apart. -/
theorem Conns.step (h : s.Conns) (hstep : s.step event = some s') : s'.Conns := by
  have hdownlist : s'.node.nodeid ∉ s'.node.downlist := by
    obtain ⟨hnodeid, hdownlist | hdownlist⟩ := step_ring hstep
    · rw [hnodeid, hdownlist]
      exact h.downlist
    · exact hdownlist
  cases step_outcome h hstep with
  | quiet hclients hclosing _ _ hused _ =>
    exact h.of_map hdownlist (by rw [hclients]) hclosing hused
  | init conn _ hfresh hclients hclosing _ _ hused _ =>
    refine ⟨?_, fun client hclient => ?_, hdownlist⟩
    · rw [hclients, hclosing, cons_append, map_cons, nodup_cons]
      refine ⟨fun hmem => ?_, h.nodup⟩
      obtain ⟨other, hother, hsame⟩ := mem_map.mp hmem
      have hsame : other.conn = conn := hsame
      exact hfresh (hsame ▸ h.used other hother)
    · rw [hclients, hclosing, cons_append, mem_cons] at hclient
      rw [hused]
      rcases hclient with rfl | hclient
      · exact mem_cons_self
      · exact mem_cons_of_mem _ (h.used client hclient)
  | join _ _ _ _ _ _ _ _ hclients hclosing _ _ hused _ =>
    exact h.of_map hdownlist (by rw [hclients, map_conn_map (become_conn _ _ _ _)]) hclosing hused
  | leave _ _ _ _ _ _ hclients hclosing _ _ hused _ =>
    exact h.of_map hdownlist (by rw [hclients, map_conn_map (become_conn _ _ _ _)]) hclosing hused
  | finalize _ _ hclient hclients hclosing _ _ hused _ =>
    refine ⟨?_, fun other hother => ?_, hdownlist⟩
    · rw [hclients, hclosing]
      refine ((perm_middle.map Client.conn).nodup_iff).mpr ?_
      rw [map_cons, nodup_cons]
      refine ⟨fun hmem => ?_, h.nodup.sublist ?_⟩
      · obtain ⟨other, hother, hsame⟩ := mem_map.mp hmem
        rcases mem_append.mp hother with hother | hother
        · have := (mem_filter.mp hother).2
          simp [hsame] at this
        · have hnodup := h.nodup
          rw [map_append, nodup_append] at hnodup
          exact hnodup.2.2 _ (mem_map_of_mem hclient) _ (mem_map_of_mem hother) hsame.symm
      · exact (filter_sublist.append_right _).map _
    · rw [hclients, hclosing] at hother
      rw [hused]
      rcases mem_append.mp hother with hother | hother
      · exact h.used other (mem_append_left _ (mem_filter.mp hother).1)
      · rcases mem_cons.mp hother with rfl | hother
        · exact h.used other (mem_append_left _ hclient)
        · exact h.used other (mem_append_right _ hother)
  | exit _ _ _ hclients hclosing _ _ hused _ =>
    have hsub : (s'.clients ++ s'.closing).Sublist (s.clients ++ s.closing) := by
      rw [hclients, hclosing]
      exact filter_sublist.append filter_sublist
    exact ⟨h.nodup.sublist (hsub.map _),
      fun other hother => hused ▸ h.used other (hsub.subset hother), hdownlist⟩
  | deliverJoin _ _ _ _ hclients hclosing _ _ hused _ =>
    refine h.of_map hdownlist ?_ hclosing hused
    rw [hclients]
    split
    · rfl
    · rw [map_conn_map (complete_conn _ _)]
  | deliverLeave _ _ _ _ _ hclients hclosing _ _ hused _ =>
    exact h.of_map hdownlist (by rw [hclients]) hclosing hused

/-- Before the first connection. -/
theorem start_conns (nodeid : ℕ) : (start nodeid).Conns :=
  ⟨nodup_nil, nofun, not_mem_nil⟩

end Local

end Corosync.Cpg
