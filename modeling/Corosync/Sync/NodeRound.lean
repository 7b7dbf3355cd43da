import Corosync.Sync.ServiceList

/-!
# The rounds of one node

A node that has delivered messages of the ring from some senders is in round `r` of them: in round
zero it collects service lists, in round `r` it synchronises the service at position `r - 1` of
the union. The lemmas say what the delivery of one message and a call of the work item do.
-/

namespace Corosync.Sync

open Library SyncNode
open List hiding count_concat

/-- The services for which barrier messages are among the calls. -/
def barriers (calls : List SyncCall) : List ℕ :=
  calls.filterMap fun
    | .barrier id => some id
    | _ => none

/-- The services that are processed. -/
def processings (calls : List SyncCall) : List ℕ :=
  calls.filterMap fun
    | .processed id => some id
    | _ => none

/-- The services that are activated. -/
def activations (calls : List SyncCall) : List ℕ :=
  calls.filterMap fun
    | .activate id => some id
    | _ => none

section Calls

variable (calls : List SyncCall) (id : ℕ)

/-- A barrier is counted. -/
@[simp]
theorem calls_barrier : barriers (calls ++ [.barrier id]) = barriers calls ++ [id] ∧
    processings (calls ++ [.barrier id]) = processings calls ∧
    activations (calls ++ [.barrier id]) = activations calls := by
  simp [barriers, processings, activations]

/-- A processing is counted. -/
@[simp]
theorem calls_processed : barriers (calls ++ [.processed id]) = barriers calls ∧
    processings (calls ++ [.processed id]) = processings calls ++ [id] ∧
    activations (calls ++ [.processed id]) = activations calls := by
  simp [barriers, processings, activations]

/-- An activation is counted. -/
@[simp]
theorem calls_activate : barriers (calls ++ [.activate id]) = barriers calls ∧
    processings (calls ++ [.activate id]) = processings calls ∧
    activations (calls ++ [.activate id]) = activations calls ++ [id] := by
  simp [barriers, processings, activations]

/-- The end of the synchronisation is not counted. -/
@[simp]
theorem calls_completed : barriers (calls ++ [.completed]) = barriers calls ∧
    processings (calls ++ [.completed]) = processings calls ∧
    activations (calls ++ [.completed]) = activations calls := by
  simp [barriers, processings, activations]

end Calls

/-- A list of services goes on with the next one of the union. -/
theorem filter_take_succ {union : List ℕ} {k id : ℕ} (hid : union[k]? = some id) (f : ℕ → Bool) :
    (union.take (k + 1)).filter f = (union.take k).filter f ++ if f id then [id] else [] := by
  rw [take_add_one, hid, filter_append]
  cases hf : f id with
  | false => simp [hf]
  | true => simp [hf]

/-- What deliveries leave alone: they send nothing. -/
structure SendsNothing (node after : SyncNode) : Prop where
  outgoing : after.outgoing = node.outgoing
  barriers : barriers after.calls = Sync.barriers node.calls

/-- Entering the process state sends nothing. -/
theorem syncProcessEnter_sendsNothing (node : SyncNode) :
    SendsNothing node node.syncProcessEnter := by
  unfold syncProcessEnter
  split
  · exact ⟨rfl, (calls_completed _).1⟩
  · exact ⟨rfl, rfl⟩

/-- Reaching the barrier sends nothing. -/
theorem barrierReached_sendsNothing (node : SyncNode) (entry : ServiceEntry) :
    SendsNothing node (node.barrierReached entry) := by
  have hactivated : barriers
      (if node.services.retrieve entry.serviceId then node.calls ++ [.activate entry.serviceId]
        else node.calls) = barriers node.calls := by
    split
    · exact (calls_activate _ _).1
    · rfl
  unfold barrierReached
  dsimp only
  split
  · exact ⟨rfl, (calls_completed _).1.trans hactivated⟩
  obtain ⟨houtgoing, hbarriers⟩ := syncProcessEnter_sendsNothing
    { node with
      myServiceList := node.myServiceList.set node.myProcessingIdx { entry with activate := true }
      calls :=
        if node.services.retrieve entry.serviceId then
          node.calls ++ [.activate entry.serviceId]
        else node.calls
      myProcessingIdx := node.myProcessingIdx + 1 }
  exact ⟨houtgoing, hbarriers.trans hactivated⟩

/-- A delivery sends nothing. -/
theorem syncDeliverFn_sendsNothing (node : SyncNode)
    (qsort : List ServiceEntry → List ServiceEntry) (nodeid : ℕ) (message : SyncMessage) :
    SendsNothing node (node.syncDeliverFn qsort nodeid message) := by
  cases message with
  | barrier _ =>
    simp only [syncDeliverFn, syncBarrierHandler]
    split
    · split
      · obtain ⟨houtgoing, hbarriers⟩ := barrierReached_sendsNothing (node.markReceived nodeid)
          ((node.markReceived nodeid).myServiceList.getD
            (node.markReceived nodeid).myProcessingIdx ⟨0, false⟩)
        exact ⟨houtgoing, hbarriers⟩
      · exact ⟨rfl, rfl⟩
    · exact ⟨rfl, rfl⟩
  | serviceBuild _ serviceList =>
    simp only [syncDeliverFn, syncServiceBuildHandler]
    split
    · split
      · obtain ⟨houtgoing, hbarriers⟩ := syncProcessEnter_sendsNothing
          ((node.mergeServices qsort serviceList).markReceived nodeid)
        exact ⟨houtgoing, hbarriers⟩
      · exact ⟨rfl, rfl⟩
    · exact ⟨rfl, rfl⟩

/-- A message of another ring is ignored. -/
theorem syncDeliverFn_of_ne {node : SyncNode} {qsort : List ServiceEntry → List ServiceEntry}
    {nodeid : ℕ} {message : SyncMessage} (hne : node.myRingId ≠ message.ringId) :
    node.syncDeliverFn qsort nodeid message = node := by
  cases message with
  | barrier | serviceBuild => exact if_neg hne

/-- Whether a service is announced by the node itself or by one of the senders. -/
def Ring.heard (ring : Ring) (p : ℕ) (senders : List ℕ) (id : ℕ) : Bool :=
  decide (id ∈ ownServices (ring.services p)) ||
    senders.any fun q => decide (id ∈ ownServices (ring.services q))

/-- Once every member is heard the services are those of the union. -/
theorem Ring.idsWith_heard {ring : Ring} {p : ℕ} {senders : List ℕ} (hp : p ∈ ring.members)
    (hsenders : ∀ q ∈ senders, q ∈ ring.members) (hall : ∀ q ∈ ring.members, q ∈ senders) :
    idsWith (ring.heard p senders) = ring.union := by
  unfold idsWith Ring.union
  refine filter_congr fun id _ => ?_
  rw [Bool.eq_iff_iff, Ring.heard, Bool.or_eq_true, any_eq_true, any_eq_true]
  constructor
  · rintro (hown | ⟨q, hq, hid⟩)
    · exact ⟨p, hp, hown⟩
    · exact ⟨q, hsenders q hq, hid⟩
  · rintro ⟨q, hq, hid⟩
    exact .inr ⟨q, hall q hq, hid⟩

/-- A node in round `r` after the ring's messages from `senders`. -/
structure NodeAt (ring : Ring) (p : ℕ) (senders : List ℕ) (r : ℕ) (node : SyncNode) : Prop where
  ringId : node.myRingId = ring.ringId
  services : node.services = ring.services p
  ids : node.myServiceList.map ServiceEntry.serviceId = idsWith (ring.heard p senders)
  activate : ∀ (j : ℕ) (entry : ServiceEntry), node.myServiceList[j]? = some entry →
    (entry.activate = true ↔ j < r - 1)
  idx : node.myProcessingIdx = r - 1
  flags : r ≤ ring.union.length →
    node.myProcessorList = ring.members.map fun q => ⟨q, decide (r < senders.count q)⟩
  le : r ≤ ring.union.length + 1
  schedwrk : node.schedwrk = true ↔
    0 < r ∧ r ≤ ring.union.length ∧ (barriers node.calls).length + 1 = r
  sent : barriers node.calls = ring.union.take (barriers node.calls).length
  le_sent : r ≤ (barriers node.calls).length + 1
  sent_le : (barriers node.calls).length ≤ r
  activated : activations node.calls =
    (ring.union.take (r - 1)).filter (ring.services p).retrieve
  processed : processings node.calls =
    (ring.union.take (barriers node.calls).length).filter (ring.services p).retrieve
  completed : .completed ∈ node.calls → r = ring.union.length + 1

variable {ring : Ring} {p q r : ℕ} {senders : List ℕ} {node : SyncNode}

/-- The flags after one more message of a round. -/
theorem markReceived_flags
    (hflags : node.myProcessorList =
      ring.members.map fun x => ⟨x, decide (r < senders.count x)⟩)
    (hcount : senders.count q = r) :
    (node.markReceived q).myProcessorList =
      ring.members.map fun x => ⟨x, decide (r < (senders ++ [q]).count x)⟩ := by
  simp only [markReceived, hflags, map_map]
  refine map_congr_left fun x _ => ?_
  simp only [Function.comp_apply, count_concat]
  by_cases hx : x = q
  · subst hx
    simp [hcount]
  · simp [hx, Ne.symm hx]

/-- Everybody is marked when everybody has sent in the round. -/
theorem allReceived_iff {log : List ℕ}
    (hflags : node.myProcessorList = ring.members.map fun x => ⟨x, decide (r < log.count x)⟩) :
    node.allReceived = true ↔ ∀ x ∈ ring.members, r < log.count x := by
  simp [allReceived, hflags]

/-- `sync_process_enter` resets the flags and creates the work item. -/
theorem syncProcessEnter_of_ne_nil (hne : node.myServiceList ≠ []) :
    node.syncProcessEnter =
      { node with
        myState := .process
        myProcessorList := node.myProcessorList.map fun entry => { entry with received := false }
        schedwrk := true } :=
  if_neg hne

/-- Flags that are reset are those of a round in which nobody has sent. -/
theorem reset_flags {log : List ℕ} (hround : ∀ x ∈ ring.members, log.count x = r + 1) :
    (ring.members.map fun x => (⟨x, decide (r < log.count x)⟩ : ProcessorEntry)).map
        (fun entry => { entry with received := false }) =
      ring.members.map fun x => ⟨x, decide (r + 1 < log.count x)⟩ := by
  rw [map_map]
  refine map_congr_left fun x hx => ?_
  have := hround x hx
  simp only [Function.comp_apply]
  rw [decide_eq_false (by omega)]

/-- The services after one more list. -/
theorem NodeAt.merge (hqsort : Qsort ring.qsort) (h : NodeAt ring p senders 0 node) :
    ((node.mergeServices ring.qsort (ownServices (ring.services q))).markReceived
      q).myServiceList.map ServiceEntry.serviceId = idsWith (ring.heard p (senders ++ [q])) ∧
    ∀ entry ∈ ((node.mergeServices ring.qsort
      (ownServices (ring.services q))).markReceived q).myServiceList,
      entry.activate = false := by
  constructor
  · refine (mergeServices_ids hqsort h.ids).trans ?_
    refine filter_congr fun id hid => ?_
    rw [Bool.eq_iff_iff]
    have hown : id ∈ ownServices (ring.services q) ↔
        ((ring.services q).retrieve id && (ring.services q).hasInit id) = true := by
      rw [ownServices, mem_filter, and_iff_right hid]
    simp only [Ring.heard, any_append, any_cons, any_nil, Bool.or_false,
      Bool.or_eq_true, decide_eq_true_eq, hown, or_assoc]
  · refine mergeServices_activate hqsort.toRearranges fun entry hentry => ?_
    obtain ⟨j, hj⟩ := mem_iff_getElem?.mp hentry
    have := h.activate j entry hj
    simpa using this

/-- A list of services is delivered. -/
theorem NodeAt.serviceBuild (hqsort : Qsort ring.qsort) (h : NodeAt ring p senders 0 node)
    (hp : p ∈ ring.members) (hsenders : ∀ x ∈ senders, x ∈ ring.members)
    (hround : AtRound ring.members senders 0) (hbalanced : Balanced ring.members (senders ++ [q])) :
    ∃ r', AtRound ring.members (senders ++ [q]) r' ∧
      NodeAt ring p (senders ++ [q]) r' (node.syncDeliverFn ring.qsort q
        (.serviceBuild ring.ringId (ownServices (ring.services q)))) := by
  set own := ownServices (ring.services q) with hown
  set marked := (node.mergeServices ring.qsort own).markReceived q with hmarked
  obtain ⟨hids, hactivate⟩ := h.merge (q := q) hqsort
  have hflags : marked.myProcessorList =
      ring.members.map fun x => ⟨x, decide (0 < (senders ++ [q]).count x)⟩ :=
    @markReceived_flags ring q 0 senders (node.mergeServices ring.qsort own)
      (h.flags (Nat.zero_le _)) (hround.count_next hbalanced)
  have hdeliver : node.syncDeliverFn ring.qsort q (.serviceBuild ring.ringId own) =
      if marked.allReceived then marked.syncProcessEnter else marked :=
    if_pos h.ringId
  rw [hdeliver]
  have hlog : ∀ x ∈ senders ++ [q], x ∈ ring.members := by
    exact forall_mem_append.mpr ⟨hsenders, forall_mem_singleton.mpr hbalanced.next.1⟩
  have hidle : (barriers node.calls).length = 0 := Nat.le_zero.mp h.sent_le
  have hsched : node.schedwrk = false := by
    rw [Bool.eq_false_iff]
    exact fun htrue => absurd (h.schedwrk.mp htrue).1 (Nat.lt_irrefl 0)
  have hcompleted : SyncCall.completed ∉ node.calls :=
    fun hmem => absurd (h.completed hmem) (Nat.succ_ne_zero _).symm
  have hinactive : ∀ r ≤ 1, ∀ (j : ℕ) (entry : ServiceEntry),
      marked.myServiceList[j]? = some entry → (entry.activate = true ↔ j < r - 1) := by
    intro r hr j entry hj
    rw [hactivate entry (mem_of_getElem? hj)]
    simp only [Bool.false_eq_true, false_iff]
    omega
  rcases hround.cases_concat hbalanced with ⟨hall, hnext⟩ | ⟨hall, hnext⟩
  · rw [if_pos ((allReceived_iff hflags).mpr fun x hx => (hall x hx).ge)]
    refine ⟨1, hnext, ?_⟩
    have hunion : marked.myServiceList.map ServiceEntry.serviceId = ring.union := by
      rw [hids, Ring.idsWith_heard hp hlog]
      exact fun x hx => count_pos_iff.mp (hall x hx).ge
    have hlength : marked.myServiceList.length = ring.union.length := by
      rw [← hunion, length_map]
    by_cases hnil : marked.myServiceList = []
    · -- no member has a service: the synchronisation is over
      have hzero : ring.union.length = 0 := by rw [← hlength, hnil, length_nil]
      have henter : marked.syncProcessEnter = { marked with
          myState := .servicelistBuild, calls := marked.calls ++ [.completed] } :=
        if_pos hnil
      have hbarriers : barriers (marked.calls ++ [.completed]) = barriers node.calls :=
        (calls_completed _).1
      rw [henter]
      exact { h with
        ids := hids
        activate := hinactive 1 le_rfl
        flags := fun hle => by omega
        le := by omega
        schedwrk := by
          dsimp only
          rw [hbarriers]
          exact ⟨fun htrue => absurd (htrue.symm.trans hsched) (by simp), by omega⟩
        sent := by
          dsimp only
          rw [hbarriers]
          exact h.sent
        le_sent := Nat.le_add_left _ _
        sent_le := by
          dsimp only
          rw [hbarriers, hidle]
          exact Nat.zero_le _
        activated := (calls_completed _).2.2.trans h.activated
        processed := by
          dsimp only
          rw [hbarriers, (calls_completed _).2.1]
          exact h.processed
        completed := fun _ => by omega }
    · rw [syncProcessEnter_of_ne_nil hnil]
      have hpos : 0 < ring.union.length := by
        rw [← hlength]
        exact length_pos_of_ne_nil hnil
      exact { h with
        ids := hids
        activate := hinactive 1 le_rfl
        flags := fun _ => by rw [hflags]; exact reset_flags hall
        le := by omega
        schedwrk := ⟨fun _ => ⟨Nat.one_pos, hpos, congrArg Nat.succ hidle⟩, fun _ => rfl⟩
        le_sent := Nat.le_add_left _ _
        sent_le := h.sent_le.trans (Nat.zero_le _)
        completed := fun hmem => absurd hmem hcompleted }
  · rw [if_neg (fun htrue => hall ((allReceived_iff hflags).mp htrue))]
    exact ⟨0, hnext, { h with
      ids := hids
      activate := hinactive 0 (Nat.zero_le _)
      flags := fun _ => hflags }⟩

/-- What the calls are after the activation of a service. -/
structure Activates (before after : List SyncCall) (id : ℕ) (retrieve : Bool) : Prop where
  barriers : barriers after = Sync.barriers before
  processings : processings after = Sync.processings before
  activations : activations after =
    Sync.activations before ++ if retrieve then [id] else []

/-- A service is activated if it is one of the node. -/
theorem activates_call (calls : List SyncCall) (id : ℕ) (retrieve : Bool) :
    Activates calls (if retrieve then calls ++ [.activate id] else calls) id retrieve := by
  cases retrieve with
  | false => exact ⟨rfl, rfl, (append_nil _).symm⟩
  | true =>
    obtain ⟨hbarriers, hprocessings, hactivations⟩ := calls_activate calls id
    exact ⟨hbarriers, hprocessings, hactivations⟩

/-- The end of the synchronisation follows. -/
theorem Activates.completed {before after : List SyncCall} {id : ℕ} {retrieve : Bool}
    (h : Activates before after id retrieve) :
    Activates before (after ++ [.completed]) id retrieve where
  barriers := (calls_completed _).1.trans h.barriers
  processings := (calls_completed _).2.1.trans h.processings
  activations := (calls_completed _).2.2.trans h.activations

/-- The service of the round is activated and the node is in the next round. -/
theorem NodeAt.next {after : SyncNode} {entry : ServiceEntry} (h : NodeAt ring p senders r node)
    (hids : idsWith (ring.heard p senders) = idsWith (ring.heard p (senders ++ [q])))
    (hr : 0 < r) (hle : r ≤ ring.union.length) (hsent : r + 1 ≤ (barriers node.calls).length + 1)
    (hentry : node.myServiceList[r - 1]? = some entry)
    (hid : ring.union[r - 1]? = some entry.serviceId)
    (hringId : after.myRingId = node.myRingId) (hservices : after.services = node.services)
    (hlist : after.myServiceList = node.myServiceList.set (r - 1) { entry with activate := true })
    (hidx : after.myProcessingIdx = r)
    (hcalls : Activates node.calls after.calls entry.serviceId
      (node.services.retrieve entry.serviceId))
    (hflags : r + 1 ≤ ring.union.length → after.myProcessorList =
      ring.members.map fun x => ⟨x, decide (r + 1 < (senders ++ [q]).count x)⟩)
    (hschedwrk : after.schedwrk = true ↔ r + 1 ≤ ring.union.length)
    (hcompleted : .completed ∈ after.calls → .completed ∈ node.calls ∨ r = ring.union.length) :
    NodeAt ring p (senders ++ [q]) (r + 1) after where
  ringId := hringId.trans h.ringId
  services := hservices.trans h.services
  ids := by
    obtain ⟨hlt, heq⟩ := List.getElem?_eq_some_iff.mp hentry
    rw [← hids, ← h.ids, hlist, List.map_set]
    refine ext_getElem (by simp) fun j hj hj' => ?_
    rw [getElem_set]
    split
    · rename_i hjr
      subst hjr
      rw [getElem_map, heq]
    · rfl
  activate := fun j other hj => by
    rw [hlist, getElem?_set] at hj
    split at hj
    · rename_i heq
      split at hj
      · cases hj
        simp only [true_iff]
        omega
      · cases hj
    · rename_i hne
      rw [h.activate j other hj]
      omega
  idx := hidx
  flags := hflags
  le := Nat.succ_le_succ hle
  schedwrk := by
    rw [hschedwrk, hcalls.barriers]
    have := h.sent_le
    omega
  sent := by
    rw [hcalls.barriers]
    exact h.sent
  le_sent := by
    rw [hcalls.barriers]
    exact hsent
  sent_le := by
    rw [hcalls.barriers]
    exact h.sent_le.trans (Nat.le_succ r)
  activated := by
    have htake := filter_take_succ hid (ring.services p).retrieve
    rw [Nat.sub_add_cancel hr] at htake
    rw [hcalls.activations, h.activated, h.services, Nat.add_sub_cancel, htake]
  processed := by
    rw [hcalls.barriers, hcalls.processings]
    exact h.processed
  completed := fun hmem => by
    rcases hcompleted hmem with hmem | heq
    · have := h.completed hmem
      omega
    · omega

/-- After round zero further messages of the ring add no services. -/
theorem NodeAt.heard_concat (hp : p ∈ ring.members)
    (hsenders : ∀ x ∈ senders, x ∈ ring.members) (hround : AtRound ring.members senders r)
    (hr : 0 < r) (hq : q ∈ ring.members) :
    idsWith (ring.heard p senders) = idsWith (ring.heard p (senders ++ [q])) := by
  have hall : ∀ x ∈ ring.members, x ∈ senders :=
    fun x hx => count_pos_iff.mp (hr.trans_le (hround.le x hx))
  rw [Ring.idsWith_heard hp hsenders hall, Ring.idsWith_heard hp]
  · exact forall_mem_append.mpr ⟨hsenders, forall_mem_singleton.mpr hq⟩
  · exact fun x hx => mem_append_left _ (hall x hx)

/-- What the work item does while the service is not activated. -/
theorem schedwrkProcessor_eq {entry : ServiceEntry}
    (hget : node.myServiceList.getD node.myProcessingIdx ⟨0, false⟩ = entry)
    (hprocess : entry.activate = false) (done : Bool) :
    node.schedwrkProcessor done =
      if node.services.retrieve entry.serviceId && !done then node
      else
        ({ node with
          calls :=
            if node.services.retrieve entry.serviceId then
              node.calls ++ [.processed entry.serviceId]
            else node.calls } : SyncNode).syncBarrierEnter entry := by
  unfold schedwrkProcessor
  rw [hget]
  cases hretrieve : node.services.retrieve entry.serviceId with
  | false => simp [hprocess, hretrieve]
  | true =>
    cases done with
    | false => simp [hprocess, hretrieve]
    | true => simp [hprocess, hretrieve]

/-- The barrier of the round is sent, after calls that process the service. -/
theorem NodeAt.barrierEnter {entry : ServiceEntry} {calls : List SyncCall}
    (h : NodeAt ring p senders r node) (hle : r ≤ ring.union.length)
    (hsent : (barriers node.calls).length + 1 = r) (hid : ring.union[r - 1]? = some entry.serviceId)
    (hbarriers : barriers calls = barriers node.calls)
    (hactivations : activations calls = activations node.calls)
    (hprocessings : processings calls = processings node.calls ++
      if (ring.services p).retrieve entry.serviceId then [entry.serviceId] else [])
    (hcompleted : .completed ∈ calls → .completed ∈ node.calls) :
    NodeAt ring p senders r (({ node with calls := calls } : SyncNode).syncBarrierEnter entry) ∧
      (barriers (calls ++ [.barrier entry.serviceId])).length = r := by
  obtain rfl : r = (barriers node.calls).length + 1 := hsent.symm
  rw [Nat.add_sub_cancel] at hid
  have hafter : barriers (calls ++ [.barrier entry.serviceId]) =
      ring.union.take ((barriers node.calls).length + 1) := by
    rw [(calls_barrier _ _).1, hbarriers, take_add_one, ← h.sent, hid]
    rfl
  have hlength : (barriers (calls ++ [.barrier entry.serviceId])).length =
      (barriers node.calls).length + 1 := by
    rw [(calls_barrier _ _).1, hbarriers, length_append, length_singleton]
  exact ⟨{ h with
    schedwrk := by
      dsimp only [syncBarrierEnter]
      rw [hlength]
      simp
    sent := by
      dsimp only [syncBarrierEnter]
      rw [hlength, hafter]
    le_sent := by
      dsimp only [syncBarrierEnter]
      omega
    sent_le := hlength.le
    activated := (calls_barrier _ _).2.2.trans (hactivations.trans h.activated)
    processed := by
      dsimp only [syncBarrierEnter]
      rw [hlength, filter_take_succ hid, (calls_barrier _ _).2.1, hprocessings, h.processed]
    completed := fun hcall => h.completed (hcompleted (by
      simpa [syncBarrierEnter] using hcall)) }, hlength⟩

section

variable (h : NodeAt ring p senders r node) (hp : p ∈ ring.members)
  (hsenders : ∀ x ∈ senders, x ∈ ring.members) (hround : AtRound ring.members senders r)

include h hp hsenders hround

/-- After the lists a node has all services. -/
theorem NodeAt.union (hr : 0 < r) :
    node.myServiceList.map ServiceEntry.serviceId = ring.union := by
  rw [h.ids, Ring.idsWith_heard hp hsenders]
  intro q hq
  exact count_pos_iff.mp (hr.trans_le (hround.le q hq))

/-- The entry of the round is the service of the union at its place. -/
theorem NodeAt.entry (hr : 0 < r) (hle : r ≤ ring.union.length) :
    ∃ entry, node.myServiceList[r - 1]? = some entry ∧ ring.union[r - 1]? = some entry.serviceId ∧
      node.myServiceList.getD node.myProcessingIdx ⟨0, false⟩ = entry := by
  have hunion := h.union hp hsenders hround hr
  have hlt : r - 1 < node.myServiceList.length := by
    have hlength := congrArg List.length hunion
    rw [length_map] at hlength
    omega
  refine ⟨node.myServiceList[r - 1], getElem?_eq_getElem hlt, ?_, ?_⟩
  · rw [← hunion, getElem?_map, getElem?_eq_getElem hlt]
    rfl
  · rw [h.idx, getD_eq_getElem?_getD, getElem?_eq_getElem hlt, Option.getD_some]

/-- A barrier is delivered. -/
theorem NodeAt.barrier
    (hbalanced : Balanced ring.members (senders ++ [q])) (hr : 0 < r) (hle : r ≤ ring.union.length)
    (hsent : (senders ++ [q]).count p ≤ (barriers node.calls).length + 1) :
    ∃ r', AtRound ring.members (senders ++ [q]) r' ∧
      NodeAt ring p (senders ++ [q]) r'
        (node.syncDeliverFn ring.qsort q (.barrier ring.ringId)) := by
  set marked := node.markReceived q with hmarked
  have hflags : marked.myProcessorList =
      ring.members.map fun x => ⟨x, decide (r < (senders ++ [q]).count x)⟩ :=
    markReceived_flags (h.flags hle) (hround.count_next hbalanced)
  have hids := NodeAt.heard_concat hp hsenders hround hr hbalanced.next.1
  obtain ⟨entry, hentry, hid, hget⟩ := h.entry hp hsenders hround hr hle
  have hdeliver : node.syncDeliverFn ring.qsort q (.barrier ring.ringId) =
      if marked.allReceived then marked.barrierReached entry else marked := by
    rw [← hget]
    exact if_pos h.ringId
  rw [hdeliver]
  rcases hround.cases_concat hbalanced with ⟨hall, hnext⟩ | ⟨hall, hnext⟩
  · rw [if_pos ((allReceived_iff hflags).mpr fun x hx => (hall x hx).ge)]
    refine ⟨r + 1, hnext, ?_⟩
    rw [hall p hp] at hsent
    have hlength : node.myServiceList.length = ring.union.length := by
      have := congrArg List.length (h.union hp hsenders hround hr)
      rwa [length_map] at this
    have hidx : node.myProcessingIdx + 1 = r := by
      rw [h.idx]
      omega
    have hactivates := activates_call node.calls entry.serviceId
      (node.services.retrieve entry.serviceId)
    unfold barrierReached
    dsimp only
    split
    · -- this was the last service
      rename_i hlast
      have hlast : r = ring.union.length := by
        rw [length_set] at hlast
        exact hidx.symm.trans (hlast.symm.trans hlength)
      refine h.next hids hr hle hsent hentry hid rfl rfl ?_ hidx hactivates.completed ?_ ?_
        fun _ => .inr hlast
      · rw [← h.idx]
        rfl
      · omega
      · have hfalse : marked.schedwrk = false := by
          rw [Bool.eq_false_iff]
          intro htrue
          have := (h.schedwrk.mp htrue).2.2
          omega
        dsimp only
        rw [hfalse]
        simp only [Bool.false_eq_true, false_iff]
        omega
    · rename_i hmore
      have hmore : r + 1 ≤ ring.union.length := by
        rw [length_set] at hmore
        have hne : ring.union.length ≠ r := fun heq => hmore (hlength.trans (heq.trans hidx.symm))
        omega
      have hne : marked.myServiceList.set marked.myProcessingIdx
          { entry with activate := true } ≠ [] := by
        refine ne_nil_of_length_pos ?_
        rw [length_set]
        exact hlength ▸ hr.trans_le hle
      rw [syncProcessEnter_of_ne_nil hne]
      refine h.next hids hr hle hsent hentry hid rfl rfl ?_ hidx hactivates ?_ ?_ ?_
      · rw [← h.idx]
        rfl
      · intro _
        dsimp only
        rw [hflags]
        exact reset_flags hall
      · exact ⟨fun _ => hmore, fun _ => rfl⟩
      · intro hmem
        dsimp only at hmem
        split at hmem
        · rcases mem_append.mp hmem with hmem | hmem
          · exact .inl hmem
          · simp at hmem
        · exact .inl hmem
  · rw [if_neg (fun htrue => hall ((allReceived_iff hflags).mp htrue))]
    exact ⟨r, hnext, { h with ids := h.ids.trans hids, flags := fun _ => hflags }⟩

/-- The work item is called. Either nothing changes or the barrier of the round is sent. -/
theorem NodeAt.work (hschedwrk : node.schedwrk = true) (done : Bool) :
    NodeAt ring p senders r (node.schedwrkProcessor done) ∧
      (node.schedwrkProcessor done = node ∨
        (node.schedwrkProcessor done).outgoing = node.outgoing ++ [.barrier ring.ringId] ∧
        (barriers (node.schedwrkProcessor done).calls).length = r ∧
        (barriers node.calls).length + 1 = r) := by
  obtain ⟨hr, hle, hsent⟩ := h.schedwrk.mp hschedwrk
  obtain ⟨entry, hentry, hid, hget⟩ := h.entry hp hsenders hround hr hle
  have hprocess : entry.activate = false := by
    rw [Bool.eq_false_iff]
    exact fun htrue => Nat.lt_irrefl _ ((h.activate _ _ hentry).mp htrue)
  rw [schedwrkProcessor_eq hget hprocess]
  split
  · exact ⟨h, .inl rfl⟩
  have houtgoing : node.outgoing ++ [.barrier node.myRingId] =
      node.outgoing ++ [.barrier ring.ringId] := by rw [h.ringId]
  split
  · rename_i hretrieve
    rw [h.services] at hretrieve
    obtain ⟨hafter, hlength⟩ := h.barrierEnter hle hsent hid
      (calls_processed node.calls entry.serviceId).1 (calls_processed _ _).2.2
      (by rw [(calls_processed _ _).2.1, if_pos hretrieve]) (fun hcall => by simpa using hcall)
    exact ⟨hafter, .inr ⟨houtgoing, hlength, hsent⟩⟩
  · rename_i hretrieve
    rw [h.services] at hretrieve
    obtain ⟨hafter, hlength⟩ := h.barrierEnter hle hsent hid rfl rfl
      (by rw [if_neg hretrieve, append_nil]) (fun hcall => hcall)
    exact ⟨hafter, .inr ⟨houtgoing, hlength, hsent⟩⟩

end

end Corosync.Sync
