import Corosync.Sync.NodeRound

/-!
# The barrier between services

The messages of the ring come in rounds, because a node sends its message of a round only after
it has delivered the messages of all members of the round before. A node therefore activates a
service only after the barriers of all members for that service, although barrier messages do not
name the service they are for.
-/

namespace Corosync.Sync

open Library Function
open List hiding count_concat

/-- The senders of the ring's messages in the order. -/
def Ring.senders (ring : Ring) (order : List (ℕ × SyncMessage)) : List ℕ :=
  (order.filter fun message => message.2.ringId = ring.ringId).map Prod.fst

/-- The messages of a node: its service list, then barriers. -/
def Ring.expected (ring : Ring) (q : ℕ) : ℕ → SyncMessage
  | 0 => .serviceBuild ring.ringId (SyncNode.ownServices (ring.services q))
  | _ + 1 => .barrier ring.ringId

variable {ring : Ring} {order : List (ℕ × SyncMessage)} {i k sender : ℕ} {message : SyncMessage}
  {node : SyncNode} {s : System} {calls : List SyncCall}

/-- The expected messages are those of the ring. -/
theorem Ring.expected_ringId (ring : Ring) (q n : ℕ) :
    (ring.expected q n).ringId = ring.ringId := by
  cases n with
  | zero => rfl
  | succ _ => rfl

/-- The senders of two parts of the order. -/
theorem Ring.senders_append (ring : Ring) (a b : List (ℕ × SyncMessage)) :
    ring.senders (a ++ b) = ring.senders a ++ ring.senders b := by
  simp [Ring.senders]

/-- The sender of a message of the ring. -/
theorem Ring.senders_own (hmessage : message.ringId = ring.ringId) :
    ring.senders [(sender, message)] = [sender] := by
  simp [Ring.senders, hmessage]

/-- Messages of other rings do not count. -/
theorem Ring.senders_other (hmessage : message.ringId ≠ ring.ringId) :
    ring.senders [(sender, message)] = [] := by
  simp [Ring.senders, hmessage]

/-- The senders of a part of the order. -/
theorem Ring.senders_take (ring : Ring) (order : List (ℕ × SyncMessage)) (k : ℕ) :
    ring.senders (order.take k) ++ ring.senders (order.drop k) = ring.senders order := by
  rw [← Ring.senders_append, take_append_drop]

/-- A part of the order has at most the messages of all of it. -/
theorem Ring.count_take_le (ring : Ring) (order : List (ℕ × SyncMessage)) (k q : ℕ) :
    (ring.senders (order.take k)).count q ≤ (ring.senders order).count q := by
  rw [← ring.senders_take order k]
  exact List.Sublist.count_le q (sublist_append_left _ _)

/-- The senders with one more message. -/
theorem Ring.senders_take_succ (hget : order[k]? = some (sender, message)) :
    ring.senders (order.take (k + 1)) =
      ring.senders (order.take k) ++ ring.senders [(sender, message)] := by
  rw [take_add_one, hget, Ring.senders_append]
  rfl

/-- A node that has not got the configuration. -/
structure Idle (ring : Ring) (order : List (ℕ × SyncMessage)) (delivered i : ℕ)
    (node : SyncNode) : Prop where
  schedwrk : node.schedwrk = true → node.myState = .process
  outgoing : node.outgoing = []
  calls : node.calls = []
  delivered : delivered = 0
  count : (ring.senders order).count i = 0

/-- A node that has got it. -/
structure Active (ring : Ring) (order : List (ℕ × SyncMessage)) (delivered i : ℕ)
    (node : SyncNode) : Prop where
  member : i ∈ ring.members
  le : delivered ≤ order.length
  round : ∃ r, AtRound ring.members (ring.senders (order.take delivered)) r ∧
    NodeAt ring i (ring.senders (order.take delivered)) r node
  pending :
    node.outgoing = [] ∧ (ring.senders order).count i = (barriers node.calls).length + 1 ∨
    node.outgoing = [ring.expected i (barriers node.calls).length] ∧
      (ring.senders order).count i = (barriers node.calls).length

/-- At most one message of a node waits. -/
theorem Active.count {delivered : ℕ} (h : Active ring order delivered i node) :
    (barriers node.calls).length ≤ (ring.senders order).count i ∧
      (ring.senders order).count i ≤ (barriers node.calls).length + 1 := by
  have := h.pending
  omega

/-- What is known of a node. -/
structure NodeInv (ring : Ring) (order : List (ℕ × SyncMessage)) (delivered i : ℕ)
    (node : SyncNode) : Prop where
  services : node.services = ring.services i
  idle : node.myRingId ≠ ring.ringId → Idle ring order delivered i node
  active : node.myRingId = ring.ringId → Active ring order delivered i node

/-- What is known of the order. -/
structure OrderInv (ring : Ring) (order : List (ℕ × SyncMessage)) : Prop where
  balanced : Balanced ring.members (ring.senders order)
  content : ∀ (k sender : ℕ) (message : SyncMessage), order[k]? = some (sender, message) →
    message.ringId = ring.ringId →
    message = ring.expected sender ((ring.senders (order.take k)).count sender)

/-- What holds in every state. -/
structure SyncInv (ring : Ring) (s : System) : Prop where
  order : OrderInv ring s.order
  nodes : ∀ i, NodeInv ring s.order (s.delivered i) i (s.nodes i)

/-- Before the ring begins. -/
theorem SyncInv.initial (h : s.Initial ring) : SyncInv ring s where
  order := by
    rw [h.order]
    exact ⟨Balanced.nil, fun k sender message hget => by simp at hget⟩
  nodes := fun i =>
    { services := h.services i
      idle := fun _ => ⟨h.schedwrk i, h.outgoing i, h.calls i, h.delivered i, by
        rw [h.order]
        rfl⟩
      active := fun hringId => absurd hringId (h.ringId i) }

/-- A message of another node or of another ring is put into the order. -/
theorem NodeInv.extend {delivered : ℕ} {last : ℕ × SyncMessage}
    (h : NodeInv ring order delivered i node)
    (hcount : (ring.senders (order ++ [last])).count i = (ring.senders order).count i) :
    NodeInv ring (order ++ [last]) delivered i node where
  services := h.services
  idle := fun hringId =>
    { h.idle hringId with count := hcount.trans (h.idle hringId).count }
  active := fun hringId => by
    obtain ⟨hmember, hle, hround, hpending⟩ := h.active hringId
    refine ⟨hmember, hle.trans (by simp), ?_, ?_⟩
    · rw [take_append_of_le_length hle]
      exact hround
    · rw [hcount]
      exact hpending

/-- Content of the order with one more message. -/
theorem OrderInv.concat (h : OrderInv ring order) {last : ℕ × SyncMessage}
    (hbalanced : Balanced ring.members (ring.senders (order ++ [last])))
    (hlast : last.2.ringId = ring.ringId →
      last.2 = ring.expected last.1 ((ring.senders order).count last.1)) :
    OrderInv ring (order ++ [last]) where
  balanced := hbalanced
  content := fun k sender message hget hringId => by
    rcases Nat.lt_trichotomy k order.length with hlt | heq | hgt
    · rw [getElem?_append_left hlt] at hget
      rw [take_append_of_le_length hlt.le]
      exact h.content k sender message hget hringId
    · subst heq
      rw [getElem?_concat_length] at hget
      cases hget
      rw [take_append_of_le_length le_rfl, take_length]
      exact hlast hringId
    · rw [getElem?_eq_none (by simp; omega)] at hget
      cases hget

/-- Nobody has more messages in the order than services allow. -/
theorem SyncInv.count_le (h : SyncInv ring s) (q : ℕ) :
    (ring.senders s.order).count q ≤ ring.union.length + 1 := by
  by_cases hringId : (s.nodes q).myRingId = ring.ringId
  · have hactive := (h.nodes q).active hringId
    obtain ⟨r, -, hnode⟩ := hactive.round
    have hlength := congrArg List.length hnode.sent
    rw [length_take] at hlength
    have hcount := hactive.count
    omega
  · rw [((h.nodes q).idle hringId).count]
    exact Nat.zero_le _

/-- One node changes. -/
theorem SyncInv.update (h : SyncInv ring s) {i delivered : ℕ} {node : SyncNode}
    (hnode : NodeInv ring s.order delivered i node) :
    SyncInv ring
      { s with
        nodes := update s.nodes i node
        delivered := update s.delivered i delivered } where
  order := h.order
  nodes := fun j => by
    dsimp only
    by_cases hj : j = i
    · subst hj
      rw [update_self, update_self]
      exact hnode
    · rw [update_of_ne hj, update_of_ne hj]
      exact h.nodes j

/-- A node begins the ring. -/
theorem NodeInv.start {delivered : ℕ} (h : NodeInv ring order delivered i node)
    (hmember : i ∈ ring.members) (hringId : node.myRingId ≠ ring.ringId) :
    NodeInv ring order delivered i (node.syncAbort.syncStart ring.members ring.ringId) where
  services := h.services
  idle := fun hne => absurd rfl hne
  active := fun _ => by
    obtain ⟨hschedwrk, houtgoing, hcalls, hdelivered, hcount⟩ := h.idle hringId
    have hcalls' : (node.syncAbort.syncStart ring.members ring.ringId).calls = [] := hcalls
    have hsched : (node.syncAbort.syncStart ring.members ring.ringId).schedwrk = false := by
      change (if node.myState = .process then false else node.schedwrk) = false
      split
      · rfl
      · rename_i hstate
        rw [Bool.eq_false_iff]
        exact fun htrue => hstate (hschedwrk htrue)
    refine ⟨hmember, by rw [hdelivered]; exact Nat.zero_le _, ⟨0, ?_, ?_⟩, .inr ⟨?_, ?_⟩⟩
    · rw [hdelivered]
      exact AtRound.nil (ne_nil_of_mem hmember)
    · rw [hdelivered]
      exact
        { ringId := rfl
          services := h.services
          ids := by
            change ((SyncNode.ownServices node.services).map fun id =>
              (⟨id, false⟩ : ServiceEntry)).map ServiceEntry.serviceId = _
            rw [map_map, h.services]
            change (SyncNode.ownServices (ring.services i)).map id = _
            rw [map_id]
            refine filter_congr fun id hid => ?_
            simp [Ring.heard, Ring.senders, SyncNode.ownServices, mem_range.mp hid]
          activate := fun j entry hentry => by
            obtain ⟨id, -, rfl⟩ := mem_map.mp (mem_of_getElem? hentry)
            simp
          idx := rfl
          flags := fun _ => rfl
          le := Nat.zero_le _
          schedwrk := by
            rw [hsched]
            simp
          sent := by
            rw [hcalls']
            rfl
          le_sent := Nat.zero_le _
          sent_le := by
            rw [hcalls']
            exact Nat.zero_le _
          activated := by
            rw [hcalls']
            rfl
          processed := by
            rw [hcalls']
            rfl
          completed := fun hmem => by
            rw [hcalls'] at hmem
            exact absurd hmem (by simp) }
    · rw [hcalls']
      change node.outgoing ++ [.serviceBuild ring.ringId (SyncNode.ownServices node.services)] =
        [.serviceBuild ring.ringId (SyncNode.ownServices (ring.services i))]
      rw [houtgoing, h.services, nil_append]
    · rw [hcalls', hcount]
      rfl

/-- Senders are members. -/
theorem OrderInv.senders_mem (h : OrderInv ring order) (k : ℕ) :
    ∀ q ∈ ring.senders (order.take k), q ∈ ring.members := by
  intro q hq
  have hmem : q ∈ ring.senders order := by
    rw [← ring.senders_take order k]
    exact mem_append_left _ hq
  obtain ⟨before, after, heq⟩ := append_of_mem hmem
  exact (h.balanced before q after heq).1

/-- A part of the order comes in rounds. -/
theorem OrderInv.balanced_take (h : OrderInv ring order) (k : ℕ) :
    Balanced ring.members (ring.senders (order.take k)) := by
  have hsplit := h.balanced
  rw [← ring.senders_take order k] at hsplit
  exact hsplit.of_append

section

variable {s : System} (h : SyncInv ring s)

include h

/-- A node of the ring delivers a message. -/
theorem SyncInv.deliver (hqsort : Qsort ring.qsort) {i : ℕ}
    (hget : s.order[s.delivered i]? = some (sender, message))
    (hringId : (s.nodes i).myRingId = ring.ringId) :
    NodeInv ring s.order (s.delivered i + 1) i
      ((s.nodes i).syncDeliverFn ring.qsort sender message) := by
  obtain ⟨hmember, -, ⟨r, hround, hnode⟩, hpending⟩ := (h.nodes i).active hringId
  have hlt := (List.getElem?_eq_some_iff.mp hget).1
  have hsenders : ring.senders (s.order.take (s.delivered i + 1)) = _ :=
    Ring.senders_take_succ hget
  by_cases hmessage : message.ringId = ring.ringId
  · rw [Ring.senders_own hmessage] at hsenders
    have hbalanced := h.order.balanced_take (s.delivered i + 1)
    rw [hsenders] at hbalanced
    have hcount := hround.count_next hbalanced
    obtain rfl : message = ring.expected sender r :=
      hcount ▸ h.order.content _ _ _ hget hmessage
    have hbound : ∀ q, (ring.senders (s.order.take (s.delivered i)) ++ [sender]).count q ≤
        (ring.senders s.order).count q := by
      rw [← hsenders]
      exact ring.count_take_le _ _
    have hsent := (hbound i).trans ((h.nodes i).active hringId).count.2
    have hnext : ∃ r', AtRound ring.members
        (ring.senders (s.order.take (s.delivered i)) ++ [sender]) r' ∧
        NodeAt ring i (ring.senders (s.order.take (s.delivered i)) ++ [sender]) r'
          ((s.nodes i).syncDeliverFn ring.qsort sender (ring.expected sender r)) := by
      cases r with
      | zero =>
        exact hnode.serviceBuild hqsort hmember (h.order.senders_mem _) hround hbalanced
      | succ r =>
        refine hnode.barrier hmember (h.order.senders_mem _) hround hbalanced (Nat.succ_pos r) ?_
          hsent
        have hle := (hbound sender).trans (h.count_le sender)
        rw [count_concat, if_pos rfl, hcount] at hle
        omega
    obtain ⟨r', hround', hnode'⟩ := hnext
    obtain ⟨houtgoing, hbarriers⟩ := syncDeliverFn_sendsNothing (s.nodes i) ring.qsort sender
      (ring.expected sender r)
    refine ⟨hnode'.services, fun hne => absurd hnode'.ringId hne, fun _ => ⟨hmember, hlt, ?_, ?_⟩⟩
    · rw [hsenders]
      exact ⟨r', hround', hnode'⟩
    · rw [houtgoing, hbarriers]
      exact hpending
  · rw [Ring.senders_other hmessage, append_nil] at hsenders
    rw [syncDeliverFn_of_ne fun heq => hmessage (heq.symm.trans hringId)]
    refine ⟨(h.nodes i).services, fun hne => absurd hringId hne,
      fun _ => ⟨hmember, hlt, ?_, hpending⟩⟩
    rw [hsenders]
    exact ⟨r, hround, hnode⟩

/-- The scheduled work of a node runs. -/
theorem SyncInv.work {i : ℕ}
    (hschedwrk : (s.nodes i).schedwrk = true) (hringId : (s.nodes i).myRingId = ring.ringId)
    (done : Bool) :
    NodeInv ring s.order (s.delivered i) i ((s.nodes i).schedwrkProcessor done) := by
  obtain ⟨hmember, hle, ⟨r, hround, hnode⟩, hpending⟩ := (h.nodes i).active hringId
  obtain ⟨hnode', hsame | ⟨houtgoing, hlength, hsent⟩⟩ :=
    hnode.work hmember (h.order.senders_mem _) hround hschedwrk done
  · rw [hsame]
    exact h.nodes i
  refine ⟨hnode'.services, fun hne => absurd hnode'.ringId hne,
    fun _ => ⟨hmember, hle, ⟨r, hround, hnode'⟩, .inr ?_⟩⟩
  have hdelivered := (hround.le i hmember).trans (ring.count_take_le _ _ _)
  rw [houtgoing, hlength]
  rcases hpending with ⟨hnil, hcount⟩ | ⟨-, hcount⟩
  · rw [hnil, ← hsent]
    exact ⟨rfl, hcount⟩
  · omega

/-- A message gets its place in the order. -/
theorem SyncInv.place {i : ℕ} {rest : List SyncMessage}
    (houtgoing : (s.nodes i).outgoing = message :: rest) :
    SyncInv ring { s with
      nodes := Function.update s.nodes i { s.nodes i with outgoing := rest }
      order := s.order ++ [(i, message)] } := by
  have hringId : (s.nodes i).myRingId = ring.ringId := by
    by_contra hne
    have := ((h.nodes i).idle hne).outgoing
    rw [houtgoing] at this
    cases this
  obtain ⟨hmember, hle, ⟨r, hround, hnode⟩, hpending⟩ := (h.nodes i).active hringId
  obtain ⟨hout, hcount⟩ : (s.nodes i).outgoing =
      [ring.expected i (barriers (s.nodes i).calls).length] ∧
      (ring.senders s.order).count i = (barriers (s.nodes i).calls).length := by
    rcases hpending with ⟨hnil, -⟩ | hpending
    · rw [houtgoing] at hnil
      cases hnil
    · exact hpending
  rw [houtgoing] at hout
  obtain ⟨rfl, rfl⟩ := List.cons.inj hout
  have hsenders : ring.senders (s.order ++
      [(i, ring.expected i (barriers (s.nodes i).calls).length)]) =
      ring.senders s.order ++ [i] := by
    rw [ring.senders_append, Ring.senders_own (ring.expected_ringId _ _)]
  refine ⟨h.order.concat ?_ fun _ => by rw [hcount], fun j => ?_⟩
  · rw [hsenders]
    refine h.order.balanced.concat hmember fun q hq => ?_
    -- the node has delivered as many messages of everybody as it has sent before
    calc (ring.senders s.order).count i = (barriers (s.nodes i).calls).length := hcount
      _ ≤ r := hnode.sent_le
      _ ≤ (ring.senders (s.order.take (s.delivered i))).count q := hround.le q hq
      _ ≤ (ring.senders s.order).count q := ring.count_take_le _ _ _
  · dsimp only
    by_cases hj : j = i
    · subst hj
      rw [update_self]
      refine ⟨hnode.services, fun hne => absurd hringId hne,
        fun _ => ⟨hmember, hle.trans (by simp), ⟨r, ?_, ?_⟩, .inl ⟨rfl, ?_⟩⟩⟩
      · rw [take_append_of_le_length hle]
        exact hround
      · rw [take_append_of_le_length hle]
        exact { hnode with }
      · rw [hsenders, count_concat, if_pos rfl, hcount]
    · rw [update_of_ne hj]
      refine (h.nodes j).extend ?_
      rw [hsenders, count_concat, if_neg (Ne.symm hj), Nat.add_zero]

/-- A message of another ring is in the order. -/
theorem SyncInv.leftover (hmessage : message.ringId ≠ ring.ringId) :
    SyncInv ring { s with order := s.order ++ [(sender, message)] } := by
  have hsenders : ring.senders (s.order ++ [(sender, message)]) = ring.senders s.order := by
    rw [ring.senders_append, Ring.senders_other hmessage, append_nil]
  refine ⟨h.order.concat ?_ fun heq => absurd heq hmessage, fun j => (h.nodes j).extend ?_⟩
  · rw [hsenders]
    exact h.order.balanced
  · rw [hsenders]

end

/-- Every step keeps the rounds. -/
theorem SyncInv.step (hqsort : Qsort ring.qsort) {s s' : System} {event : Event}
    (h : SyncInv ring s) (hstep : s.step ring event = some s') : SyncInv ring s' := by
  cases event with
  | start i =>
    simp only [System.step, Option.ite_none_right_eq_some] at hstep
    obtain ⟨⟨hmember, hringId⟩, hs⟩ := hstep
    cases hs
    have := h.update ((h.nodes i).start hmember hringId)
    rwa [update_eq_self] at this
  | order _ =>
    simp only [System.step] at hstep
    split at hstep
    · cases hstep
    · rename_i message rest houtgoing
      cases hstep
      exact h.place houtgoing
  | leftover _ _ =>
    simp only [System.step, Option.ite_none_right_eq_some] at hstep
    obtain ⟨hmessage, hs⟩ := hstep
    cases hs
    exact h.leftover hmessage
  | deliver _ =>
    simp only [System.step] at hstep
    split at hstep
    · cases hstep
    · rename_i sender message hget
      rw [Option.ite_none_right_eq_some] at hstep
      obtain ⟨hringId, hs⟩ := hstep
      cases hs
      exact h.update (h.deliver hqsort hget hringId)
  | work _ done =>
    simp only [System.step, Option.ite_none_right_eq_some] at hstep
    obtain ⟨⟨hschedwrk, hringId⟩, hs⟩ := hstep
    cases hs
    have := h.update (h.work hschedwrk hringId done)
    rwa [update_eq_self] at this

/-- What a node has called so far, in terms of the union. -/
structure Walks (ring : Ring) (p : ℕ) (node : SyncNode) : Prop where
  barriers : barriers node.calls <+: ring.union
  processings : processings node.calls <+: ring.union.filter (ring.services p).retrieve
  activations : activations node.calls <+: ring.union.filter (ring.services p).retrieve
  list : node.myRingId = ring.ringId → node.schedwrk = true →
    node.myServiceList.map ServiceEntry.serviceId = ring.union

/-- A part of a list from its start stays one after filtering. -/
theorem filter_take_start (list : List ℕ) (k : ℕ) (f : ℕ → Bool) :
    (list.take k).filter f <+: list.filter f :=
  List.IsPrefix.filter f <| take_prefix k list

/-- What the calls of a node tell. -/
theorem SyncInv.walks (h : SyncInv ring s) (p : ℕ) : Walks ring p (s.nodes p) := by
  by_cases hringId : (s.nodes p).myRingId = ring.ringId
  · obtain ⟨hmember, -, ⟨r, hround, hnode⟩, -⟩ := (h.nodes p).active hringId
    refine ⟨?_, ?_, ?_, fun _ hschedwrk => ?_⟩
    · rw [hnode.sent]
      exact take_prefix _ _
    · rw [hnode.processed]
      exact filter_take_start _ _ _
    · rw [hnode.activated]
      exact filter_take_start _ _ _
    · exact hnode.union hmember (h.order.senders_mem _) hround (hnode.schedwrk.mp hschedwrk).1
  · have hcalls := ((h.nodes p).idle hringId).calls
    refine ⟨?_, ?_, ?_, fun heq => absurd heq hringId⟩
    · rw [hcalls]
      exact nil_prefix
    · rw [hcalls]
      exact nil_prefix
    · rw [hcalls]
      exact nil_prefix

/-- Every member has sent the barriers of the rounds that some node has left behind. -/
theorem SyncInv.barriers_of_round (h : SyncInv ring s) {p q r : ℕ}
    (hround : AtRound ring.members (ring.senders (s.order.take (s.delivered p))) r)
    (hq : q ∈ ring.members) (hr : 0 < r) :
    ∃ k, r ≤ k + 1 ∧ barriers (s.nodes q).calls = ring.union.take k ∧
      processings (s.nodes q).calls = (ring.union.take k).filter (ring.services q).retrieve := by
  have hcount := (hround.le q hq).trans (ring.count_take_le _ _ _)
  by_cases hringId : (s.nodes q).myRingId = ring.ringId
  · have hactive := (h.nodes q).active hringId
    obtain ⟨r', -, hnode⟩ := hactive.round
    exact ⟨_, hcount.trans hactive.count.2, hnode.sent, hnode.processed⟩
  · have := ((h.nodes q).idle hringId).count
    omega

/-- A barrier that is counted was sent. -/
theorem mem_of_barriers {id : ℕ} (hid : id ∈ barriers calls) : .barrier id ∈ calls := by
  obtain ⟨call, hcall, hid⟩ := mem_filterMap.mp hid
  cases call with
  | barrier _ =>
    cases hid
    exact hcall
  | _ => cases hid

/-- A processing that is counted has ended. -/
theorem mem_of_processings {id : ℕ} (hid : id ∈ processings calls) : .processed id ∈ calls := by
  obtain ⟨call, hcall, hid⟩ := mem_filterMap.mp hid
  cases call with
  | processed _ =>
    cases hid
    exact hcall
  | _ => cases hid

/-- An activation is counted. -/
theorem mem_activations {id : ℕ} (hcall : .activate id ∈ calls) : id ∈ activations calls :=
  mem_filterMap.mpr ⟨_, hcall, rfl⟩

/-- A node that has called something is in a round. -/
theorem SyncInv.round_of_call (h : SyncInv ring s) {p : ℕ} {call : SyncCall}
    (hcall : call ∈ (s.nodes p).calls) :
    ∃ r, AtRound ring.members (ring.senders (s.order.take (s.delivered p))) r ∧
      NodeAt ring p (ring.senders (s.order.take (s.delivered p))) r (s.nodes p) := by
  refine ((h.nodes p).active ?_).round
  by_contra hne
  rw [((h.nodes p).idle hne).calls] at hcall
  cases hcall

/-- An activated service has the barriers of all members, which have processed it. -/
theorem SyncInv.activated (h : SyncInv ring s) {p q id : ℕ}
    (hactivate : .activate id ∈ (s.nodes p).calls) (hq : q ∈ ring.members) :
    .barrier id ∈ (s.nodes q).calls ∧
      ((ring.services q).retrieve id = true → .processed id ∈ (s.nodes q).calls) := by
  obtain ⟨r, hround, hnode⟩ := h.round_of_call hactivate
  have hid := mem_activations hactivate
  rw [hnode.activated, mem_filter] at hid
  have hr : 0 < r - 1 := by
    by_contra hzero
    rw [Nat.le_zero.mp (not_lt.mp hzero)] at hid
    exact absurd hid.1 (by simp)
  obtain ⟨k, hk, hbarriers, hprocessings⟩ := h.barriers_of_round hround hq (by omega)
  have hmem : id ∈ ring.union.take k :=
    (take_subset_take_left ring.union (show r - 1 ≤ k by omega)) hid.1
  refine ⟨mem_of_barriers (hbarriers ▸ hmem), fun hretrieve => mem_of_processings ?_⟩
  rw [hprocessings, mem_filter]
  exact ⟨hmem, hretrieve⟩

/-- At the end all members have sent all barriers. -/
theorem SyncInv.completed (h : SyncInv ring s) {p q : ℕ}
    (hcompleted : .completed ∈ (s.nodes p).calls) (hq : q ∈ ring.members) :
    barriers (s.nodes q).calls = ring.union := by
  obtain ⟨r, hround, hnode⟩ := h.round_of_call hcompleted
  have hr := hnode.completed hcompleted
  obtain ⟨k, hk, hbarriers, -⟩ := h.barriers_of_round hround hq (by omega)
  rw [hbarriers]
  exact take_of_length_le (by omega)

/-- In every run of a ring: when a node has activated a service, every member has sent its barrier
for it and has processed it if it has it; all nodes walk the union in its order; and when a node
has reported the end, every member has sent all barriers. As this holds at any time, the barriers
come before the activation. -/
theorem activate_after_barriers (hqsort : Qsort ring.qsort) {s s' : System}
    (hinitial : s.Initial ring) {events : List Event}
    (hrun : run (System.step ring) s events = some s') :
    (∀ p id, .activate id ∈ (s'.nodes p).calls → ∀ q ∈ ring.members,
      .barrier id ∈ (s'.nodes q).calls ∧
        ((ring.services q).retrieve id = true → .processed id ∈ (s'.nodes q).calls)) ∧
    (∀ p, Walks ring p (s'.nodes p)) ∧
    (∀ p, .completed ∈ (s'.nodes p).calls → ∀ q ∈ ring.members,
      barriers (s'.nodes q).calls = ring.union) := by
  have h : SyncInv ring s' :=
    run_invariant (fun _ _ _ hinv hstep => hinv.step hqsort hstep) (SyncInv.initial hinitial) hrun
  exact ⟨fun p id hactivate q hq => h.activated hactivate hq, h.walks,
    fun p hcompleted q hq => h.completed hcompleted hq⟩

/-- Two members, each of them with a service that the other does not have. -/
def pairRing : Ring where
  ringId := ⟨1, 4⟩
  members := [1, 2]
  services := fun i => ⟨fun id => id + 1 == i, fun _ => true⟩
  qsort := List.insertionSort fun a b => a.serviceId ≤ b.serviceId

/-- The two members before the configuration. -/
def pairStart : System where
  nodes := fun i => ⟨pairRing.services i, .servicelistBuild, ⟨0, 0⟩, 0, [], [], false, [], []⟩
  order := []
  delivered := fun _ => 0

/-- The configuration, the service lists and the barriers for the first service. -/
def pairEvents : List Event :=
  [.start 1, .start 2, .order 1, .order 2, .deliver 1, .deliver 1, .work 1 false, .deliver 2,
    .deliver 2, .work 2 true, .order 2, .deliver 1, .work 1 true, .order 1, .deliver 1]

/-- Two nodes before their ring. -/
theorem pairStart_initial : pairStart.Initial pairRing where
  ringId := fun _ => by simp [pairStart, pairRing]
  services := fun _ => rfl
  schedwrk := fun _ hschedwrk => absurd hschedwrk (by simp [pairStart])
  outgoing := fun _ => rfl
  calls := fun _ => rfl
  order := rfl
  delivered := fun _ => rfl

/-- Their lists are sorted. -/
theorem pairRing_qsort : Qsort pairRing.qsort where
  perm := fun list => perm_insertionSort _ list
  sorted := fun list => by
    have : Std.Total fun a b : ServiceEntry => a.serviceId ≤ b.serviceId :=
      ⟨fun a b => Nat.le_total _ _⟩
    have : IsTrans ServiceEntry fun a b => a.serviceId ≤ b.serviceId :=
      ⟨fun a b c => Nat.le_trans⟩
    refine (pairwise_insertionSort _ list).imp fun {a b} hle => ?_
    rw [serviceEntryCompare, if_neg (Nat.not_lt.mpr hle)]

/-- The first member activates its service after the second has sent a barrier for it. -/
theorem activate_after_barriers_pairRing :
    ∃ s', run (System.step pairRing) pairStart pairEvents = some s' ∧
      .activate 0 ∈ (s'.nodes 1).calls ∧ .barrier 0 ∈ (s'.nodes 2).calls :=
  ⟨_, rfl, by decide, ((activate_after_barriers pairRing_qsort pairStart_initial
    (show run (System.step pairRing) pairStart pairEvents = some _ from rfl)).1 1 0
      (by decide) 2 (by decide)).1⟩

/-- The comparison functions for which the C standard promises a sorted array. -/
structure Comparison {α : Type*} (compare : α → α → ℤ) : Prop where
  swap : ∀ a b, compare a b < 0 ↔ 0 < compare b a
  trans : ∀ a b c, compare a b ≤ 0 → compare b c ≤ 0 → compare a c ≤ 0

/-- An insertion sort that moves an element over another one only if it compares smaller. -/
def strictSort {α : Type*} (compare : α → α → ℤ) : List α → List α :=
  List.insertionSort fun a b => ¬ compare b a < 0

/-- The sort does what the C standard asks of `qsort`. -/
theorem strictSort_sorted {α : Type*} {compare : α → α → ℤ} (h : Comparison compare)
    (list : List α) : (strictSort compare list).Pairwise fun a b => compare a b ≤ 0 := by
  have hle : ∀ a b, ¬ compare b a < 0 ↔ compare a b ≤ 0 := fun a b => by
    rw [h.swap b a, not_lt]
  have : Std.Total fun a b => ¬ compare b a < 0 :=
    ⟨fun a b => by rw [hle, hle, ← not_lt, ← h.swap]; omega⟩
  have : IsTrans α fun a b => ¬ compare b a < 0 :=
    ⟨fun a b c => by simpa only [hle] using h.trans a b c⟩
  exact (pairwise_insertionSort _ list).imp fun {a b} => (hle a b).mp

/-- The same two members with a library that sorts in this way. -/
def strictRing : Ring := { pairRing with qsort := strictSort serviceEntryCompare }

/-- Nothing compares smaller with `service_entry_compare`, so the lists stay as the messages have
made them: the first member walks 0, 1 and the second 1, 0. The first activates its service while
the second has not sent a barrier for it. -/
theorem activated_before_barrier :
    Rearranges strictRing.qsort ∧
      (∀ compare : ServiceEntry → ServiceEntry → ℤ, Comparison compare →
        ∀ list, (strictSort compare list).Pairwise fun a b => compare a b ≤ 0) ∧
      ∃ s', run (System.step strictRing) pairStart pairEvents = some s' ∧
        .activate 0 ∈ (s'.nodes 1).calls ∧ .barrier 0 ∉ (s'.nodes 2).calls ∧
        (s'.nodes 1).myServiceList.map ServiceEntry.serviceId = [0, 1] ∧
        (s'.nodes 2).myServiceList.map ServiceEntry.serviceId = [1, 0] :=
  ⟨⟨fun list => perm_insertionSort _ list⟩, fun _ hcompare => strictSort_sorted hcompare,
    _, rfl, by decide, by decide, rfl, rfl⟩

end Corosync.Sync
