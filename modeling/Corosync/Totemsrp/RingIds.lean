import Corosync.Library.Run
import Corosync.Totemsrp.MembSteps

/-!
# The ring a node recovers on

Any number of nodes exchange commit tokens, which the network may delay, lose and duplicate. A
node that starts a recovery has committed to the very ring of the token: a token that has
collected all its members went through each of them, and a node commits to rings of ever higher
sequence numbers, so it has committed to at most one ring with the token's number.
-/

namespace Corosync.Totemsrp

open Function List

/-- A node has sent a commit token to a target. -/
def MembNode.Sent (node : MembNode) (target : ℕ) (token : CommitToken) : Prop :=
  ∃ created, Effect.commitToken created target token ∈ node.effects

instance (node : MembNode) (target : ℕ) (token : CommitToken) :
    Decidable (node.Sent target token) :=
  inferInstanceAs (Decidable (∃ created, Effect.commitToken created target token ∈ node.effects))

/-- A node has committed to a ring. -/
def MembNode.CommittedTo (node : MembNode) (ringId : RingId) : Prop :=
  ∃ old, Effect.commitEnter old ringId ∈ node.effects

/-- An event at a node of the cluster. A commit token comes from `sender`. -/
structure ClusterEvent where
  node : ℕ
  sender : ℕ
  event : MembEvent

/-- Commit tokens are only received by the node they were sent to, at any time later and any
number of times. Joins, regular tokens, multicast messages and timeouts are arbitrary. -/
def ClusterEvent.Possible (nodes : ℕ → MembNode) : ClusterEvent → Prop
  | ⟨i, sender, .commitToken token⟩ => (nodes sender).Sent i token
  | _ => True

instance (nodes : ℕ → MembNode) : DecidablePred (ClusterEvent.Possible nodes)
  | ⟨i, sender, .commitToken token⟩ => inferInstanceAs (Decidable ((nodes sender).Sent i token))
  | ⟨_, _, .join _⟩ | ⟨_, _, .orfToken _⟩ | ⟨_, _, .mcast _⟩ | ⟨_, _, .mergeDetect _ _⟩
  | ⟨_, _, .tokenTimeout⟩ | ⟨_, _, .consensusTimeout⟩ | ⟨_, _, .tokenRetransmit⟩ =>
    inferInstanceAs (Decidable True)

/-- A step of the cluster. Nodes are numbered by their node ids. -/
def clusterStep (nodes : ℕ → MembNode) (e : ClusterEvent) : Option (ℕ → MembNode) :=
  if e.Possible nodes then
    ((nodes e.node).step e.event).map (Function.update nodes e.node)
  else
    none

/-- All nodes are started with the sequence numbers they have stored. -/
def clusterStart (config : TotemConfig) (queueMax : ℕ) (hpos : 0 < queueMax) (stored : ℕ → ℕ) :
    ℕ → MembNode :=
  fun i => MembNode.start config i queueMax (stored i) hpos

/-- No ring sequence number wraps: a join that may make the node create a commit token leaves
`token_ring_id_seq` clear of `2 ^ 64`. -/
def MembEvent.NoWrap (node : MembNode) : MembEvent → Prop
  | .join received => max node.tokenRingIdSeq received.ringSeq + 4 < 2 ^ 64
  | _ => True

instance (node : MembNode) : DecidablePred (MembEvent.NoWrap node)
  | .join received =>
    inferInstanceAs (Decidable (max node.tokenRingIdSeq received.ringSeq + 4 < 2 ^ 64))
  | .commitToken _ | .orfToken _ | .mcast _ | .mergeDetect _ _ | .tokenTimeout
  | .consensusTimeout | .tokenRetransmit => inferInstanceAs (Decidable True)

/-- The event does not wrap a number at the node it happens at. -/
def ClusterEvent.NoWrap (nodes : ℕ → MembNode) (e : ClusterEvent) : Prop :=
  e.event.NoWrap (nodes e.node)

instance (nodes : ℕ → MembNode) : DecidablePred (ClusterEvent.NoWrap nodes) :=
  fun e => inferInstanceAs (Decidable (e.event.NoWrap (nodes e.node)))

/-- A commit token on its way: the members before its index have committed to its ring, and it
goes to the member at its index or, once complete, to some member. -/
structure OnItsWay (nodes : ℕ → MembNode) (target : ℕ) (token : CommitToken) : Prop where
  nonneg : 0 ≤ token.membIndex
  le : token.membIndex ≤ token.addr.length
  committed : ∀ (j a : ℕ), (j : ℤ) < token.membIndex → token.addr[j]? = some a →
    (nodes a).CommittedTo token.ringId
  next : token.membIndex < token.addr.length →
    token.addr[token.membIndex.toNat]? = some target
  member : target ∈ token.addr

/-- What holds of a node at any time. -/
structure NodeInv (node : MembNode) : Prop where
  seqLe : node.myRingId.seq ≤ node.tokenRingIdSeq
  recovered : ∀ token own, Effect.recoveryEnter token own ∈ node.effects → token = own
  increases : ∀ old new, Effect.commitEnter old new ∈ node.effects → old.seq < new.seq
  history : ∀ ringId, node.CommittedTo ringId →
    ringId.seq < node.myRingId.seq ∨ ringId = node.myRingId
  current : node.membState = .commit → ∃ target token, node.tokenTarget = some target ∧
    node.Sent target token ∧ token.ringId = node.myRingId
  buffer : ∀ token, node.orfTokenRetransmit = some (.commit token) →
    ∃ target, node.tokenTarget = some target ∧ node.Sent target token

/-- What holds of the cluster at any time. -/
structure ClusterInv (nodes : ℕ → MembNode) : Prop where
  myId : ∀ i, (nodes i).myId = i
  node : ∀ i, NodeInv (nodes i)
  onItsWay : ∀ i target token, (nodes i).Sent target token → OnItsWay nodes target token
  repLe : ∀ i target token, (nodes i).Sent target token →
    token.ringId.seq ≤ (nodes token.ringId.rep).myRingId.seq
  sameAddr : ∀ i target token i' target' token', (nodes i).Sent target token →
    (nodes i').Sent target' token' → token.ringId = token'.ringId → token.addr = token'.addr

variable {created : Bool} {token sent : CommitToken} {target : ℕ}

section Node

variable {node node' : MembNode}

/-- A member that starts. -/
theorem NodeInv.start (config : TotemConfig) (myId queueMax stored : ℕ) (hpos : 0 < queueMax) :
    NodeInv (MembNode.start config myId queueMax stored hpos) where
  seqLe := le_rfl
  recovered := fun _ _ hmem => by cases hmem
  increases := fun _ _ hmem => by cases hmem
  history := fun _ ⟨_, hmem⟩ => by cases hmem
  current := fun hstate => by cases hstate
  buffer := fun _ hbuffer => by cases hbuffer

/-- A quiet step. -/
theorem NodeInv.quiet (h : NodeInv node) (hquiet : Quiet node node') : NodeInv node' where
  seqLe := hquiet.ringId ▸ h.seqLe.trans hquiet.seqLe
  recovered := fun token own hmem => h.recovered token own (hquiet.effects ▸ hmem)
  increases := fun old new hmem => h.increases old new (hquiet.effects ▸ hmem)
  history := by
    rintro ringId ⟨old, hmem⟩
    rw [hquiet.ringId]
    exact h.history ringId ⟨old, hquiet.effects ▸ hmem⟩
  current := by
    intro hstate
    obtain ⟨target, token, htarget, ⟨created, hmem⟩, hring⟩ := h.current (hquiet.commit hstate)
    exact ⟨target, token, hquiet.target.trans htarget, ⟨created, hquiet.effects ▸ hmem⟩,
      hring.trans hquiet.ringId.symm⟩
  buffer := by
    intro token hbuffer
    obtain ⟨target, htarget, created, hmem⟩ := h.buffer token (hquiet.buffer token hbuffer)
    exact ⟨target, hquiet.target.trans htarget, created, hquiet.effects ▸ hmem⟩

/-- A commit to a ring with a higher sequence number. -/
theorem NodeInv.commits (h : NodeInv node) (hcommits : Commits node created token sent target node')
    (hlt : node.myRingId.seq < token.ringId.seq) : NodeInv node' := by
  have hsent : node'.Sent target sent := ⟨created, by rw [hcommits.effects]; simp⟩
  refine { seqLe := ?_, recovered := ?_, increases := ?_, history := ?_, current := ?_,
           buffer := ?_ }
  · rw [hcommits.ringId, hcommits.seq]
  · intro token own hmem
    rw [hcommits.effects] at hmem
    exact h.recovered token own (by simpa using hmem)
  · intro old new hmem
    rw [hcommits.effects] at hmem
    rcases mem_append.mp hmem with hmem | hmem
    · exact h.increases old new hmem
    · obtain ⟨rfl, rfl⟩ : old = node.myRingId ∧ new = token.ringId := by simpa using hmem
      exact hlt
  · rintro ringId ⟨old, hmem⟩
    rw [hcommits.effects] at hmem
    rw [hcommits.ringId]
    rcases mem_append.mp hmem with hmem | hmem
    · left
      rcases h.history ringId ⟨old, hmem⟩ with hlower | rfl
      · exact hlower.trans hlt
      · exact hlt
    · right
      have heq : old = node.myRingId ∧ ringId = token.ringId := by simpa using hmem
      exact heq.2
  · intro _
    exact ⟨target, sent, hcommits.target_eq, hsent, hcommits.sentRing.trans hcommits.ringId.symm⟩
  · intro token' hbuffer
    rw [hcommits.buffer] at hbuffer
    obtain rfl := TokenBuffer.commit.inj (Option.some.inj hbuffer)
    exact ⟨target, hcommits.target_eq, hsent⟩

/-- The recovery of the own ring. -/
theorem NodeInv.recovers (h : NodeInv node) (hring : token.ringId = node.myRingId)
    (hrecovers : Recovers node token target node') :
    NodeInv node' := by
  have hsent : node'.Sent target token.numbered := ⟨false, by rw [hrecovers.effects]; simp⟩
  refine { seqLe := ?_, recovered := ?_, increases := ?_, history := ?_, current := ?_,
           buffer := ?_ }
  · rw [hrecovers.ringId, hrecovers.seq]
    exact h.seqLe
  · intro token' own hmem
    rw [hrecovers.effects] at hmem
    rcases mem_append.mp hmem with hmem | hmem
    · exact h.recovered token' own hmem
    · obtain ⟨rfl, rfl⟩ : token' = token.ringId ∧ own = node.myRingId := by simpa using hmem
      exact hring
  · intro old new hmem
    rw [hrecovers.effects] at hmem
    exact h.increases old new (by simpa using hmem)
  · rintro ringId ⟨old, hmem⟩
    rw [hrecovers.effects] at hmem
    rw [hrecovers.ringId]
    exact h.history ringId ⟨old, by simpa using hmem⟩
  · intro hstate
    rw [hrecovers.state] at hstate
    cases hstate
  · intro token' hbuffer
    rw [hrecovers.buffer] at hbuffer
    obtain rfl := TokenBuffer.commit.inj (Option.some.inj hbuffer)
    exact ⟨target, hrecovers.target_eq, hsent⟩

/-- A commit token is sent again. -/
theorem NodeInv.resend (h : NodeInv node) :
    NodeInv { node with effects := node.effects ++ [.commitToken false target token] } where
  seqLe := h.seqLe
  recovered := fun token own hmem => h.recovered token own (by simpa using hmem)
  increases := fun old new hmem => h.increases old new (by simpa using hmem)
  history := fun ringId ⟨old, hmem⟩ => h.history ringId ⟨old, by simpa using hmem⟩
  current := fun hstate =>
    let ⟨target, token, htarget, ⟨created, hmem⟩, hring⟩ := h.current hstate
    ⟨target, token, htarget, ⟨created, mem_append_left _ hmem⟩, hring⟩
  buffer := fun token hbuffer =>
    let ⟨target, htarget, created, hmem⟩ := h.buffer token hbuffer
    ⟨target, htarget, created, mem_append_left _ hmem⟩

end Node

section Cluster

variable {nodes : ℕ → MembNode} {i : ℕ} {node : MembNode}

/-- The members before anything is sent. -/
theorem ClusterInv.start (config : TotemConfig) (queueMax : ℕ) (hpos : 0 < queueMax)
    (stored : ℕ → ℕ) : ClusterInv (clusterStart config queueMax hpos stored) where
  myId := fun _ => rfl
  node := fun i => NodeInv.start config i queueMax (stored i) hpos
  onItsWay := fun _ _ _ ⟨_, hmem⟩ => by cases hmem
  repLe := fun _ _ _ ⟨_, hmem⟩ => by cases hmem
  sameAddr := fun _ _ _ _ _ _ ⟨_, hmem⟩ => by cases hmem

variable {nodes' : ℕ → MembNode}

/-- A token stays on its way when nodes only add to their effects. -/
theorem OnItsWay.mono (h : OnItsWay nodes target token)
    (hmono : ∀ a, ∀ e ∈ (nodes a).effects, e ∈ (nodes' a).effects) :
    OnItsWay nodes' target token where
  nonneg := h.nonneg
  le := h.le
  committed := fun j a hj ha =>
    let ⟨old, hmem⟩ := h.committed j a hj ha
    ⟨old, hmono a _ hmem⟩
  next := h.next
  member := h.member

/-- What a token needs when it is sent in the cluster. -/
structure Sendable (nodes : ℕ → MembNode) (target : ℕ) (token : CommitToken) : Prop where
  onItsWay : OnItsWay nodes target token
  repLe : token.ringId.seq ≤ (nodes token.ringId.rep).myRingId.seq
  sameAddr : ∀ i target' token', (nodes i).Sent target' token' → token'.ringId = token.ringId →
    token'.addr = token.addr

variable {added : List Effect}

/-- One member changes and sends tokens that may be sent. -/
theorem ClusterInv.update (h : ClusterInv nodes) (hid : node.myId = i)
    (hnode : NodeInv node) (heffects : node.effects = (nodes i).effects ++ added)
    (hseq : (nodes i).myRingId.seq ≤ node.myRingId.seq)
    (hadded : ∀ created target token, Effect.commitToken created target token ∈ added →
      Sendable (Function.update nodes i node) target token) :
    ClusterInv (Function.update nodes i node) := by
  have hmono : ∀ a, ∀ e ∈ (nodes a).effects, e ∈ (Function.update nodes i node a).effects := by
    intro a e he
    by_cases ha : a = i
    · subst ha
      rw [update_self, heffects]
      exact mem_append_left _ he
    · rwa [update_of_ne ha]
  have hringLe : ∀ a, (nodes a).myRingId.seq ≤ (Function.update nodes i node a).myRingId.seq := by
    intro a
    by_cases ha : a = i
    · subst ha
      rwa [update_self]
    · rw [update_of_ne ha]
  -- a token sent now was sent before or is among the added effects
  have hsent : ∀ a target token, (Function.update nodes i node a).Sent target token →
      (nodes a).Sent target token ∨ Sendable (Function.update nodes i node) target token := by
    rintro a target token ⟨created, hmem⟩
    by_cases ha : a = i
    · subst ha
      rw [update_self, heffects] at hmem
      rcases mem_append.mp hmem with hmem | hmem
      · exact .inl ⟨created, hmem⟩
      · exact .inr (hadded created target token hmem)
    · rw [update_of_ne ha] at hmem
      exact .inl ⟨created, hmem⟩
  refine { myId := ?_, node := ?_, onItsWay := ?_, repLe := ?_, sameAddr := ?_ }
  · intro a
    by_cases ha : a = i
    · subst ha
      rw [update_self, hid]
    · rw [update_of_ne ha, h.myId]
  · intro a
    by_cases ha : a = i
    · subst ha
      rwa [update_self]
    · rw [update_of_ne ha]
      exact h.node a
  · intro a target token hmem
    rcases hsent a target token hmem with hbefore | hnew
    · exact (h.onItsWay a target token hbefore).mono hmono
    · exact hnew.onItsWay
  · intro a target token hmem
    rcases hsent a target token hmem with hbefore | hnew
    · exact (h.repLe a target token hbefore).trans (hringLe _)
    · exact hnew.repLe
  · intro a target token a' target' token' hmem hmem' hring
    rcases hsent a target token hmem with hbefore | hnew
    · rcases hsent a' target' token' hmem' with hbefore' | hnew'
      · exact h.sameAddr a target token a' target' token' hbefore hbefore' hring
      · exact hnew'.sameAddr a target token hmem hring
    · exact (hnew.sameAddr a' target' token' hmem' hring.symm).symm

/-- A quiet step of one member. -/
theorem ClusterInv.quiet (h : ClusterInv nodes) (hquiet : Quiet (nodes i) node) :
    ClusterInv (Function.update nodes i node) :=
  h.update (hquiet.myId.trans (h.myId i)) ((h.node i).quiet hquiet)
    (hquiet.effects.trans (append_nil _).symm) (by rw [hquiet.ringId])
    fun _ _ _ hmem => by cases hmem

/-- The next member writes its entry and sends the token on. -/
theorem OnItsWay.commits (hcommits : Commits (nodes i) created token sent target node)
    (hcommitted : ∀ (j a : ℕ), (j : ℤ) < token.membIndex → token.addr[j]? = some a →
      (nodes a).CommittedTo token.ringId)
    (hhere : token.addr[token.membIndex.toNat]? = some i) :
    OnItsWay (Function.update nodes i node) target sent := by
  have hnonneg := hcommits.indexNonneg
  have hle := hcommits.indexLe
  have hself : (Function.update nodes i node i).CommittedTo sent.ringId := by
    rw [update_self, hcommits.sentRing]
    exact ⟨(nodes i).myRingId, by rw [hcommits.effects]; simp⟩
  refine { nonneg := ?_, le := ?_, committed := ?_, next := ?_, member := ?_ }
  · rw [hcommits.sentIndex]
    omega
  · rw [hcommits.sentIndex, hcommits.sentAddr]
    exact hle
  · intro j a hj ha
    rw [hcommits.sentIndex] at hj
    rw [hcommits.sentAddr] at ha
    by_cases hlast : (j : ℤ) = token.membIndex
    · rw [← hlast, Int.toNat_natCast, ha] at hhere
      cases hhere
      exact hself
    · by_cases ha' : a = i
      · subst ha'
        exact hself
      · rw [update_of_ne ha', hcommits.sentRing]
        exact hcommitted j a (by omega) ha
  · intro hlt
    rw [hcommits.sentIndex, hcommits.sentAddr] at hlt ⊢
    have hnext := hcommits.next
    rwa [Int.emod_eq_of_lt (by omega) hlt] at hnext
  · rw [hcommits.sentAddr]
    exact mem_of_getElem? hcommits.next

section

variable (h : ClusterInv nodes)

include h

/-- A commit keeps the invariant when the token it sends is sendable. -/
theorem ClusterInv.commits (hcommits : Commits (nodes i) created token sent target node)
    (hlt : (nodes i).myRingId.seq < token.ringId.seq)
    (hcommitted : ∀ (j a : ℕ), (j : ℤ) < token.membIndex → token.addr[j]? = some a →
      (nodes a).CommittedTo token.ringId)
    (hhere : token.addr[token.membIndex.toNat]? = some i)
    (hrep : token.ringId.rep = i ∨ token.ringId.seq ≤ (nodes token.ringId.rep).myRingId.seq)
    (haddr : ∀ k target' token', (nodes k).Sent target' token' → token'.ringId = token.ringId →
      token'.addr = token.addr) : ClusterInv (Function.update nodes i node) := by
  refine h.update (hcommits.myId.trans (h.myId i)) ((h.node i).commits hcommits hlt)
    hcommits.effects (by rw [hcommits.ringId]; exact hlt.le) ?_
  intro created' target' token' hmem
  obtain ⟨rfl, rfl, rfl⟩ : created' = created ∧ target' = target ∧ token' = sent := by
    simpa using hmem
  refine ⟨OnItsWay.commits hcommits hcommitted hhere, ?_, ?_⟩
  · rw [hcommits.sentRing]
    by_cases hown : token.ringId.rep = i
    · rw [hown, update_self, hcommits.ringId]
    · rw [update_of_ne hown]
      exact hrep.resolve_left hown
  · rintro k other token'' ⟨c, hin⟩ hring
    rw [hcommits.sentRing] at hring
    rw [hcommits.sentAddr]
    by_cases hk : k = i
    · subst hk
      rw [update_self, hcommits.effects] at hin
      rcases mem_append.mp hin with hin | hin
      · exact haddr k other token'' ⟨c, hin⟩ hring
      · obtain ⟨-, -, rfl⟩ : c = created' ∧ other = target' ∧ token'' = token' := by
          simpa using hin
        exact hcommits.sentAddr
    · rw [update_of_ne hk] at hin
      exact haddr k other token'' ⟨c, hin⟩ hring

/-- The lowest member creates a commit token. -/
theorem ClusterInv.create (hfirst : LowestFirst (nodes i))
    (hwrap : (nodes i).tokenRingIdSeq + 4 < 2 ^ 64) (hcreate : (nodes i).commitCreate = some node) :
    ClusterInv (Function.update nodes i node) := by
  obtain ⟨sent, target, hcommits⟩ := commitEnter_commits hcreate
  have hseq : (membStateCommitTokenCreate (nodes i).toInstance (nodes i).tokenRingIdSeq).ringId =
      ⟨i, (nodes i).tokenRingIdSeq + 4⟩ := by
    simp only [membStateCommitTokenCreate, Nat.mod_eq_of_lt hwrap, h.myId i]
  have hle := (h.node i).seqLe
  refine h.commits hcommits ?_ ?_ ?_ (.inl (by rw [hseq])) ?_
  · rw [hseq]
    dsimp only
    omega
  · intro j a hj
    exact absurd hj (by simp [membStateCommitTokenCreate])
  · unfold LowestFirst at hfirst
    rw [h.myId i, head?_eq_getElem?] at hfirst
    exact hfirst
  · -- a representative has not yet sent a token of this ring
    intro k target' token' hsent hring
    have hrep := h.repLe k target' token' hsent
    rw [hring, hseq] at hrep
    dsimp only at hrep
    omega

variable {sender : ℕ}

/-- A member commits to a token. -/
theorem ClusterInv.receive (hsent : (nodes sender).Sent i token)
    (hlt : (nodes i).myRingId.seq < token.ringId.seq)
    (hcommit : (nodes i).commitEnter false token = some node) :
    ClusterInv (Function.update nodes i node) := by
  obtain ⟨sent, target, hcommits⟩ := commitEnter_commits hcommit
  have hway := h.onItsWay sender i token hsent
  refine h.commits hcommits hlt hway.committed (hway.next ?_) (.inr (h.repLe sender i token hsent))
    fun k target' token' hother hring =>
      h.sameAddr k target' token' sender i token hother hsent hring
  have := hcommits.indexLe
  omega

/-- A node in COMMIT that gets a complete token with its sequence number has committed to the
token's ring. -/
theorem ClusterInv.ringId_eq (hsent : (nodes sender).Sent i token)
    (hseq : token.ringId.seq = (nodes i).myRingId.seq)
    (hindex : token.membIndex = token.addr.length) : token.ringId = (nodes i).myRingId := by
  have hway := h.onItsWay sender i token hsent
  obtain ⟨j, hj⟩ := List.getElem?_of_mem hway.member
  have hlt : j < token.addr.length := (List.getElem?_eq_some_iff.mp hj).1
  have hcommitted := hway.committed j i (by omega) hj
  rcases (h.node i).history token.ringId hcommitted with hlower | heq
  · omega
  · exact heq

/-- A node that keeps its ring sends a token on that was sent before, with its members and index
unchanged. -/
theorem ClusterInv.forward {receiver : ℕ} (hsent : (nodes sender).Sent receiver token)
    (hring : sent.ringId = token.ringId) (haddr : sent.addr = token.addr)
    (hindex : sent.membIndex = token.membIndex) (hmember : target ∈ token.addr)
    (hnext : token.membIndex < token.addr.length → token.addr[token.membIndex.toNat]? = some target)
    (hid : node.myId = i) (hnode : NodeInv node) (hsame : node.myRingId = (nodes i).myRingId)
    (heffects : node.effects = (nodes i).effects ++ added)
    (honly : ∀ created other token', Effect.commitToken created other token' ∈ added →
      other = target ∧ token' = sent) : ClusterInv (Function.update nodes i node) := by
  have hway := h.onItsWay sender receiver token hsent
  refine h.update hid hnode heffects (by rw [hsame]) ?_
  intro created other token' hmem
  obtain ⟨rfl, rfl⟩ := honly created other token' hmem
  have hcommitted : ∀ (j a : ℕ), (j : ℤ) < token'.membIndex → token'.addr[j]? = some a →
      (Function.update nodes i node a).CommittedTo token'.ringId := by
    intro j a hj ha
    rw [hindex] at hj
    rw [haddr] at ha
    rw [hring]
    obtain ⟨old, hold⟩ := hway.committed j a hj ha
    by_cases hai : a = i
    · subst hai
      rw [update_self]
      exact ⟨old, by rw [heffects]; exact mem_append_left _ hold⟩
    · rw [update_of_ne hai]
      exact ⟨old, hold⟩
  refine ⟨⟨hindex ▸ hway.nonneg, by rw [hindex, haddr]; exact hway.le, hcommitted,
    by rw [hindex, haddr]; exact hnext, haddr ▸ hmember⟩, ?_, ?_⟩
  · have hle := h.repLe sender receiver token hsent
    rw [hring]
    by_cases hown : token.ringId.rep = i
    · rw [hown] at hle ⊢
      rwa [update_self, hsame]
    · rwa [update_of_ne hown]
  · rintro k target' token'' ⟨c, hin⟩ heq
    rw [haddr]
    by_cases hk : k = i
    · subst hk
      rw [update_self, heffects] at hin
      rcases mem_append.mp hin with hin | hin
      · exact h.sameAddr k target' token'' sender receiver token ⟨c, hin⟩ hsent (heq.trans hring)
      · obtain ⟨rfl, rfl⟩ := honly c target' token'' hin
        exact haddr
    · rw [update_of_ne hk] at hin
      exact h.sameAddr k target' token'' sender receiver token ⟨c, hin⟩ hsent (heq.trans hring)

/-- The token comes back and the member recovers. -/
theorem ClusterInv.recover (hsent : (nodes sender).Sent i token)
    (hstate : (nodes i).membState = .commit)
    (hseq : token.ringId.seq = (nodes i).myRingId.seq)
    (hindex : token.membIndex = token.addr.length)
    (hrecover : (nodes i).recoveryEnter token = some node) :
    ClusterInv (Function.update nodes i node) := by
  have hring := h.ringId_eq hsent hseq hindex
  obtain ⟨target, hrecovers⟩ := recoveryEnter_recovers hrecover
  -- the target is the one of the node's own commit, hence a member of the same ring
  obtain ⟨own, ownToken, hown, hownSent, hownRing⟩ := (h.node i).current hstate
  rw [hrecovers.target_before] at hown
  cases hown
  have haddr : ownToken.addr = token.addr :=
    h.sameAddr i target ownToken sender i token hownSent hsent (hownRing.trans hring.symm)
  have hmember : target ∈ token.addr := haddr ▸ (h.onItsWay i target ownToken hownSent).member
  refine h.forward hsent (show token.numbered.ringId = token.ringId from rfl) rfl rfl hmember
    (fun hlt => absurd hindex hlt.ne) (hrecovers.myId.trans (h.myId i))
    ((h.node i).recovers hring hrecovers) hrecovers.ringId hrecovers.effects ?_
  intro created other token' hmem
  have heq : created = false ∧ other = target ∧ token' = token.numbered := by simpa using hmem
  exact heq.2

/-- A member sends its token again. -/
theorem ClusterInv.resend (hbuffer : (nodes i).orfTokenRetransmit = some (.commit token))
    (htarget : (nodes i).tokenTarget = some target) :
    ClusterInv (Function.update nodes i { nodes i with
      effects := (nodes i).effects ++ [.commitToken false target token] }) := by
  obtain ⟨own, hown, hsent⟩ := (h.node i).buffer token hbuffer
  rw [htarget] at hown
  cases hown
  have hway := h.onItsWay i target token hsent
  refine h.forward hsent (show token.ringId = token.ringId from rfl) rfl rfl hway.member hway.next
    (h.myId i)
    (h.node i).resend rfl rfl ?_
  intro created other token' hmem
  have heq : created = false ∧ other = target ∧ token' = token := by simpa using hmem
  exact heq.2

end

/-- Every step of the cluster below the wrap keeps the invariant. -/
theorem ClusterInv.step {e : ClusterEvent} (h : ClusterInv nodes)
    (hstep : Library.restrict ClusterEvent.NoWrap clusterStep nodes e =
      some nodes') : ClusterInv nodes' := by
  obtain ⟨hwrap, hstep⟩ := Library.restrict_eq_some.mp hstep
  obtain ⟨i, sender, event⟩ := e
  obtain ⟨hpossible, hstep⟩ := Option.ite_none_right_eq_some.mp hstep
  obtain ⟨node, hnode, rfl⟩ := Option.map_eq_some_iff.mp hstep
  cases step_outcome hnode with
  | quiet hquiet => exact h.quiet hquiet
  | create join before after hevent hbefore hseq hfirst hcreate hafter =>
    obtain rfl : event = .join join := hevent
    have hbeforeInv := h.quiet hbefore
    -- the creation happens at the node as the join has left it
    have hself : Function.update nodes i before i = before := update_self ..
    have hafterInv : ClusterInv (Function.update (Function.update nodes i before) i after) := by
      refine hbeforeInv.create ?_ ?_ ?_
      · rw [hself]
        exact hfirst
      · rw [hself, hseq]
        exact hwrap
      · rw [hself]
        exact hcreate
    rw [update_idem] at hafterInv
    have hlast := @ClusterInv.quiet (Function.update nodes i after) i node hafterInv
      (by rw [update_self]; exact hafter)
    rwa [update_idem] at hlast
  | commit token hevent hlt hcommit =>
    obtain rfl : event = .commitToken token := hevent
    exact h.receive hpossible hlt hcommit
  | recover token hevent hstate hseq hindex hrecover =>
    obtain rfl : event = .commitToken token := hevent
    exact h.recover hpossible hstate hseq hindex hrecover
  | resend _ _ hbuffer htarget heq =>
    subst heq
    exact h.resend hbuffer htarget

end Cluster

/-- Whatever nodes start with whatever stored sequence numbers, and however joins, commit tokens,
messages and timeouts come, as long as no ring sequence number wraps: every recovery is on the ring
that the node has committed to, and every commit increases the ring's sequence number. -/
theorem recovery_on_committed_ring {config : TotemConfig} {queueMax : ℕ} {hpos : 0 < queueMax}
    {stored : ℕ → ℕ} {events : List ClusterEvent} {nodes : ℕ → MembNode}
    (hrun : Library.run (Library.restrict ClusterEvent.NoWrap clusterStep)
      (clusterStart config queueMax hpos stored) events = some nodes) (i : ℕ) :
    (∀ token own, Effect.recoveryEnter token own ∈ (nodes i).effects → token = own) ∧
      ∀ old new, Effect.commitEnter old new ∈ (nodes i).effects → old.seq < new.seq := by
  have hinv : ClusterInv nodes :=
    Library.run_invariant (fun _ _ _ => ClusterInv.step)
      (ClusterInv.start config queueMax hpos stored) hrun
  exact ⟨(hinv.node i).recovered, (hinv.node i).increases⟩

section Examples

/-- The join that a node alone in its list sends and receives itself. -/
def ownJoin (nodeid ringSeq : ℕ) : MembJoin where
  nodeid := nodeid
  systemFrom := nodeid
  procList := [nodeid]
  failedList := []
  ringSeq := ringSeq

/-- Node 1 forms a ring of its own: it receives its join, then its commit token comes round. -/
def loneRing : List ClusterEvent :=
  [⟨1, 1, .join (ownJoin 1 1)⟩,
    ⟨1, 1, .commitToken
      { tokenSeq := 1
        ringId := ⟨1, 5⟩
        membIndex := 1
        addr := [1]
        membList := [⟨⟨1, 1⟩, 0, 0, true⟩] }⟩]

/-- The nodes of the examples. -/
def loneStart (stored : ℕ) : ℕ → MembNode :=
  clusterStart ⟨20, 50, 5, 2500⟩ exampleQueueMax exampleQueueMax_pos fun _ => stored

/-- Node 1 enters the recovery of the ring it has formed. -/
theorem recovery_on_committed_ring_loneRing :
    ∃ nodes, Library.run (Library.restrict ClusterEvent.NoWrap clusterStep)
        (loneStart 0) loneRing = some nodes ∧
      Effect.recoveryEnter ⟨1, 5⟩ ⟨1, 5⟩ ∈ (nodes 1).effects ∧
      ((∀ token own, Effect.recoveryEnter token own ∈ (nodes 1).effects → token = own) ∧
        ∀ old new, Effect.commitEnter old new ∈ (nodes 1).effects → old.seq < new.seq) :=
  ⟨_, rfl, by decide,
    @recovery_on_committed_ring ⟨20, 50, 5, 2500⟩ exampleQueueMax exampleQueueMax_pos (fun _ => 0)
      loneRing _ rfl 1⟩

/-- A node that is started with the last but one sequence number commits to a ring with a lower
one. -/
theorem wrapped_ring_seq_decreases :
    ∃ nodes, Library.run clusterStep (loneStart (2 ^ 64 - 2))
        [⟨1, 1, .join (ownJoin 1 (2 ^ 64 - 1))⟩] = some nodes ∧
      Effect.commitEnter ⟨1, 2 ^ 64 - 1⟩ ⟨1, 3⟩ ∈ (nodes 1).effects :=
  ⟨_, rfl, by decide⟩

end Examples

end Corosync.Totemsrp
