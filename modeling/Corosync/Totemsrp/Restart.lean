import Corosync.Totemsrp.RingIds

/-!
# Ring ids across restarts

A node may crash between any two of its effects and is then started again with the sequence
number it has stored last. `memb_state_commit_enter` sends a new commit token before it stores the
ring id, so a crash in between can make the next life of the node create a token with the same
sequence number. Without such a crash, and below the wrap of the number, none is used twice.
-/

namespace Corosync.Totemsrp

open List

/-- The sequence numbers of the commit tokens that were created and sent. -/
def createdSeqs (effects : List Effect) : List ℕ :=
  effects.filterMap fun effect =>
    match effect with
    | .commitToken true _ token => some token.ringId.seq
    | _ => none

/-- What `memb_ring_id_store` leaves in the file. -/
def lastStored (stored : ℕ) (effects : List Effect) : ℕ :=
  effects.foldl (fun stored effect =>
    match effect with
    | .ringIdStore ringId => ringId.seq
    | _ => stored) stored

/-- A node with what survives its crashes. -/
structure Lives where
  node : MembNode
  stored : ℕ
  created : List ℕ

/-- What happens to a node that may crash. -/
inductive LifeEvent where
  | step (event : MembEvent)
  | crash (event : MembEvent) (effects : ℕ)

/-- The effects of a step. -/
def newEffects (node node' : MembNode) : List Effect :=
  node'.effects.drop node.effects.length

/-- Notes effects. -/
def Lives.record (s : Lives) (node : MembNode) (effects : List Effect) : Lives where
  node := node
  stored := lastStored s.stored effects
  created := s.created ++ createdSeqs effects

/-- The node as `main_iface_change_fn` starts it again. -/
def startAgain (node : MembNode) (stored : ℕ) : MembNode :=
  MembNode.start node.config node.myId node.newMessageQueue.size stored
    (Nat.zero_lt_of_lt node.newMessageQueue.bounded)

/-- One step in the lives of a node. -/
def Lives.step (s : Lives) : LifeEvent → Option Lives
  | .step event => (s.node.step event).map fun node => s.record node (newEffects s.node node)
  | .crash event effects => (s.node.step event).map fun node =>
    let taken := (newEffects s.node node).take effects
    s.record (startAgain s.node (lastStored s.stored taken)) taken

/-- A commit token that this node created comes with the storing of its ring id. -/
def Effect.StoredIn (effects : List Effect) : Effect → Prop
  | .commitToken true _ token => Effect.ringIdStore token.ringId ∈ effects
  | _ => True

instance (effects : List Effect) : DecidablePred (Effect.StoredIn effects)
  | .commitToken true _ token =>
    inferInstanceAs (Decidable (Effect.ringIdStore token.ringId ∈ effects))
  | .commitToken false _ _ | .commitEnter _ _ | .ringIdStore _ | .recoveryEnter _ _ =>
    inferInstanceAs (Decidable True)

/-- The effects of `node'` that happened before a crash: they do not end between the sending of a
created commit token and the storing of its ring id, and the next start does not wrap. -/
def CrashOrderly (s : Lives) (effects : ℕ) : Option MembNode → Prop
  | none => True
  | some node =>
    (∀ e ∈ (newEffects s.node node).take effects,
      e.StoredIn ((newEffects s.node node).take effects)) ∧
    lastStored s.stored ((newEffects s.node node).take effects) + 1 < 2 ^ 64

instance (s : Lives) (effects : ℕ) : DecidablePred (CrashOrderly s effects)
  | none => inferInstanceAs (Decidable True)
  | some node => inferInstanceAs (Decidable ((∀ e ∈ (newEffects s.node node).take effects,
      e.StoredIn ((newEffects s.node node).take effects)) ∧
    lastStored s.stored ((newEffects s.node node).take effects) + 1 < 2 ^ 64))

/-- The node does not crash between sending a commit token that it has created and storing the
token's ring id, and no sequence number wraps. -/
def LifeEvent.Orderly (s : Lives) : LifeEvent → Prop
  | .step event => event.NoWrap s.node
  | .crash event effects =>
    event.NoWrap s.node ∧ CrashOrderly s effects (s.node.step event)

instance (s : Lives) : DecidablePred (LifeEvent.Orderly s)
  | .step event =>
    inferInstanceAs (Decidable (event.NoWrap s.node))
  | .crash event effects =>
    inferInstanceAs (Decidable (event.NoWrap s.node ∧ CrashOrderly s effects (s.node.step event)))

/-- Effects that neither send a created token nor store a ring id. -/
def Effect.Unrecorded : Effect → Prop
  | .commitToken created _ _ => created = false
  | .ringIdStore _ => False
  | _ => True

section Effects

variable {node node' : MembNode} {event : MembEvent} {new : List Effect}

/-- Unrecorded effects leave no trace. -/
theorem record_unrecorded (stored : ℕ) (hnew : ∀ e ∈ new, e.Unrecorded) :
    createdSeqs new = [] ∧ lastStored stored new = stored := by
  induction new with
  | nil => exact ⟨rfl, rfl⟩
  | cons e new ih =>
    obtain ⟨hcreated, hstored⟩ := ih fun e he => hnew e (mem_cons_of_mem _ he)
    have he := hnew e mem_cons_self
    cases e with
    | commitEnter _ _ => exact ⟨hcreated, hstored⟩
    | commitToken created _ _ =>
      obtain rfl : created = false := he
      exact ⟨hcreated, hstored⟩
    | ringIdStore _ => exact he.elim
    | recoveryEnter _ _ => exact ⟨hcreated, hstored⟩

/-- The effects of a commit. -/
def commitEffects (old : RingId) (created : Bool) (target : ℕ) (sent : CommitToken) : List Effect :=
  [.commitEnter old sent.ringId, .commitToken created target sent, .ringIdStore sent.ringId]

/-- A step either records nothing and keeps the ring, or commits to a ring with a higher sequence
number. -/
theorem step_newEffects (hseqLe : node.myRingId.seq ≤ node.tokenRingIdSeq)
    (hwrap : event.NoWrap node) (hstep : node.step event = some node') :
    node'.myRingId.seq ≤ node'.tokenRingIdSeq ∧
      (node'.myRingId = node.myRingId ∧ (∀ e ∈ newEffects node node', e.Unrecorded) ∨
        ∃ old created target sent, newEffects node node' = commitEffects old created target sent ∧
          node.myRingId.seq < sent.ringId.seq ∧ node'.myRingId = sent.ringId) := by
  have hnew : ∀ {added}, node'.effects = node.effects ++ added → newEffects node node' = added := by
    intro added heq
    unfold newEffects
    rw [heq, drop_left]
  cases step_outcome hstep with
  | quiet hquiet =>
    have heffects := hnew (hquiet.effects.trans (append_nil _).symm)
    refine ⟨?_, .inl ⟨hquiet.ringId, by rw [heffects]; simp⟩⟩
    rw [hquiet.ringId]
    exact hseqLe.trans hquiet.seqLe
  | create _ before _ hevent hbefore hseq _ hcreate hafter =>
    subst hevent
    obtain ⟨sent, target, hcommits⟩ := commitEnter_commits hcreate
    have hcreated : sent.ringId.seq = before.tokenRingIdSeq + 4 := by
      rw [hcommits.sentRing]
      exact Nat.mod_eq_of_lt (by rw [hseq]; exact hwrap)
    have heffects := hnew (show _ = _ ++ commitEffects before.myRingId true target sent by
      rw [hafter.effects, hcommits.effects, hbefore.effects, commitEffects, hcommits.sentRing])
    refine ⟨?_, .inr ⟨_, _, _, _, heffects, ?_, ?_⟩⟩
    · rw [hafter.ringId, hcommits.ringId, ← hcommits.seq]
      exact hafter.seqLe
    · have hle := hbefore.seqLe
      omega
    · rw [hafter.ringId, hcommits.ringId, hcommits.sentRing]
  | commit _ _ _ hcommit =>
    obtain ⟨sent, target, hcommits⟩ := commitEnter_commits hcommit
    have heffects := hnew (show _ = _ ++ commitEffects node.myRingId false target sent by
      rw [hcommits.effects, commitEffects, hcommits.sentRing])
    refine ⟨?_, .inr ⟨_, _, _, _, heffects, ?_, ?_⟩⟩
    · rw [hcommits.ringId, hcommits.seq]
    · rwa [hcommits.sentRing]
    · rw [hcommits.ringId, hcommits.sentRing]
  | recover _ _ _ _ _ hrecover =>
    obtain ⟨target, hrecovers⟩ := recoveryEnter_recovers hrecover
    refine ⟨?_, .inl ⟨hrecovers.ringId, ?_⟩⟩
    · rw [hrecovers.ringId, hrecovers.seq]
      exact hseqLe
    · rw [hnew hrecovers.effects]
      simp [Effect.Unrecorded]
  | resend token target _ _ heq =>
    have heffects : node'.effects = node.effects ++ [.commitToken false target token] := by rw [heq]
    refine ⟨?_, .inl ⟨by rw [heq], ?_⟩⟩
    · rw [heq]
      exact hseqLe
    · rw [hnew heffects]
      simp [Effect.Unrecorded]

/-- What the part of a step's effects that happened leaves behind: new numbers are above the old
stored one and not above the new one, and there is at most one. -/
theorem taken_effects {stored : ℕ} (hstored : stored ≤ node.myRingId.seq)
    (hseqLe : node.myRingId.seq ≤ node.tokenRingIdSeq) (hwrap : event.NoWrap node)
    (hstep : node.step event = some node') (count : ℕ)
    (htaken : ∀ e ∈ (newEffects node node').take count,
      e.StoredIn ((newEffects node node').take count)) :
    stored ≤ lastStored stored ((newEffects node node').take count) ∧
      (createdSeqs ((newEffects node node').take count) = [] ∨
        ∃ seq, createdSeqs ((newEffects node node').take count) = [seq] ∧ stored < seq ∧
          seq ≤ lastStored stored ((newEffects node node').take count)) := by
  obtain ⟨-, ⟨-, hnew⟩ | ⟨old, created, target, sent, heffects, hlt, -⟩⟩ :=
    step_newEffects hseqLe hwrap hstep
  · have htake : ∀ e ∈ (newEffects node node').take count, e.Unrecorded :=
      fun e he => hnew e (mem_of_mem_take he)
    have hrecord := record_unrecorded stored htake
    exact ⟨hrecord.2.ge, .inl hrecord.1⟩
  · rw [heffects] at htaken ⊢
    match count with
    | 0 => exact ⟨le_rfl, .inl rfl⟩
    | 1 => exact ⟨le_rfl, .inl rfl⟩
    | 2 =>
      -- the token was sent but the ring id was not stored, so this node has not created it
      cases created with
      | false => exact ⟨le_rfl, .inl rfl⟩
      | true =>
        have hmem := htaken (.commitToken true target sent) (by simp [commitEffects])
        simp [Effect.StoredIn, commitEffects] at hmem
    | count + 3 =>
      have hfull : (commitEffects old created target sent).take (count + 3) =
          commitEffects old created target sent := take_of_length_le (by simp [commitEffects])
      rw [hfull]
      have hlast : lastStored stored (commitEffects old created target sent) = sent.ringId.seq :=
        rfl
      rw [hlast]
      refine ⟨by omega, ?_⟩
      cases created with
      | false => exact .inl rfl
      | true => exact .inr ⟨_, rfl, by omega, le_rfl⟩

end Effects

/-- What holds at any time in the lives of a node. -/
structure LivesInv (s : Lives) : Prop where
  nodup : s.created.Nodup
  createdLe : ∀ seq ∈ s.created, seq ≤ s.stored
  storedLe : s.stored ≤ s.node.myRingId.seq
  seqLe : s.node.myRingId.seq ≤ s.node.tokenRingIdSeq

/-- The numbers used stay different when a new one is above the stored one. -/
theorem LivesInv.created {s : Lives} (h : LivesInv s) {new : List ℕ} {stored : ℕ}
    (hle : s.stored ≤ stored)
    (hnew : new = [] ∨ ∃ seq, new = [seq] ∧ s.stored < seq ∧ seq ≤ stored) :
    (s.created ++ new).Nodup ∧ ∀ seq ∈ s.created ++ new, seq ≤ stored := by
  rcases hnew with rfl | ⟨seq, rfl, hlt, hseq⟩
  · rw [append_nil]
    exact ⟨h.nodup, fun seq hmem => (h.createdLe seq hmem).trans hle⟩
  have hfresh : seq ∉ s.created := fun hmem => absurd (h.createdLe seq hmem) (by omega)
  refine ⟨?_, ?_⟩
  · rw [nodup_append]
    refine ⟨h.nodup, nodup_singleton seq, ?_⟩
    rintro a ha b hb rfl
    exact hfresh (mem_singleton.mp hb ▸ ha)
  · intro other hmem
    rcases mem_append.mp hmem with hmem | hmem
    · exact (h.createdLe other hmem).trans hle
    · rw [mem_singleton.mp hmem]
      exact hseq

/-- Every orderly step keeps the ring numbers of the lives apart. -/
theorem LivesInv.step {s s' : Lives} {e : LifeEvent} (h : LivesInv s)
    (hstep : Library.restrict LifeEvent.Orderly Lives.step s e = some s') : LivesInv s' := by
  obtain ⟨horderly, hstep⟩ := Library.restrict_eq_some.mp hstep
  cases e with
  | step _ =>
    obtain ⟨node, hnode, rfl⟩ := Option.map_eq_some_iff.mp hstep
    obtain ⟨hseqLe, hcases⟩ := step_newEffects h.seqLe horderly hnode
    -- the whole list of effects is a part in which every created token is stored
    have htaken : ∀ e ∈ (newEffects s.node node).take (newEffects s.node node).length,
        e.StoredIn ((newEffects s.node node).take (newEffects s.node node).length) := by
      rw [take_length]
      rcases hcases with ⟨-, hnew⟩ | ⟨old, created, target, sent, heffects, -⟩
      · intro effect heffect
        have hun := hnew effect heffect
        cases effect with
        | commitToken created _ _ =>
          obtain rfl : created = false := hun
          trivial
        | _ => trivial
      · rw [heffects]
        intro effect heffect
        simp only [commitEffects, mem_cons, not_mem_nil, or_false] at heffect
        rcases heffect with rfl | rfl | rfl
        · trivial
        · cases created <;> simp [Effect.StoredIn, commitEffects]
        · trivial
    obtain ⟨hle, hnew⟩ := taken_effects h.storedLe h.seqLe horderly hnode _ htaken
    rw [take_length] at hle hnew
    obtain ⟨hnodup, hcreated⟩ := h.created hle hnew
    refine ⟨hnodup, hcreated, ?_, hseqLe⟩
    rcases hcases with ⟨hring, hun⟩ | ⟨old, created, target, sent, heffects, -, hring⟩
    · have hstored := (record_unrecorded s.stored hun).2
      simp only [Lives.record, hstored, hring]
      exact h.storedLe
    · simp only [Lives.record, heffects, hring]
      exact le_rfl
  | crash _ count =>
    obtain ⟨node, hnode, rfl⟩ := Option.map_eq_some_iff.mp hstep
    obtain ⟨hwrap, hcrash⟩ := horderly
    rw [hnode] at hcrash
    obtain ⟨htaken, hlt⟩ := hcrash
    obtain ⟨hle, hnew⟩ := taken_effects h.storedLe h.seqLe hwrap hnode count htaken
    obtain ⟨hnodup, hcreated⟩ := h.created hle hnew
    refine ⟨hnodup, hcreated, ?_, le_rfl⟩
    have hstart : (startAgain s.node
        (lastStored s.stored ((newEffects s.node node).take count))).myRingId.seq =
          lastStored s.stored ((newEffects s.node node).take count) + 1 :=
      Nat.mod_eq_of_lt hlt
    simp only [Lives.record, hstart]
    exact Nat.le_succ _

/-- A node at its first start. -/
def firstLife (config : TotemConfig) (myId queueMax stored : ℕ) (hpos : 0 < queueMax) : Lives where
  node := MembNode.start config myId queueMax stored hpos
  stored := stored
  created := []

/-- In every orderly run of a node through any number of crashes and restarts, the commit tokens
that the node creates and sends have different sequence numbers. -/
theorem created_ring_seqs_nodup {config : TotemConfig} {myId queueMax stored : ℕ}
    {hpos : 0 < queueMax} (hstored : stored + 1 < 2 ^ 64) {events : List LifeEvent} {s : Lives}
    (hrun : Library.run (Library.restrict LifeEvent.Orderly Lives.step)
      (firstLife config myId queueMax stored hpos) events = some s) : s.created.Nodup := by
  have hstart : LivesInv (firstLife config myId queueMax stored hpos) := by
    refine ⟨nodup_nil, by simp [firstLife], ?_, le_rfl⟩
    have hseq : (firstLife config myId queueMax stored hpos).node.myRingId.seq = stored + 1 :=
      Nat.mod_eq_of_lt hstored
    rw [hseq]
    exact Nat.le_succ stored
  exact (Library.run_invariant (fun _ _ _ => LivesInv.step) hstart hrun).nodup

/-- A node forms a ring, crashes after storing its id and forms another one. -/
theorem created_ring_seqs_nodup_twoLives :
    ∃ s, Library.run (Library.restrict LifeEvent.Orderly Lives.step)
        (firstLife ⟨20, 50, 5, 2500⟩ 1 exampleQueueMax 0 exampleQueueMax_pos)
        [.crash (.join (ownJoin 1 1)) 3, .step (.join (ownJoin 1 6))] = some s ∧
      s.created = [5, 10] ∧ s.created.Nodup :=
  ⟨_, rfl, rfl,
    @created_ring_seqs_nodup ⟨20, 50, 5, 2500⟩ 1 exampleQueueMax 0 exampleQueueMax_pos (by decide)
    [.crash (.join (ownJoin 1 1)) 3, .step (.join (ownJoin 1 6))] _ rfl⟩

/-- A node crashes after sending the commit token it has created and before storing the ring id.
Its next life creates a token with the same sequence number. -/
theorem crash_before_store_reuses_seq :
    ∃ s, Library.run Lives.step
        (firstLife ⟨20, 50, 5, 2500⟩ 1 exampleQueueMax 0 exampleQueueMax_pos)
        [.crash (.join (ownJoin 1 1)) 2, .step (.join (ownJoin 1 1))] = some s ∧
      s.created = [5, 5] :=
  ⟨_, rfl, rfl⟩

end Corosync.Totemsrp
