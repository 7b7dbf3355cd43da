import Corosync.Totemsrp.Membership
import Corosync.Totemsrp.VisitFlow

/-!
# What a membership step can do

Most of what happens to a node leaves its ring id and its commit tokens alone. The steps that do
not are: the creation of a commit token, the commit to a received token, the start of a recovery
and the retransmission of a commit token.
-/

namespace Corosync.Totemsrp

open Option MembNode

/-- What stays of an instance as far as commit tokens are concerned. -/
structure Stays (inst inst' : Instance) : Prop where
  myId : inst'.myId = inst.myId
  ringId : inst'.myRingId = inst.myRingId
  commit : inst'.membState = .commit → inst.membState = .commit
  buffer : ∀ token, inst'.orfTokenRetransmit = some (.commit token) →
    inst.orfTokenRetransmit = some (.commit token)

section Stays

variable {inst inst' : Instance} {token : OrfToken}

/-- Nothing happens. -/
theorem Stays.refl (inst : Instance) : Stays inst inst :=
  ⟨rfl, rfl, id, fun _ => id⟩

/-- Two steps of a member that stays. -/
theorem Stays.trans {inst'' : Instance} (hfirst : Stays inst inst') (hsecond : Stays inst' inst'') :
    Stays inst inst'' where
  myId := hsecond.myId.trans hfirst.myId
  ringId := hsecond.ringId.trans hfirst.ringId
  commit := fun h => hfirst.commit (hsecond.commit h)
  buffer := fun token h => hfirst.buffer token (hsecond.buffer token h)

/-- A member that gathers stays on its ring. -/
theorem Stays.gatherEnter (inst : Instance) : Stays inst inst.membStateGatherEnter :=
  ⟨rfl, rfl, fun h => (by cases h), fun _ => id⟩

/-- Handlers that keep the token stay. -/
theorem Keeps.stays (h : Keeps inst inst') : Stays inst inst' where
  myId := h.myId
  ringId := h.ringId
  commit := h.commit
  buffer := fun token hbuffer => by rwa [h.buffer] at hbuffer

/-- The token handler stays on its ring. -/
theorem messageHandlerOrfToken_stays (hhandle : messageHandlerOrfToken inst token = some inst') :
    Stays inst inst' := by
  obtain ⟨-, hkeeps⟩ | ⟨-, messages, hvisits⟩ := messageHandlerOrfToken_cases hhandle
  · exact hkeeps.stays
  · refine ⟨hvisits.myId, hvisits.ringId, hvisits.commit, fun commit hbuffer => ?_⟩
    rcases hvisits.outcome with ⟨-, -, hsame⟩ | ⟨-, next, hnext, -⟩
    · exact hsame ▸ hbuffer
    · cases hnext.symm.trans hbuffer

end Stays

/-- A change of a node that neither commits nor sends a commit token. -/
structure Quiet (node node' : MembNode) : Prop extends
    Stays node.toInstance node'.toInstance where
  seqLe : node.tokenRingIdSeq ≤ node'.tokenRingIdSeq
  target : node'.tokenTarget = node.tokenTarget
  effects : node'.effects = node.effects

/-- The node is the lowest of the members a new ring would have. -/
def LowestFirst (node : MembNode) : Prop :=
  (node.tokenMemb.insertionSort (· ≤ ·)).head? = some node.myId

section Quiet

variable {node node' : MembNode}

/-- Nothing happens. -/
theorem Quiet.refl (node : MembNode) : Quiet node node :=
  ⟨Stays.refl _, le_rfl, rfl, rfl⟩

/-- Two quiet steps. -/
theorem Quiet.trans {node'' : MembNode} (hfirst : Quiet node node') (hsecond : Quiet node' node'') :
    Quiet node node'' where
  toStays := hfirst.toStays.trans hsecond.toStays
  seqLe := hfirst.seqLe.trans hsecond.seqLe
  target := hsecond.target.trans hfirst.target
  effects := hsecond.effects.trans hfirst.effects

/-- Entering the gather state is quiet. -/
theorem Quiet.gatherEnter (h : Quiet node node') : Quiet node node'.gatherEnter :=
  h.trans ⟨Stays.gatherEnter _, le_rfl, rfl, rfl⟩

/-- The end of `memb_join_process` is quiet. -/
theorem Quiet.joinProcessOut (node : MembNode) : Quiet node node.joinProcessOut := by
  unfold MembNode.joinProcessOut
  split
  · exact (Quiet.refl node).gatherEnter
  · exact Quiet.refl node

/-- A node that finds itself lowest is the first of the sorted members. -/
theorem lowestFirst_of_lowestInConfig (hlowest : node.lowestInConfig = some true) :
    LowestFirst node := by
  unfold lowestInConfig at hlowest
  unfold LowestFirst
  cases hmemb : node.tokenMemb with
  | nil => simp [hmemb] at hlowest
  | cons first rest =>
    simp only [hmemb, some.injEq, beq_iff_eq] at hlowest
    have hmem : node.myId ∈ first :: rest := by
      rw [← hlowest]
      exact Library.keepBest_mem _ _ _
    have hle : ∀ addr ∈ first :: rest, node.myId ≤ addr := by
      rw [← hlowest]
      exact @Library.rank_keepBest_le ℕ ℕ _ _ id (fun _ => True) _ _
        (fun x y _ _ => by simp) trivial fun _ _ => trivial
    cases hsorted : (first :: rest).insertionSort (· ≤ ·) with
    | nil =>
      have hlength := List.length_insertionSort (· ≤ ·) (first :: rest)
      rw [hsorted] at hlength
      simp at hlength
    | cons head _ =>
      have hperm := List.perm_insertionSort (· ≤ ·) (first :: rest)
      have hpairwise := List.pairwise_insertionSort (· ≤ ·) (first :: rest)
      rw [hsorted] at hperm hpairwise
      have hhead : node.myId ≤ head := hle head (hperm.mem_iff.mp List.mem_cons_self)
      have hback : head ≤ node.myId := by
        rcases List.mem_cons.mp (hperm.mem_iff.mpr hmem) with heq | htail
        · exact heq.ge
        · exact (List.pairwise_cons.mp hpairwise).1 _ htail
      rw [List.head?_cons, le_antisymm hback hhead]

/-- A join message is handled quietly, or the member creates a commit token. -/
theorem joinProcess_outcome {join : MembJoin} (hprocess : node.joinProcess join = some node') :
    Quiet node node' ∨ ∃ before, Quiet node before ∧
      before.tokenRingIdSeq = node.tokenRingIdSeq ∧ LowestFirst before ∧
      before.commitCreate = some node' := by
  unfold joinProcess at hprocess
  split at hprocess
  · obtain ⟨agreed, -, hrest⟩ := bind_eq_some_iff.mp hprocess
    set noted := if join.nodeid = leaveDummyNodeid then node
      else node.consensusSet join.systemFrom with hnoted
    have hquiet : Quiet node noted := by
      rw [hnoted]
      split
      · exact Quiet.refl node
      · exact ⟨Stays.refl _, le_rfl, rfl, rfl⟩
    have hseq : noted.tokenRingIdSeq = node.tokenRingIdSeq := by
      rw [hnoted]
      split <;> rfl
    split at hrest
    · refine .inr ⟨{ noted with
        failedToRecv := false, myProcList := [noted.myId], myFailedList := [] },
        ?_, hseq, rfl, hrest⟩
      exact hquiet.trans { Quiet.refl _ with }
    split at hrest
    · obtain ⟨lowest, hlowest, hend⟩ := bind_eq_some_iff.mp hrest
      cases lowest with
      | true => exact .inr ⟨noted, hquiet, hseq, lowestFirst_of_lowestInConfig hlowest, hend⟩
      | false =>
        cases hend
        exact .inl (hquiet.trans (Quiet.joinProcessOut noted))
    · cases hrest
      exact .inl (hquiet.trans (Quiet.joinProcessOut noted))
  · left
    split at hprocess
    · cases hprocess
      exact Quiet.joinProcessOut node
    split at hprocess
    · cases hprocess
      exact Quiet.joinProcessOut node
    · cases hprocess
      exact Quiet.gatherEnter { Quiet.refl node with }

/-- What a received join can do: at most one commit token is created. -/
theorem messageHandlerMembJoin_outcome {join : MembJoin}
    (hhandle : node.messageHandlerMembJoin join = some node') :
    Quiet node node' ∨ ∃ before after, Quiet node before ∧
      before.tokenRingIdSeq = max node.tokenRingIdSeq join.ringSeq ∧ LowestFirst before ∧
      before.commitCreate = some after ∧ Quiet after node' := by
  set raised : MembNode := { node with tokenRingIdSeq := max node.tokenRingIdSeq join.ringSeq }
    with hraised
  have hquiet : Quiet node raised := ⟨Stays.refl _, le_max_left _ _, rfl, rfl⟩
  -- every branch is the join process, followed by quiet changes
  have hfollowed : ∀ processed, raised.joinProcess join = some processed →
      Quiet processed node' → Quiet node node' ∨ ∃ before after, Quiet node before ∧
        before.tokenRingIdSeq = max node.tokenRingIdSeq join.ringSeq ∧ LowestFirst before ∧
        before.commitCreate = some after ∧ Quiet after node' := by
    intro processed hprocess hend
    rcases joinProcess_outcome hprocess with hsilent | ⟨before, hbefore, hseq, hfirst, hcreate⟩
    · exact .inl ((hquiet.trans hsilent).trans hend)
    · exact .inr ⟨before, processed, hquiet.trans hbefore, hseq, hfirst, hcreate, hend⟩
  unfold messageHandlerMembJoin at hhandle
  dsimp only at hhandle
  split at hhandle
  · split at hhandle
    · cases hhandle
      exact .inl hquiet
    · exact hfollowed node' hhandle (Quiet.refl node')
  · exact hfollowed node' hhandle (Quiet.refl node')
  · split at hhandle
    · obtain ⟨processed, hprocess, rfl⟩ := map_eq_some_iff.mp hhandle
      exact hfollowed processed hprocess (Quiet.refl processed).gatherEnter
    · cases hhandle
      exact .inl hquiet
  · split at hhandle
    · obtain ⟨processed, hprocess, rfl⟩ := map_eq_some_iff.mp hhandle
      refine hfollowed processed hprocess (Quiet.gatherEnter (Quiet.gatherEnter ?_))
      exact { Quiet.refl processed with }
    · cases hhandle
      exact .inl hquiet

/-- A handler that stays is quiet. -/
theorem Quiet.handled {inst : Instance} (hstays : Stays node.toInstance inst) :
    Quiet node (node.handled inst) :=
  ⟨hstays, le_rfl, rfl, rfl⟩

/-- The consensus timeout is quiet. -/
theorem consensusTimeoutExpired_quiet (htimeout : node.consensusTimeoutExpired = some node') :
    Quiet node node' := by
  obtain ⟨agreed, -, hrest⟩ := bind_eq_some_iff.mp htimeout
  split at hrest
  · cases hrest
    exact ⟨Stays.refl _, le_rfl, rfl, rfl⟩
  · cases hrest
    exact Quiet.gatherEnter { Quiet.refl node with }

/-- The loss of the token is quiet. -/
theorem tokenTimeout_quiet (htimeout : node.tokenTimeout = some node') : Quiet node node' := by
  unfold tokenTimeout at htimeout
  split at htimeout
  · cases htimeout
    exact (Quiet.refl node).gatherEnter
  · obtain ⟨expired, hexpired, rfl⟩ := map_eq_some_iff.mp htimeout
    exact (consensusTimeoutExpired_quiet hexpired).gatherEnter
  · cases htimeout
    exact (Quiet.refl node).gatherEnter
  · cases htimeout
    exact Quiet.gatherEnter { Quiet.refl node with }

/-- A merge detect message is handled quietly. -/
theorem messageHandlerMembMergeDetect_quiet (node : MembNode) (ringId : RingId) (systemFrom : ℕ) :
    Quiet node (node.messageHandlerMembMergeDetect ringId systemFrom) := by
  have hgather : Quiet node (gatherEnter
      { node with myProcList := membSetMerge systemFrom node.myProcList }) := by
    exact Quiet.gatherEnter { Quiet.refl node with }
  unfold messageHandlerMembMergeDetect
  split
  · exact Quiet.refl node
  dsimp only
  split
  · exact hgather
  · split
    · exact Quiet.refl node
    · exact hgather
  · exact Quiet.refl node
  · exact Quiet.refl node

end Quiet

/-- What a step of the membership protocol can do to a node. -/
inductive Outcome (node : MembNode) (event : MembEvent) (node' : MembNode) : Prop where
  | quiet (hquiet : Quiet node node')
  | create (join : MembJoin) (before after : MembNode) (hevent : event = .join join)
      (hbefore : Quiet node before)
      (hseq : before.tokenRingIdSeq = max node.tokenRingIdSeq join.ringSeq)
      (hfirst : LowestFirst before) (hcreate : before.commitCreate = some after)
      (hafter : Quiet after node')
  | commit (token : CommitToken) (hevent : event = .commitToken token)
      (hlt : node.myRingId.seq < token.ringId.seq)
      (hcommit : node.commitEnter false token = some node')
  | recover (token : CommitToken) (hevent : event = .commitToken token)
      (hstate : node.membState = .commit) (hseq : token.ringId.seq = node.myRingId.seq)
      (hindex : token.membIndex = token.addr.length)
      (hrecover : node.recoveryEnter token = some node')
  | resend (token : CommitToken) (target : ℕ)
      (hbuffer : node.orfTokenRetransmit = some (.commit token))
      (htarget : node.tokenTarget = some target)
      (heq : node' = { node with effects := node.effects ++ [.commitToken false target token] })

/-- The outcomes of a step. -/
theorem step_outcome {node node' : MembNode} {event : MembEvent}
    (hstep : node.step event = some node') : Outcome node event node' := by
  cases event with
  | join join =>
    rcases messageHandlerMembJoin_outcome hstep with
      hquiet | ⟨before, after, hbefore, hseq, hfirst, hcreate, hafter⟩
    · exact .quiet hquiet
    · exact .create join before after rfl hbefore hseq hfirst hcreate hafter
  | commitToken token =>
    simp only [step, messageHandlerMembCommitToken] at hstep
    split at hstep
    · cases hstep
      exact .quiet (Quiet.refl node)
    · split at hstep
      · rename_i haccept
        simp only [Bool.and_eq_true, decide_eq_true_eq] at haccept
        exact .commit token rfl haccept.2 hstep
      · cases hstep
        exact .quiet (Quiet.refl node)
    · rename_i hstate
      split at hstep
      · rename_i hcomplete
        simp only [Bool.and_eq_true, beq_iff_eq] at hcomplete
        exact .recover token rfl hstate hcomplete.1 hcomplete.2 hstep
      · cases hstep
        exact .quiet (Quiet.refl node)
    · split at hstep
      · cases hstep
        exact .quiet ⟨⟨rfl, rfl, id, fun token h => by cases h⟩, le_rfl, rfl, rfl⟩
      · cases hstep
        exact .quiet (Quiet.refl node)
  | orfToken _ =>
    obtain ⟨inst, hinst, rfl⟩ := map_eq_some_iff.mp hstep
    exact .quiet (Quiet.handled (messageHandlerOrfToken_stays hinst))
  | mcast _ =>
    obtain ⟨inst, hinst, rfl⟩ := map_eq_some_iff.mp hstep
    exact .quiet (Quiet.handled (messageHandlerMcast_keeps hinst).stays)
  | mergeDetect ringId systemFrom =>
    cases hstep
    exact .quiet (messageHandlerMembMergeDetect_quiet node ringId systemFrom)
  | tokenTimeout => exact .quiet (tokenTimeout_quiet hstep)
  | consensusTimeout =>
    simp only [step] at hstep
    split at hstep
    · exact .quiet (consensusTimeoutExpired_quiet hstep)
    · cases hstep
      exact .quiet (Quiet.refl node)
  | tokenRetransmit =>
    have heq : node.tokenRetransmit = node' := some.inj hstep
    unfold tokenRetransmit at heq
    split at heq
    · subst heq
      exact .quiet (Quiet.refl node)
    · rename_i token target hbuffer htarget _
      exact .resend token target hbuffer htarget heq.symm
    · subst heq
      exact .quiet (Quiet.refl node)

/-- What `memb_state_commit_enter` leaves behind: the token `sent` went to `target`. -/
structure Commits (node : MembNode) (created : Bool) (token sent : CommitToken) (target : ℕ)
    (node' : MembNode) : Prop where
  myId : node'.myId = node.myId
  ringId : node'.myRingId = token.ringId
  seq : node'.tokenRingIdSeq = token.ringId.seq
  sentRing : sent.ringId = token.ringId
  sentAddr : sent.addr = token.addr
  sentIndex : sent.membIndex = token.membIndex + 1
  indexNonneg : 0 ≤ token.membIndex
  indexLe : token.membIndex + 1 ≤ token.addr.length
  next : token.addr[((token.membIndex + 1) % token.addr.length).toNat]? = some target
  target_eq : node'.tokenTarget = some target
  buffer : node'.orfTokenRetransmit = some (.commit sent)
  effects : node'.effects = node.effects ++ [.commitEnter node.myRingId token.ringId,
    .commitToken created target sent, .ringIdStore token.ringId]

/-- Entering the commit state sends a commit token. -/
theorem commitEnter_commits {node node' : MembNode} {created : Bool} {token : CommitToken}
    (hcommit : node.commitEnter created token = some node') :
    ∃ sent target, Commits node created token sent target node' := by
  obtain ⟨entered, henter, hrest⟩ := bind_eq_some_iff.mp hcommit
  obtain ⟨sent, hsent, hrest⟩ := bind_eq_some_iff.mp hrest
  obtain ⟨target, htarget, heq⟩ := bind_eq_some_iff.mp hrest
  cases heq
  obtain ⟨updated, hupdate, hrest⟩ := bind_eq_some_iff.mp henter
  obtain ⟨written, hwritten, heq⟩ := bind_eq_some_iff.mp hrest
  cases heq
  simp only [membStateCommitTokenUpdate, assertThat_bind_eq_some] at hupdate
  obtain ⟨hnonneg, hle, -, heq⟩ := hupdate
  cases heq
  cases hwritten
  have hid : (oldRingStateSave node.toInstance).myId = node.myId := by
    unfold oldRingStateSave
    split <;> rfl
  have hsent := some.inj hsent
  refine ⟨sent, target, ?_⟩
  subst hsent
  exact {
    myId := hid
    ringId := rfl
    seq := rfl
    sentRing := rfl
    sentAddr := rfl
    sentIndex := rfl
    indexNonneg := hnonneg.1
    indexLe := hle
    next := htarget
    target_eq := rfl
    buffer := rfl
    effects := rfl }

/-- The messages of the old ring are queued without touching anything else. -/
theorem originateItems_shape {count seq : ℕ} {inst inst' : Instance}
    (horiginate : originateItems count seq inst = some inst') :
    ∃ queue, inst' = { inst with retransMessageQueue := queue } := by
  induction count generalizing seq inst with
  | zero =>
    obtain rfl := some.inj horiginate
    exact ⟨inst.retransMessageQueue, rfl⟩
  | succ _ ih =>
    obtain ⟨item, -, hitem⟩ := bind_eq_some_iff.mp horiginate
    cases item with
    | none => exact ih hitem
    | some _ =>
      obtain ⟨queue, -, hrest⟩ := bind_eq_some_iff.mp hitem
      obtain ⟨queue', rfl⟩ := ih hrest
      exact ⟨queue', rfl⟩

/-- What `memb_state_recovery_enter` leaves behind. -/
structure Recovers (node : MembNode) (token : CommitToken) (target : ℕ) (node' : MembNode) :
    Prop where
  myId : node'.myId = node.myId
  ringId : node'.myRingId = node.myRingId
  seq : node'.tokenRingIdSeq = node.tokenRingIdSeq
  state : node'.membState = .recovery
  target_before : node.tokenTarget = some target
  target_eq : node'.tokenTarget = some target
  buffer : node'.orfTokenRetransmit = some (.commit token.numbered)
  effects : node'.effects = node.effects ++ [.recoveryEnter token.ringId node.myRingId,
    .commitToken false target token.numbered]

/-- Entering the recovery state passes the commit token on. -/
theorem recoveryEnter_recovers {node node' : MembNode} {token : CommitToken}
    (hrecover : node.recoveryEnter token = some node') :
    ∃ target, Recovers node token target node' := by
  obtain ⟨entered, henter, hrest⟩ := bind_eq_some_iff.mp hrecover
  obtain ⟨target, htarget, heq⟩ := bind_eq_some_iff.mp hrest
  cases heq
  obtain ⟨originated, horiginate, heq⟩ := bind_eq_some_iff.mp henter
  cases heq
  have hshape : ∃ queue, originated = { recoveryStart node.toInstance token
      (recoveryParameters node.toInstance token) with retransMessageQueue := queue } := by
    simp only [originate] at horiginate
    split at horiginate
    · exact ⟨_, (some.inj horiginate).symm⟩
    · rw [assertThat_bind_eq_some] at horiginate
      exact originateItems_shape horiginate.2
  obtain ⟨queue, rfl⟩ := hshape
  exact ⟨target, ⟨rfl, rfl, rfl, rfl, htarget, htarget, rfl, rfl⟩⟩

end Corosync.Totemsrp
