import Corosync.Totemsrp.Commit

/-!
# Agreement on the recovery

A commit token has travelled once through all nodes it names. Nodes of one old ring then derive
the same parameters for their recovery, as long as the state they saved of the old ring is still
the one their received flag is computed from.
-/

namespace Corosync.Totemsrp

open List Bool

/-- The first rotation of a commit token: the nodes run `memb_state_commit_token_update` one after
the other. Returns the updated nodes and the token the last one passes on. -/
def commitTraversal : List Instance → CommitToken → Option (List Instance × CommitToken)
  | [], token => some ([], token)
  | inst :: rest, token => do
    let updated ← membStateCommitTokenUpdate inst token
    let passed ← updated.commitToken
    let (others, final) ← commitTraversal rest passed.numbered
    return (updated :: others, final)

/-- The saved counters of a node lie in order inside one window of the sort queue's size. The
window may go across the `2 ^ 32` wrap. -/
structure InRingWindow (base : RingId → ℕ) (inst : Instance) : Prop where
  aru_lt : inst.oldRingStateAru < 2 ^ 32
  high_lt : inst.oldRingStateHighSeqReceived < 2 ^ 32
  aru_le : usub inst.oldRingStateAru (base inst.myOldRingId) ≤
    usub inst.oldRingStateHighSeqReceived (base inst.myOldRingId)
  high_window : usub inst.oldRingStateHighSeqReceived (base inst.myOldRingId) <
    queueRtrItemsSizeMax

/-- A value in the window from `base` on. -/
def InWindow (base v : ℕ) : Prop := v < 2 ^ 32 ∧ usub v base < queueRtrItemsSizeMax

/-- Inside a window the comparison follows the distance from its base. -/
theorem sqLtCompare_inWindow (base : ℕ) :
    Library.RankedBy sqLtCompare (fun v => usub v base) (InWindow base) := by
  rintro v w ⟨hv, hvw⟩ ⟨hw, hww⟩
  unfold queueRtrItemsSizeMax at hvw hww
  unfold sqLtCompare adjustRolloverPoint adjustRolloverValue
  unfold usub at *
  dsimp only
  split <;> rw [decide_eq_true_iff] <;> omega

/-- The opposite comparison follows the opposite order. -/
theorem sqLtCompare_inWindow_dual (base : ℕ) :
    Library.RankedBy (fun v w => sqLtCompare w v) (fun v => OrderDual.toDual (usub v base))
      (InWindow base) :=
  fun v w hv hw => sqLtCompare_inWindow base w v hw hv

/-- Numbers with the same distance from a base are equal. -/
theorem eq_of_usub_eq {base v w : ℕ} (hv : v < 2 ^ 32) (hw : w < 2 ^ 32)
    (heq : usub v base = usub w base) : v = w := by
  unfold usub at heq
  omega

section Window

variable {base : RingId → ℕ} {inst : Instance}

/-- The aru of the old ring is in the window. -/
theorem InRingWindow.aru_inWindow (h : InRingWindow base inst) :
    InWindow (base inst.myOldRingId) inst.oldRingStateAru :=
  ⟨h.aru_lt, lt_of_le_of_lt h.aru_le h.high_window⟩

/-- The highest number received is in the window. -/
theorem InRingWindow.high_inWindow (h : InRingWindow base inst) :
    InWindow (base inst.myOldRingId) inst.oldRingStateHighSeqReceived :=
  ⟨h.high_lt, h.high_window⟩

end Window

/-- Whether a node of the list with the same old ring saved a higher aru. -/
def isBehind (insts : List Instance) (inst : Instance) : Bool :=
  insts.any fun other =>
    other.myOldRingId == inst.myOldRingId &&
      sqLtCompare inst.oldRingStateAru other.oldRingStateAru

/-- The entry of a node once all nodes of the list have updated the token. -/
def settledEntry (insts : List Instance) (inst : Instance) : MembEntry :=
  { ownEntry inst with
    receivedFlg := (inst.myAru == inst.myHighSeqReceived) && !isBehind insts inst }

/-- One more node in the list can only clear the flag. -/
theorem isBehind_concat (insts : List Instance) (inst other : Instance) :
    isBehind (insts ++ [other]) inst =
      (isBehind insts inst || (other.myOldRingId == inst.myOldRingId &&
        sqLtCompare inst.oldRingStateAru other.oldRingStateAru)) := by
  simp [isBehind]

section Update

variable {base : RingId → ℕ} {done : List Instance} {inst : Instance}

section

variable (hdone : ∀ x ∈ done, InRingWindow base x) (hinst : InRingWindow base inst)

include hdone hinst

/-- An aru is below the highest one of the old ring exactly when it is below some node's. -/
theorem sqLtCompare_highAru {x : Instance} (hx : InRingWindow base x)
    (hring : x.myOldRingId = inst.myOldRingId) :
    sqLtCompare x.oldRingStateAru
        (highAru (ownEntry inst) (done.map (settledEntry done) ++ [ownEntry inst])) =
      isBehind (done ++ [inst]) x := by
  set values := ((done.map (settledEntry done) ++ [ownEntry inst]).filter fun entry =>
    entry.ringId == (ownEntry inst).ringId).map MembEntry.aru with hvalues
  have hmem : ∀ v, v ∈ values ↔
      ∃ y ∈ done ++ [inst], y.myOldRingId = inst.myOldRingId ∧ y.oldRingStateAru = v := by
    intro v
    simp only [hvalues, filter_append, map_append, mem_append, mem_map,
      mem_filter, mem_singleton, beq_iff_eq]
    constructor
    · rintro (⟨entry, ⟨⟨y, hy, rfl⟩, hyring⟩, rfl⟩ | ⟨entry, ⟨rfl, -⟩, rfl⟩)
      · exact ⟨y, .inl hy, hyring, rfl⟩
      · exact ⟨inst, .inr rfl, rfl, rfl⟩
    · rintro ⟨y, hy | rfl, hyring, rfl⟩
      · exact .inl ⟨settledEntry done y, ⟨⟨y, hy, rfl⟩, hyring⟩, rfl⟩
      · exact .inr ⟨ownEntry y, ⟨rfl, rfl⟩, rfl⟩
  have hwindow : ∀ v ∈ values, InWindow (base inst.myOldRingId) v := by
    intro v hv
    obtain ⟨y, hy, hyring, rfl⟩ := (hmem v).mp hv
    rw [← hyring]
    rcases mem_append.mp hy with hy | hy
    · exact (hdone y hy).aru_inWindow
    · rw [mem_singleton.mp hy]
      exact hinst.aru_inWindow
  have hxwindow : InWindow (base inst.myOldRingId) x.oldRingStateAru := hring ▸ hx.aru_inWindow
  have hown : (ownEntry inst).aru ∈ values :=
    (hmem _).mpr ⟨inst, by simp, rfl, rfl⟩
  have hhigh :
      highAru (ownEntry inst) (done.map (settledEntry done) ++ [ownEntry inst]) ∈ values := by
    rcases mem_cons.mp (Library.keepBest_mem (fun aru high => sqLtCompare high aru)
      (ownEntry inst).aru values) with heq | hin
    · exact (show highAru _ _ = _ from heq) ▸ hown
    · exact hin
  have hmax := Library.rank_keepBest_le (sqLtCompare_inWindow_dual (base inst.myOldRingId))
    (hwindow _ hown) hwindow
  have hlt := sqLtCompare_inWindow (base inst.myOldRingId)
  rw [Bool.eq_iff_iff, hlt _ _ hxwindow (hwindow _ hhigh)]
  simp only [isBehind, any_eq_true, Bool.and_eq_true, beq_iff_eq]
  constructor
  · intro hbelow
    obtain ⟨y, hy, hyring, hyaru⟩ := (hmem _).mp hhigh
    refine ⟨y, hy, hyring.trans hring.symm, ?_⟩
    rw [hyaru]
    exact (hlt _ _ hxwindow (hwindow _ hhigh)).mpr hbelow
  · rintro ⟨y, hy, hyring, hybelow⟩
    have hyvalue : y.oldRingStateAru ∈ values := (hmem _).mpr ⟨y, hy, hyring.trans hring, rfl⟩
    have hbelow := (hlt _ _ hxwindow (hwindow _ hyvalue)).mp hybelow
    exact lt_of_lt_of_le hbelow (hmax _ (mem_cons_of_mem _ hyvalue))

/-- The entries written so far are settled again by the update of one more node. -/
theorem reviseFlag_settledEntry {x : Instance} (hx : x ∈ done) :
    reviseFlag (ownEntry inst)
        (highAru (ownEntry inst) (done.map (settledEntry done) ++ [ownEntry inst]))
        (settledEntry done x) = settledEntry (done ++ [inst]) x := by
  unfold reviseFlag
  by_cases hring : x.myOldRingId = inst.myOldRingId
  · have hbehind := sqLtCompare_highAru hdone hinst (hdone x hx) hring
    by_cases hlow : isBehind (done ++ [inst]) x = true
    · rw [if_pos ⟨hring, hbehind.trans hlow⟩]
      simp [settledEntry, hlow]
    · rw [if_neg fun h => hlow (hbehind.symm.trans h.2)]
      have hconcat := isBehind_concat done x inst
      rw [eq_false_iff.mpr hlow, eq_comm, or_eq_false_iff] at hconcat
      simp [settledEntry, hconcat.1, eq_false_iff.mpr hlow]
  · rw [if_neg fun h => hring h.1]
    have hother : (inst.myOldRingId == x.myOldRingId) = false := by
      simpa using fun h => hring h.symm
    simp [settledEntry, isBehind_concat, hother]

/-- The entry of the node itself is settled with respect to the nodes before it. -/
theorem reviseFlag_ownEntry :
    reviseFlag (ownEntry inst)
        (highAru (ownEntry inst) (done.map (settledEntry done) ++ [ownEntry inst]))
        (ownEntry inst) = settledEntry (done ++ [inst]) inst := by
  have hbehind := sqLtCompare_highAru hdone hinst hinst rfl
  unfold reviseFlag
  by_cases hlow : isBehind (done ++ [inst]) inst = true
  · rw [if_pos ⟨rfl, hbehind.trans hlow⟩]
    simp [settledEntry, hlow]
  · rw [if_neg fun h => hlow (hbehind.symm.trans h.2)]
    simp [settledEntry, eq_false_iff.mpr hlow, ownEntry]

end

end Update

/-- What the recovery reads of a node, before and after its `memb_state_commit_token_update`. -/
structure Updated (addr : List ℕ) (inst updated : Instance) : Prop where
  newMembers : updated.myNewMembList = addr
  ring : updated.myOldRingId = inst.myOldRingId
  members : updated.myMembList = inst.myMembList
  aru : updated.oldRingStateAru = inst.oldRingStateAru
  high : updated.oldRingStateHighSeqReceived = inst.oldRingStateHighSeqReceived

/-- The token of a rotation in progress: the nodes of `done` have written their entries. -/
structure Collected (done : List Instance) (token : CommitToken) : Prop where
  index : token.membIndex = done.length
  entries : token.membList.take done.length = done.map (settledEntry done)
  length : token.membList.length = token.addr.length

section Traversal

variable {base : RingId → ℕ} {done insts updates : List Instance} {inst updated : Instance}
  {token final : CommitToken}

/-- A member adds its entry and passes the token on. -/
theorem Collected.update (h : Collected done token) (hdone : ∀ x ∈ done, InRingWindow base x)
    (hinst : InRingWindow base inst)
    (hupdate : membStateCommitTokenUpdate inst token = some updated) :
    ∃ passed, updated.commitToken = some passed ∧ passed.addr = token.addr ∧
      Collected (done ++ [inst]) passed ∧ Updated token.addr inst updated := by
  unfold membStateCommitTokenUpdate at hupdate
  simp only [assertThat_bind_eq_some, h.index, Int.toNat_natCast] at hupdate
  obtain ⟨⟨-, hlt⟩, -, -, heq⟩ := hupdate
  cases heq
  have hwritten : (token.membList.set done.length (ownEntry inst)).take (done.length + 1) =
      done.map (settledEntry done) ++ [ownEntry inst] := by
    rw [← h.entries, take_set, take_succ_eq_append_getElem hlt,
      set_append_right _ _ (by simp)]
    simp [Nat.min_eq_left hlt.le]
  refine ⟨_, rfl, rfl, ⟨?_, ?_, ?_⟩, ⟨rfl, rfl, rfl, rfl, rfl⟩⟩
  · simp
  · simp only [hwritten]
    rw [take_append_of_le_length (by simp), take_of_length_le (by simp),
      map_append, map_append, map_map]
    congr 1
    · exact map_congr_left fun x hx => reviseFlag_settledEntry hdone hinst hx
    · simp only [map_cons, map_nil]
      rw [reviseFlag_ownEntry hdone hinst]
  · simp only [length_append, length_map, length_take, length_drop,
      length_set]
    have := h.length
    omega

/-- The number of the ring is not part of what is collected. -/
theorem Collected.numbered (h : Collected done token) : Collected done token.numbered :=
  ⟨h.index, h.entries, h.length⟩

/-- A rotation collects all nodes it goes through. -/
theorem Collected.traversal (h : Collected done token)
    (hdone : ∀ x ∈ done, InRingWindow base x) (hinsts : ∀ x ∈ insts, InRingWindow base x)
    (htraversal : commitTraversal insts token = some (updates, final)) :
    Collected (done ++ insts) final ∧ final.addr = token.addr ∧
      List.Forall₂ (Updated token.addr) insts updates := by
  induction insts generalizing done token updates with
  | nil =>
    cases htraversal
    exact ⟨by rwa [append_nil], rfl, .nil⟩
  | cons inst _ ih =>
    obtain ⟨updated, hupdate, hrest⟩ := Option.bind_eq_some_iff.mp htraversal
    have hinst := hinsts inst mem_cons_self
    obtain ⟨passed, hpassed, haddr, hcollected, hupdated⟩ := h.update hdone hinst hupdate
    rw [hpassed, Option.bind_eq_bind, Option.bind_some] at hrest
    obtain ⟨⟨others, last⟩, hothers, heq⟩ := Option.bind_eq_some_iff.mp hrest
    cases heq
    have hmore : ∀ x ∈ done ++ [inst], InRingWindow base x := by
      exact forall_mem_append.mpr ⟨hdone, forall_mem_singleton.mpr hinst⟩
    obtain ⟨hall, hfinal, hforall⟩ := ih hcollected.numbered hmore
      (fun x hx => hinsts x (mem_cons_of_mem _ hx)) hothers
    refine ⟨?_, hfinal.trans haddr, .cons hupdated ?_⟩
    · rwa [append_assoc, singleton_append] at hall
    · exact haddr ▸ hforall

end Traversal

/-- The nodes of a token that has completed its rotation, and the token. -/
structure Completed (base : RingId → ℕ) (insts : List Instance) (token : CommitToken) : Prop where
  addr : token.addr = insts.map Instance.myId
  nodup : (insts.map Instance.myId).Nodup
  entries : token.membList = insts.map (settledEntry insts)
  window : ∀ x ∈ insts, InRingWindow base x

/-- Every node of the list that comes from a ring is listed among the ring's members. -/
def Listed (insts : List Instance) (ringId : RingId) (members : List ℕ) : Prop :=
  ∀ x ∈ insts, x.myOldRingId = ringId → x.myId ∈ members

section Parameters

variable {base : RingId → ℕ} {insts : List Instance} {p q x : Instance} {token : CommitToken}

section

variable (h : Completed base insts token)

include h

/-- The addresses with their entries, as the loops of the recovery see them. -/
theorem Completed.zip_entries (hnew : p.myNewMembList = token.addr) :
    p.myNewMembList.zip token.membList = insts.map fun x => (x.myId, settledEntry insts x) := by
  rw [hnew, h.addr, h.entries, zip_map']

/-- The addresses with their old rings, as `memb_set_and_with_ring_id` sees them. -/
theorem Completed.zip_ringIds (hnew : p.myNewMembList = token.addr) :
    p.myNewMembList.zip (token.membList.map MembEntry.ringId) =
      insts.map fun x => (x.myId, x.myOldRingId) := by
  rw [hnew, h.addr, h.entries, map_map, zip_map']
  rfl

/-- Members with one id are one member. -/
theorem Completed.eq_of_myId (hp : p ∈ insts) (hq : q ∈ insts) (heq : p.myId = q.myId) : p = q :=
  inj_on_of_nodup_map h.nodup hp hq heq

/-- The transitional members are the listed nodes of the token with the same old ring. -/
theorem Completed.mem_transMembList (hnew : p.myNewMembList = token.addr)
    (hlisted : Listed insts p.myOldRingId p.myMembList) (hx : x ∈ insts) :
    x.myId ∈ (recoveryParameters p token).transMembList ↔ x.myOldRingId = p.myOldRingId := by
  simp only [recoveryParameters, membSetAndWithRingId, h.zip_ringIds hnew, mem_filter]
  constructor
  · rintro ⟨-, hany⟩
    obtain ⟨entry, hfind, hring⟩ := (Option.any_eq_true _ _).mp hany
    obtain ⟨y, hy, rfl⟩ := mem_map.mp (mem_of_find?_eq_some hfind)
    have hid : y.myId = x.myId := by simpa using find?_some hfind
    rw [← h.eq_of_myId hy hx hid]
    simpa using hring
  · intro hring
    refine ⟨hlisted x hx hring, ?_⟩
    cases hfind : (insts.map fun x => (x.myId, x.myOldRingId)).find?
        (fun entry => entry.1 == x.myId) with
    | none =>
      have hnone := find?_eq_none.mp hfind (x.myId, x.myOldRingId)
        (mem_map.mpr ⟨x, hx, rfl⟩)
      simp at hnone
    | some _ =>
      obtain ⟨y, hy, rfl⟩ := mem_map.mp (mem_of_find?_eq_some hfind)
      have hid : y.myId = x.myId := by simpa using find?_some hfind
      rw [h.eq_of_myId hy hx hid]
      simpa using hring

/-- Nothing is sent again exactly when every node of the old ring has its flag. -/
theorem Completed.localReceivedFlg_iff (hnew : p.myNewMembList = token.addr)
    (hlisted : Listed insts p.myOldRingId p.myMembList) :
    (recoveryParameters p token).localReceivedFlg = true ↔
      ∀ x ∈ insts, x.myOldRingId = p.myOldRingId → (settledEntry insts x).receivedFlg = true := by
  have htrans := fun x (hx : x ∈ insts) => h.mem_transMembList hnew hlisted hx
  simp only [recoveryParameters] at htrans ⊢
  simp only [h.zip_entries hnew, all_map, all_eq_true, Function.comp, or_eq_true,
    not_eq_true', contains_eq_mem, decide_eq_false_iff_not]
  constructor
  · intro hall x hx hring
    exact (hall x hx).resolve_left fun hnot => hnot ((htrans x hx).mpr hring)
  · intro hall x hx
    by_cases hring : x.myOldRingId = p.myOldRingId
    · exact .inr (hall x hx hring)
    · exact .inl fun hmem => hring ((htrans x hx).mp hmem)

/-- The recovery looks at the entries of the members of its old ring. -/
theorem Completed.recoveryEntries_eq (hnew : p.myNewMembList = token.addr)
    (hlisted : Listed insts p.myOldRingId p.myMembList) :
    recoveryEntries p token (recoveryParameters p token).transMembList =
      (insts.filter fun x => x.myOldRingId == p.myOldRingId).map (settledEntry insts) := by
  unfold recoveryEntries
  rw [h.zip_entries hnew, filter_map, map_map]
  congr 1
  refine filter_congr fun x hx => ?_
  have htrans := h.mem_transMembList hnew hlisted hx
  by_cases hring : x.myOldRingId = p.myOldRingId
  · simpa [hring, settledEntry, ownEntry] using htrans.mpr hring
  · simp [hring, settledEntry, ownEntry]

end

/-- Nodes that share old ring and member list differ at most in the lowest aru they compute. -/
theorem recoveryParameters_eq_iff (hnew : p.myNewMembList = q.myNewMembList)
    (hring : p.myOldRingId = q.myOldRingId) (hmembers : p.myMembList = q.myMembList) :
    recoveryParameters p token = recoveryParameters q token ↔
      (recoveryParameters p token).lowRingAru = (recoveryParameters q token).lowRingAru := by
  refine ⟨fun heq => by rw [heq], fun hlow => ?_⟩
  simp only [recoveryParameters, recoveryEntries, hnew, hring, hmembers] at hlow ⊢
  rw [hlow]

/-- When a flag is false, nodes of one old ring compute one lowest aru: each of them starts from a
number that its own entry is not above. -/
theorem Completed.lowRingAru_eq (h : Completed base insts token) {p₀ q₀ : Instance}
    (hp : p₀ ∈ insts) (hpupdated : Updated token.addr p₀ p)
    (hq : q₀ ∈ insts) (hqupdated : Updated token.addr q₀ q)
    (hring : p.myOldRingId = q.myOldRingId) (hmembers : p.myMembList = q.myMembList)
    (hlisted : Listed insts p.myOldRingId p.myMembList)
    (hflag : (recoveryParameters p token).localReceivedFlg = false) :
    (recoveryParameters p token).lowRingAru = (recoveryParameters q token).lowRingAru := by
  have hpnew := hpupdated.newMembers
  have hqnew := hqupdated.newMembers
  have hqflag : (recoveryParameters q token).localReceivedFlg = false := by
    rw [← hflag]
    simp only [recoveryParameters, hpnew, hqnew, hring, hmembers]
  have hpentries := h.recoveryEntries_eq hpnew hlisted
  have hqentries := h.recoveryEntries_eq hqnew (hring ▸ hmembers ▸ hlisted)
  simp only [recoveryParameters] at hflag hqflag hpentries hqentries ⊢
  rw [hflag, hqflag, if_neg Bool.false_ne_true, if_neg Bool.false_ne_true, hpentries, hqentries,
    ← hring]
  set arus := ((insts.filter fun x => x.myOldRingId == p.myOldRingId).map
    (settledEntry insts)).map MembEntry.aru with harus
  have hmem : ∀ x ∈ insts, x.myOldRingId = p.myOldRingId → x.oldRingStateAru ∈ arus := by
    intro x hx hxring
    exact mem_map.mpr ⟨settledEntry insts x,
      mem_map.mpr ⟨x, mem_filter.mpr ⟨hx, by simpa using hxring⟩, rfl⟩, rfl⟩
  have hwindow : ∀ v ∈ arus, InWindow (base p.myOldRingId) v := by
    intro v hv
    obtain ⟨entry, hentry, rfl⟩ := mem_map.mp hv
    obtain ⟨x, hx, rfl⟩ := mem_map.mp hentry
    obtain ⟨hx, hxring⟩ := mem_filter.mp hx
    rw [← (beq_iff_eq.mp hxring)]
    exact (h.window x hx).aru_inWindow
  have hpwindow := h.window p₀ hp
  have hqwindow := h.window q₀ hq
  have hpstart := hpwindow.high_inWindow
  have hqstart := hqwindow.high_inWindow
  have hple := hpwindow.aru_le
  have hqle := hqwindow.aru_le
  rw [← hpupdated.ring, ← hpupdated.high] at hpstart hple
  rw [← hqupdated.ring, ← hqupdated.high, ← hring] at hqstart hqle
  have hlow : ∀ start, InWindow (base p.myOldRingId) start →
      Library.keepBest sqLtCompare start arus < 2 ^ 32 := by
    intro start hstart
    rcases mem_cons.mp (Library.keepBest_mem sqLtCompare start arus) with heq | hin
    · rw [heq]
      exact hstart.1
    · exact (hwindow _ hin).1
  refine eq_of_usub_eq (hlow _ hpstart) (hlow _ hqstart)
    (Library.rank_keepBest_congr (sqLtCompare_inWindow (base p.myOldRingId)) hpstart hqstart
      hwindow (hmem p₀ hp hpupdated.ring.symm) hple
      (hmem q₀ hq (hqupdated.ring.symm.trans hring.symm)) hqle)

/-- No number is below itself. -/
theorem sqLtCompare_self (a : ℕ) : sqLtCompare a a = false := by
  unfold sqLtCompare
  split <;> simp

/-- All nodes of an old ring keep their flag exactly when each has everything it has heard of and
they saved the same aru. -/
theorem Completed.flags_iff (h : Completed base insts token) (ringId : RingId) :
    (∀ x ∈ insts, x.myOldRingId = ringId → (settledEntry insts x).receivedFlg = true) ↔
      (∀ x ∈ insts, x.myOldRingId = ringId → x.myAru = x.myHighSeqReceived) ∧
        ∀ x ∈ insts, ∀ y ∈ insts, x.myOldRingId = ringId → y.myOldRingId = ringId →
          x.oldRingStateAru = y.oldRingStateAru := by
  have hflag : ∀ x, (settledEntry insts x).receivedFlg = true ↔
      x.myAru = x.myHighSeqReceived ∧ ∀ y ∈ insts, y.myOldRingId = x.myOldRingId →
        sqLtCompare x.oldRingStateAru y.oldRingStateAru = false := by
    intro x
    simp [settledEntry, isBehind]
  simp only [hflag]
  constructor
  · intro hall
    refine ⟨fun x hx hring => (hall x hx hring).1, fun x hx y hy hxring hyring => ?_⟩
    have hxy := (hall x hx hxring).2 y hy (hyring.trans hxring.symm)
    have hyx := (hall y hy hyring).2 x hx (hxring.trans hyring.symm)
    have hlt := sqLtCompare_inWindow (base ringId)
    have hxwindow : InWindow (base ringId) x.oldRingStateAru :=
      hxring ▸ (h.window x hx).aru_inWindow
    have hywindow : InWindow (base ringId) y.oldRingStateAru :=
      hyring ▸ (h.window y hy).aru_inWindow
    refine @eq_of_usub_eq (base ringId) _ _ hxwindow.1 hywindow.1 (le_antisymm ?_ ?_)
    · exact not_lt.mp fun hbelow =>
        eq_false_iff.mp hyx ((hlt _ _ hywindow hxwindow).mpr hbelow)
    · exact not_lt.mp fun hbelow =>
        eq_false_iff.mp hxy ((hlt _ _ hxwindow hywindow).mpr hbelow)
  · rintro ⟨hcurrent, hequal⟩ x hx hxring
    refine ⟨hcurrent x hx hxring, fun y hy hyring => ?_⟩
    rw [hequal x hx y hy hxring (hyring.trans hxring)]
    exact sqLtCompare_self _

end Parameters

/-- Agreement of the nodes of one old ring about its recovery. -/
structure RecoveryAgreement (nodes : List Instance) (token : CommitToken) (ringId : RingId)
    (members : List ℕ) : Prop where
  parameters : ∀ p ∈ nodes, ∀ q ∈ nodes, p.myOldRingId = ringId → p.myMembList = members →
    q.myOldRingId = ringId → q.myMembList = members →
      recoveryParameters p token = recoveryParameters q token
  complete : ∀ p ∈ nodes, p.myOldRingId = ringId → p.myMembList = members →
    (recoveryParameters p token).localReceivedFlg = true →
      (∀ x ∈ nodes, ∀ y ∈ nodes, x.myOldRingId = ringId → y.myOldRingId = ringId →
        x.oldRingStateAru = y.oldRingStateAru) ∧
      ∀ x ∈ nodes, x.myOldRingId = ringId → x.oldRingStateAru = x.oldRingStateHighSeqReceived

/-- The counters that the received flag compares speak for the saved ones: if they show no hole at
any node of the old ring and the saved arus are equal, then the saved counters show no hole. -/
def SavedStateCurrent (nodes : List Instance) (ringId : RingId) : Prop :=
  (∀ x ∈ nodes, x.myOldRingId = ringId → x.myAru = x.myHighSeqReceived) →
  (∀ x ∈ nodes, ∀ y ∈ nodes, x.myOldRingId = ringId → y.myOldRingId = ringId →
    x.oldRingStateAru = y.oldRingStateAru) →
  ∀ x ∈ nodes, x.myOldRingId = ringId → x.oldRingStateAru = x.oldRingStateHighSeqReceived

section Agreement

variable {base : RingId → ℕ} {insts updates : List Instance} {p : Instance}
  {token final : CommitToken}

/-- A token that went through all nodes it names is completed. -/
theorem completed_of_traversal (haddr : token.addr = insts.map Instance.myId)
    (hnodup : token.addr.Nodup) (hindex : token.membIndex = 0)
    (hlength : token.membList.length = token.addr.length)
    (hwindow : ∀ x ∈ insts, InRingWindow base x)
    (htraversal : commitTraversal insts token = some (updates, final)) :
    Completed base insts final ∧ final.addr = token.addr ∧
      List.Forall₂ (Updated token.addr) insts updates := by
  have hstart : Collected [] token := ⟨by simpa using hindex, by simp, hlength⟩
  obtain ⟨hcollected, hfinal, hforall⟩ := hstart.traversal (by simp) hwindow htraversal
  refine ⟨⟨hfinal.trans haddr, haddr ▸ hnodup, ?_, hwindow⟩, hfinal, hforall⟩
  have hentries := hcollected.entries
  rwa [nil_append, take_of_length_le] at hentries
  rw [hcollected.length, hfinal, haddr, length_map]

/-- Every updated node comes from a node of the token. -/
theorem exists_of_mem_updates (hforall : List.Forall₂ (Updated token.addr) insts updates)
    {updated : Instance} (hmem : updated ∈ updates) :
    ∃ x ∈ insts, Updated token.addr x updated := by
  induction hforall with
  | nil => cases hmem
  | cons hhead _ ih =>
    rcases mem_cons.mp hmem with rfl | hmem
    · exact ⟨_, mem_cons_self, hhead⟩
    · obtain ⟨x, hx, hupdated⟩ := ih hmem
      exact ⟨x, mem_cons_of_mem _ hx, hupdated⟩

/-- Every node of the token was updated. -/
theorem exists_of_mem_insts (hforall : List.Forall₂ (Updated token.addr) insts updates)
    {x : Instance} (hmem : x ∈ insts) : ∃ updated ∈ updates, Updated token.addr x updated := by
  induction hforall with
  | nil => cases hmem
  | cons hhead _ ih =>
    rcases mem_cons.mp hmem with rfl | hmem
    · exact ⟨_, mem_cons_self, hhead⟩
    · obtain ⟨updated, hin, hupdated⟩ := ih hmem
      exact ⟨updated, mem_cons_of_mem _ hin, hupdated⟩

/-- When no flag is false and the saved state is current, the nodes of the old ring saved one and
the same number twice. -/
theorem Completed.saved_eq (h : Completed base insts final)
    (hnew : p.myNewMembList = final.addr) (hlisted : Listed insts p.myOldRingId p.myMembList)
    (hcurrent : SavedStateCurrent insts p.myOldRingId)
    (hflag : (recoveryParameters p final).localReceivedFlg = true) :
    (∀ x ∈ insts, ∀ y ∈ insts, x.myOldRingId = p.myOldRingId → y.myOldRingId = p.myOldRingId →
      x.oldRingStateAru = y.oldRingStateAru) ∧
    ∀ x ∈ insts, x.myOldRingId = p.myOldRingId →
      x.oldRingStateAru = x.oldRingStateHighSeqReceived := by
  have hflags := (h.flags_iff p.myOldRingId).mp ((h.localReceivedFlg_iff hnew hlisted).mp hflag)
  exact ⟨hflags.2, hcurrent hflags.1 hflags.2⟩

/-- A commit token has travelled through all nodes it names. The nodes of an old ring agree about
its recovery exactly when their saved state is current. -/
theorem recoveryAgreement_iff (haddr : token.addr = insts.map Instance.myId)
    (hnodup : token.addr.Nodup) (hindex : token.membIndex = 0)
    (hlength : token.membList.length = token.addr.length)
    (hwindow : ∀ x ∈ insts, InRingWindow base x)
    (htraversal : commitTraversal insts token = some (updates, final))
    (hp : p ∈ insts) (hlisted : Listed insts p.myOldRingId p.myMembList) :
    RecoveryAgreement updates final p.myOldRingId p.myMembList ↔
      SavedStateCurrent insts p.myOldRingId := by
  obtain ⟨hcompleted, hfinal, hforall⟩ :=
    completed_of_traversal haddr hnodup hindex hlength hwindow htraversal
  rw [← hfinal] at hforall
  constructor
  · intro hagreement hreceived hequal x hx hring
    obtain ⟨p', hp', hpupdated⟩ := exists_of_mem_insts hforall hp
    obtain ⟨x', hx', hxupdated⟩ := exists_of_mem_insts hforall hx
    rw [← hpupdated.ring, ← hpupdated.members] at hlisted
    rw [← hpupdated.ring] at hreceived hequal
    have hflag := (hcompleted.localReceivedFlg_iff hpupdated.newMembers hlisted).mpr
      ((hcompleted.flags_iff _).mpr ⟨hreceived, hequal⟩)
    have hcomplete := hagreement.complete p' hp' hpupdated.ring hpupdated.members hflag
    rw [← hxupdated.aru, ← hxupdated.high]
    exact hcomplete.2 x' hx' (hxupdated.ring.trans hring)
  · intro hcurrent
    constructor
    · intro r hr q hq hrring hrmembers hqring hqmembers
      obtain ⟨r₀, hr₀, hrupdated⟩ := exists_of_mem_updates hforall hr
      obtain ⟨q₀, hq₀, hqupdated⟩ := exists_of_mem_updates hforall hq
      have hring : r.myOldRingId = q.myOldRingId := hrring.trans hqring.symm
      have hmembers : r.myMembList = q.myMembList := hrmembers.trans hqmembers.symm
      have hnew : r.myNewMembList = q.myNewMembList :=
        hrupdated.newMembers.trans hqupdated.newMembers.symm
      rw [← hrring, ← hrmembers] at hlisted
      rw [← hrring] at hcurrent
      refine (recoveryParameters_eq_iff hnew hring hmembers).mpr ?_
      cases hflag : (recoveryParameters r final).localReceivedFlg with
      | false =>
        exact hcompleted.lowRingAru_eq hr₀ hrupdated hq₀ hqupdated hring hmembers hlisted hflag
      | true =>
        -- both start from the highest number received and look at no entry
        have hsaved := hcompleted.saved_eq hrupdated.newMembers hlisted hcurrent hflag
        have hqflag : (recoveryParameters q final).localReceivedFlg = true := by
          rw [← hflag]
          simp only [recoveryParameters, hnew, hring, hmembers]
        have hqr : q₀.myOldRingId = r.myOldRingId := hqupdated.ring.symm.trans hring.symm
        have hrr : r₀.myOldRingId = r.myOldRingId := hrupdated.ring.symm
        have heq : r.oldRingStateHighSeqReceived = q.oldRingStateHighSeqReceived := by
          rw [hrupdated.high, hqupdated.high, ← hsaved.2 r₀ hr₀ hrr, ← hsaved.2 q₀ hq₀ hqr]
          exact hsaved.1 r₀ hr₀ q₀ hq₀ hrr hqr
        simp only [recoveryParameters] at hflag hqflag ⊢
        rw [hflag, hqflag]
        exact heq
    · intro r hr hrring hrmembers hflag
      obtain ⟨r₀, hr₀, hrupdated⟩ := exists_of_mem_updates hforall hr
      rw [← hrring, ← hrmembers] at hlisted
      rw [← hrring] at hcurrent
      have hsaved := hcompleted.saved_eq hrupdated.newMembers hlisted hcurrent hflag
      rw [← hrring]
      constructor
      · intro x hx y hy hxring hyring
        obtain ⟨x₀, hx₀, hxupdated⟩ := exists_of_mem_updates hforall hx
        obtain ⟨y₀, hy₀, hyupdated⟩ := exists_of_mem_updates hforall hy
        rw [hxupdated.aru, hyupdated.aru]
        exact hsaved.1 x₀ hx₀ y₀ hy₀ (hxupdated.ring.symm.trans hxring)
          (hyupdated.ring.symm.trans hyring)
      · intro x hx hxring
        obtain ⟨x₀, hx₀, hxupdated⟩ := exists_of_mem_updates hforall hx
        rw [hxupdated.aru, hxupdated.high]
        exact hsaved.2 x₀ hx₀ (hxupdated.ring.symm.trans hxring)

end Agreement

section Examples

/-- Node `nodeid` of a ring of the nodes 1 and 2, with everything up to `aru` received and `high`
the highest number received. -/
def ringMember (nodeid aru high : ℕ) : Instance :=
  { Instance.totemsrpInitialize ⟨20, 50, 5, 2500⟩ nodeid exampleQueueMax exampleQueueMax_pos with
    myRingId := ⟨1, 4⟩
    myOldRingId := ⟨1, 4⟩
    myProcList := [1, 2]
    myNewMembList := [1, 2]
    myMembList := [1, 2]
    myAru := aru
    myHighSeqReceived := high }

/-- A new commit token of node 1 for a list of nodes. -/
def ringToken (nodes : List ℕ) (seq : ℕ) : CommitToken :=
  membStateCommitTokenCreate { ringMember 1 0 0 with myProcList := nodes } seq

/-- The first member has three messages, the second one only two of them: they agree. -/
theorem recoveryAgreement_iff_ringMembers :
    ∃ updates final,
      commitTraversal [oldRingStateSave (ringMember 1 3 3), oldRingStateSave (ringMember 2 2 3)]
        (ringToken [1, 2] 4) = some (updates, final) ∧
      (RecoveryAgreement updates final ⟨1, 4⟩ [1, 2] ↔
        SavedStateCurrent
          [oldRingStateSave (ringMember 1 3 3), oldRingStateSave (ringMember 2 2 3)] ⟨1, 4⟩) := by
  refine ⟨_, _, rfl, @recoveryAgreement_iff (fun _ => 0)
    [oldRingStateSave (ringMember 1 3 3), oldRingStateSave (ringMember 2 2 3)] _
    (oldRingStateSave (ringMember 1 3 3)) (ringToken [1, 2] 4) _ rfl (by decide) rfl rfl ?_ rfl
    ?_ ?_⟩
  · intro x hx
    rcases mem_cons.mp hx with rfl | hx
    · exact ⟨by decide, by decide, by decide, by decide⟩
    · rw [mem_singleton.mp hx]
      exact ⟨by decide, by decide, by decide, by decide⟩
  · exact mem_cons_self
  · intro x hx _
    rcases mem_cons.mp hx with rfl | hx
    · decide
    · rw [mem_singleton.mp hx]
      decide

/-- A message of node 2. -/
def messageOfTwo (ringId : RingId) (seq : ℕ) : Mcast :=
  .plain { nodeid := 2, systemFrom := 2, seq := seq, ringId := ringId } []

/-- Node 1 misses message 4 of its ring when the ring breaks. It commits to the ring with sequence
number 8 and starts the recovery, in which it loses the token. The other member became operational
and its message 4 of the new ring arrives. -/
def failedRecovery : Option Instance := do
  let received ← [1, 2, 3, 5].foldlM
    (fun inst seq => messageHandlerMcast inst (messageOfTwo ⟨1, 4⟩ seq)) (ringMember 1 0 0)
  let committed ← membStateCommitEnter received.membStateGatherEnter (ringToken [1, 2] 4)
  let token ← committed.commitToken
  let (_, completed) ← commitTraversal [oldRingStateSave (ringMember 2 5 5)] token
  let recovering ← membStateRecoveryEnter committed completed
  messageHandlerMcast (membRecoveryStateTokenLoss recovering) (messageOfTwo ⟨1, 8⟩ 4)

/-- After the failed recovery the message of the new ring fills the hole of the old ring, so the
received flag of the next commit token says that node 1 misses nothing, although the state it
saved has the hole. -/
theorem foreign_message_hides_hole :
    ∃ inst updates final, failedRecovery = some inst ∧
      commitTraversal [oldRingStateSave inst] (ringToken [1] 8) = some (updates, final) ∧
      ¬RecoveryAgreement updates final ⟨1, 4⟩ [1, 2] := by
  refine ⟨_, _, _, rfl, rfl, fun hagreement => ?_⟩
  have hcomplete := (hagreement.complete _ mem_cons_self rfl rfl rfl).2 _
    mem_cons_self rfl
  exact absurd hcomplete (by decide)

end Examples

end Corosync.Totemsrp
