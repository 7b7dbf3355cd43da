import Mathlib.Data.Finset.Basic
import Mathlib.Data.List.ReduceOption
import Corosync.Library.Fallible
import Corosync.Totemconfig.Config

/-!
# The members of the links at a reload

`compute_and_set_totempg_interfaces` sets the addresses that the old and the new configuration have
in common to zero in both. What is left of the old one is removed and what is left of the new one
is added.
-/

namespace Corosync.Totemconfig

open Library List

variable {α : Type} [DecidableEq α]

/-- The inner loop, with the entry of `set1` and the entries of `set2`; `none` is an address that is
all zero. -/
def clearEntry : Option α → List (Option α) → Option α × List (Option α)
  | entry, [] => (entry, [])
  | entry, other :: rest =>
    if entry = other then
      let cleared := clearEntry none rest
      (cleared.1, none :: cleared.2)
    else
      let cleared := clearEntry entry rest
      (cleared.1, other :: cleared.2)

/-- The loop over `set1`. -/
def clearCommon : List (Option α) → List (Option α) → List (Option α) × List (Option α)
  | [], set2 => ([], set2)
  | entry :: set1, set2 =>
    let first := clearEntry entry set2
    let rest := clearCommon set1 first.2
    (first.1 :: rest.1, rest.2)

/-- A cleared entry clears nothing. -/
theorem clearEntry_none (set2 : List (Option α)) : clearEntry none set2 = (none, set2) := by
  induction set2 with
  | nil => rfl
  | cons other _ ih =>
    cases other with
    | none => simp [clearEntry, ih]
    | some _ => simp [clearEntry, ih]

/-- An address is cleared if `set2` has it, and its first entry there with it. -/
theorem clearEntry_some (a : α) (set2 : List (Option α)) :
    (clearEntry (some a) set2).1 = (if a ∈ set2.reduceOption then none else some a) ∧
      (clearEntry (some a) set2).2.reduceOption = set2.reduceOption.erase a := by
  induction set2 with
  | nil => exact ⟨rfl, rfl⟩
  | cons other rest ih =>
    cases other with
    | none => simpa [clearEntry, reduceOption_cons_of_none] using ih
    | some b =>
      by_cases hb : a = b
      · subst hb
        simp [clearEntry, clearEntry_none, reduceOption_cons_of_some, reduceOption_cons_of_none]
      · simp [clearEntry, hb, reduceOption_cons_of_some, ih, Ne.symm hb]

/-- What is left of two lists is what the other one does not have. -/
theorem clearCommon_spec {set1 : List α} {set2 : List (Option α)} (hnodup : set1.Nodup)
    (hnodup' : set2.reduceOption.Nodup) :
    (clearCommon (set1.map some) set2).1.reduceOption = set1.filter (· ∉ set2.reduceOption) ∧
      (clearCommon (set1.map some) set2).2.reduceOption =
        set2.reduceOption.filter (· ∉ set1) := by
  rw [← hnodup'.sdiff_eq_filter]
  induction set1 generalizing set2 with
  | nil => exact ⟨rfl, rfl⟩
  | cons a rest ih =>
    obtain ⟨ha, hrest⟩ := nodup_cons.mp hnodup
    obtain ⟨hentry, hleft⟩ := clearEntry_some a set2
    obtain ⟨hfirst, hsecond⟩ := @ih (clearEntry (some a) set2).2 hrest (hleft ▸ hnodup'.erase a)
    have hsame : ∀ b ∈ rest, decide (b ∉ set2.reduceOption.erase a) =
        decide (b ∉ set2.reduceOption) := by
      intro b hb
      have hne : b ≠ a := fun heq => ha (heq ▸ hb)
      exact decide_eq_decide.mpr (not_congr (mem_erase_of_ne hne))
    simp only [hleft, filter_congr hsame] at hfirst hsecond
    simp only [map_cons, clearCommon, hentry, diff_cons]
    refine ⟨?_, hsecond⟩
    by_cases hmem : a ∈ set2.reduceOption
    · rw [if_pos hmem, reduceOption_cons_of_none, hfirst, filter_cons_of_neg (by simpa using hmem)]
    · rw [if_neg hmem, reduceOption_cons_of_some, hfirst, filter_cons_of_pos (by simpa using hmem)]

/-- The calls of `totempg_member_remove` and `totempg_member_add`, with the link. -/
inductive Operation where
  | remove (member : Fin interfaceMax × Member)
  | add (member : Fin interfaceMax × Member)
  deriving DecidableEq, Repr

/-- The entries of a link after the common ones were set to zero. -/
def clearedEntries (set1 set2 : Interface) : List (Option Member) × List (Option Member) :=
  if set1.configured = false ∧ set2.configured = false then
    (set1.memberList.map some, set2.memberList.map some)
  else clearCommon (set1.memberList.map some) (set2.memberList.map some)

/-- `compute_and_set_totempg_interfaces`, which `totemconfig_commit_new_params` calls with the old
interfaces and the new ones. -/
def computeAndSetTotempgInterfaces (set1 set2 : Interfaces) : List Operation :=
  (finRange interfaceMax).flatMap fun link =>
    let cleared := clearedEntries (set1 link) (set2 link)
    cleared.1.reduceOption.map (fun member => .remove (link, member)) ++
      if (set2 link).configured then cleared.2.reduceOption.map fun member => .add (link, member)
      else []

/-- The interfaces of a configuration: a link with members is configured, and has each of them
once. -/
structure Links where
  interfaces : Interfaces
  configured : ∀ link, (interfaces link).memberList ≠ [] → (interfaces link).configured = true
  nodup : ∀ link, (interfaces link).memberList.Nodup

/-- The links that `put_nodelist_members_to_config` gives members are configured. -/
theorem configured_of_putNodelistMembersToConfig {env : Environment} {settings : Settings}
    {transport : Transport} {interfaces filled : Interfaces}
    (hput : putNodelistMembersToConfig env settings transport interfaces = .ok filled)
    (link : Fin interfaceMax) (hmembers : (filled link).memberList ≠ []) :
    (filled link).configured = true := by
  obtain ⟨put, hfold, hfilled⟩ := bind_eq_ok.mp hput
  cases hfilled
  have hput : (put link).memberList ≠ [] → (put link).configured = true := by
    refine foldlM_ok_invariant (fun _ (interfaces : Interfaces) =>
      (interfaces link).memberList ≠ [] → (interfaces link).configured = true) ?_ ?_ hfold
    · intro _ addr interfaces next hconfigured hstep
      rw [putMember] at hstep
      split at hstep
      · obtain ⟨nodeid, -, hstep⟩ := bind_eq_ok.mp hstep
        obtain ⟨ip, -, hstep⟩ := bind_eq_ok.mp hstep
        cases hstep
        rw [Function.update_apply]
        split
        · exact fun _ => rfl
        · exact hconfigured
      · cases hstep
    · exact fun hcleared => absurd rfl hcleared
  unfold configureLinkParams at hmembers ⊢
  dsimp only at hmembers ⊢
  split at hmembers
  · rw [if_pos ‹_›]
    exact hput hmembers
  · rw [if_neg ‹_›]
    exact hput hmembers

/-- The links of a nodelist that has no address twice on one of them. -/
def Links.ofNodelist {env : Environment} {settings : Settings} {transport : Transport}
    {interfaces : Interfaces} (filled : Interfaces)
    (hput : putNodelistMembersToConfig env settings transport interfaces = .ok filled)
    (hnodup : ∀ link, (filled link).memberList.Nodup) : Links where
  interfaces := filled
  configured := configured_of_putNodelistMembersToConfig hput
  nodup := hnodup

/-- The members of all links. -/
def Links.members (links : Links) : Finset (Fin interfaceMax × Member) :=
  ((finRange interfaceMax).flatMap fun link =>
    (links.interfaces link).memberList.map (link, ·)).toFinset

/-- What a call does to the members of the links. -/
def Operation.apply (members : Finset (Fin interfaceMax × Member)) :
    Operation → Finset (Fin interfaceMax × Member)
  | .remove member => members.erase member
  | .add member => insert member members

section

variable {old new : Links} {member : Fin interfaceMax × Member}

/-- A member of the links is one of its own link. -/
theorem Links.mem_members :
    member ∈ new.members ↔ member.2 ∈ (new.interfaces member.1).memberList := by
  obtain ⟨link, member⟩ := member
  simp [members, mem_flatMap]

/-- What is left of the members of a link. -/
theorem clearedEntries_spec (old new : Links) (link : Fin interfaceMax) :
    (clearedEntries (old.interfaces link) (new.interfaces link)).1.reduceOption =
        (old.interfaces link).memberList.filter (· ∉ (new.interfaces link).memberList) ∧
      (clearedEntries (old.interfaces link) (new.interfaces link)).2.reduceOption =
        (new.interfaces link).memberList.filter (· ∉ (old.interfaces link).memberList) := by
  have hmap : ∀ members : List Member, (members.map some).reduceOption = members := by
    simp [reduceOption, filterMap_map]
  unfold clearedEntries
  split
  · -- neither configuration has members on the link
    rename_i hunconfigured
    have hold := not_not.mp (mt (old.configured link) (by simp [hunconfigured.1]))
    have hnew := not_not.mp (mt (new.configured link) (by simp [hunconfigured.2]))
    rw [hold, hnew]
    exact ⟨rfl, rfl⟩
  · have hspec := @clearCommon_spec _ _ _ ((new.interfaces link).memberList.map some)
      (old.nodup link) ((hmap _).symm ▸ new.nodup link)
    rwa [hmap] at hspec

/-- The calls of a reload. -/
theorem mem_computeAndSetTotempgInterfaces :
    (.remove member ∈ computeAndSetTotempgInterfaces old.interfaces new.interfaces ↔
        member ∈ old.members ∧ member ∉ new.members) ∧
      (.add member ∈ computeAndSetTotempgInterfaces old.interfaces new.interfaces ↔
        member ∈ new.members ∧ member ∉ old.members) := by
  obtain ⟨link, member⟩ := member
  obtain ⟨hremoved, hadded⟩ := clearedEntries_spec old new link
  have hconfigured : member ∈ (new.interfaces link).memberList →
      (new.interfaces link).configured = true := fun hmem =>
    new.configured link (ne_nil_of_mem hmem)
  simp only [computeAndSetTotempgInterfaces, mem_flatMap, Links.mem_members]
  constructor
  · simp [hremoved]
  · simpa [hadded] using fun hmem _ => hconfigured hmem

/-- The members after calls that do not remove what they have added. -/
theorem mem_foldl_apply {operations : List Operation}
    (honce : .add member ∈ operations → .remove member ∉ operations)
    (members : Finset (Fin interfaceMax × Member)) :
    member ∈ operations.foldl Operation.apply members ↔
      .add member ∈ operations ∨ member ∈ members ∧ .remove member ∉ operations := by
  induction operations generalizing members with
  | nil => simp
  | cons operation rest ih =>
    rw [foldl_cons, ih fun hadd hremove =>
      honce (mem_cons_of_mem _ hadd) (mem_cons_of_mem _ hremove)]
    cases operation with
    | remove _ => simp [Operation.apply, and_assoc, and_left_comm]
    | add _ =>
      simp only [Operation.apply, Finset.mem_insert, mem_cons, Operation.add.injEq, reduceCtorEq,
        false_or] at honce ⊢
      tauto

end

/-- At a reload exactly the members are removed that only the old configuration has and exactly
those added that only the new one has, and what results are the members of the new one. -/
theorem interface_diff_exact (old new : Links) :
    (∀ member, .remove member ∈ computeAndSetTotempgInterfaces old.interfaces new.interfaces ↔
        member ∈ old.members ∧ member ∉ new.members) ∧
      (∀ member, .add member ∈ computeAndSetTotempgInterfaces old.interfaces new.interfaces ↔
        member ∈ new.members ∧ member ∉ old.members) ∧
      (computeAndSetTotempgInterfaces old.interfaces new.interfaces).foldl Operation.apply
        old.members = new.members := by
  refine ⟨fun _ => mem_computeAndSetTotempgInterfaces.1,
    fun _ => mem_computeAndSetTotempgInterfaces.2, Finset.ext fun member => ?_⟩
  obtain ⟨hremove, hadd⟩ := @mem_computeAndSetTotempgInterfaces old new member
  rw [mem_foldl_apply (fun hnew hold => (hadd.mp hnew).2 (hremove.mp hold).1), hadd, hremove]
  tauto

/-- The first of two nodes alone. -/
def firstNode : Settings := { twoNodes none with nodelist := (twoNodes none).nodelist.take 1 }

/-- When the second node is put on the nodelist its address is added, and no other call is made. -/
theorem interface_diff_exact_secondNode :
    ∃ old new : Links,
      putNodelistMembersToConfig plainEnvironment firstNode .knet (fun _ => {}) =
        .ok old.interfaces ∧
      putNodelistMembersToConfig plainEnvironment (twoNodes none) .knet (fun _ => {}) =
        .ok new.interfaces ∧
      computeAndSetTotempgInterfaces old.interfaces new.interfaces =
        [.add (0, ⟨⟨.inet, [10, 0, 0, 2]⟩, 2⟩)] ∧
      [Operation.add (0, ⟨⟨.inet, [10, 0, 0, 2]⟩, 2⟩)].foldl Operation.apply old.members =
        new.members := by
  let old : Links := @Links.ofNodelist plainEnvironment firstNode .knet (fun _ => {}) _ rfl
    (by decide)
  let new : Links := @Links.ofNodelist plainEnvironment (twoNodes none) .knet (fun _ => {}) _ rfl
    (by decide)
  have hcalls : computeAndSetTotempgInterfaces old.interfaces new.interfaces =
      [.add (0, ⟨⟨.inet, [10, 0, 0, 2]⟩, 2⟩)] := by
    decide
  exact ⟨old, new, rfl, rfl, hcalls, hcalls ▸ (interface_diff_exact old new).2.2⟩

end Corosync.Totemconfig
