import Corosync.Library.ShortTable
import Mathlib.Algebra.Group.Action.Defs
import Mathlib.Algebra.Order.BigOperators.Group.List
import Mathlib.Algebra.Order.Group.Nat
import Mathlib.Algebra.Ring.Nat

/-!
# Messages to groups

A message to groups begins with a table of 16-bit numbers, the number of the groups and the lengths
of their names, then the names follow, then the payload. `app_deliver_fn` compares the names with
the groups of every instance and cuts them off. A node of the other byte order first exchanges the
bytes of the table, whose first number says how long it is.
-/

namespace Corosync.Totempg

open Library
open List hiding swapAt

/-- `MAX_GROUPS_PER_MSG` -/
def maxGroupsPerMsg : ℕ := 32

/-- `struct totempg_group` -/
structure Group where
  /-- The `group_len` bytes at `group`. -/
  name : List UInt8
  length_lt : name.length < 65536
deriving DecidableEq

/-- `struct totempg_group_instance`, with an identification of its `deliver_fn`. -/
structure GroupInstance (ι : Type*) where
  /-- The owner of `deliver_fn`. -/
  id : ι
  /-- `groups`, of which there are `groups_cnt`. -/
  groups : List Group

/-- `group_len` as a message to some groups has it. -/
def groupLens (groups : List Group) : List ℕ :=
  groups.length :: groups.map fun group => group.name.length

/-- `iovec_mcast`, on a node with a given byte order. -/
def iovecMcast (order : ByteOrder) (groups : List Group) (iovec : List (List UInt8)) :
    List (List UInt8) :=
  table order (groupLens groups) :: groups.map Group.name ++ iovec

/-- The iovecs that `totempg_groups_mcast_joined` passes to `mcast_msg`. -/
def totempgGroupsMcastJoined {ι : Type*} (order : ByteOrder) (inst : GroupInstance ι)
    (iovec : List (List UInt8)) : List (List UInt8) := iovecMcast order inst.groups iovec

/-- The iovecs that `totempg_groups_mcast_groups` passes to `mcast_msg`. -/
def totempgGroupsMcastGroups (order : ByteOrder) (groups : List Group)
    (iovec : List (List UInt8)) : List (List UInt8) := iovecMcast order groups iovec

/-- The loop of `group_endian_convert` over the lengths. The bound is read in every round. -/
def convertLens (order : ByteOrder) : ℕ → ℕ → List UInt8 → List UInt8
  | 0, _, msg => msg
  | fuel + 1, i, msg =>
    if i < shortAt order msg 0 + 1 then convertLens order fuel (i + 1) (swapAt msg i) else msg

/-- `group_endian_convert`. There are at most 65535 rounds, since `group_len[0]` has 16 bits. -/
def groupEndianConvert (order : ByteOrder) (msg : List UInt8) : List UInt8 :=
  convertLens order 65536 1 (swapAt msg 0)

/-- The lengths that a message announces. -/
def announcedLens (order : ByteOrder) (msg : List UInt8) : List ℕ :=
  (List.range (shortAt order msg 0)).map fun i => shortAt order msg (i + 1)

/-- `adjust_iovec` after `group_matches`, an `unsigned int`. -/
def adjustIovec (order : ByteOrder) (msg : List UInt8) : ℕ :=
  (2 * (shortAt order msg 0 + 1) + (announcedLens order msg).sum) % 2 ^ 32

/-- The loop of `group_matches` over the names in the message; `groupName` is the position of the
next one. -/
def matchNames (msg : List UInt8) (groups : List Group) : ℕ → List ℕ → Bool
  | _, [] => false
  | groupName, len :: lens =>
    groups.any (fun group =>
      len == group.name.length && group.name.take len == (msg.drop groupName).take len) ||
    matchNames msg groups (groupName + len) lens

/-- `group_matches`, its result. -/
def groupMatches (order : ByteOrder) (msg : List UInt8) (groups : List Group) : Bool :=
  matchNames msg groups (2 * (shortAt order msg 0 + 1)) (announcedLens order msg)

/-- `app_deliver_fn`: the calls of `deliver_fn`, in their order. -/
def appDeliverFn {ι : Type*} (order : ByteOrder) (endianConversionRequired : Bool)
    (msg : List UInt8) (instances : List (GroupInstance ι)) : List (ι × List UInt8) :=
  let msg := if endianConversionRequired then groupEndianConvert order msg else msg
  instances.filterMap fun inst =>
    if groupMatches order msg inst.groups then
      some (inst.id, (msg.drop (adjustIovec order msg)).take (msg.length - adjustIovec order msg))
    else none

section Table

variable {order : ByteOrder} {groups : List Group} {rest : List UInt8}

section

variable (hcount : groups.length < 65536)

include hcount

/-- The lengths of the names have 16 bits. -/
theorem lt_of_mem_groupLens : ∀ n ∈ groupLens groups, n < 65536 := by
  intro n hmem
  rcases mem_cons.mp hmem with rfl | hmem
  · exact hcount
  · obtain ⟨group, -, rfl⟩ := mem_map.mp hmem
    exact group.length_lt

/-- The first number of a table, the first part of which is converted. -/
theorem shortAt_zero {done todo : List ℕ} (hdone : done ≠ [])
    (hlens : done ++ todo = groupLens groups) (memory : List UInt8) :
    shortAt order (table order done ++ memory) 0 = groups.length := by
  obtain ⟨first, done, rfl⟩ := exists_cons_of_ne_nil hdone
  obtain ⟨rfl, -⟩ := cons_eq_cons.mp hlens
  rw [table_cons, append_assoc]
  exact shortAt_bytes hcount

/-- The conversion of the lengths goes on from any of them. -/
theorem convertLens_table {fuel : ℕ} {done todo : List ℕ}
    (hdone : done ≠ []) (hlens : done ++ todo = groupLens groups) (hfuel : todo.length < fuel) :
    convertLens order fuel done.length (table order done ++ (table order.other todo ++ rest)) =
      table order (groupLens groups) ++ rest := by
  induction todo generalizing fuel done with
  | nil =>
    obtain ⟨fuel, rfl⟩ := Nat.exists_eq_add_of_lt hfuel
    have hlength := congrArg List.length hlens
    simp only [groupLens, append_nil, length_cons, length_map] at hlength
    rw [← hlens, append_nil, length_nil, Nat.zero_add, convertLens,
      shortAt_zero hcount hdone hlens, if_neg (by omega)]
    rfl
  | cons n _ ih =>
    obtain ⟨fuel, rfl⟩ : ∃ k, fuel = k + 1 := ⟨fuel - 1, by omega⟩
    have hlength := congrArg List.length hlens
    simp only [groupLens, length_append, length_cons, length_map] at hlength
    have hnext := @ih fuel (done ++ [n]) (by simp) (by simpa using hlens)
      (by simp only [length_cons] at hfuel; omega)
    rw [convertLens, shortAt_zero hcount hdone hlens, if_pos (by omega), swapAt_table, ← hnext,
      length_append, length_singleton]

/-- The conversion brings the whole table into order and nothing else. -/
theorem groupEndianConvert_table :
    groupEndianConvert order (table order.other (groupLens groups) ++ rest) =
      table order (groupLens groups) ++ rest := by
  have hfirst : swapAt (table order.other (groupLens groups) ++ rest) 0 =
      table order [groups.length] ++
        (table order.other (groups.map fun group => group.name.length) ++ rest) :=
    @swapAt_table order groups.length rest [] _
  rw [groupEndianConvert, hfirst]
  refine @convertLens_table order groups rest hcount 65536 [groups.length] _ (by simp) rfl ?_
  rw [length_map]
  omega

/-- The lengths that a table of lengths announces. -/
theorem announcedLens_table :
    announcedLens order (table order (groupLens groups) ++ rest) =
      groups.map fun group => group.name.length := by
  have hzero : shortAt order (table order (groupLens groups) ++ rest) 0 = groups.length :=
    shortAt_table (lt_of_mem_groupLens hcount) (Nat.succ_pos _)
  unfold announcedLens
  rw [hzero]
  refine ext_getElem (by simp) fun i hi hi' => ?_
  rw [length_map] at hi'
  rw [getElem_map, getElem_range, shortAt_table (lt_of_mem_groupLens hcount)
    (by simpa [groupLens] using hi')]
  rfl

end

/-- The names in a message are compared with the groups of an instance. -/
theorem matchNames_iff (front : List UInt8) (joined : List Group) :
    matchNames (front ++ ((groups.map Group.name).flatten ++ rest)) joined front.length
        (groups.map fun group => group.name.length) = true ↔ ∃ group ∈ joined, group ∈ groups := by
  induction groups generalizing front with
  | nil => simp [matchNames]
  | cons addressed groups ih =>
    have hname : ((front ++ (((addressed :: groups).map Group.name).flatten ++ rest)).drop
        front.length).take addressed.name.length = addressed.name := by
      rw [drop_left, map_cons, flatten_cons, append_assoc, take_left]
    have hrest := ih (front ++ addressed.name)
    rw [length_append, append_assoc] at hrest
    have hmatch : joined.any (fun group => addressed.name.length == group.name.length &&
        group.name.take addressed.name.length == addressed.name) = true ↔
        ∃ group ∈ joined, group = addressed := by
      simp only [any_eq_true, Bool.and_eq_true, beq_iff_eq]
      refine exists_congr fun group => and_congr_right fun _ => ?_
      constructor
      · rintro ⟨hlength, hsame⟩
        rw [hlength, take_length] at hsame
        cases group
        cases addressed
        simpa using hsame
      · rintro rfl
        exact ⟨rfl, take_length⟩
    change (joined.any _ || matchNames _ joined (front.length + addressed.name.length)
      (groups.map fun group => group.name.length)) = true ↔ _
    rw [hname, Bool.or_eq_true, hmatch, map_cons, flatten_cons, append_assoc, hrest]
    simp only [mem_cons]
    constructor
    · rintro (⟨group, hmem, heq⟩ | ⟨group, hmem, hin⟩)
      · exact ⟨group, hmem, .inl heq⟩
      · exact ⟨group, hmem, .inr hin⟩
    · rintro ⟨group, hmem, heq | hin⟩
      · exact .inl ⟨group, hmem, heq⟩
      · exact .inr ⟨group, hmem, hin⟩

/-- The names end behind the table and their bytes. -/
theorem adjustIovec_table (hcount : groups.length ≤ maxGroupsPerMsg) :
    adjustIovec order (table order (groupLens groups) ++ rest) =
      (table order (groupLens groups) ++ (groups.map Group.name).flatten).length := by
  unfold maxGroupsPerMsg at hcount
  have hzero : shortAt order (table order (groupLens groups) ++ rest) 0 = groups.length :=
    shortAt_table (lt_of_mem_groupLens (by omega)) (Nat.succ_pos _)
  have hle := sum_le_card_nsmul (groups.map fun group => group.name.length) 65535
    fun len hmem => by
      obtain ⟨group, -, rfl⟩ := mem_map.mp hmem
      exact Nat.le_of_lt_succ group.length_lt
  have hnames : (groups.map Group.name).flatten.length =
      (groups.map fun group => group.name.length).sum := by
    simp [length_flatten, Function.comp_def]
  rw [length_map, smul_eq_mul] at hle
  rw [adjustIovec, hzero, announcedLens_table (by omega), length_append, length_table, hnames,
    groupLens, length_cons, length_map]
  exact Nat.mod_eq_of_lt (by omega)

end Table

section Delivery

variable {ι : Type*}

/-- The instance has joined one of the groups. -/
def GroupInstance.Joined (inst : GroupInstance ι) (groups : List Group) : Prop :=
  ∃ group ∈ inst.groups, group ∈ groups

instance (inst : GroupInstance ι) (groups : List Group) : Decidable (inst.Joined groups) :=
  inferInstanceAs (Decidable (∃ group ∈ inst.groups, group ∈ groups))

/-- The two calls that send a message to groups. -/
inductive McastCall (ι : Type*)
  | joined (inst : GroupInstance ι)
  | groups (list : List Group)

namespace McastCall

/-- The groups that are addressed. -/
def addressed : McastCall ι → List Group
  | .joined inst => inst.groups
  | .groups list => list

/-- The bytes of the message. -/
def message (order : ByteOrder) (iovec : List (List UInt8)) : McastCall ι → List UInt8
  | .joined inst => (totempgGroupsMcastJoined order inst iovec).flatten
  | .groups list => (totempgGroupsMcastGroups order list iovec).flatten

/-- A message is a table of lengths, the names and the payload. -/
theorem message_eq (order : ByteOrder) (iovec : List (List UInt8)) (call : McastCall ι) :
    call.message order iovec = table order (groupLens call.addressed) ++
      ((call.addressed.map Group.name).flatten ++ iovec.flatten) := by
  cases call <;>
    simp [message, addressed, totempgGroupsMcastJoined, totempgGroupsMcastGroups, iovecMcast]

end McastCall

/-- The calls for a message whose table is in the order of the node. -/
theorem appDeliverFn_table {order : ByteOrder} {groups : List Group} (payload : List UInt8)
    (instances : List (GroupInstance ι)) (hcount : groups.length ≤ maxGroupsPerMsg) :
    appDeliverFn order false
        (table order (groupLens groups) ++ ((groups.map Group.name).flatten ++ payload))
        instances =
      (instances.filter fun inst => inst.Joined groups).map fun inst => (inst.id, payload) := by
  obtain ⟨msg, hmsg⟩ : ∃ msg, msg =
    table order (groupLens groups) ++ ((groups.map Group.name).flatten ++ payload) := ⟨_, rfl⟩
  have hlt : groups.length < 65536 := Nat.lt_of_le_of_lt hcount (by decide)
  have hmatches : ∀ inst : GroupInstance ι,
      groupMatches order msg inst.groups = true ↔ inst.Joined groups := by
    intro inst
    have hzero : shortAt order msg 0 = groups.length := by
      rw [hmsg]
      exact shortAt_table (lt_of_mem_groupLens hlt) (Nat.succ_pos _)
    have hnames := @matchNames_iff groups payload (table order (groupLens groups)) inst.groups
    rw [length_table, groupLens, length_cons, length_map, ← groupLens, ← hmsg] at hnames
    rw [groupMatches, hzero, hmsg, announcedLens_table hlt, ← hmsg]
    exact hnames
  have hpayload : (msg.drop (adjustIovec order msg)).take
      (msg.length - adjustIovec order msg) = payload := by
    rw [← length_drop, take_length, hmsg, adjustIovec_table hcount, ← append_assoc,
      drop_left]
  rw [← hmsg, appDeliverFn, if_neg Bool.false_ne_true, hpayload]
  induction instances with
  | nil => rfl
  | cons inst _ ih =>
    rw [filterMap_cons, ih]
    by_cases hjoined : inst.Joined groups
    · rw [if_pos ((hmatches inst).mpr hjoined), filter_cons_of_pos (by simpa using hjoined),
        map_cons]
    · rw [if_neg (mt (hmatches inst).mp hjoined), filter_cons_of_neg (by simpa using hjoined)]

/-- Every instance that has joined one of the addressed groups gets the message once, with its
payload as it was sent, and no other instance does. The byte orders of the sender and of the
receiver do not matter. -/
theorem group_addressing_round_trip (sender receiver : ByteOrder)
    (instances : List (GroupInstance ι)) (call : McastCall ι) (iovec : List (List UInt8))
    (hgroups : call.addressed.length ≤ maxGroupsPerMsg) :
    appDeliverFn receiver (sender ≠ receiver) (call.message sender iovec) instances =
      (instances.filter fun inst => inst.Joined call.addressed).map
        fun inst => (inst.id, iovec.flatten) := by
  have htable := @appDeliverFn_table ι receiver call.addressed iovec.flatten instances hgroups
  rw [call.message_eq, ← htable]
  by_cases horder : sender = receiver
  · subst horder
    simp
  · have hlt : call.addressed.length < 65536 := Nat.lt_of_le_of_lt hgroups (by decide)
    rw [ByteOrder.eq_other_of_ne horder]
    unfold appDeliverFn
    rw [if_pos (by cases receiver <;> rfl), if_neg Bool.false_ne_true, groupEndianConvert_table hlt]

/-- The groups with one-letter names. -/
def letter (name : UInt8) : Group := ⟨[name], by simp⟩

/-- A message from the other byte order to the groups `a` and `b`, at a node with one instance for
`b` and `c` and one for `c`. -/
theorem group_addressing_round_trip_letters :
    appDeliverFn .little true
        ((McastCall.groups [letter 97, letter 98] : McastCall ℕ).message .big [[1], [2, 3]])
        [⟨1, [letter 98, letter 99]⟩, ⟨2, [letter 99]⟩] = [(1, [1, 2, 3])] :=
  group_addressing_round_trip .big .little _ (.groups [letter 97, letter 98]) [[1], [2, 3]]
    (by decide)

end Delivery

end Corosync.Totempg
