import Corosync.Cpg.LocalSteps

/-!
# What the order says about a process

A member of a group is followed through the order: a join puts it into the list and a leave takes
it out. The lists of the nodes are compared with this.
-/

namespace Corosync.Cpg

open List CpgNode

/-- A process in a group. -/
structure Process where
  nodeid : ℕ
  pid : ℕ
  bytes : List UInt8
  deriving DecidableEq, Repr

/-- Whether a node has a process in its list. -/
def CpgNode.lists (node : CpgNode) (a : Process) : Bool := node.has a.nodeid a.pid a.bytes

/-- Whether a node has a process in the stored joinlist of another node. -/
def CpgNode.stores (node : CpgNode) (a : Process) : Bool := node.stored a.nodeid a.pid a.bytes

namespace Process

variable (a : Process)

/-- A process is that of a message. -/
def is (nodeid pid : ℕ) (group : CpgName) : Bool :=
  pid == a.pid && nodeid == a.nodeid && group.bytes == a.bytes

/-- Whether a process is in the list after a message. -/
def after (listed : Bool) (item : ℕ × Content) : Bool :=
  match item.2 with
  | .message (.procjoin group pid) => listed || a.is item.1 pid group
  | .message (.procleave group pid _) => listed && !a.is item.1 pid group
  | _ => listed

/-- Whether a process is in the list after some messages. -/
def track (listed : Bool) (items : List (ℕ × Content)) : Bool := items.foldl a.after listed

/-- A joinlist of its node that has the process. -/
def inJoinlist (item : ℕ × Content) : Bool :=
  match item.2 with
  | .message (.joinlist entries) =>
    item.1 == a.nodeid && entries.any fun entry => entry.1 == a.pid && entry.2.bytes == a.bytes
  | _ => false

end Process

/-- Joins and leaves. -/
def Content.announces : Content → Bool
  | .message sent => sent.announces
  | .barrier => false

/-- Joinlists. -/
def Content.isJoinlist : Content → Bool
  | .message sent => sent.isJoinlist
  | .barrier => false

variable {node : CpgNode} {a : Process} {item : ℕ × Content} {items : List (ℕ × Content)}

/-- Messages of other nodes, and those that are neither joins nor leaves, leave it alone. -/
theorem Process.after_eq {listed : Bool} (h : item.1 = a.nodeid → item.2.announces = false) :
    a.after listed item = listed := by
  obtain ⟨sender, content⟩ := item
  by_cases hsender : sender = a.nodeid
  · have hannounces := h hsender
    cases content with
    | barrier => rfl
    | message sent =>
      cases sent with
      | procjoin | procleave => cases hannounces
      | joinlist | downlist | mcast | partialMcast => rfl
  · have his : ∀ pid group, a.is sender pid group = false := by
      intro pid group
      simp [Process.is, hsender]
    cases content with
    | barrier => rfl
    | message sent =>
      cases sent with
      | procjoin | procleave => simp [Process.after, his]
      | joinlist | downlist | mcast | partialMcast => rfl

/-- Without announcements of its node a process stays. -/
theorem Process.track_eq {listed : Bool}
    (h : ∀ item ∈ items, item.1 = a.nodeid → item.2.announces = false) :
    a.track listed items = listed := by
  induction items with
  | nil => rfl
  | cons item items ih =>
    change a.track (a.after listed item) items = listed
    rw [Process.after_eq (h item mem_cons_self)]
    exact ih fun other hother => h other (mem_cons_of_mem _ hother)

/-- A process is tracked over two parts. -/
theorem Process.track_append (a : Process) (listed : Bool) (first second : List (ℕ × Content)) :
    a.track listed (first ++ second) = a.track (a.track listed first) second :=
  foldl_append

/-- A process that is not in the list and does not join stays out of it. -/
theorem Process.track_false
    (h : ∀ item ∈ items, ∀ group, item ≠ (a.nodeid, .message (.procjoin group a.pid)) ∨
      group.bytes ≠ a.bytes) : a.track false items = false := by
  induction items with
  | nil => rfl
  | cons item items ih =>
    have hfirst : a.after false item = false := by
      obtain ⟨sender, content⟩ := item
      cases content with
      | barrier => rfl
      | message sent =>
        cases sent with
        | procjoin group pid =>
          simp only [Process.after, Bool.false_or, Bool.eq_false_iff]
          intro his
          simp only [Process.is, Bool.and_eq_true, beq_iff_eq] at his
          obtain ⟨⟨rfl, rfl⟩, hbytes⟩ := his
          rcases h _ mem_cons_self group with hne | hne
          · exact hne rfl
          · exact hne hbytes
        | procleave | joinlist | downlist | mcast | partialMcast => rfl
    change a.track (a.after false item) items = false
    rw [hfirst]
    exact ih fun other hother => h other (mem_cons_of_mem _ hother)

/-- A joinlist of another node does not have the process. -/
theorem Process.inJoinlist_eq_false (h : item.1 = a.nodeid → item.2.isJoinlist = false) :
    a.inJoinlist item = false := by
  obtain ⟨sender, content⟩ := item
  cases content with
  | barrier => rfl
  | message sent =>
    cases sent with
    | joinlist entries =>
      by_cases hsender : sender = a.nodeid
      · exact absurd (h hsender) (by simp [Content.isJoinlist, CpgMessage.isJoinlist])
      · simp [Process.inJoinlist, hsender]
    | procjoin | procleave | downlist | mcast | partialMcast => rfl

/-- Without lists of its node a process is in none. -/
theorem Process.any_inJoinlist_eq_false
    (h : ∀ item ∈ items, item.1 = a.nodeid → item.2.isJoinlist = false) :
    items.any a.inJoinlist = false := by
  rw [any_eq_false]
  intro item hitem
  rw [Process.inJoinlist_eq_false (h item hitem)]
  exact Bool.false_ne_true

/-- The same for queued messages. -/
theorem Process.any_queue_eq_false {queue : List CpgMessage} (i : ℕ)
    (h : ∀ message ∈ queue, message.isJoinlist = false) :
    (queue.any fun message => a.inJoinlist (i, .message message)) = false := by
  have hitems : (queue.map fun message =>
      (i, Content.message message)).any a.inJoinlist = false := by
    refine Process.any_inJoinlist_eq_false fun item hitem _ => ?_
    obtain ⟨message, hmessage, rfl⟩ := mem_map.mp hitem
    exact h message hmessage
  rwa [any_map] at hitems

/-- A handled message changes the table like the view. -/
theorem lists_execHandler (sender : ℕ) (message : CpgMessage) :
    (node.execHandler sender message).lists a =
      a.after (node.lists a) (sender, .message message) := by
  cases message with
  | procjoin _ pid => exact has_doProcJoin pid sender .join
  | procleave _ pid reason => exact has_doProcLeave pid sender reason
  | joinlist | downlist => rfl
  | mcast | partialMcast =>
    simp only [execHandler, sendToGroup]
    split
    · rfl
    · rfl

/-- The stored lists with one more. -/
theorem mem_storeJoinlist {entries : List (ℕ × CpgName)} {sender : ℕ} {stored : JoinlistMsg} :
    stored ∈ (node.storeJoinlist entries sender).joinlistMessages ↔
      stored ∈ node.joinlistMessages ∨ ∃ entry ∈ entries, stored = ⟨sender, entry.1, entry.2⟩ := by
  have hfold : ∀ (entries : List (ℕ × CpgName)) (list : List JoinlistMsg),
      stored ∈ entries.foldl (fun list entry => ⟨sender, entry.1, entry.2⟩ :: list) list ↔
        stored ∈ list ∨ ∃ entry ∈ entries, stored = ⟨sender, entry.1, entry.2⟩ := by
    intro entries
    induction entries with
    | nil => simp
    | cons _ _ ih =>
      intro list
      rw [foldl_cons, ih, mem_cons, exists_mem_cons_iff, or_comm (a := stored = _),
        or_assoc]
  exact hfold entries node.joinlistMessages

/-- The stored joinlists of other nodes are those of the messages. -/
theorem stores_execHandler (sender : ℕ) (message : CpgMessage) (hother : a.nodeid ≠ node.nodeid) :
    (node.execHandler sender message).stores a =
      (node.stores a || a.inJoinlist (sender, .message message)) := by
  cases message with
  | joinlist entries =>
    have hnodeid : (node.storeJoinlist entries sender).nodeid = node.nodeid := rfl
    rw [Bool.eq_iff_iff, Bool.or_eq_true]
    simp only [stores, execHandler, stored_iff, mem_storeJoinlist,
      hnodeid, Process.inJoinlist, Bool.and_eq_true, beq_iff_eq, any_eq_true]
    constructor
    · rintro ⟨stored, hmem | ⟨entry, hentry, rfl⟩, hne, hsender, hpid, hbytes⟩
      · exact .inl ⟨stored, hmem, hne, hsender, hpid, hbytes⟩
      · exact .inr ⟨hsender, entry, hentry, hpid, hbytes⟩
    · rintro (⟨stored, hmem, hrest⟩ | ⟨rfl, entry, hentry, hpid, hbytes⟩)
      · exact ⟨stored, .inl hmem, hrest⟩
      · exact ⟨⟨a.nodeid, entry.1, entry.2⟩, .inr ⟨entry, hentry, rfl⟩, hother, rfl, hpid, hbytes⟩
  | procjoin _ _ =>
    simp only [execHandler, doProcJoin, Process.inJoinlist, Bool.or_false]
    split <;> rfl
  | procleave _ _ _ => simp [execHandler, Process.inJoinlist]; rfl
  | downlist => simp [execHandler, Process.inJoinlist]
  | mcast | partialMcast =>
    simp only [execHandler, sendToGroup, Process.inJoinlist, Bool.or_false]
    split
    · rfl
    · rfl

end Corosync.Cpg
