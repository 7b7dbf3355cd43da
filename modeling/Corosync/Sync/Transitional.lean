import Mathlib.Data.List.Basic

/-!
# The lists given to services

`confchg_fn` of `main.c` saves the members of a transitional configuration and starts a
synchronisation at the regular configuration that follows. The services then get those saved members
that are in the new ring. A transitional configuration replaces the list of the one before, whether
or not the synchronisation in between was completed.
-/

namespace Corosync.Sync

/-- The lists of `sync.c` that services get to see. -/
structure ServiceLists where
  myTransList : List ℕ := []
  myMemberList : List ℕ := []
deriving DecidableEq, Repr

namespace ServiceLists

/-- `sync_save_transitional` -/
def syncSaveTransitional (lists : ServiceLists) (memberList : List ℕ) : ServiceLists :=
  { lists with myTransList := memberList }

/-- `sync_start`, up to the calls of `sync_init` in `sync_process_call_init`. -/
def syncStart (lists : ServiceLists) (memberList : List ℕ) : ServiceLists :=
  { myTransList := lists.myTransList.filter (· ∈ memberList), myMemberList := memberList }

/-- The two configuration changes of a new ring, one after the other. -/
def confchg (lists : ServiceLists) (transList memberList : List ℕ) : ServiceLists :=
  (lists.syncSaveTransitional transList).syncStart memberList

/-- The transitional list of a service has the members that stay. -/
@[simp] theorem mem_myTransList_confchg {lists : ServiceLists} {transList memberList : List ℕ}
    {nodeid : ℕ} :
    nodeid ∈ (lists.confchg transList memberList).myTransList ↔
      nodeid ∈ transList ∧ nodeid ∈ memberList := by
  simp [confchg, syncStart, syncSaveTransitional, List.mem_filter]

end ServiceLists

end Corosync.Sync
