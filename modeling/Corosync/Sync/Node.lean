import Corosync.Totemsrp.Types

/-!
# Synchronisation of services

After a membership change the nodes first tell each other which services they have and then
synchronise the services one after the other: `sync_process` runs until it is done, a barrier
message is sent, and when the barrier messages of all members have arrived the service is
activated. This is `sync.c` for one node, with the calls it makes into services recorded.

The transitional list that `sync_init` gets and the names of services are left out.
-/

namespace Corosync.Sync

open Totemsrp (RingId)

/-- `SERVICES_COUNT_MAX`. -/
def servicesCountMax : ℕ := 64

/-- `enum sync_state`. -/
inductive SyncState where
  | servicelistBuild
  | process
  | barrier
  deriving DecidableEq, Repr

/-- `struct service_entry`; `activate` is the state `ACTIVATE`, otherwise it is `PROCESS`. The
callbacks are the node's own or dummies that do nothing. -/
structure ServiceEntry where
  serviceId : ℕ
  activate : Bool
  deriving DecidableEq, Repr

/-- `struct processor_entry`. -/
structure ProcessorEntry where
  nodeid : ℕ
  received : Bool
  deriving DecidableEq, Repr

/-- The messages of the service. -/
inductive SyncMessage where
  | barrier (ringId : RingId)
  | serviceBuild (ringId : RingId) (serviceList : List ℕ)
  deriving DecidableEq, Repr

/-- The ring a message belongs to. -/
def SyncMessage.ringId : SyncMessage → RingId
  | .barrier ringId => ringId
  | .serviceBuild ringId _ => ringId

/-- Calls that leave the module. -/
inductive SyncCall where
  /-- `sync_process` of a service has returned that it is done. -/
  | processed (serviceId : ℕ)
  | barrier (serviceId : ℕ)
  /-- `sync_activate` of a service. -/
  | activate (serviceId : ℕ)
  | completed
  deriving DecidableEq, Repr

/-- What a node knows of services: `my_sync_callbacks_retrieve`. -/
structure Services where
  retrieve : ℕ → Bool
  /-- The callbacks it returns have a `sync_init`. -/
  hasInit : ℕ → Bool

/-- The variables of `sync.c`. -/
structure SyncNode where
  services : Services
  myState : SyncState
  myRingId : RingId
  myProcessingIdx : ℕ
  myProcessorList : List ProcessorEntry
  myServiceList : List ServiceEntry
  /-- Whether the work item of `schedwrk_create` exists. -/
  schedwrk : Bool
  /-- Messages given to `totempg_groups_mcast_joined` that are not yet ordered, oldest first. -/
  outgoing : List SyncMessage
  calls : List SyncCall

/-- `service_entry_compare`. It does not tell smaller from equal. -/
def serviceEntryCompare (a b : ServiceEntry) : ℤ :=
  if b.serviceId < a.serviceId then 1 else 0

/-- What the library function `qsort` does with any comparison function. -/
structure Rearranges (qsort : List ServiceEntry → List ServiceEntry) : Prop where
  perm : ∀ list, (qsort list).Perm list

/-- A library whose `qsort` sorts with `service_entry_compare`. The C standard does not promise it:
the comparison function has to tell smaller from equal. -/
structure Qsort (qsort : List ServiceEntry → List ServiceEntry) : Prop extends
    Rearranges qsort where
  sorted : ∀ list, (qsort list).Pairwise fun a b => serviceEntryCompare a b ≤ 0

namespace SyncNode

variable (node : SyncNode)

/-- The services a node announces. -/
def ownServices (services : Services) : List ℕ :=
  (List.range servicesCountMax).filter fun id => services.retrieve id && services.hasInit id

/-- `sync_process_enter`. -/
def syncProcessEnter : SyncNode :=
  if node.myServiceList = [] then
    { node with
      myState := .servicelistBuild
      calls := node.calls ++ [.completed] }
  else
    { node with
      myState := .process
      myProcessorList := node.myProcessorList.map fun entry => { entry with received := false }
      schedwrk := true }

/-- The flag of a node is set. -/
def markReceived (nodeid : ℕ) : SyncNode :=
  { node with
    myProcessorList := node.myProcessorList.map fun entry =>
      if entry.nodeid = nodeid then { entry with received := true } else entry }

/-- `barrier_reached`. -/
def allReceived : Bool :=
  node.myProcessorList.all ProcessorEntry.received

/-- The service that is being synchronised is activated and the next one is started. -/
def barrierReached (entry : ServiceEntry) : SyncNode :=
  let activated : SyncNode :=
    { node with
      myServiceList := node.myServiceList.set node.myProcessingIdx { entry with activate := true }
      calls :=
        if node.services.retrieve entry.serviceId then node.calls ++ [.activate entry.serviceId]
        else node.calls
      myProcessingIdx := node.myProcessingIdx + 1 }
  if activated.myServiceList.length = activated.myProcessingIdx then
    { activated with calls := activated.calls ++ [.completed] }
  else
    activated.syncProcessEnter

/-- `sync_barrier_handler`. The entry past the end of the service list would be an empty one. -/
def syncBarrierHandler (nodeid : ℕ) (ringId : RingId) : SyncNode :=
  if node.myRingId = ringId then
    let marked := node.markReceived nodeid
    if marked.allReceived then
      marked.barrierReached (marked.myServiceList.getD marked.myProcessingIdx ⟨0, false⟩)
    else
      marked
  else
    node

/-- A service of another node is added unless the list has it. -/
def addService (list : List ServiceEntry) (id : ℕ) : List ServiceEntry :=
  if list.any fun entry => entry.serviceId == id then list else list ++ [⟨id, false⟩]

/-- The services of another node are added; the list is sorted when one was new. -/
def mergeServices (qsort : List ServiceEntry → List ServiceEntry) (serviceList : List ℕ) :
    SyncNode :=
  let merged := serviceList.foldl addService node.myServiceList
  { node with
    myServiceList := if merged = node.myServiceList then merged else qsort merged }

/-- `sync_service_build_handler`. -/
def syncServiceBuildHandler (qsort : List ServiceEntry → List ServiceEntry) (nodeid : ℕ)
    (ringId : RingId) (serviceList : List ℕ) : SyncNode :=
  if node.myRingId = ringId then
    let marked := (node.mergeServices qsort serviceList).markReceived nodeid
    if marked.allReceived then marked.syncProcessEnter else marked
  else
    node

/-- `sync_deliver_fn`. -/
def syncDeliverFn (qsort : List ServiceEntry → List ServiceEntry) (nodeid : ℕ) :
    SyncMessage → SyncNode
  | .barrier ringId => node.syncBarrierHandler nodeid ringId
  | .serviceBuild ringId serviceList =>
    node.syncServiceBuildHandler qsort nodeid ringId serviceList

/-- `sync_barrier_enter`. -/
def syncBarrierEnter (entry : ServiceEntry) : SyncNode :=
  { node with
    myState := .barrier
    schedwrk := false
    outgoing := node.outgoing ++ [.barrier node.myRingId]
    calls := node.calls ++ [.barrier entry.serviceId] }

/-- `schedwrk_processor`, called while its work item exists. `done` is whether `sync_process`
returns zero; without callbacks it is not called. -/
def schedwrkProcessor (done : Bool) : SyncNode :=
  let entry := node.myServiceList.getD node.myProcessingIdx ⟨0, false⟩
  if entry.activate then
    { node with schedwrk := false }
  else if node.services.retrieve entry.serviceId then
    if done then
      syncBarrierEnter { node with calls := node.calls ++ [.processed entry.serviceId] } entry
    else
      node
  else
    node.syncBarrierEnter entry

/-- `sync_abort`, as far as it is seen in the next round. -/
def syncAbort : SyncNode :=
  { node with
    schedwrk := if node.myState = .process then false else node.schedwrk
    myRingId := ⟨0, 0⟩ }

/-- `sync_start`. -/
def syncStart (memberList : List ℕ) (ringId : RingId) : SyncNode :=
  let own := ownServices node.services
  { node with
    myRingId := ringId
    myState := .servicelistBuild
    myProcessorList := memberList.map fun nodeid => ⟨nodeid, false⟩
    myProcessingIdx := 0
    myServiceList := own.map fun id => ⟨id, false⟩
    outgoing := node.outgoing ++ [.serviceBuild ringId own] }

end SyncNode

end Corosync.Sync
