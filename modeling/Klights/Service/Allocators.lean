import Klights.Lib.Pool
import Klights.Lib.Runs
import Klights.Service.Fields

/-!
# The address allocators of Services

The ClusterIP and NodePort allocators (`klights-controllers/src/service.rs`) beside the stored Services, over any
interleaving of creations, deletions and rebuilds. A creation writes its fields (`allocate_service_fields_in_object`),
is stored, and releases what it was given if it is not; a deletion releases what the deleted Service has; a rebuild
lists the stored Services and takes their addresses for the allocated ones. Each call of an allocator or of the store is
a step of its own.

- `ServiceIpam.allocate`, `NodePortAllocator.allocate`: the allocators;
- `Task`, `World.advance`: what a request or a rebuild under way does next;
- `step`: one step of one task, or the start of one.
-/

namespace Klights.Service

open Lib Store

/-! ## Allocators -/

inductive AllocatorState where
  | notReady
  | ready
  | failed
  deriving DecidableEq

structure NodePortAllocator where
  allocated : Finset Nat
  state : AllocatorState

def NodePortAllocator.pool (alloc : NodePortAllocator) : Pool := ⟨30000, 32767, alloc.allocated⟩

def NodePortAllocator.allocate (alloc : NodePortAllocator) : Except String (Nat × NodePortAllocator) :=
  if alloc.state ≠ .ready then .error "NodePort allocator is not ready"
  else
    match alloc.pool.next with
    | none => .error "NodePort range 30000-32767 exhausted"
    | some port => .ok (port, { alloc with allocated := insert port alloc.allocated })

structure ServiceIpam where
  startIp : UInt32
  endIp : UInt32
  allocated : Finset Nat

def ServiceIpam.pool (ipam : ServiceIpam) : Pool := ⟨ipam.startIp.toNat, ipam.endIp.toNat, ipam.allocated⟩

def ServiceIpam.allocate (ipam : ServiceIpam) : Except String (String × ServiceIpam) :=
  match ipam.pool.next with
  | none => .error "Service ClusterIP range exhausted"
  | some ip => .ok (ipv4Text ip, { ipam with allocated := insert ip ipam.allocated })

structure PendingServiceAllocations where
  clusterIp : Option String
  nodePorts : List Nat

def PendingServiceAllocations.addresses (pending : PendingServiceAllocations) : List Address :=
  ((pending.clusterIp.bind parseIpToU32).map .clusterIp).toList ++ pending.nodePorts.map .nodePort

def serviceClusterIps (service : Json) : List Nat := ((service.get "spec").map specClusterIps).getD []

def serviceNodePorts (service : Json) : List Nat := ((service.get "spec").map specNodePorts).getD []

/-- What `release_service_allocations_from_resource` releases: each ClusterIP once, the NodePorts of all ports. -/
def releasedAddresses (service : Json) : List Address :=
  (serviceClusterIps service).dedup.map .clusterIp ++ (serviceNodePorts service).map .nodePort

/-! ## Tasks -/

abbrev ServiceKey := String × String

/-- What a request or a rebuild under way does next. -/
inductive Task where
  /-- A creation that needs a ClusterIP, and waits for the allocation lock. -/
  | addressing (key : ServiceKey) (service : Json)
  /-- The range is exhausted, and the Services are to be listed. -/
  | listing (key : ServiceKey) (service : Json)
  /-- They are listed, and the allocator is to be rebuilt. -/
  | relisted (key : ServiceKey) (service : Json) (services : List Json)
  /-- The port at an index may need a NodePort. -/
  | porting (key : ServiceKey) (service : Json) (index : Nat) (pending : PendingServiceAllocations)
  /-- The Service is to be stored. -/
  | prepared (key : ServiceKey) (service : Json) (pending : PendingServiceAllocations)
  /-- Addresses are to be released, one by one. -/
  | releasing (addresses : List Address)
  /-- A rebuild of the ClusterIP allocator from listed Services. -/
  | rebuildingIps (services : List Json)
  /-- A rebuild of the NodePort allocator from listed Services, if they could be listed. -/
  | rebuildingPorts (services : Option (List Json))

abbrev StoredServices := Table (Prod.fst : ServiceKey × Json → ServiceKey)

/-- The stored Services, the allocators, the holder of the allocation lock, and the tasks under way. -/
structure World where
  stored : StoredServices
  ipam : ServiceIpam
  nodePorts : NodePortAllocator
  guard : Option Nat
  tasks : Nat → Option Task

namespace World

def setTask (world : World) (i : Nat) (task : Option Task) : World :=
  { world with tasks := Function.update world.tasks i task }

def unlock (world : World) (i : Nat) : World := if world.guard = some i then { world with guard := none } else world

def services (world : World) : List Json := world.stored.rows.map Prod.snd

def rebuildIps (world : World) (services : List Json) : World :=
  { world with ipam := { world.ipam with allocated := (services.flatMap serviceClusterIps).toFinset } }

/-- `rebuild_nodeport_allocator_from_services`: Services that could not be listed have no NodePorts. -/
def rebuildPorts (world : World) (services : Option (List Json)) : World :=
  { world with nodePorts := ⟨((services.getD []).flatMap serviceNodePorts).toFinset, .ready⟩ }

def release (world : World) : Address → World
  | .clusterIp ip => { world with ipam := { world.ipam with allocated := world.ipam.allocated.erase ip } }
  | .nodePort port =>
    { world with nodePorts := { world.nodePorts with allocated := world.nodePorts.allocated.erase port } }

/-- A ClusterIP is allocated under the lock and written; none if the range is exhausted. -/
def allocateClusterIp (world : World) (i : Nat) (key : ServiceKey) (service : Json) : Option World :=
  match world.ipam.allocate with
  | .error _ => none
  | .ok (clusterIp, ipam) =>
    let service := service.modifyField "spec" fun spec => normalizeServiceIpFamilyDefaults (setClusterIp clusterIp spec)
    some ({ world with ipam := ipam, guard := some i }.setTask i (some (.porting key service 0 ⟨some clusterIp, []⟩)))

def allocateNodePort (world : World) (i : Nat) (key : ServiceKey) (service : Json) (index : Nat)
    (pending : PendingServiceAllocations) : World :=
  match (nodePortPorts ((service.get "spec").getD .null))[index]? with
  | none => (world.unlock i).setTask i (some (.prepared key service pending))
  | some port =>
    if port.asObject.isSome ∧ needsNodePort port then
      match world.nodePorts.allocate with
      | .error _ => world.setTask i (some (.releasing pending.addresses))
      | .ok (number, nodePorts) =>
        { world with nodePorts := nodePorts }.setTask i
          (some (.porting key (service.modifyField "spec" (setNodePort index number)) (index + 1)
            { pending with nodePorts := pending.nodePorts ++ [number] }))
    else world.setTask i (some (.porting key service (index + 1) pending))

/-- A task goes on; `ok` says whether the store answers it. -/
def advance (world : World) (i : Nat) (ok : Bool) : Task → World
  | .addressing key service =>
    if world.guard = none then (world.allocateClusterIp i key service).getD
        ({ world with guard := some i }.setTask i (some (.listing key service)))
    else world
  | .listing key service =>
    if ok then world.setTask i (some (.relisted key service world.services)) else (world.unlock i).setTask i none
  | .relisted key service services => ((world.rebuildIps services).allocateClusterIp i key service).getD
      (((world.rebuildIps services).unlock i).setTask i none)
  | .porting key service index pending => world.allocateNodePort i key service index pending
  | .prepared key service pending =>
    if ok ∧ world.stored.find key = none then
      { world with stored := world.stored.put (key, service) }.setTask i none
    else world.setTask i (some (.releasing pending.addresses))
  | .releasing [] => (world.unlock i).setTask i none
  | .releasing (address :: rest) => (world.release address).setTask i (some (.releasing rest))
  | .rebuildingIps services => (world.rebuildIps services).setTask i none
  | .rebuildingPorts services => (world.rebuildPorts services).setTask i none

end World

inductive Action where
  /-- A creation starts as task `i`. -/
  | create (i : Nat) (key : ServiceKey) (service : Json)
  /-- A stored Service is deleted, and task `i` releases its addresses. -/
  | delete (i : Nat) (key : ServiceKey)
  /-- The Services are listed for a rebuild by task `i`. -/
  | listForIps (i : Nat)
  | listForPorts (i : Nat) (ok : Bool)
  /-- Task `i` goes on. -/
  | advance (i : Nat) (ok : Bool)

/-- The first part of a creation: the defaults, and whether a ClusterIP is needed. -/
def startCreation (key : ServiceKey) (service : Json) : Option Task :=
  match normalizeService service with
  | .error _ => none
  | .ok service =>
    if needsClusterIp ((service.get "spec").getD .null) then some (.addressing key service)
    else some (.porting key (service.modifyField "spec" normalizeServiceIpFamilyDefaults) 0 ⟨none, []⟩)

def step (world : World) (action : Action) : World :=
  match action with
  | .create i key service => if (world.tasks i).isNone then world.setTask i (startCreation key service) else world
  | .delete i key =>
    match world.tasks i, world.stored.find key with
    | none, some row =>
      { world with stored := world.stored.deleteWhere fun other => other.1 = key }.setTask i
        (some (.releasing (releasedAddresses row.2)))
    | _, _ => world
  | .listForIps i => if (world.tasks i).isNone then world.setTask i (some (.rebuildingIps world.services)) else world
  | .listForPorts i ok =>
    if (world.tasks i).isNone then
      world.setTask i (some (.rebuildingPorts (if ok then some world.services else none)))
    else world
  | .advance i ok =>
    match world.tasks i with
    | none => world
    | some task => world.advance i ok task

end Klights.Service
