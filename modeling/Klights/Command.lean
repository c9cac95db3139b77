import Klights.Json

/-!
# Storage commands and outbox operations

The logical commands a node or the API server asks the leader to replicate (`klights-cluster-core/src/command.rs`),
and the operations under which a node delivers them (`klights-cluster-core/src/outbox.rs`).
-/

namespace Klights

/-! ## Commands -/

structure ResourceKey where
  apiVersion : String
  kind : String
  ns : Option String
  name : String
  deriving DecidableEq

/-- A stored object with its identity columns. -/
structure Resource where
  key : ResourceKey
  uid : String
  resourceVersion : Int
  data : Json
  deriving DecidableEq

structure ResourcePreconditions where
  uid : Option String
  resourceVersion : Option Int
  deriving DecidableEq, Repr, Inhabited

inductive PatchKind where
  | merge
  deriving DecidableEq

inductive ResourceBatchOperation where
  | put (key : ResourceKey)
  | delete (key : ResourceKey)

def ResourceBatchOperation.key : ResourceBatchOperation → ResourceKey
  | .put key | .delete key => key

inductive StorageCommand where
  | createResource (key : ResourceKey) (data : Json)
  | updateResource (key : ResourceKey) (data : Json) (expectedRv : Int) (preconditions : ResourcePreconditions)
      (preserveStatus : Bool)
  | deleteResource (key : ResourceKey) (preconditions : ResourcePreconditions)
  | finalizeBoundPod (ns name podUid nodeName : String) (observedResourceVersion : Int)
  | deleteResourceWithTombstone (key : ResourceKey) (preconditions : ResourcePreconditions) (graceSeconds : Int)
  | patchResource (key : ResourceKey) (patchKind : PatchKind) (patch : Json) (preconditions : ResourcePreconditions)
      (strictResourceVersion : Bool)
  | updateStatus (key : ResourceKey) (status : Json) (expectedRv : Option Int) (preconditions : ResourcePreconditions)
      (observedStatusStamp : Option Int)
  | applyResourceBatch (operations : List ResourceBatchOperation)
  | createNamespace (name : String) (data : Json)
  | updateNamespace (name : String) (data : Json) (expectedRv : Int)
  | deleteNamespace (name : String)
  | deleteNamespaceContents (name : String)
  | allocateNodeSubnet (nodeName subnet nodeIp : String)
  | updateNodePeerAttributes (nodeName mode : String) (hostportRange : Option String)
  | updateNodeDataplane (nodeName mode encryption : String) (publicKey : Option String) (endpoint : String)
      (port : Option (BitVec 16))
  | deleteNodeSubnet (nodeName : String)
  | podSlotTryAdmit (ns podName podUid nodeName : String)
  | podSlotMarkTerminating (ns podName podUid nodeName : String)
  | podSlotClearIfUid (ns podName podUid nodeName : String)
  | movePodToCleanupIntent (nodeName ns podName podUid reason : String)
  | deletePodCleanupIntent (nodeName ns podName podUid reason : String)
  | deletePodCleanupIntentsForNode (nodeName : String)
  | watchEventAppend (eventBytes : List UInt8) (rv : Int)
  | gcWatchEvents (maxRows batchCap : Int)
  | gcAppliedOutbox (cutoffMs : Int)
  | advanceResourceVersion (minRv newRv : Int)
  | ensureClusterMetadata (clusterId : String)
  | setKlightsMeta (key value : String)

def StorageCommand.variantName : StorageCommand → String
  | .createResource .. => "CreateResource"
  | .updateResource .. => "UpdateResource"
  | .deleteResource .. => "DeleteResource"
  | .finalizeBoundPod .. => "FinalizeBoundPod"
  | .deleteResourceWithTombstone .. => "DeleteResourceWithTombstone"
  | .patchResource .. => "PatchResource"
  | .updateStatus .. => "UpdateStatus"
  | .applyResourceBatch .. => "ApplyResourceBatch"
  | .createNamespace .. => "CreateNamespace"
  | .updateNamespace .. => "UpdateNamespace"
  | .deleteNamespace .. => "DeleteNamespace"
  | .deleteNamespaceContents .. => "DeleteNamespaceContents"
  | .allocateNodeSubnet .. => "AllocateNodeSubnet"
  | .updateNodePeerAttributes .. => "UpdateNodePeerAttributes"
  | .updateNodeDataplane .. => "UpdateNodeDataplane"
  | .deleteNodeSubnet .. => "DeleteNodeSubnet"
  | .podSlotTryAdmit .. => "PodSlotTryAdmit"
  | .podSlotMarkTerminating .. => "PodSlotMarkTerminating"
  | .podSlotClearIfUid .. => "PodSlotClearIfUid"
  | .movePodToCleanupIntent .. => "MovePodToCleanupIntent"
  | .deletePodCleanupIntent .. => "DeletePodCleanupIntent"
  | .deletePodCleanupIntentsForNode .. => "DeletePodCleanupIntentsForNode"
  | .watchEventAppend .. => "WatchEventAppend"
  | .gcWatchEvents .. => "GcWatchEvents"
  | .gcAppliedOutbox .. => "GcAppliedOutbox"
  | .advanceResourceVersion .. => "AdvanceResourceVersion"
  | .ensureClusterMetadata .. => "EnsureClusterMetadata"
  | .setKlightsMeta .. => "SetKlightsMeta"

/-! ## Operations -/

/-- The operations of node outbox rows; a lease renewal has a leader capability of its own. -/
inductive OutboxOperation where
  | podStatus
  | runtimeReconcile
  | probeReadiness
  | deadlineExceeded
  | containerStatusSnapshot
  | ephemeralContainerStatuses
  | podMetadata
  | nodeRegistration
  | nodeDataplane
  | nodeStatus
  | leaseRenew
  | eventCreate

def OutboxOperation.asStr : OutboxOperation → String
  | .podStatus => "PodStatus"
  | .runtimeReconcile => "RuntimeReconcile"
  | .probeReadiness => "ProbeReadiness"
  | .deadlineExceeded => "DeadlineExceeded"
  | .containerStatusSnapshot => "ContainerStatusSnapshot"
  | .ephemeralContainerStatuses => "EphemeralContainerStatuses"
  | .podMetadata => "PodMetadata"
  | .nodeRegistration => "NodeRegistration"
  | .nodeDataplane => "NodeDataplane"
  | .nodeStatus => "NodeStatus"
  | .leaseRenew => "LeaseRenew"
  | .eventCreate => "EventCreate"

def OutboxOperation.isSupersedablePodStatus : OutboxOperation → Bool
  | .podStatus | .runtimeReconcile | .probeReadiness | .deadlineExceeded | .containerStatusSnapshot
  | .ephemeralContainerStatuses => true
  | _ => false

structure OutboxStreamWatermark where
  clientId : String
  streamId : Int
  streamSeq : Int

inductive OutboxApplyOutcome where
  | applied (appliedRv : Int)
  | alreadyApplied (appliedRv : Option Int)
  deriving DecidableEq

inductive OutboxApplyError where
  | retryable (message : String)
  | conflictTerminal (message : String)
  | notFound (message : String)
  | uidMismatch (expected actual : String)
  deriving DecidableEq

def OutboxApplyError.display : OutboxApplyError → String
  | .retryable message | .conflictTerminal message | .notFound message => message
  | .uidMismatch expected actual => "delivery UID mismatch: expected " ++ expected ++ ", actual " ++ actual

def OutboxApplyError.isTerminal : OutboxApplyError → Bool
  | .retryable _ => false
  | _ => true

end Klights
