import Klights.Store.NodeSubnets
import Klights.Store.WatchLog

/-!
# The tables of `cluster.db`

`Tables` is what the mutations of a commit act on; `ClusterDb` adds the outbox stream positions and the resourceVersion
counter, which only the coordinator writes. The two resource tables are one table keyed by the optional namespace: a
row of `namespaced_resources` has a namespace, a row of `cluster_resources` has none.

The selector and owner indexes (`sqlite/selector_index.rs`, `sqlite/owner_ref_index.rs`) are kept beside the rows they
are computed from.
-/

namespace Klights.Store

open Lib

/-! ## Rows -/

structure ResourceRow where
  key : ResourceKey
  uid : String
  resourceVersion : Int
  createdRv : Int
  data : Blob
  deriving DecidableEq

structure NamespaceRow where
  name : String
  uid : String
  resourceVersion : Int
  data : Blob
  deriving DecidableEq

structure MetaRow where
  key : String
  value : String
  deriving DecidableEq

structure PodCleanupIntentRow where
  key : LogApplyPodCleanupIntentKey
  resourceVersion : Int
  createdAtMs : Int
  podData : Blob
  deriving DecidableEq

/-- The identity columns of an index row; a cluster-scoped object is indexed under the empty namespace. -/
structure IndexKey where
  apiVersion : String
  kind : String
  ns : String
  name : String
  deriving DecidableEq

variable (key : ResourceKey)

def indexKey : IndexKey := ⟨key.apiVersion, key.kind, key.ns.getD "", key.name⟩

/-- A row of `resource_labels` or `resource_fields`. -/
structure SelectorIndexRow where
  resource : IndexKey
  key : String
  value : String
  deriving DecidableEq

structure OwnerRefRow where
  resource : IndexKey
  ownerUid : String
  ownerApiVersion : String
  ownerKind : String
  ownerName : String
  controller : Bool
  blockOwnerDeletion : Bool
  ordinal : Nat
  deriving DecidableEq

structure WatermarkRow where
  clientId : String
  streamId : Int
  lastSeq : Int
  deriving DecidableEq

def WatermarkRow.stream (row : WatermarkRow) : String × Int := (row.clientId, row.streamId)

/-! ## Tables -/

structure Tables where
  resources : Table ResourceRow.key
  namespaces : Table NamespaceRow.name
  labels : List SelectorIndexRow
  fields : List SelectorIndexRow
  ownerRefs : List OwnerRefRow
  watch : WatchLog
  nodeSubnets : NodeSubnets
  nodeDataplanes : NodeDataplanes
  appliedOutbox : Table LogApplyAppliedOutboxRow.idempotencyKey
  klightsMeta : Table MetaRow.key
  podCleanupIntents : Table PodCleanupIntentRow.key
  deriving DecidableEq

def Tables.empty : Tables where
  resources := .empty
  namespaces := .empty
  labels := []
  fields := []
  ownerRefs := []
  watch := .empty
  nodeSubnets := .empty
  nodeDataplanes := .empty
  appliedOutbox := .empty
  klightsMeta := .empty
  podCleanupIntents := .empty

structure ClusterDb where
  tables : Tables
  watermarks : Table WatermarkRow.stream
  resourceVersion : Int
  deriving DecidableEq

def ClusterDb.empty : ClusterDb := ⟨.empty, .empty, 0⟩

def ClusterDb.lastSeq (db : ClusterDb) (clientId : String) (streamId : Int) : Option Int :=
  (db.watermarks.find (clientId, streamId)).map WatermarkRow.lastSeq

/-! ## Selector indexes -/

def indexedFieldPaths (apiVersion kind : String) : List String :=
  if apiVersion = "v1" ∧ kind = "Pod" then
    ["spec.nodeName", "status.phase", "spec.restartPolicy", "spec.schedulerName", "spec.serviceAccountName",
      "status.podIP"]
  else if apiVersion = "v1" ∧ kind = "Node" then ["spec.unschedulable"]
  else if apiVersion = "v1" ∧ (kind = "PersistentVolume" ∨ kind = "PersistentVolumeClaim") then ["status.phase"]
  else if apiVersion = "v1" ∧ kind = "Secret" then ["type"]
  else if (apiVersion = "v1" ∨ apiVersion = "events.k8s.io/v1") ∧ kind = "Event" then
    ["reason", "type", "source", "reportingController", "reportingInstance", "involvedObject.kind",
      "involvedObject.uid", "involvedObject.name", "involvedObject.namespace"]
  else if apiVersion = "certificates.k8s.io/v1" ∧ kind = "CertificateSigningRequest" then ["spec.signerName"]
  else []

/-- The schema default of an indexed field that may be omitted. -/
def defaultFieldValue (apiVersion kind path : String) : Option String :=
  if apiVersion = "v1" ∧ kind = "Node" ∧ path = "spec.unschedulable" then some "false" else none

def scalarText : Json → Option String
  | .str s => some s
  | .bool b => some (if b then "true" else "false")
  | .num n => some (toString n)
  | .float repr => some repr
  | _ => none

def pathSegments (path : String) : List String := (path.toList.splitOn '.').map String.ofList

/-- The non-empty component names an event's `source` resolves to, in order of preference. -/
def sourceComponent (object : Json) : Option String :=
  [object.strAt ["source", "component"], object.strAt ["deprecatedSource", "component"],
    object.strAt ["reportingController"], object.strAt ["reportingComponent"]].findSome? fun component =>
      component.filter fun text => text ≠ ""

def resolveFieldValue (object : Json) (path : String) : Option String :=
  match if path = "source" then sourceComponent object else none with
  | some component => some component
  | none =>
    match pathSegments path with
    | "involvedObject" :: segment :: rest =>
      (((object.get "involvedObject").or (object.get "regarding")).bind fun involved =>
        involved.pointer (segment :: rest)).bind scalarText
    | segments => (object.pointer segments).bind scalarText

def extractLabels (data : Json) : List (String × String) :=
  (((data.pointer ["metadata", "labels"]).bind Json.asObject).getD []).filterMap fun label =>
    label.2.asStr.map fun value => (label.1, value)

def labelRows (data : Json) : List SelectorIndexRow :=
  (extractLabels data).map fun label => ⟨indexKey key, label.1, label.2⟩

def fieldRows (data : Json) : List SelectorIndexRow :=
  (indexedFieldPaths key.apiVersion key.kind).filterMap fun path =>
    ((resolveFieldValue data path).or (defaultFieldValue key.apiVersion key.kind path)).map fun value =>
      ⟨indexKey key, path, value⟩

/-! ## Owner index -/

/-- An owner reference without a string UID is not indexed. -/
def extractOwnerRef (reference : Json) : Option OwnerRefRow :=
  (reference.strAt ["uid"]).map fun uid =>
    { resource := indexKey key
      ownerUid := uid
      ownerApiVersion := (reference.strAt ["apiVersion"]).getD ""
      ownerKind := (reference.strAt ["kind"]).getD ""
      ownerName := (reference.strAt ["name"]).getD ""
      controller := ((reference.get "controller").bind Json.asBool).getD false
      blockOwnerDeletion := ((reference.get "blockOwnerDeletion").bind Json.asBool).getD false
      ordinal := 0 }

def ownerRefRows (data : Json) : List OwnerRefRow :=
  let references := ((data.pointer ["metadata", "ownerReferences"]).bind Json.asArray).getD []
  (references.filterMap (extractOwnerRef key)).zipIdx.map fun entry => { entry.1 with ordinal := entry.2 }

/-! ## Index maintenance -/

def Tables.deleteIndexes (tables : Tables) (key : ResourceKey) : Tables :=
  { tables with
    labels := tables.labels.filter fun row => row.resource ≠ indexKey key
    fields := tables.fields.filter fun row => row.resource ≠ indexKey key
    ownerRefs := tables.ownerRefs.filter fun row => row.resource ≠ indexKey key }

/-- `upsert_indexes_from_bytes`: delete and re-insert the index rows of an object. -/
def Tables.upsertIndexes (tables : Tables) (key : ResourceKey) (data : Json) : Tables :=
  let cleared := tables.deleteIndexes key
  { cleared with
    labels := cleared.labels ++ labelRows key data
    fields := cleared.fields ++ fieldRows key data
    ownerRefs := cleared.ownerRefs ++ ownerRefRows key data }

end Klights.Store
