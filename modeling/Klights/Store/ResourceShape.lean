import Klights.Json

/-!
# Object shape normalisation

The JSON edits every stored object goes through (`sqlite/resource_shape.rs`, `klights-types/src/resource_semantics.rs`):
identity and resourceVersion are written into the body, server-owned metadata survives a client write, a Pod's scalar
addresses are mirrored into the address arrays, and a terminating Pod is marked unready.
-/

namespace Klights.Store

open Json

/-- A field that is absent, not a string, or the empty string. -/
def missingOrEmpty (field : Option Json) : Bool :=
  ((field.bind asStr).map String.isEmpty).getD true

/-! ## Identity -/

def isWatchEnvelopeType (eventType : String) : Bool :=
  eventType = "ADDED" || eventType = "MODIFIED" || eventType = "DELETED" || eventType = "ERROR"

/-- A watch envelope: a known `type` next to an `object`. -/
def isWatchEnvelope (fields : List (String × Json)) : Bool :=
  ((Json.Fields.get "type" fields).bind asStr).any isWatchEnvelopeType && (Json.Fields.get "object" fields).isSome

/-- The identity a stored object is stamped with. -/
structure HydrateIdentity where
  apiVersion : String
  kind : String
  ns : Option String
  name : String
  resourceVersion : Int

/-- Write name, namespace and resourceVersion into `metadata`. -/
def hydrateMetadata (identity : HydrateIdentity) (metadata : Json) : Json :=
  let metadata := metadata.insertField "name" (.str identity.name)
  let metadata := match identity.ns with
    | some ns => metadata.insertField "namespace" (.str ns)
    | none => metadata
  metadata.insertField "resourceVersion" (.str (toString identity.resourceVersion))

def hydrateObject (identity : HydrateIdentity) (object : Json) : Json :=
  let object := object.insertField "apiVersion" (.str identity.apiVersion)
  let object := object.insertField "kind" (.str identity.kind)
  object.entryOrInsert "metadata" (.obj []) (hydrateMetadata identity)

mutual

/-- Stamp an object, or the object inside a watch envelope. -/
def hydrateWatchEventData (identity : HydrateIdentity) : Json → Json
  | .obj fields =>
    if isWatchEnvelope fields then .obj (hydrateEnvelope identity fields)
    else hydrateObject identity (.obj fields)
  | .null => .null
  | .bool b => .bool b
  | .num n => .num n
  | .float r => .float r
  | .str s => .str s
  | .arr items => .arr items

def hydrateEnvelope (identity : HydrateIdentity) : List (String × Json) → List (String × Json)
  | [] => []
  | (key, value) :: rest =>
    if key = "object" then (key, hydrateWatchEventData identity value) :: rest
    else (key, value) :: hydrateEnvelope identity rest

end

def clearMetadataResourceVersion (data : Json) : Json :=
  data.modifyField "metadata" fun metadata => metadata.removeField "resourceVersion"

def ensureResourceTypeMeta (apiVersion kind : String) (data : Json) : Json :=
  let data := if missingOrEmpty (data.get "apiVersion") then data.insertField "apiVersion" (.str apiVersion) else data
  if missingOrEmpty (data.get "kind") then data.insertField "kind" (.str kind) else data

def ensureMetadataIdentity (ns : Option String) (name : String) (data : Json) : Json :=
  data.entryOrInsert "metadata" (.obj []) fun metadata =>
    let metadata := if missingOrEmpty (metadata.get "name") then metadata.insertField "name" (.str name) else metadata
    match ns with
    | some ns =>
      if missingOrEmpty (metadata.get "namespace") then metadata.insertField "namespace" (.str ns) else metadata
    | none => metadata

/-- The UID in the body, unless it is blank. -/
def metadataUid (data : Json) : Option String := (data.strAt ["metadata", "uid"]).filter fun uid => !isBlank uid

/-- Both bodies name a UID, and they differ. -/
def changesMetadataUid (incoming existing : Json) : Bool :=
  match metadataUid incoming, metadataUid existing with
  | some incomingUid, some existingUid => incomingUid ≠ existingUid
  | _, _ => false

/-! ## Server-owned metadata -/

def copyField (key : String) (existing metadata : Json) : Json :=
  match existing.get key with
  | some value => metadata.insertField key value
  | none => metadata

/-- Copy a field of the stored metadata over unless it is `null`. -/
def copyNonNullField (key : String) (existing metadata : Json) : Json :=
  match existing.get key with
  | some .null | none => metadata
  | some value => metadata.insertField key value

/-- A write may shorten the deletion grace period, never lengthen it. -/
def carriesShorterDeleteGrace (existing metadata : Json) : Bool :=
  match (metadata.get "deletionGracePeriodSeconds").bind asI64,
      (existing.get "deletionGracePeriodSeconds").bind asI64 with
  | some incoming, some existing => 0 ≤ incoming && incoming < existing
  | _, _ => false

def preserveServerMetadata (existing metadata : Json) : Json :=
  let metadata := if missingOrEmpty (metadata.get "uid") then copyField "uid" existing metadata else metadata
  let metadata :=
    if missingOrEmpty (metadata.get "creationTimestamp") then copyField "creationTimestamp" existing metadata
    else metadata
  if carriesShorterDeleteGrace existing metadata then metadata
  else copyNonNullField "deletionGracePeriodSeconds" existing (copyNonNullField "deletionTimestamp" existing metadata)

/-- Only when both bodies have an object under `metadata`. -/
def preserveServerMetadataFieldsFromExisting (existing data : Json) : Json :=
  match data.get "metadata", existing.get "metadata" with
  | some (.obj metadata), some (.obj existingMetadata) =>
    data.insertField "metadata" (preserveServerMetadata (.obj existingMetadata) (.obj metadata))
  | _, _ => data

/-! ## Pod addresses -/

def mirrorAddress (scalar array : String) (status : Json) : Json :=
  match ((status.get scalar).bind asStr).filter fun ip => !ip.isEmpty with
  | some ip =>
    let first := (((status.get array).bind asArray).bind List.head?).bind fun entry => entry.strAt ["ip"]
    if first.getD "" = ip then status else status.insertField array (.arr [.obj [("ip", .str ip)]])
  | none => status

def ensurePodStatusIpArrays (apiVersion kind : String) (data : Json) : Json :=
  if apiVersion ≠ "v1" ∨ kind ≠ "Pod" then data
  else data.modifyField "status" fun status => mirrorAddress "hostIP" "hostIPs" (mirrorAddress "podIP" "podIPs" status)

/-! ## Terminating Pods -/

/-- A patch that marks a Pod for deletion and touches nothing but the mark and the status. -/
def isPodDeleteMarkPatch (apiVersion kind : String) (patch : Json) : Bool :=
  if apiVersion ≠ "v1" ∨ kind ≠ "Pod" then false
  else
    match patch.asObject, (patch.get "metadata").bind asObject with
    | some fields, some metadata => (fields.all fun field => field.1 = "metadata" || field.1 = "status") &&
        ((Json.Fields.get "deletionTimestamp" metadata).any fun timestamp => !timestamp.isNull) &&
        metadata.all fun field =>
          field.1 = "deletionTimestamp" || field.1 = "deletionGracePeriodSeconds" || field.1 = "generation"
    | _, _ => false

def podDeleteMarkPatchWithoutStatus (patch : Json) : Json := patch.removeField "status"

def podDeleteMarkTransitionTime (patch : Json) : Option String :=
  (((patch.pointer ["status", "conditions"]).bind asArray).bind fun conditions =>
    conditions.find? fun condition => condition.strAt ["type"] = some "Ready").bind fun condition =>
      condition.strAt ["lastTransitionTime"]

/-- Turn a readiness condition false; its transition time moves only if the status changes. -/
def terminateCondition (now : String) (condition : Json) : Json :=
  let statusChanged := condition.strAt ["status"] ≠ some "False"
  let condition := condition.insertField "status" (.str "False")
  let condition := condition.insertField "reason" (.str "PodTerminating")
  let condition := condition.insertField "message" (.str "Pod is terminating")
  if statusChanged ∨ (condition.get "lastTransitionTime").isNone then
    condition.insertField "lastTransitionTime" (.str now)
  else condition

def upsertTerminatingReadinessCondition (conditionType now : String) : List Json → List Json
  | [] =>
    [.obj [("lastTransitionTime", .str now), ("message", .str "Pod is terminating"),
      ("reason", .str "PodTerminating"), ("status", .str "False"), ("type", .str conditionType)]]
  | condition :: rest =>
    if condition.strAt ["type"] = some conditionType then terminateCondition now condition :: rest
    else condition :: upsertTerminatingReadinessCondition conditionType now rest

def unreadyContainers (list : String) (status : Json) : Json :=
  match (status.get list).bind asArray with
  | some statuses => status.insertField list (.arr (statuses.map fun s => s.insertField "ready" (.bool false)))
  | none => status

def markTerminatingPodUnreadyAt (now : String) (data : Json) : Json :=
  match data.get "status" with
  | some (.obj fields) =>
    let status := unreadyContainers "initContainerStatuses" (unreadyContainers "containerStatuses" (.obj fields))
    let conditions := ((status.get "conditions").bind asArray).getD []
    let conditions := upsertTerminatingReadinessCondition "ContainersReady" now
      (upsertTerminatingReadinessCondition "Ready" now conditions)
    data.insertField "status" (status.insertField "conditions" (.arr conditions))
  | _ => data

/-- A deletion timestamp that is neither null nor blank; anything but a string counts as set. -/
def hasDeletionTimestamp (data : Json) : Bool :=
  match data.pointer ["metadata", "deletionTimestamp"] with
  | none | some .null => false
  | some (.str timestamp) => !isBlank timestamp
  | some _ => true

def podTerminatingConditionTime (data : Json) : Option String :=
  (((data.pointer ["status", "conditions"]).bind asArray).getD []).findSome? fun condition =>
    let conditionType := condition.strAt ["type"]
    if (conditionType = some "Ready" ∨ conditionType = some "ContainersReady") ∧
        condition.strAt ["status"] = some "False" ∧ condition.strAt ["reason"] = some "PodTerminating" then
      condition.strAt ["lastTransitionTime"]
    else none

def deletionTimestampText (data : Json) : Option String :=
  (data.strAt ["metadata", "deletionTimestamp"]).filter fun timestamp => !isBlank timestamp

/-- The time a terminating Pod became unready, read from the bodies alone so that replicas agree. -/
def deterministicTerminatingUnreadyTimestamp (data existing : Json) : Option String :=
  (deletionTimestampText data).or <| (deletionTimestampText existing).or <|
    (podTerminatingConditionTime data).or (podTerminatingConditionTime existing)

end Klights.Store
