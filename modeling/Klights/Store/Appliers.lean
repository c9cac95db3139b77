import Klights.Store.Tables

/-!
# Applying one mutation

The appliers of a committed mutation (`live_apply/state/*.rs`), each from the tables before to the tables after and
the wake-up it stages.

- resources: `applyPutResource`, `applyPatchResourceLatest`, `applyDeleteResource`;
- namespaces, ledger, watch history, network, metadata and cleanup rows, dispatched by `applyClusterMutation`;
- a mutation list runs front to back and stops at the first failure (`applyMutations`); ledger puts touch the ledger
  alone (`applyMutations_ledgerOnly`).
-/

namespace Klights.Store

open Lib

/-! ## Policies -/

inductive StatusApplyFreshness where
  | fresh
  | stale
  deriving DecidableEq

/-- The merge policies of `klights-cluster-core` the appliers call: the status a replicated status write leaves on the
live object, and the body a stale full write of the same UID leaves. -/
structure ApplyPolicies where
  mergeStatusForApply : (apiVersion kind : String) → (live status : Json) → StatusApplyFreshness → Json
  applySameUidStaleFullResourcePolicy : (apiVersion kind : String) → (data existing : Json) → Json

/-! ## Staged wake-ups -/

structure StagedPostCommit where
  apiVersion : String
  kind : String
  ns : Option String
  resourceVersion : Int
  deriving DecidableEq

abbrev Applied : Type := Tables × Option StagedPostCommit

variable (tables tbl : Tables)

/-- `emit_watch_from_bytes`: append a watch event unless the commit carries its own. -/
def Tables.emitWatch (emit : Bool) (key : ResourceKey) (resourceVersion : Int) (eventType : String)
    (data : Blob) : Except DbError Applied :=
  if !emit then .ok (tables, none)
  else do
    let watch ← insertWatchEventInConn tables.watch
      ⟨none, key.apiVersion, key.kind, key.ns, key.name, resourceVersion, eventType, data, true⟩
    .ok ({ tables with watch }, some ⟨key.apiVersion, key.kind, key.ns, resourceVersion⟩)

/-! ## Resource rows -/

def resourceIdentity (key : ResourceKey) : ResourceKey :=
  if useNamespacedTable key.apiVersion key.kind key.ns then { key with ns := some (key.ns.getD "default") }
  else { key with ns := none }

def Tables.upsertResource (key : ResourceKey) (uid : String) (resourceVersion : Int) (data : Blob) : Tables :=
  let createdRv := ((tables.resources.find key).map ResourceRow.createdRv).getD resourceVersion
  { tables with resources := tables.resources.put ⟨key, uid, resourceVersion, createdRv, data⟩ }

theorem find_upsertResource (k other : ResourceKey) (u : String) (v : Int) (d : Blob) :
    (tbl.upsertResource k u v d).resources.find other = if k = other then
        some ⟨k, u, v, ((tbl.resources.find k).map ResourceRow.createdRv).getD v, d⟩
      else tbl.resources.find other :=
  Table.find_put _ _ _

def Tables.deleteResource (key : ResourceKey) : Tables :=
  { tables with resources := tables.resources.deleteWhere fun row => row.key = key }

def ResourceRow.currentState (row : ResourceRow) : CurrentResourceState := ⟨some row.uid, row.resourceVersion⟩

def validatePutResourceApplyPreconditions (row : LogApplyResourceRow) (existing : Option ResourceRow) :
    Except DbError Unit :=
  (validateApplyPreconditions
    ⟨row.requireAbsent, row.requireExisting, row.preconditionUid, row.preconditionResourceVersion⟩
    (existing.map ResourceRow.currentState)).mapError applyPreconditionError

def LogApplyResourceRow.hydrateIdentity (row : LogApplyResourceRow) : HydrateIdentity :=
  ⟨row.key.apiVersion, row.key.kind, row.key.ns, row.key.name, row.resourceVersion⟩

section Normalization

variable (policies : ApplyPolicies)

/-- A status-only write lands on the live object: only its status is merged in. -/
def mergeStatusOnlyRowWithExisting (row : LogApplyResourceRow) : Option ResourceRow → Except DbError LogApplyResourceRow
  | none => .ok row
  | some current =>
    if !row.statusOnly then .ok row
    else do
      let status := (row.data.get "status").getD (.obj [])
      let live ← decodeJson current.data
      let freshness : StatusApplyFreshness :=
        if row.preconditionResourceVersion.any fun expected => expected < current.resourceVersion then .stale
        else .fresh
      let status := policies.mergeStatusForApply row.key.apiVersion row.key.kind live status freshness
      match live with
      | .obj fields =>
        let live := hydrateWatchEventData row.hydrateIdentity (.obj (Json.Fields.insert "status" status fields))
        let live := ensurePodStatusIpArrays row.key.apiVersion row.key.kind live
        .ok { row with
          preconditionResourceVersion :=
            if freshness = .stale ∧ row.preconditionUid = some current.uid then none
            else row.preconditionResourceVersion
          uid := current.uid
          data := live }
      | _ => .error (.other "status-only log_apply target is not a JSON object")

/-- The UID a row writes: the one in its body, else its own column. -/
def LogApplyResourceRow.incomingUid (row : LogApplyResourceRow) : Option String :=
  (metadataUid row.data).or (if row.uid = "" then none else some row.uid)

def metadataGeneration (data : Json) : Option Int := (data.pointer ["metadata", "generation"]).bind Json.asI64

variable (row : LogApplyResourceRow) (existing : Option ResourceRow)

/-- A full write that is stale for the same object leaves the newer stored body. -/
def preserveNewerSameUidRowOnStaleCommittedPut : Except DbError LogApplyResourceRow :=
  if row.statusOnly then .ok row
  else
    match row.preconditionResourceVersion, existing with
    | some expected, some current =>
      if expected ≥ current.resourceVersion ∨ row.incomingUid ≠ some current.uid then .ok row
      else do
        let existingData ← decodeJson current.data
        if hasDeletionTimestamp existingData then .ok row
        else
          let newer := match metadataGeneration existingData, metadataGeneration row.data with
            | some existingGeneration, some incomingGeneration => decide (incomingGeneration ≥ existingGeneration)
            | _, _ => false
          if newer then .ok row
          else
            let data := hydrateWatchEventData row.hydrateIdentity existingData
            .ok { row with
              uid := current.uid
              data := ensurePodStatusIpArrays row.key.apiVersion row.key.kind data }
    | _, _ => .ok row

/-- A write of the same object keeps the server's metadata, and a terminating Pod stays unready. -/
def preserveSameUidServerMetadataFromExisting : Except DbError LogApplyResourceRow :=
  match existing with
  | none => .ok row
  | some current =>
    if row.incomingUid ≠ some current.uid then .ok row
    else do
      let existingData ← decodeJson current.data
      let data := preserveServerMetadataFieldsFromExisting existingData row.data
      let data :=
        if row.preconditionResourceVersion.any fun expected => expected ≠ current.resourceVersion then
          policies.applySameUidStaleFullResourcePolicy row.key.apiVersion row.key.kind data existingData
        else data
      let data :=
        if row.key.apiVersion = "v1" ∧ row.key.kind = "Pod" ∧ hasDeletionTimestamp existingData = true then
          markTerminatingPodUnreadyAt
            ((deterministicTerminatingUnreadyTimestamp data existingData).getD "1970-01-01T00:00:00Z") data
        else data
      .ok { row with data }

def normalizeCommittedResourceForApply : Except DbError LogApplyResourceRow := do
  let row ← mergeStatusOnlyRowWithExisting policies row existing
  let row ← preserveNewerSameUidRowOnStaleCommittedPut row existing
  preserveSameUidServerMetadataFromExisting policies row existing

/-- A put whose normalized body equals the stored one, resourceVersion aside, is dropped. -/
def resolveNoopPutResourceInTx (tables : Tables) (row : LogApplyResourceRow) :
    Except DbError (Option LogApplyResourceRow) :=
  match tables.resources.find (resourceIdentity row.key) with
  | none => .ok (some row)
  | some existing => do
    let existingData := clearMetadataResourceVersion (← decodeJson existing.data)
    if row.data ≠ existingData then .ok (some row)
    else
      validatePutResourceApplyPreconditions row (some existing)
      let normalized ← normalizeCommittedResourceForApply policies row (some existing)
      if clearMetadataResourceVersion normalized.data = existingData then .ok none else .ok (some row)

/-! ## Resources -/

def applyPutResource (tables : Tables) (row : LogApplyResourceRow) (emit : Bool) : Except DbError Applied := do
  let key := resourceIdentity row.key
  let existing := tables.resources.find key
  validatePutResourceApplyPreconditions row existing
  let row ← normalizeCommittedResourceForApply policies row existing
  let bytes := Blob.toVec row.data
  let same := existing.any fun current => current.resourceVersion = row.resourceVersion && current.data = bytes
  match decideResourcePut existing.isSome same with
  | .noOp => .ok (tables.upsertIndexes key row.data, none)
  | .write eventType =>
    ((tables.upsertResource key row.uid row.resourceVersion bytes).upsertIndexes key row.data).emitWatch emit key
      row.resourceVersion eventType.asStr bytes

end Normalization

/-- The body a merge patch leaves, with identity and server metadata restored. -/
def applyLatestPatchToCurrentResource (patch : LogApplyResourcePatch) (current : ResourceRow) (ns : Option String) :
    Except DbError Json := do
  (validateApplyPreconditions { uid := patch.preconditionUid, resourceVersion := patch.preconditionResourceVersion }
    (some current.currentState)).mapError applyPreconditionError
  let currentData ← decodeJson current.data
  let podDeleteMark := isPodDeleteMarkPatch patch.key.apiVersion patch.key.kind patch.patch
  let effectivePatch := if podDeleteMark then podDeleteMarkPatchWithoutStatus patch.patch else patch.patch
  let patched := match patch.patchKind with
    | .merge => currentData.mergePatch effectivePatch
  let patched :=
    if podDeleteMark then
      let transitionTime := patch.terminatingPodUnreadyTimestamp.or <| (podDeleteMarkTransitionTime patch.patch).or
        (deterministicTerminatingUnreadyTimestamp patched currentData)
      markTerminatingPodUnreadyAt (transitionTime.getD "1970-01-01T00:00:00Z") patched
    else patched
  if changesMetadataUid patched currentData then .error (.sqlite "metadata.uid is immutable (409 Conflict)")
  else
    let patched := ensureMetadataIdentity ns patch.key.name patched
    let patched := preserveServerMetadataFieldsFromExisting currentData patched
    let patched := ensureResourceTypeMeta patch.key.apiVersion patch.key.kind patched
    let patched :=
      if (metadataUid patched).isNone then
        patched.modifyField "metadata" fun metadata => metadata.insertField "uid" (.str current.uid)
      else patched
    let patched := hydrateWatchEventData
      ⟨patch.key.apiVersion, patch.key.kind, ns, patch.key.name, patch.resourceVersion⟩ patched
    .ok (ensurePodStatusIpArrays patch.key.apiVersion patch.key.kind patched)

def applyPatchResourceLatest (patch : LogApplyResourcePatch) (emit : Bool) : Except DbError Applied :=
  let key := resourceIdentity patch.key
  match tables.resources.find key with
  | none =>
    if patch.requireExisting then .error (.conflict .notFound "Resource not found (404 Not Found)")
    else .ok (tables, none)
  | some current => do
    let patched ← applyLatestPatchToCurrentResource patch current key.ns
    let bytes := Blob.toVec patched
    ((tables.upsertResource key current.uid patch.resourceVersion bytes).upsertIndexes key patched).emitWatch emit key
      patch.resourceVersion "MODIFIED" bytes

def applyDeleteResource (resourceVersion : Int) (delete : LogApplyResourceKey) (emit : Bool) : Except DbError Applied :=
  let key := resourceIdentity delete.key
  match tables.resources.find key with
  | none => .ok (tables, none)
  | some current => do
    let requestedUid := if delete.uid = "" then none else some delete.uid
    let decision ← (decideResourceDelete requestedUid delete.preconditionResourceVersion
      (some current.currentState)).mapError applyPreconditionError
    match decision with
    | .noOp => .ok (tables, none)
    | .delete eventType =>
      -- the staged wake-up needs the body to parse, even when no event is written
      let _ ← decodeJson current.data
      ((tables.deleteResource key).deleteIndexes key).emitWatch emit key resourceVersion eventType.asStr current.data

/-! ## Namespaces -/

def namespaceKeyOf (name : String) : ResourceKey := ⟨"v1", "Namespace", none, name⟩

def putNamespace (row : LogApplyNamespaceRow) (emit : Bool) : Except DbError Applied :=
  let bytes := Blob.toVec row.data
  let existing := tables.namespaces.find row.name
  if existing.any fun current => current.resourceVersion = row.resourceVersion && current.data = bytes then
    .ok (tables, none)
  else
    let tables :=
      { tables with namespaces := tables.namespaces.put ⟨row.name, row.uid, row.resourceVersion, bytes⟩ }
    tables.emitWatch emit (namespaceKeyOf row.name) row.resourceVersion
      (if existing.isSome then "MODIFIED" else "ADDED") bytes

def deleteNamespace (resourceVersion : Int) (name : String) (emit : Bool) : Except DbError Applied :=
  match tables.namespaces.find name with
  | none => .ok (tables, none)
  | some current =>
    let tables := { tables with namespaces := tables.namespaces.deleteWhere fun row => row.name = name }
    tables.emitWatch emit (namespaceKeyOf name) resourceVersion "DELETED" current.data

/-- Delete every object of a namespace but its Pods, without watch events. -/
def deleteNamespaceContents (name : String) : Tables :=
  let doomed (row : ResourceRow) : Bool := row.key.ns = some name && row.key.kind ≠ "Pod"
  let keys := (tables.resources.rows.filter doomed).map ResourceRow.key
  keys.foldl Tables.deleteIndexes { tables with resources := tables.resources.deleteWhere doomed }

/-! ## The other tables -/

def applyPutWatchEvent (row : LogApplyWatchEventRow) : Except DbError Applied := do
  let watch ← insertWatchEventInConn tables.watch
    ⟨row.eventId, row.key.apiVersion, row.key.kind, row.key.ns, row.key.name, row.resourceVersion, row.eventType,
      Blob.toVec row.data, false⟩
  .ok ({ tables with watch }, some ⟨row.key.apiVersion, row.key.kind, row.key.ns, row.resourceVersion⟩)

def putAppliedOutbox (row : LogApplyAppliedOutboxRow) : Tables :=
  { tables with appliedOutbox := tables.appliedOutbox.put row }

def putPodCleanupIntent (row : LogApplyPodCleanupIntentRow) : Tables :=
  { tables with
    podCleanupIntents :=
      tables.podCleanupIntents.put ⟨row.key, row.resourceVersion, row.createdAtMs, Blob.toVec row.podData⟩ }

/-! ## Dispatch -/

variable (policies : ApplyPolicies)

def applyClusterMutation (commitResourceVersion : Int) (emit : Bool) (tables : Tables) :
    LogApplyMutation → Except DbError Applied
  | .putResource row =>
    if row.resourceVersion ≠ commitResourceVersion then .error (.other "resource row RV does not match commit RV")
    else applyPutResource policies tables row emit
  | .patchResourceLatest patch =>
    if patch.resourceVersion ≠ commitResourceVersion then .error (.other "resource patch RV does not match commit RV")
    else applyPatchResourceLatest tables patch emit
  | .deleteResource key => applyDeleteResource tables commitResourceVersion key emit
  | .finalizeBoundPod _ =>
    .error (.other "bound Pod finalization was not resolved before state-machine apply")
  | .putNamespace row =>
    if row.resourceVersion ≠ commitResourceVersion then .error (.other "namespace row RV does not match commit RV")
    else putNamespace tables row emit
  | .deleteNamespace name => deleteNamespace tables commitResourceVersion name emit
  | .deleteNamespaceContents name => .ok (deleteNamespaceContents tables name, none)
  | .putWatchEvent row => applyPutWatchEvent tables row
  | .gcWatchEvents maxRows batchCap => do
    let (watch, _) ← gcWatchEventsInTx tables.watch maxRows batchCap
    .ok ({ tables with watch }, none)
  | .putNodeSubnet row => do
    let nodeSubnets ← putNodeSubnet tables.nodeSubnets row
    .ok ({ tables with nodeSubnets }, none)
  | .allocateNodeSubnet allocation => do
    let nodeSubnets ← allocateNodeSubnet tables.nodeSubnets allocation
    .ok ({ tables with nodeSubnets }, none)
  | .deleteNodeSubnet nodeName =>
    .ok ({ tables with nodeSubnets := deleteNodeSubnet tables.nodeSubnets nodeName }, none)
  | .putNodeDataplane row => do
    let nodeDataplanes ← putNodeDataplane tables.nodeDataplanes row
    .ok ({ tables with nodeDataplanes }, none)
  | .deleteNodeDataplane nodeName =>
    .ok ({ tables with nodeDataplanes := deleteNodeDataplane tables.nodeDataplanes nodeName }, none)
  | .putAppliedOutbox row => .ok (putAppliedOutbox tables row, none)
  | .deleteAppliedOutbox key =>
    .ok ({ tables with appliedOutbox := tables.appliedOutbox.deleteWhere fun row => row.idempotencyKey = key }, none)
  | .gcAppliedOutbox cutoffMs _ =>
    .ok ({ tables with appliedOutbox := tables.appliedOutbox.deleteWhere fun row => row.firstSeenMs < cutoffMs }, none)
  | .advanceResourceVersion _ => .ok (tables, none)
  | .putKlightsMeta key value => .ok ({ tables with klightsMeta := tables.klightsMeta.put ⟨key, value⟩ }, none)
  | .putPodCleanupIntent row =>
    if row.resourceVersion ≠ commitResourceVersion then .error (.other "pod cleanup intent RV does not match commit RV")
    else .ok (putPodCleanupIntent tables row, none)
  | .deletePodCleanupIntent key =>
    .ok ({ tables with podCleanupIntents := tables.podCleanupIntents.deleteWhere fun row => row.key = key }, none)
  | .deletePodCleanupIntentsForNode nodeName =>
    .ok ({ tables with
      podCleanupIntents := tables.podCleanupIntents.deleteWhere fun row => row.key.nodeName = nodeName }, none)

def applyMutations (commitResourceVersion : Int) (emit : Bool) :
    Tables → List LogApplyMutation → Except DbError (Tables × List StagedPostCommit)
  | tables, [] => .ok (tables, [])
  | tables, mutation :: rest => do
    let (tables, staged) ← applyClusterMutation policies commitResourceVersion emit tables mutation
    let (tables, pending) ← applyMutations commitResourceVersion emit tables rest
    .ok (tables, staged.toList ++ pending)

variable {policies} {r : Int} {e : Bool} {tbl tables' : Tables} {mutation mu : LogApplyMutation}
  {ms : List LogApplyMutation} {pending : List StagedPostCommit}

theorem applyMutations_cons_ok (h : applyMutations policies r e tbl (mutation :: ms) = .ok (tables', pending)) :
    ∃ n st l, applyClusterMutation policies r e tbl mutation = .ok (n, st) ∧
      applyMutations policies r e n ms = .ok (tables', l) := by
  obtain ⟨⟨n, st⟩, hnx, h⟩ := bind_eq_ok.1 h
  obtain ⟨⟨last, l⟩, hla, h⟩ := bind_eq_ok.1 h
  obtain ⟨rfl, -⟩ := h
  exact ⟨n, st, l, hnx, hla⟩

theorem applyMutations_invariant {P : Tables → Prop} (h : applyMutations policies r e tbl ms = .ok (tables', pending))
    (hs : ∀ mutation ∈ ms, ∀ b a st, applyClusterMutation policies r e b mutation = .ok (a, st) → P b → P a)
    (ht : P tbl) : P tables' := by
  induction ms generalizing tbl pending with
  | nil =>
    cases h
    exact ht
  | cons mutation rest ih =>
    obtain ⟨next, st, later, hnx, hr⟩ := applyMutations_cons_ok h
    exact ih hr (fun m hm => hs m (.tail _ hm)) (hs mutation (.head _) _ _ _ hnx ht)

theorem applyMutations_ledgerOnly (ha : ms.all LogApplyMutation.isPutAppliedOutbox)
    (h : applyMutations policies r e tbl ms = .ok (tables', pending)) :
    ∃ appliedOutbox, tables' = { tbl with appliedOutbox } := by
  refine applyMutations_invariant (P := fun after => ∃ appliedOutbox, after = { tbl with appliedOutbox }) h
    (fun mu hm _ _ _ hnx hb => ?_) ⟨_, rfl⟩
  obtain ⟨appliedOutbox, rfl⟩ := hb
  have hp := List.all_eq_true.1 ha mu hm
  cases mu with
  | putAppliedOutbox row =>
    cases hnx
    exact ⟨_, rfl⟩
  | _ => cases hp

end Klights.Store
