import Klights.Command
import Klights.Store.Basic

/-!
# Committed entries and the decisions about them

The logical commit a Raft entry carries (`klights-cluster-core/src/log_apply.rs`) and the pure decisions the apply
path takes about it (`klights-cluster-core/src/apply.rs`).

- a live commit is a template without resourceVersions (`LogApplyCommit.validateLiveTemplate`);
- the stream position of an entry against the last stored one (`decideOutboxWatermark`, `decideOutboxWatermark_apply`);
- preconditions of puts and deletes (`validateApplyPreconditions`, `decideResourcePut`, `decideResourceDelete`) and the
  freshness of a status stamp (`decideStatusStamp`).
-/

namespace Klights.Store

/-! ## Rows of a commit -/

structure LogApplyResourceRow where
  key : ResourceKey
  uid : String
  resourceVersion : Int
  data : Json
  requireAbsent : Bool := false
  requireExisting : Bool := false
  preconditionUid : Option String := none
  preconditionResourceVersion : Option Int := none
  statusOnly : Bool := false
  deriving DecidableEq

structure LogApplyResourcePatch where
  key : ResourceKey
  resourceVersion : Int
  patchKind : PatchKind
  patch : Json
  requireExisting : Bool := false
  preconditionUid : Option String := none
  preconditionResourceVersion : Option Int := none
  terminatingPodUnreadyTimestamp : Option String := none
  deriving DecidableEq

/-- A delete; the UID keeps a stale delete away from a same-name replacement. -/
structure LogApplyResourceKey where
  key : ResourceKey
  uid : String
  preconditionResourceVersion : Option Int := none
  deriving DecidableEq

/-- An actor's intent to finalize a Pod, resolved against the live row. -/
structure LogApplyPodActorFinalization where
  ns : String
  name : String
  podUid : String
  nodeName : String
  deriving DecidableEq

structure LogApplyNamespaceRow where
  name : String
  uid : String
  resourceVersion : Int
  data : Json
  deriving DecidableEq

structure LogApplyNodeSubnetRow where
  nodeName : String
  subnet : String
  subnetBaseInt : Nat
  gatewayIp : String
  nodeIp : String
  mode : String
  hostportRange : Option String
  deriving DecidableEq

structure LogApplyNodeSubnetAllocation where
  nodeName : String
  clusterCidr : String
  nodeIp : String
  deriving DecidableEq

structure LogApplyNodeDataplaneRow where
  nodeName : String
  mode : String
  encryption : String
  publicKey : Option String
  endpoint : String
  port : Option Nat
  deriving DecidableEq

structure LogApplyAppliedOutboxRow where
  idempotencyKey : String
  subjectKey : String
  operation : String
  firstSeenMs : Int
  appliedRv : Option Int
  resultProto : List UInt8
  statusStamp : Option Int
  deriving DecidableEq

structure LogApplyWatchEventRow where
  eventId : Option Int
  key : ResourceKey
  resourceVersion : Int
  eventType : String
  data : Json
  deriving DecidableEq

structure LogApplyPodCleanupIntentKey where
  nodeName : String
  ns : String
  podName : String
  podUid : String
  reason : String
  deriving DecidableEq

structure LogApplyPodCleanupIntentRow where
  key : LogApplyPodCleanupIntentKey
  resourceVersion : Int
  createdAtMs : Int
  podData : Json
  deriving DecidableEq

inductive LogApplyMutation where
  | putResource (row : LogApplyResourceRow)
  | patchResourceLatest (patch : LogApplyResourcePatch)
  | deleteResource (key : LogApplyResourceKey)
  | finalizeBoundPod (finalization : LogApplyPodActorFinalization)
  | putNamespace (row : LogApplyNamespaceRow)
  | deleteNamespace (name : String)
  | deleteNamespaceContents (name : String)
  | putNodeSubnet (row : LogApplyNodeSubnetRow)
  | allocateNodeSubnet (allocation : LogApplyNodeSubnetAllocation)
  | deleteNodeSubnet (nodeName : String)
  | putNodeDataplane (row : LogApplyNodeDataplaneRow)
  | deleteNodeDataplane (nodeName : String)
  | putAppliedOutbox (row : LogApplyAppliedOutboxRow)
  | deleteAppliedOutbox (idempotencyKey : String)
  | gcAppliedOutbox (cutoffMs : Int) (operations : List String)
  | gcWatchEvents (maxRows batchCap : Int)
  | putWatchEvent (row : LogApplyWatchEventRow)
  | advanceResourceVersion (resourceVersion : Int)
  | putKlightsMeta (key value : String)
  | putPodCleanupIntent (row : LogApplyPodCleanupIntentRow)
  | deletePodCleanupIntent (key : LogApplyPodCleanupIntentKey)
  | deletePodCleanupIntentsForNode (nodeName : String)
  deriving DecidableEq

namespace LogApplyMutation

def isPutWatchEvent : LogApplyMutation → Bool
  | .putWatchEvent _ => true
  | _ => false

def isPutAppliedOutbox : LogApplyMutation → Bool
  | .putAppliedOutbox _ => true
  | _ => false

def appliedOutboxRow : LogApplyMutation → Option LogApplyAppliedOutboxRow
  | .putAppliedOutbox row => some row
  | _ => none

end LogApplyMutation

structure LogApplyCommit where
  resourceVersion : Int := 0
  outboxWatermark : Option OutboxStreamWatermark := none
  mutations : List LogApplyMutation

/-! ## Live templates -/

/-- The `Display` text of a template that already carries a resourceVersion. -/
def liveCommitResourceVersionError (field actual : String) : String :=
  "live committed-apply template field " ++ field ++ " requires resourceVersion 0, got " ++ actual

def validateZero (field : String) (actual : Int) : Except String Unit :=
  if actual = 0 then .ok () else .error (liveCommitResourceVersionError field (toString actual))

def validateJsonResourceVersion (field : String) : Option Json → Except String Unit
  | none | some .null => .ok ()
  | some (.num n) => if n = 0 then .ok () else .error (liveCommitResourceVersionError field (toString n))
  | some (.str s) => if s = "0" then .ok () else .error (liveCommitResourceVersionError field s)
  | some value => .error (liveCommitResourceVersionError field value.text)

def metadataResourceVersion (data : Json) : Option Json := data.pointer ["metadata", "resourceVersion"]

def LogApplyMutation.validateLive : LogApplyMutation → Except String Unit
  | .putResource row => do
    validateJsonResourceVersion "put_resource.data.metadata.resourceVersion" (metadataResourceVersion row.data)
    validateZero "put_resource.resource_version" row.resourceVersion
  | .patchResourceLatest row => do
    validateJsonResourceVersion "patch_resource_latest.patch.metadata.resourceVersion"
      (metadataResourceVersion row.patch)
    validateZero "patch_resource_latest.resource_version" row.resourceVersion
  | .putNamespace row => do
    validateJsonResourceVersion "put_namespace.data.metadata.resourceVersion" (metadataResourceVersion row.data)
    validateZero "put_namespace.resource_version" row.resourceVersion
  | .putWatchEvent row => do
    validateJsonResourceVersion "put_watch_event.data.metadata.resourceVersion" (metadataResourceVersion row.data)
    validateJsonResourceVersion "put_watch_event.data.object.metadata.resourceVersion"
      (row.data.pointer ["object", "metadata", "resourceVersion"])
    validateZero "put_watch_event.resource_version" row.resourceVersion
  | .putPodCleanupIntent row => validateZero "put_pod_cleanup_intent.resource_version" row.resourceVersion
  | .putAppliedOutbox row =>
    match row.appliedRv with
    | some value => validateZero "put_applied_outbox.applied_rv" value
    | none => .ok ()
  | .advanceResourceVersion resourceVersion =>
    validateZero "advance_resource_version.resource_version" resourceVersion
  | _ => .ok ()

/-- No resourceVersion is assigned before the committed transaction assigns it. -/
def LogApplyCommit.validateLiveTemplate (commit : LogApplyCommit) : Except String Unit := do
  validateZero "commit.resource_version" commit.resourceVersion
  commit.mutations.forM LogApplyMutation.validateLive

theorem validateZero_ok_iff {f : String} {a : Int} : validateZero f a = .ok () ↔ a = 0 := by
  unfold validateZero
  split <;> simp_all

theorem LogApplyCommit.resourceVersion_eq_zero {cm : LogApplyCommit} (h : cm.validateLiveTemplate = .ok ()) :
    cm.resourceVersion = 0 := by
  unfold validateLiveTemplate at h
  cases hz : validateZero "commit.resource_version" cm.resourceVersion with
  | error e => rw [hz] at h; cases h
  | ok u => exact validateZero_ok_iff.1 hz

/-! ## Stream positions -/

inductive OutboxWatermarkDecision where
  | apply
  | duplicate
  | gap (lastSeq nextSeq : Int)
  deriving DecidableEq

/-- Whether a stream position applies, repeats or skips a sequence number. -/
def decideOutboxWatermark (lastSeq : Option Int) (watermark : Option OutboxStreamWatermark) :
    Except String OutboxWatermarkDecision :=
  match watermark with
  | none => .ok .apply
  | some watermark =>
    if watermark.streamSeq ≤ 0 then .error "outbox stream seq must be positive"
    else
      match lastSeq with
      | some lastSeq =>
        if watermark.streamSeq ≤ lastSeq then .ok .duplicate
        else if watermark.streamSeq ≠ saturatingAdd lastSeq 1 then .ok (.gap lastSeq watermark.streamSeq)
        else .ok .apply
      | none => if watermark.streamSeq = 1 then .ok .apply else .ok (.gap 0 watermark.streamSeq)

section Watermark

variable {l : Option Int} {wm : OutboxStreamWatermark}

theorem decideOutboxWatermark_apply (h : decideOutboxWatermark l (some wm) = .ok .apply) :
    wm.streamSeq = l.getD 0 + 1 := by
  unfold decideOutboxWatermark at h
  simp only at h
  split at h
  · cases h
  · cases l with
    | none =>
      simp only at h
      split at h
      · rename_i hone
        exact hone
      · simp at h
    | some l =>
      simp only at h
      split at h
      · simp at h
      · split at h
        · simp at h
        · rename_i hnew hseq
          -- saturation never reaches a sequence number above the last one
          unfold saturatingAdd at hseq
          unfold i64Max at hseq
          simp only [Option.getD_some]
          omega

theorem decideOutboxWatermark_duplicate (h : decideOutboxWatermark l (some wm) = .ok .duplicate) :
    ∃ last, l = some last ∧ wm.streamSeq ≤ last := by
  unfold decideOutboxWatermark at h
  simp only at h
  split at h
  · cases h
  · cases l with
    | none =>
      simp only at h
      split at h <;> simp at h
    | some last =>
      simp only at h
      split at h
      · rename_i hle
        exact ⟨last, rfl, hle⟩
      · split at h <;> simp at h

theorem decideOutboxWatermark_of_le {la : Int} {d : OutboxWatermarkDecision} (hl : wm.streamSeq ≤ la)
    (h : decideOutboxWatermark (some la) (some wm) = .ok d) : d = .duplicate := by
  unfold decideOutboxWatermark at h
  simp only [hl, if_true] at h
  split at h
  · cases h
  · exact (Except.ok.inj h).symm

end Watermark

/-! ## Status stamps -/

def isStampedPodStatusOutboxOperation (operation : String) : Bool :=
  ["PodStatus", "RuntimeReconcile", "ProbeReadiness", "DeadlineExceeded", "ContainerStatusSnapshot",
    "EphemeralContainerStatuses"].contains operation

/-- Subject and positive stamp of the first eligible ledger row. -/
def stampedPodStatusSubjectAndStamp (commit : LogApplyCommit) : Option (String × Int) :=
  commit.mutations.findSome? fun mutation =>
    match mutation with
    | .putAppliedOutbox row =>
      match row.statusStamp with
      | some stamp =>
        if stamp > 0 ∧ isStampedPodStatusOutboxOperation row.operation = true ∧ row.subjectKey ≠ "" then
          some (row.subjectKey, stamp)
        else none
      | none => none
    | _ => none

inductive StatusStampDecision where
  | applyResourceMutation
  | recordLedgerOnly
  deriving DecidableEq

def decideStatusStamp : Option Int → Option Int → StatusStampDecision
  | some last, some incoming =>
    if incoming > 0 ∧ incoming ≤ last then .recordLedgerOnly else .applyResourceMutation
  | _, _ => .applyResourceMutation

def commitWithOutboxRowsOnly (commit : LogApplyCommit) : LogApplyCommit :=
  { commit with mutations := commit.mutations.filter LogApplyMutation.isPutAppliedOutbox }

/-! ## Resource decisions -/

structure ApplyPreconditions where
  requireAbsent : Bool := false
  requireExisting : Bool := false
  uid : Option String := none
  resourceVersion : Option Int := none

structure CurrentResourceState where
  uid : Option String
  resourceVersion : Int

inductive ApplyPreconditionViolation where
  | alreadyExists
  | notFound
  | uid (expected : String) (actual : Option String)
  | resourceVersion (expected actual : Int)

/-- Presence, then exact UID, then exact resourceVersion. -/
def validateApplyPreconditions (preconditions : ApplyPreconditions) (current : Option CurrentResourceState) :
    Except ApplyPreconditionViolation Unit :=
  if preconditions.requireAbsent = true ∧ current.isSome = true then .error .alreadyExists
  else if preconditions.requireExisting = true ∧ current.isNone = true then .error .notFound
  else
    match current with
    | none => .ok ()
    | some current => do
      match preconditions.uid with
      | some expected => if current.uid ≠ some expected then .error (.uid expected current.uid)
      | none => pure ()
      match preconditions.resourceVersion with
      | some expected =>
        if current.resourceVersion ≠ expected then .error (.resourceVersion expected current.resourceVersion)
      | none => pure ()

def applyPreconditionError : ApplyPreconditionViolation → DbError
  | .alreadyExists => .conflict .alreadyExists "Resource already exists (409 Conflict)"
  | .notFound => .conflict .notFound "Resource not found (404 Not Found)"
  | .uid _ _ => .conflict .uidPrecondition "UID precondition failed (409 Conflict)"
  | .resourceVersion expected actual =>
    .conflict .resourceVersionPrecondition
      ("resourceVersion precondition failed: expected " ++ toString expected ++ " got " ++ toString actual ++
        " (409 Conflict)")

inductive ResourceEventType where
  | added
  | modified
  | deleted

def ResourceEventType.asStr : ResourceEventType → String
  | .added => "ADDED"
  | .modified => "MODIFIED"
  | .deleted => "DELETED"

inductive ResourceWriteDecision where
  | noOp
  | write (eventType : ResourceEventType)

def decideResourcePut (resourceExists sameResourceVersionAndBody : Bool) : ResourceWriteDecision :=
  if resourceExists && sameResourceVersionAndBody then .noOp
  else if resourceExists then .write .modified
  else .write .added

inductive ResourceDeleteDecision where
  | noOp
  | delete (eventType : ResourceEventType)

/-- A delete bound to another UID does nothing; a stale resourceVersion is a conflict. -/
def decideResourceDelete (requestedUid : Option String) (expectedResourceVersion : Option Int)
    (current : Option CurrentResourceState) : Except ApplyPreconditionViolation ResourceDeleteDecision :=
  match current with
  | none => .ok .noOp
  | some current =>
    if (requestedUid.any fun uid => uid ≠ "" && current.uid ≠ some uid) = true then .ok .noOp
    else do
      validateApplyPreconditions { resourceVersion := expectedResourceVersion } (some current)
      .ok (.delete .deleted)

/-! ## Outcomes -/

inductive NoPublicChangeReason where
  | duplicateIdempotencyKey
  | duplicateWatermark
  | staleStatusStamp
  | equalStatusStamp
  | ledgerOnly
  deriving DecidableEq

inductive CommittedApplyRejection where
  | notFound (message : String)
  | alreadyExists (message : String)
  | uidConflict (message : String)
  | resourceVersionConflict (message : String)
  | invalidCommit (message : String)
  deriving DecidableEq

def CommittedApplyRejection.message : CommittedApplyRejection → String
  | .notFound message | .alreadyExists message | .uidConflict message | .resourceVersionConflict message
  | .invalidCommit message => message

inductive CommittedApplyOutcome where
  | visible (resourceVersion : Int) (resource : Option Resource)
  | noPublicChange (resourceVersion : Int) (reason : NoPublicChangeReason)
  | rejected (rejection : CommittedApplyRejection)
  deriving DecidableEq

inductive StorageResponse where
  | resource (resourceVersion : Int) (data : Json)
  | ack (resourceVersion : Int)
  | nodeSubnet (row : LogApplyNodeSubnetRow)
  | error (message : String)
  deriving DecidableEq

def StorageResponse.isAck : StorageResponse → Bool
  | .ack _ => true
  | _ => false

structure TransactionContext where
  encode : StorageResponse → Except String (List UInt8)
  decode : List UInt8 → Except String StorageResponse

end Klights.Store
