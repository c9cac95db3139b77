import Klights.Store.Appliers

/-!
# Committed apply

One Raft entry against `cluster.db` (`live_apply/coordinator.rs`): answered from the ledger, recognised as a duplicate
stream position, recorded without a public change, applied, or rejected for good with its ledger row and position.

- `applyCommitInTxWithWatchEvents` resolves, stamps and applies the mutations of a commit;
- `applyCommitInTxForRaftWithContext` puts the ledger, the watermark, the status stamp and the savepoint around it;
- `applyEntry` is the database after the transaction: a failed one leaves it as it was.
-/

namespace Klights.Store

open Lib ClusterDb LogApplyMutation Except DbError

/-! ## Pod endpoints -/

inductive PodEndpointEffect where
  | notApplicable
  | unchanged
  | changed
  deriving DecidableEq

structure PodEndpointState where
  ready : Bool
  terminal : Bool
  labels : Option Json
  podIp : Option Json
  podIps : Option Json
  deletionTimestamp : Option Json
  deriving DecidableEq

def podEndpointState (pod : Json) : PodEndpointState where
  ready :=
    ((((pod.pointer ["status", "conditions"]).bind Json.asArray).getD []).find? fun condition =>
      condition.strAt ["type"] = some "Ready").bind (fun condition => condition.strAt ["status"]) = some "True"
  terminal := pod.strAt ["status", "phase"] = some "Failed" || pod.strAt ["status", "phase"] = some "Succeeded"
  labels := pod.pointer ["metadata", "labels"]
  podIp := pod.pointer ["status", "podIP"]
  podIps := pod.pointer ["status", "podIPs"]
  deletionTimestamp := pod.pointer ["metadata", "deletionTimestamp"]

def podStatusTarget (commit : LogApplyCommit) : Option ResourceKey :=
  commit.mutations.findSome? fun mutation =>
    match mutation with
    | .putResource row =>
      if row.key.apiVersion = "v1" ∧ row.key.kind = "Pod" ∧ row.statusOnly = true then some row.key else none
    | _ => none

def podStateInTx (tables : Tables) : Option ResourceKey → Except DbError (Option Json)
  | none => .ok none
  | some key =>
    match tables.resources.find key with
    | none => .ok none
    | some row => (decodeJson row.data).map some

def podEndpointEffect (target : Option ResourceKey) (before after : Option Json) : PodEndpointEffect :=
  if target.isNone then .notApplicable
  else
    match before, after with
    | some before, some after =>
      if podEndpointState before ≠ podEndpointState after then .changed else .unchanged
    | _, _ => .unchanged

/-! ## Commits being applied -/

/-- A live commit or a snapshot restore on its way through apply. -/
structure ApplyCommit where
  resourceVersion : Int
  outboxWatermark : Option OutboxStreamWatermark
  mutations : List LogApplyMutation
  preserveHistoricalBytes : Bool

def ApplyCommit.fromLive (commit : LogApplyCommit) : Except DbError ApplyCommit := do
  commit.validateLiveTemplate.mapError other
  .ok ⟨commit.resourceVersion, commit.outboxWatermark, commit.mutations, false⟩

/-- The watch event and the delete a Pod finalization resolves to; nothing unless the live Pod is the actor's own,
terminating, and free of finalizers. -/
def resolveBoundPodFinalization (tables : Tables) (resourceVersion : Int)
    (finalization : LogApplyPodActorFinalization) : Except DbError (List LogApplyMutation) :=
  let key : ResourceKey := ⟨"v1", "Pod", some finalization.ns, finalization.name⟩
  match tables.resources.find key with
  | none => .ok []
  | some current =>
    if current.uid ≠ finalization.podUid then .ok []
    else do
      let data ← decodeJson current.data
      let assignedNode := (data.strAt ["spec", "nodeName"]).filter fun node => node ≠ ""
      let hasFinalizers :=
        ((data.pointer ["metadata", "finalizers"]).bind Json.asArray).any fun finalizers => !finalizers.isEmpty
      let terminating := (data.strAt ["metadata", "deletionTimestamp"]).any (fun timestamp => timestamp ≠ "") ||
        (data.strAt ["status", "phase"] = some "Failed" && data.strAt ["status", "reason"] = some "NodeLost")
      if assignedNode ≠ some finalization.nodeName ∨ hasFinalizers = true ∨ terminating = false then .ok []
      else
        let event := hydrateWatchEventData ⟨"v1", "Pod", some finalization.ns, finalization.name, resourceVersion⟩ data
        .ok [.putWatchEvent ⟨none, key, resourceVersion, "DELETED", event⟩,
          .deleteResource ⟨key, current.uid, some current.resourceVersion⟩]

/-- What a mutation resolves to: itself, unless it is a finalization. -/
def resolveMutation (tables : Tables) (resourceVersion : Int) :
    LogApplyMutation → Except DbError (List LogApplyMutation)
  | .finalizeBoundPod finalization => resolveBoundPodFinalization tables resourceVersion finalization
  | mutation => .ok [mutation]

def resolveBoundPodFinalizationsInTx (tables : Tables) (resourceVersion : Int) :
    List LogApplyMutation → Except DbError (List LogApplyMutation)
  | [] => .ok []
  | mutation :: rest => do
    let head ← resolveMutation tables resourceVersion mutation
    let tail ← resolveBoundPodFinalizationsInTx tables resourceVersion rest
    .ok (head ++ tail)

section Apply

variable (policies : ApplyPolicies)

/-- A put that changes nothing is dropped. -/
def dropNoopPut (tables : Tables) : LogApplyMutation → Except DbError (List LogApplyMutation × Bool)
  | .putResource row => (resolveNoopPutResourceInTx policies tables row).map fun resolved =>
      (resolved.toList.map LogApplyMutation.putResource, resolved.isNone)
  | mutation => .ok ([mutation], false)

/-- The mutations without the puts that change nothing, and whether one was dropped. -/
def dropNoopPuts (tables : Tables) : List LogApplyMutation → Except DbError (List LogApplyMutation × Bool)
  | [] => .ok ([], false)
  | mutation :: rest => do
    let (head, removedHead) ← dropNoopPut policies tables mutation
    let (tail, removedTail) ← dropNoopPuts tables rest
    .ok (head ++ tail, removedHead || removedTail)

def resolveNoopPutResourcesInTx (db : ClusterDb) (commit : ApplyCommit) : Except DbError ApplyCommit :=
  if commit.preserveHistoricalBytes then .ok commit
  else do
    let (resolved, removedNoop) ← dropNoopPuts policies db.tables commit.mutations
    -- what is left of a removed no-op records the current resourceVersion instead of a new one
    let resourceVersion :=
      if removedNoop = true ∧ resolved.all LogApplyMutation.isPutAppliedOutbox = true then db.resourceVersion
      else commit.resourceVersion
    .ok { commit with resourceVersion, mutations := resolved }

/-- Gaps and duplicates take precedence over resource preconditions: only an applicable position looks at the puts. -/
def resolvePutsFor (decision : OutboxWatermarkDecision) (db : ClusterDb) (commit : ApplyCommit) :
    Except DbError ApplyCommit :=
  if decision = .apply then resolveNoopPutResourcesInTx policies db commit else .ok commit

/-! ## Stamping -/

variable (context : TransactionContext)

def stampBody (key : ResourceKey) (rowVersion commitVersion : Int) (preserve : Bool) (data : Json) : Json :=
  if rowVersion = commitVersion ∧ preserve = false then
    hydrateWatchEventData ⟨key.apiVersion, key.kind, key.ns, key.name, commitVersion⟩ data
  else data

/-- A row's own resourceVersion, or the commit's if it has none yet. -/
def stampVersion (rowVersion commitVersion : Int) : Int := if rowVersion = 0 then commitVersion else rowVersion

/-- An answer that is missing or a plain acknowledgement is rewritten with the final resourceVersion. -/
def stampResult (resourceVersion : Int) (resultProto : List UInt8) : List UInt8 :=
  let isAck := match context.decode resultProto with
    | .ok response => response.isAck
    | .error _ => false
  if resultProto.isEmpty || isAck then
    match context.encode (.ack resourceVersion) with
    | .ok bytes => bytes
    | .error _ => []
  else resultProto

def stampMutation (resourceVersion : Int) (preserve : Bool) : LogApplyMutation → LogApplyMutation
  | .putResource row =>
    let rowVersion := stampVersion row.resourceVersion resourceVersion
    .putResource { row with
      resourceVersion := rowVersion
      data := stampBody row.key rowVersion resourceVersion preserve row.data }
  | .patchResourceLatest patch =>
    .patchResourceLatest { patch with resourceVersion := stampVersion patch.resourceVersion resourceVersion }
  | .putNamespace row =>
    let rowVersion := stampVersion row.resourceVersion resourceVersion
    .putNamespace { row with
      resourceVersion := rowVersion
      data := stampBody (namespaceKeyOf row.name) rowVersion resourceVersion preserve row.data }
  | .putWatchEvent row =>
    let rowVersion := stampVersion row.resourceVersion resourceVersion
    .putWatchEvent { row with
      resourceVersion := rowVersion
      data := stampBody row.key rowVersion resourceVersion preserve row.data }
  | .putPodCleanupIntent row =>
    .putPodCleanupIntent { row with resourceVersion := stampVersion row.resourceVersion resourceVersion }
  | .putAppliedOutbox row =>
    .putAppliedOutbox { row with
      appliedRv := some (row.appliedRv.getD resourceVersion)
      resultProto := stampResult context resourceVersion row.resultProto }
  | .advanceResourceVersion version => .advanceResourceVersion (max version resourceVersion)
  | mutation => mutation

/-- Only ledger rows, or nothing at all: no public resourceVersion is spent. -/
def doesNotAdvancePublicRv (mutations : List LogApplyMutation) : Bool :=
  mutations.all LogApplyMutation.isPutAppliedOutbox

@[elab_as_elim]
theorem ledger_induction {mo : List LogApplyMutation → Prop} {mutations : List LogApplyMutation}
    (ha : doesNotAdvancePublicRv mutations) (nil : mo [])
    (cons : ∀ r tl, mo tl → mo (.putAppliedOutbox r :: tl)) : mo mutations := by
  induction mutations with
  | nil => exact nil
  | cons mu tl ih =>
    simp only [doesNotAdvancePublicRv, List.all_cons, Bool.and_eq_true] at ha
    cases mu with
    | putAppliedOutbox r => exact cons r tl (ih ha.2)
    | _ => cases ha.1

def stampProvisionalResourceVersionInTx (db : ClusterDb) (commit : ApplyCommit) : ClusterDb × ApplyCommit :=
  let allocates := commit.resourceVersion = 0 ∧ doesNotAdvancePublicRv commit.mutations = false
  let db' := if allocates then { db with resourceVersion := db.resourceVersion + 1 } else db
  let resourceVersion := if commit.resourceVersion = 0 then db'.resourceVersion else commit.resourceVersion
  (db', { commit with
    resourceVersion
    mutations := commit.mutations.map (stampMutation context resourceVersion commit.preserveHistoricalBytes) })

/-! ## Returned resources -/

inductive ReturnedResourceTarget where
  | resource (key : ResourceKey)
  | namespace (name : String)

def returnedResourceTarget (commit : ApplyCommit) : Option ReturnedResourceTarget :=
  commit.mutations.findSome? fun mutation =>
    match mutation with
    | .putResource row => some (.resource row.key)
    | .patchResourceLatest patch => some (.resource patch.key)
    | .putNamespace row => some (.namespace row.name)
    | _ => none

def readReturnedResourceInTx (tables : Tables) : ReturnedResourceTarget → Except DbError (Option Resource)
  | .resource key =>
    match tables.resources.find key with
    | none => .ok none
    | some row => (decodeJson row.data).map fun data => some ⟨key, row.uid, row.resourceVersion, data⟩
  | .namespace name =>
    match tables.namespaces.find name with
    | none => .ok none
    | some row => (decodeJson row.data).map fun data => some ⟨namespaceKeyOf name, row.uid, row.resourceVersion, data⟩

/-- The object a commit deletes, taken from the event that records its end. -/
def deletedResourceFromStampedCommit (commit : ApplyCommit) : Option Resource := do
  let delete ← commit.mutations.findSome? fun mutation =>
    match mutation with
    | .deleteResource key => some key
    | _ => none
  let event ← commit.mutations.findSome? fun mutation =>
    match mutation with
    | .putWatchEvent row =>
      if row.eventType = "DELETED" ∧ row.key = delete.key ∧ row.resourceVersion = commit.resourceVersion then some row
      else none
    | _ => none
  some ⟨event.key, (event.data.strAt ["metadata", "uid"]).getD "",
    delete.preconditionResourceVersion.getD event.resourceVersion, clearMetadataResourceVersion event.data⟩

/-- The object a commit answers with: the one it deletes, else the first one it writes. -/
def returnedResource (tables : Tables) (commit : ApplyCommit) : Except DbError (Option Resource) :=
  match deletedResourceFromStampedCommit commit with
  | some resource => .ok (some resource)
  | none =>
    match returnedResourceTarget commit with
    | some target => readReturnedResourceInTx tables target
    | none => .ok none

/-! ## Stream positions -/

def outboxWatermarkDecisionInTx (db : ClusterDb) (watermark : Option OutboxStreamWatermark) :
    Except DbError OutboxWatermarkDecision :=
  match watermark with
  | none => (decideOutboxWatermark none none).mapError other
  | some watermark =>
    (decideOutboxWatermark (db.lastSeq watermark.clientId watermark.streamId) (some watermark)).mapError other

def ClusterDb.upsertOutboxWatermark (db : ClusterDb) (watermark : Option OutboxStreamWatermark) : ClusterDb :=
  match watermark with
  | none => db
  | some watermark =>
    { db with watermarks := db.watermarks.put ⟨watermark.clientId, watermark.streamId, watermark.streamSeq⟩ }

def ClusterDb.advanceMetadataRvToAtLeast (db : ClusterDb) (resourceVersion : Int) : ClusterDb :=
  if db.resourceVersion < resourceVersion then { db with resourceVersion } else db

/-! ## Applying a commit -/

structure AppliedCommit where
  resourceVersion : Int
  pending : List StagedPostCommit
  appliedMutation : Option Resource

/-- The mutations of a stamped commit, the object it returns, its position and its resourceVersion. -/
def applyStampedCommit (db : ClusterDb) (commit : ApplyCommit) (emit : Bool) :
    Except DbError (ClusterDb × AppliedCommit) := do
  let (tables, pending) ← applyMutations policies commit.resourceVersion emit db.tables commit.mutations
  let appliedMutation ← returnedResource tables commit
  let db := ({ db with tables }.upsertOutboxWatermark commit.outboxWatermark).advanceMetadataRvToAtLeast
    commit.resourceVersion
  .ok (db, ⟨commit.resourceVersion, pending, appliedMutation⟩)

def applyCommitInTxWithWatchEvents (db : ClusterDb) (commit : ApplyCommit) (emit : Bool) :
    Except DbError (ClusterDb × AppliedCommit) :=
  if commit.resourceVersion < 0 then .error (.other "log_apply commit resourceVersion must be non-negative")
  else do
    let mutations ← resolveBoundPodFinalizationsInTx db.tables commit.resourceVersion commit.mutations
    let commit := { commit with mutations }
    let emit := emit && !mutations.any LogApplyMutation.isPutWatchEvent
    let decision ← outboxWatermarkDecisionInTx db commit.outboxWatermark
    let commit ← resolvePutsFor policies decision db commit
    let (db, commit) := stampProvisionalResourceVersionInTx context db commit
    if commit.outboxWatermark.isSome && commit.mutations.isEmpty then
      .ok ((db.upsertOutboxWatermark commit.outboxWatermark).advanceMetadataRvToAtLeast commit.resourceVersion,
        ⟨commit.resourceVersion, [], none⟩)
    else
      match decision with
      | .duplicate => .ok (db.advanceMetadataRvToAtLeast commit.resourceVersion, ⟨commit.resourceVersion, [], none⟩)
      | .gap lastSeq nextSeq =>
        .error (.other ("outbox stream gap for seq " ++ toString nextSeq ++ ": last committed seq is " ++
          toString lastSeq))
      | .apply => applyStampedCommit policies db commit emit

/-! ## Receipts -/

/-- `Resource::try_from_data`, up to the resourceVersion, which the caller overwrites. -/
def resourceTryFromData (resourceVersion : Int) (data : Json) : Except String Resource :=
  match data.strAt ["apiVersion"] with
  | none => .error "resource missing apiVersion"
  | some apiVersion =>
    match data.strAt ["kind"] with
    | none => .error "resource missing kind"
    | some kind =>
      match data.strAt ["metadata", "name"] with
      | none => .error "resource missing metadata.name"
      | some name =>
        let ns := (data.strAt ["metadata", "namespace"]).filter fun ns => ns ≠ ""
        .ok ⟨⟨apiVersion, kind, ns, name⟩, (data.strAt ["metadata", "uid"]).getD "", resourceVersion, data⟩

/-- The answer a ledger row holds: an error message, a returned object, or neither. -/
def receiptFromAppliedOutbox (row : LogApplyAppliedOutboxRow) :
    Except DbError (Option Int × Option String × Option Resource) :=
  match context.decode row.resultProto with
  | .ok (.error message) => .ok (row.appliedRv, some message, none)
  | .ok (.resource resourceVersion data) =>
    ((resourceTryFromData resourceVersion data).mapError other).map fun resource => (row.appliedRv, none, some resource)
  | .ok _ => .ok (row.appliedRv, none, none)
  | .error err => .error (.other ("failed to decode applied_outbox result: " ++ err))

def committedRejectionFromConflict (code : ApplyConflictCode) (message : String) : CommittedApplyRejection :=
  match code with
  | .notFound => .notFound message
  | .alreadyExists => .alreadyExists message
  | .uidPrecondition => .uidConflict message
  | .resourceVersionPrecondition => .resourceVersionConflict message

/-- The class of a stored rejection, read off its text. -/
def committedRejectionFromMessage (message : String) : CommittedApplyRejection :=
  if containsText message "resourceVersion" then .resourceVersionConflict message
  else if containsText message "UID" || containsText message "uid" then .uidConflict message
  else if containsText message "already exists" then .alreadyExists message
  else if containsText message "not found" then .notFound message
  else .invalidCommit message

/-! ## Raft entries -/

structure RaftLogApplyOutcome where
  committedOutcome : CommittedApplyOutcome
  returnedResource : Option Resource
  podEndpointEffect : PodEndpointEffect
  pending : List StagedPostCommit
  deriving DecidableEq

def RaftLogApplyOutcome.new (outcome : CommittedApplyOutcome) (pending : List StagedPostCommit)
    (effect : PodEndpointEffect) : RaftLogApplyOutcome :=
  ⟨outcome, match outcome with | .visible _ resource => resource | _ => none, effect, pending⟩

def LogApplyCommit.outboxTemplate (commit : LogApplyCommit) : Option LogApplyAppliedOutboxRow :=
  commit.mutations.findSome? LogApplyMutation.appliedOutboxRow

def recordedRow (db : ClusterDb) (commit : LogApplyCommit) : Option LogApplyAppliedOutboxRow :=
  commit.outboxTemplate.bind fun template => db.tables.appliedOutbox.find template.idempotencyKey

def answerFromLedger (row : LogApplyAppliedOutboxRow) (effect : PodEndpointEffect) :
    Except DbError RaftLogApplyOutcome := do
  let (appliedRv, errorMessage, returned) ← receiptFromAppliedOutbox context row
  match errorMessage with
  | some message => .ok (.new (.rejected (committedRejectionFromMessage message)) [] effect)
  | none =>
    match appliedRv with
    | none => .error (.other "duplicate applied_outbox row has no applied resourceVersion")
    | some resourceVersion =>
      .ok { RaftLogApplyOutcome.new (.noPublicChange resourceVersion .duplicateIdempotencyKey) [] effect with
        returnedResource := returned }

/-- `MAX(status_stamp)` over the ledger rows of a subject. -/
def lastAppliedStamp (db : ClusterDb) (subjectKey : String) : Option Int :=
  ((db.tables.appliedOutbox.rows.filter fun row => row.subjectKey = subjectKey).filterMap
    LogApplyAppliedOutboxRow.statusStamp).max?

/-- The stamp of a status write that is not newer than the last applied one. -/
def staleStamp (db : ClusterDb) (commit : LogApplyCommit) : Option (Int × Int) :=
  match stampedPodStatusSubjectAndStamp commit with
  | none => none
  | some (subjectKey, incoming) =>
    match lastAppliedStamp db subjectKey with
    | none => none
    | some last => if decideStatusStamp (some last) (some incoming) = .recordLedgerOnly then some (last, incoming)
      else none

/-- A stale status write records its ledger rows and its position, nothing else. -/
def recordStaleStamp (db : ClusterDb) (commit : LogApplyCommit) (last incoming : Int) (effect : PodEndpointEffect) :
    Except DbError (ClusterDb × RaftLogApplyOutcome) := do
  let ledger ← ApplyCommit.fromLive (commitWithOutboxRowsOnly commit)
  let (db, applied) ← applyCommitInTxWithWatchEvents policies context db
    { ledger with resourceVersion := db.resourceVersion } true
  if last < incoming then .error (.other "status-stamp decision recorded ledger-only for a newer stamp")
  else
    let reason := if incoming < last then .staleStatusStamp else .equalStatusStamp
    .ok (db, .new (.noPublicChange applied.resourceVersion reason) applied.pending effect)

def storeFinalizationReceipt (db : ClusterDb) (template : Option LogApplyAppliedOutboxRow)
    (applied : AppliedCommit) : Except DbError ClusterDb :=
  match template, applied.appliedMutation with
  | some template, some resource =>
    if template.operation = "PodMetadata" ∧ resource.key.apiVersion = "v1" ∧ resource.key.kind = "Pod" then
      match context.encode (.resource resource.resourceVersion resource.data) with
      | .error err => .error (.other ("failed to encode durable actor-finalization receipt: " ++ err))
      | .ok resultProto =>
        match db.tables.appliedOutbox.find template.idempotencyKey with
        | none => .error (.other "committed actor-finalization receipt had no applied_outbox ledger row")
        | some row =>
          .ok { db with
            tables := putAppliedOutbox db.tables { row with
              subjectKey := template.subjectKey
              appliedRv := some applied.resourceVersion
              resultProto
              statusStamp := template.statusStamp } }
    else .ok db
  | _, _ => .ok db

def finishAttempt (before : ClusterDb) (commit : LogApplyCommit) (podBefore : Option Json) (db : ClusterDb)
    (applied : AppliedCommit) : Except DbError (ClusterDb × RaftLogApplyOutcome) := do
  let db ← storeFinalizationReceipt context db commit.outboxTemplate applied
  let visibleChange := decide (db.resourceVersion > before.resourceVersion) ||
    decide (db.tables.watch.seq > before.tables.watch.seq)
  let outcome : CommittedApplyOutcome :=
    if visibleChange || applied.appliedMutation.isSome then .visible applied.resourceVersion applied.appliedMutation
    else .noPublicChange applied.resourceVersion .ledgerOnly
  let podAfter ← podStateInTx db.tables (podStatusTarget commit)
  .ok (db, .new outcome applied.pending (podEndpointEffect (podStatusTarget commit) podBefore podAfter))

/-- A terminal conflict is rolled back; its position and its ledger row are kept. -/
def recordRejection (db : ClusterDb) (commit : LogApplyCommit) (message : String) : ClusterDb :=
  let db := db.upsertOutboxWatermark commit.outboxWatermark
  match commit.outboxTemplate with
  | none => db
  | some row =>
    let resultProto := match context.encode (.error message) with
      | .ok bytes => bytes
      | .error _ => []
    { db with tables := putAppliedOutbox db.tables { row with appliedRv := none, resultProto } }

def attemptCommit (db : ClusterDb) (commit : LogApplyCommit) (podBefore : Option Json) :
    Except DbError (ClusterDb × RaftLogApplyOutcome) := do
  let hasExplicitWatchHistory := commit.mutations.any LogApplyMutation.isPutWatchEvent
  let attempt := do
    let live ← ApplyCommit.fromLive commit
    applyCommitInTxWithWatchEvents policies context db live !hasExplicitWatchHistory
  match attempt with
  | .ok (after, applied) => finishAttempt context db commit podBefore after applied
  | .error (.conflict code message) =>
    let text := (conflict code message).display
    let effect := podEndpointEffect (podStatusTarget commit) podBefore podBefore
    .ok (recordRejection context db commit text, .new (.rejected (committedRejectionFromConflict code text)) [] effect)
  | .error err => .error err

def applyCommitInTxForRaftWithContext (db : ClusterDb) (commit : LogApplyCommit) :
    Except DbError (ClusterDb × RaftLogApplyOutcome) := do
  let podBefore ← podStateInTx db.tables (podStatusTarget commit)
  commit.validateLiveTemplate.mapError other
  if commit.mutations.isEmpty && commit.outboxWatermark.isNone then
    .ok (db, .new (.noPublicChange db.resourceVersion .ledgerOnly) [] .notApplicable)
  else
    let effect := podEndpointEffect (podStatusTarget commit) podBefore podBefore
    match recordedRow db commit with
    | some row => (answerFromLedger context row effect).map fun outcome => (db, outcome)
    | none => do
      let decision ← outboxWatermarkDecisionInTx db commit.outboxWatermark
      if decision = .duplicate then
        .ok (db, .new (.noPublicChange db.resourceVersion .duplicateWatermark) [] effect)
      else
        match staleStamp db commit with
        | some (last, incoming) => recordStaleStamp policies context db commit last incoming effect
        | none => attemptCommit policies context db commit podBefore

/-- The database after one committed entry: a failed transaction is rolled back. -/
def applyEntry (db : ClusterDb) (commit : LogApplyCommit) : ClusterDb :=
  match applyCommitInTxForRaftWithContext policies context db commit with
  | .ok (db, _) => db
  | .error _ => db

end Apply

/-! ## A sample environment -/

/-- Policies for runs that merge no status. -/
def samplePolicies : ApplyPolicies := ⟨fun _ _ _ status _ => status, fun _ _ data _ => data⟩

/-- A codec for acknowledgements and for errors with an ASCII text. -/
def sampleContext : TransactionContext where
  encode
    | .ack _ => .ok [0]
    | .error message => .ok (1 :: message.toList.map fun c => UInt8.ofNat c.toNat)
    | _ => .error "unsupported response"
  decode
    | [0] => .ok (.ack 0)
    | 1 :: bytes => .ok (.error (String.ofList (bytes.map fun byte => Char.ofNat byte.toNat)))
    | _ => .error "unsupported response"

/-! ## Bookkeeping -/

section Bookkeeping

variable {context : TransactionContext} {db : ClusterDb} {cm : ApplyCommit}

@[simp] theorem advanceMetadataRvToAtLeast_watermarks (db : ClusterDb) (rv : Int) :
    (db.advanceMetadataRvToAtLeast rv).watermarks = db.watermarks := by
  unfold advanceMetadataRvToAtLeast
  split <;> rfl

@[simp] theorem advanceMetadataRvToAtLeast_tables (db : ClusterDb) (rv : Int) :
    (db.advanceMetadataRvToAtLeast rv).tables = db.tables := by
  unfold advanceMetadataRvToAtLeast
  split <;> rfl

@[simp] theorem advanceMetadataRvToAtLeast_resourceVersion (db : ClusterDb) (resourceVersion : Int) :
    (db.advanceMetadataRvToAtLeast resourceVersion).resourceVersion = max db.resourceVersion resourceVersion := by
  unfold advanceMetadataRvToAtLeast
  split
  · rename_i hlt
    exact (max_eq_right hlt.le).symm
  · rename_i hn
    exact (max_eq_left (not_lt.1 hn)).symm

@[simp] theorem upsertOutboxWatermark_tables (db : ClusterDb) (wm : Option OutboxStreamWatermark) :
    (db.upsertOutboxWatermark wm).tables = db.tables := by
  cases wm <;> rfl

@[simp] theorem upsertOutboxWatermark_resourceVersion (db : ClusterDb) (wm : Option OutboxStreamWatermark) :
    (db.upsertOutboxWatermark wm).resourceVersion = db.resourceVersion := by
  cases wm <;> rfl

theorem upsertOutboxWatermark_watermarks {db' : ClusterDb} (h : db.watermarks = db'.watermarks)
    (wm : Option OutboxStreamWatermark) :
    (db.upsertOutboxWatermark wm).watermarks = (db'.upsertOutboxWatermark wm).watermarks := by
  cases wm with
  | none => exact h
  | some wm => simp [upsertOutboxWatermark, h]

theorem lastSeq_congr {db' : ClusterDb} (h : db.watermarks = db'.watermarks) (c : String) (streamId : Int) :
    db.lastSeq c streamId = db'.lastSeq c streamId := by
  unfold lastSeq
  rw [h]

theorem lastSeq_upsertOutboxWatermark (db : ClusterDb) (wm : OutboxStreamWatermark) (c : String) (streamId : Int) :
    (db.upsertOutboxWatermark (some wm)).lastSeq c streamId =
      if wm.clientId = c ∧ wm.streamId = streamId then some wm.streamSeq
      else db.lastSeq c streamId := by
  simp only [lastSeq, upsertOutboxWatermark, Table.find_put, WatermarkRow.stream, Prod.mk.injEq]
  split <;> rfl

@[simp] theorem stamp_watermarks :
    (stampProvisionalResourceVersionInTx context db cm).1.watermarks = db.watermarks := by
  unfold stampProvisionalResourceVersionInTx
  dsimp only
  split <;> rfl

@[simp] theorem stamp_tables : (stampProvisionalResourceVersionInTx context db cm).1.tables = db.tables := by
  unfold stampProvisionalResourceVersionInTx
  dsimp only
  split <;> rfl

@[simp] theorem stamp_outboxWatermark :
    (stampProvisionalResourceVersionInTx context db cm).2.outboxWatermark = cm.outboxWatermark := rfl

theorem stamp_mutations :
    (stampProvisionalResourceVersionInTx context db cm).2.mutations = cm.mutations.map (stampMutation context
        (stampProvisionalResourceVersionInTx context db cm).2.resourceVersion cm.preserveHistoricalBytes) := rfl

@[simp] theorem stamp_mutations_isEmpty :
    (stampProvisionalResourceVersionInTx context db cm).2.mutations.isEmpty = cm.mutations.isEmpty := by
  simp [stampProvisionalResourceVersionInTx]

end Bookkeeping

variable {podBefore : Option Json}

/-! ## What an application can do -/

variable {policies : ApplyPolicies} {context : TransactionContext} {db db' : ClusterDb} {cm : ApplyCommit}
  {e : LogApplyCommit} {et : Bool} {applied : AppliedCommit} {outcome : RaftLogApplyOutcome}
  {decision dec : OutboxWatermarkDecision} {resolved rslv : ApplyCommit} {effect : PodEndpointEffect}
  {after : ClusterDb}

/-- A commit stays as it is, or loses its no-op puts and perhaps with them the need for a resourceVersion. -/
theorem resolvePutsFor_cases (h : resolvePutsFor policies dec db cm = .ok rslv) :
    rslv = cm ∨ ∃ left remo, dropNoopPuts policies db.tables cm.mutations = .ok (left, remo) ∧ rslv = { cm with
        resourceVersion :=
          if remo ∧ left.all isPutAppliedOutbox = true then db.resourceVersion
          else cm.resourceVersion
        mutations := left } := by
  unfold resolvePutsFor at h
  split at h
  · unfold resolveNoopPutResourcesInTx at h
    split at h
    · exact .inl (ok.inj h).symm
    · obtain ⟨⟨left, remo⟩, hd, hok⟩ := bind_eq_ok.1 h
      exact .inr ⟨left, remo, hd, (ok.inj hok).symm⟩
  · exact .inl (ok.inj h).symm

/-- A commit between its resolution against the live rows and its stamping. -/
structure Resolved (policies : ApplyPolicies) (db : ClusterDb) (commit : ApplyCommit)
    (decision : OutboxWatermarkDecision) (resolved : ApplyCommit) : Prop where
  decided : outboxWatermarkDecisionInTx db commit.outboxWatermark = .ok decision
  mutations : ∃ mutations, resolveBoundPodFinalizationsInTx db.tables commit.resourceVersion commit.mutations =
      .ok mutations ∧ resolvePutsFor policies decision db { commit with mutations } = .ok resolved

theorem Resolved.outboxWatermark
    (h : Resolved policies db cm dec rslv) : rslv.outboxWatermark = cm.outboxWatermark := by
  obtain ⟨-, mu, -, hr⟩ := h
  rcases resolvePutsFor_cases hr with rfl | ⟨lef, re, -, rfl⟩ <;> rfl

section

variable (h : applyCommitInTxWithWatchEvents policies context db cm et = .ok (db', applied))
include h

/-- The ways a commit goes through: position only or duplicate position, with the tables as they were, or its mutations
applied. -/
theorem applyCommit_cases : ∃ decision resolved, Resolved policies db cm decision resolved ∧
      let stamped := stampProvisionalResourceVersionInTx context db resolved
      applied.resourceVersion = stamped.2.resourceVersion ∧
      db'.resourceVersion = max stamped.1.resourceVersion stamped.2.resourceVersion ∧
      (db'.watermarks = (db.upsertOutboxWatermark cm.outboxWatermark).watermarks ∨ decision = .duplicate) ∧
      ((db'.tables = db.tables ∧ (resolved.mutations = [] ∨ decision = .duplicate)) ∨ (decision = .apply ∧ ∃ bound pe,
          resolveBoundPodFinalizationsInTx db.tables cm.resourceVersion cm.mutations = .ok bound ∧
          applyMutations policies stamped.2.resourceVersion (et && !bound.any isPutWatchEvent) db.tables
            stamped.2.mutations = .ok (db'.tables, pe))) := by
  unfold applyCommitInTxWithWatchEvents at h
  obtain ⟨-, h⟩ := ite_error_eq_ok.1 h
  obtain ⟨mu, hm, h⟩ := bind_eq_ok.1 h
  obtain ⟨decision, hd, h⟩ := bind_eq_ok.1 h
  obtain ⟨resolved, he, h⟩ := bind_eq_ok.1 h
  have hsp : Resolved policies db cm decision resolved := ⟨hd, mu, hm, he⟩
  refine ⟨decision, resolved, hsp, ?_⟩
  simp only [stamp_outboxWatermark, stamp_mutations_isEmpty, hsp.outboxWatermark] at h
  split at h
  · rename_i ho
    simp only [Bool.and_eq_true, List.isEmpty_iff] at ho
    cases h
    refine ⟨rfl, by simp, .inl ?_, .inl ⟨by simp, .inl ho.2⟩⟩
    rw [advanceMetadataRvToAtLeast_watermarks]
    exact upsertOutboxWatermark_watermarks stamp_watermarks _
  · cases decision with
    | duplicate =>
      cases h
      exact ⟨rfl, by simp, .inr rfl, .inl ⟨by simp, .inr rfl⟩⟩
    | gap la ne => cases h
    | apply =>
      obtain ⟨⟨tbl, pe⟩, hr, h⟩ := bind_eq_ok.1 h
      obtain ⟨re, -, h⟩ := bind_eq_ok.1 h
      cases h
      rw [stamp_tables] at hr
      refine ⟨rfl, by simp, .inl ?_, .inr ⟨rfl, mu, pe, hm, by simpa using hr⟩⟩
      rw [advanceMetadataRvToAtLeast_watermarks, stamp_outboxWatermark, hsp.outboxWatermark]
      exact upsertOutboxWatermark_watermarks (by simp) _

theorem applyCommit_watermarks (hd : outboxWatermarkDecisionInTx db cm.outboxWatermark ≠ .ok .duplicate) :
    db'.watermarks = (db.upsertOutboxWatermark cm.outboxWatermark).watermarks := by
  obtain ⟨dec, rslv, hr, -, -, hw, -⟩ := applyCommit_cases h
  refine hw.resolve_right ?_
  rintro rfl
  exact hd hr.decided

end

theorem fromLive_ok {l : ApplyCommit} (h : ApplyCommit.fromLive e = .ok l) :
    l = ⟨e.resourceVersion, e.outboxWatermark, e.mutations, false⟩ := by
  obtain ⟨-, -, h⟩ := bind_eq_ok.1 h
  exact (ok.inj h).symm

theorem fromLive_error {er : DbError} (h : ApplyCommit.fromLive e = .error er) : ∃ message, er = .other message := by
  unfold ApplyCommit.fromLive at h
  cases hv : e.validateLiveTemplate with
  | error message =>
    rw [hv] at h
    exact ⟨message, (error.inj h).symm⟩
  | ok u =>
    rw [hv] at h
    cases h

inductive RaftApplied (policies : ApplyPolicies) (context : TransactionContext) (db : ClusterDb)
    (entry : LogApplyCommit) : ClusterDb → RaftLogApplyOutcome → Prop
  | empty {outcome : RaftLogApplyOutcome}
    (hmutations : entry.mutations = []) (hwatermark : entry.outboxWatermark = none) :
      RaftApplied policies context db entry db outcome
  | answered {row : LogApplyAppliedOutboxRow} {effect : PodEndpointEffect} {outcome : RaftLogApplyOutcome}
      (hrow : recordedRow db entry = some row)
      (hanswer : answerFromLedger context row effect = .ok outcome) : RaftApplied policies context db entry db outcome
  | duplicate {outcome : RaftLogApplyOutcome} (hrow : recordedRow db entry = none)
      (hdecision : outboxWatermarkDecisionInTx db entry.outboxWatermark = .ok .duplicate)
      (houtcome : outcome.committedOutcome = .noPublicChange db.resourceVersion .duplicateWatermark) :
      RaftApplied policies context db entry db outcome
  | stale {db' : ClusterDb} {outcome : RaftLogApplyOutcome} {last incoming : Int} {effect : PodEndpointEffect}
      (hrow : recordedRow db entry = none)
      (hdecision : outboxWatermarkDecisionInTx db entry.outboxWatermark ≠ .ok .duplicate)
      (hstamp : staleStamp db entry = some (last, incoming))
      (hrecord : recordStaleStamp policies context db entry last incoming effect = .ok (db', outcome)) :
      RaftApplied policies context db entry db' outcome
  | attempted {db' : ClusterDb} {outcome : RaftLogApplyOutcome} {podBefore : Option Json}
      (hpod : podStateInTx db.tables (podStatusTarget entry) = .ok podBefore)
      (hrow : recordedRow db entry = none)
      (hdecision : outboxWatermarkDecisionInTx db entry.outboxWatermark ≠ .ok .duplicate)
      (hstamp : staleStamp db entry = none)
      (hattempt : attemptCommit policies context db entry podBefore = .ok (db', outcome)) :
      RaftApplied policies context db entry db' outcome

theorem applyForRaft_cases (h : applyCommitInTxForRaftWithContext policies context db e = .ok (db', outcome)) :
    RaftApplied policies context db e db' outcome := by
  obtain ⟨podBefore, hp, h⟩ := bind_eq_ok.1 h
  obtain ⟨-, -, h⟩ := bind_eq_ok.1 h
  split at h
  · rename_i he
    simp only [Bool.and_eq_true, List.isEmpty_iff, Option.isNone_iff_eq_none] at he
    obtain ⟨rfl, -⟩ := h
    exact .empty he.1 he.2
  · cases hr : recordedRow db e with
    | some r =>
      simp only [hr] at h
      obtain ⟨ans, ha, heq⟩ := map_eq_ok.1 h
      obtain ⟨rfl, rfl⟩ := heq
      exact .answered hr ha
    | none =>
      simp only [hr] at h
      obtain ⟨dec, hc, h⟩ := bind_eq_ok.1 h
      split at h
      · rename_i hd
        obtain ⟨rfl, rfl⟩ := h
        exact .duplicate hr (hd ▸ hc) rfl
      · rename_i hd
        have hn : outboxWatermarkDecisionInTx db e.outboxWatermark ≠ .ok .duplicate := by
          rw [hc]
          simpa using hd
        cases hs : staleStamp db e with
        | some st =>
          rw [hs] at h
          exact .stale hr hn hs h
        | none =>
          rw [hs] at h
          exact .attempted hp hr hn hs h

theorem answerFromLedger_cases {r : LogApplyAppliedOutboxRow} (h : answerFromLedger context r effect = .ok outcome) :
    (∃ rj, outcome.committedOutcome = .rejected rj) ∨ ∃ v, r.appliedRv = some v ∧
      outcome.committedOutcome = .noPublicChange v .duplicateIdempotencyKey := by
  obtain ⟨⟨appliedRv, ms, re⟩, hrcp, h⟩ := bind_eq_ok.1 h
  have hrv : appliedRv = r.appliedRv := by
    unfold receiptFromAppliedOutbox at hrcp
    split at hrcp
    · exact (ok_pair_inj hrcp).1.symm
    · obtain ⟨rs, -, heq⟩ := map_eq_ok.1 hrcp
      exact (Prod.mk.inj heq).1.symm
    · exact (ok_pair_inj hrcp).1.symm
    · cases hrcp
  cases ms with
  | some ms =>
    cases h
    exact .inl ⟨_, rfl⟩
  | none =>
    cases appliedRv with
    | none => cases h
    | some v =>
      cases h
      exact .inr ⟨v, hrv.symm, rfl⟩

theorem applyEntry_of_ok (h : applyCommitInTxForRaftWithContext policies context db e = .ok (db', outcome)) :
    applyEntry policies context db e = db' := by
  simp [applyEntry, h]

theorem applyForRaft_empty (hu : e.mutations = []) (ha : e.outboxWatermark = none)
    (h : applyCommitInTxForRaftWithContext policies context db e = .ok (db', outcome)) :
    outcome.committedOutcome = .noPublicChange db.resourceVersion .ledgerOnly := by
  obtain ⟨podBefore, -, h⟩ := bind_eq_ok.1 h
  obtain ⟨-, -, h⟩ := bind_eq_ok.1 h
  rw [if_pos (by simp [hu, ha])] at h
  obtain ⟨-, rfl⟩ := ok_pair_inj h
  rfl

theorem attemptCommit_cases (h : attemptCommit policies context db e podBefore = .ok (db', outcome)) :
    let et := !e.mutations.any isPutWatchEvent
    ∃ li, ApplyCommit.fromLive e = .ok li ∧
      ((∃ after applied, applyCommitInTxWithWatchEvents policies context db li et = .ok (after, applied) ∧
        finishAttempt context db e podBefore after applied = .ok (db', outcome)) ∨
      ∃ co ms, applyCommitInTxWithWatchEvents policies context db li et = .error (.conflict co ms) ∧
        db' = recordRejection context db e (conflict co ms).display ∧
        outcome.committedOutcome = .rejected (committedRejectionFromConflict co (conflict co ms).display)) := by
  unfold attemptCommit at h
  cases hl : ApplyCommit.fromLive e with
  | error er =>
    -- a template that does not validate is no conflict
    obtain ⟨ms, rfl⟩ := fromLive_error hl
    simp only [hl, bind, bind] at h
    cases h
  | ok li =>
    refine ⟨li, rfl, ?_⟩
    simp only [hl, bind, bind] at h
    split at h
    · rename_i after applied ha
      exact .inl ⟨after, applied, ha, h⟩
    · rename_i co ms ha
      obtain ⟨rfl, rfl⟩ := h
      exact .inr ⟨co, ms, ha, rfl, rfl⟩
    · cases h

theorem storeFinalizationReceipt_cases {tmpl : Option LogApplyAppliedOutboxRow}
    (h : storeFinalizationReceipt context db tmpl applied = .ok db') :
    db' = db ∨ ∃ put row resultProto, tmpl = some put ∧ db.tables.appliedOutbox.find put.idempotencyKey = some row ∧
      db' = { db with tables := putAppliedOutbox db.tables { row with
        subjectKey := put.subjectKey
        appliedRv := some applied.resourceVersion
        resultProto
        statusStamp := put.statusStamp } } := by
  unfold storeFinalizationReceipt at h
  split at h
  · split at h
    · split at h
      · cases h
      · split at h
        · cases h
        · rename_i row hf
          cases h
          exact .inr ⟨_, row, _, rfl, hf, rfl⟩
    · exact .inl (ok.inj h).symm
  · exact .inl (ok.inj h).symm

section

variable (h : finishAttempt context db e podBefore after applied = .ok (db', outcome))
include h

/-- Finishing an attempt stores the receipt and answers with the version of the commit. -/
theorem finishAttempt_cases : storeFinalizationReceipt context after e.outboxTemplate applied = .ok db' ∧
      ((∃ r, outcome.committedOutcome = .visible applied.resourceVersion r) ∨
        outcome.committedOutcome = .noPublicChange applied.resourceVersion .ledgerOnly) := by
  obtain ⟨st, hs, h⟩ := bind_eq_ok.1 h
  obtain ⟨po, -, h⟩ := bind_eq_ok.1 h
  cases h
  refine ⟨hs, ?_⟩
  simp only [RaftLogApplyOutcome.new]
  split
  · exact .inl ⟨_, rfl⟩
  · exact .inr rfl

theorem finishAttempt_ok : ∃ appliedOutbox, db' = { after with tables := { after.tables with appliedOutbox } } := by
  rcases storeFinalizationReceipt_cases (finishAttempt_cases h).1 with rfl | ⟨put, row, proto, -, -, rfl⟩ <;>
    exact ⟨_, rfl⟩

end

/-- A recorded rejection changes the ledger, by a row without a version, and the position of the entry. -/
theorem recordRejection_eq (context : TransactionContext) (db : ClusterDb) (e : LogApplyCommit) (m : String) :
    ∃ appliedOutbox, recordRejection context db e m = ⟨{ db.tables with appliedOutbox },
        (db.upsertOutboxWatermark e.outboxWatermark).watermarks, db.resourceVersion⟩ ∧
      ∀ r ∈ appliedOutbox.rows, r ∈ db.tables.appliedOutbox.rows ∨ r.appliedRv = none := by
  rw [← upsertOutboxWatermark_resourceVersion db e.outboxWatermark, ← upsertOutboxWatermark_tables db e.outboxWatermark]
  unfold recordRejection
  cases e.outboxTemplate with
  | none => exact ⟨_, rfl, fun r hr => .inl hr⟩
  | some tm =>
    exact ⟨_, rfl, fun r hr => (Table.old_or_new hr).imp_right (congrArg LogApplyAppliedOutboxRow.appliedRv)⟩

/-- A stale stamp runs the ledger rows of its entry, and says why it does nothing else. -/
theorem recordStaleStamp_ok {la i : Int} (h : recordStaleStamp policies context db e la i effect = .ok (db', outcome)) :
    ∃ l applied re, ApplyCommit.fromLive (commitWithOutboxRowsOnly e) = .ok l ∧
      applyCommitInTxWithWatchEvents policies context db
        ⟨db.resourceVersion, e.outboxWatermark, e.mutations.filter isPutAppliedOutbox, false⟩ true =
          .ok (db', applied) ∧
      outcome.committedOutcome = .noPublicChange applied.resourceVersion re ∧
        (re = .staleStatusStamp ∨ re = .equalStatusStamp) := by
  obtain ⟨l, hl, h⟩ := bind_eq_ok.1 h
  obtain ⟨⟨after, applied⟩, hap, h⟩ := bind_eq_ok.1 h
  obtain ⟨-, h⟩ := ite_error_eq_ok.1 h
  cases h
  rw [fromLive_ok hl] at hap
  refine ⟨l, applied, _, hl, hap, rfl, ?_⟩
  split <;> simp

end Klights.Store
