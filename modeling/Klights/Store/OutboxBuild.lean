import Klights.Store.Coordinator

/-!
# Building the entry of a delivered outbox command

What the leader does with a delivered command before Raft sees it (`sqlite/embedded/mod.rs`,
`klights-cluster-core/src/outbox.rs`): a recorded key or a taken position is answered at once, everything else becomes
a commit with its ledger row. `buildLogApplyCommitForOutbox` builds for commands without a stream position,
`buildLogApplyCommitForOutboxWithWatermark` for those with one.

- `sequenced_recorded`: a recorded key with a stream position is answered from its row, whatever the row says.
-/

namespace Klights.Store

open Lib OutboxOperation

/-! ## Lease renewals -/

inductive LeaseRenewCommandError where
  | notLeaseMutation
  | invalidTarget
  | authoringNodeMismatch (authoringNode leaseName : String)

def LeaseRenewCommandError.display : LeaseRenewCommandError → String
  | .notLeaseMutation => "LeaseRenew must carry a Lease create/update command"
  | .invalidTarget => "LeaseRenew must target coordination.k8s.io/v1 Lease in kube-node-lease"
  | .authoringNodeMismatch authoringNode leaseName =>
    "LeaseRenew authoring node " ++ authoringNode ++ " cannot renew Lease " ++ leaseName

def validateLeaseRenewCommand (command : StorageCommand) (authoringNode : String) :
    Except LeaseRenewCommandError Unit :=
  let target := match command with
    | .createResource key _ | .updateResource key .. => some key
    | _ => none
  match target with
  | none => .error .notLeaseMutation
  | some key =>
    if key.apiVersion ≠ "coordination.k8s.io/v1" ∨ key.kind ≠ "Lease" ∨ key.ns ≠ some "kube-node-lease" then
      .error .invalidTarget
    else if key.name ≠ authoringNode then .error (.authoringNodeMismatch authoringNode key.name)
    else .ok ()

/-! ## Subjects and stamps -/

def resourceKeyParts (key : ResourceKey) (uid : Option String) : String :=
  let path := match key.ns with
    | some ns => key.apiVersion ++ "/" ++ key.kind ++ "/" ++ ns ++ "/" ++ key.name
    | none => key.apiVersion ++ "/" ++ key.kind ++ "/" ++ key.name
  match uid with
  | some uid => if uid = "" then path else path ++ "/" ++ uid
  | none => path

def resourceSubjectKey (key : ResourceKey) (data : Json) : String :=
  resourceKeyParts key (data.strAt ["metadata", "uid"])

def subjectKeyForCommand : StorageCommand → String
  | .createResource key data | .updateResource key data .. => resourceSubjectKey key data
  | .updateStatus key _ _ preconditions _ | .deleteResource key preconditions
  | .patchResource key _ _ preconditions _ => resourceKeyParts key preconditions.uid
  | .createNamespace name data | .updateNamespace name data _ => resourceSubjectKey (namespaceKeyOf name) data
  | .deleteNamespace name | .deleteNamespaceContents name => resourceKeyParts (namespaceKeyOf name) none
  | .finalizeBoundPod ns name podUid .. => resourceKeyParts ⟨"v1", "Pod", some ns, name⟩ (some podUid)
  | .applyResourceBatch operations =>
    match operations.head? with
    | some operation =>
      let key := operation.key
      "batch:" ++ key.apiVersion ++ "/" ++ key.kind ++ "/" ++ key.ns.getD "" ++ "/" ++ key.name
    | none => "batch:empty"
  | command => command.variantName

def podStatusStampOf : StorageCommand → Option Int
  | .updateStatus _ _ _ _ observedStatusStamp => observedStatusStamp
  | _ => none

/-! ## Stale targets -/

def resourceRowOptionalForUpdateInTx (db : ClusterDb) (key : ResourceKey) : Option ResourceRow :=
  db.tables.resources.find (resourceIdentity key)

def guardedTarget : StorageCommand → Option (ResourceKey × ResourcePreconditions)
  | .updateStatus key _ _ preconditions _ | .updateResource key _ _ preconditions _
  | .patchResource key _ _ preconditions _ | .deleteResource key preconditions
  | .deleteResourceWithTombstone key preconditions _ => some (key, preconditions)
  | _ => none

def uidBoundPodTarget (command : StorageCommand) : Option (String × String × String) := do
  let (key, preconditions) ← guardedTarget command
  if key.apiVersion ≠ "v1" ∨ key.kind ≠ "Pod" then none
  else
    let ns ← key.ns
    let expectedUid ← preconditions.uid.filter fun uid => uid ≠ ""
    some (ns, key.name, expectedUid)

/-- A Pod that is gone, or that another Pod of its name replaced, ends the command for good. -/
def terminalErrorForStaleUidBoundPodInTx (db : ClusterDb) (command : StorageCommand) : Option OutboxApplyError :=
  match uidBoundPodTarget command with
  | none => none
  | some (ns, name, expectedUid) =>
    match resourceRowOptionalForUpdateInTx db ⟨"v1", "Pod", some ns, name⟩ with
    | some row => if row.uid ≠ expectedUid then some (.uidMismatch expectedUid row.uid) else none
    | none => some (.notFound ("Pod " ++ ns ++ "/" ++ name ++ " not found"))

/-- An event or a node that exists already counts as created. -/
def shouldConsumeWatermarkForIdempotentExistingCreateInTx (db : ClusterDb) (operation : String)
    (command : StorageCommand) : Bool :=
  if operation ≠ eventCreate.asStr ∧ operation ≠ nodeRegistration.asStr then false
  else
    match command with
    | .createResource key _ => (resourceRowOptionalForUpdateInTx db key).isSome
    | _ => false

/-! ## Requests and outcomes -/

structure OutboxRequest where
  idempotencyKey : String
  operation : String
  command : StorageCommand
  authoringNode : String
  watermark : Option OutboxStreamWatermark

inductive BuildOutboxTxnOutcome where
  | built (commit : LogApplyCommit) (rv : Int) (terminalError : Option OutboxApplyError)
  | alreadyApplied (record : Option LogApplyAppliedOutboxRow)

inductive BuildOutboxOutcome where
  | needsPropose (commit : LogApplyCommit) (appliedRv : Int) (terminalError : Option OutboxApplyError)
  | leaseRenewShortcircuit
  | alreadyApplied (appliedRv : Option Int) (committedResource : Option Resource)

/-- `build_log_apply_commit_in_tx_from_command`: what a command turns into against the live rows, given the operation,
the authoring node, a candidate resourceVersion and the time. -/
abbrev CommandBuilder : Type :=
  ClusterDb → StorageCommand → String → String → Option Int → Int → Except DbError (LogApplyCommit × Int)

def outboxApplyErrorFromDbError (error : DbError) : OutboxApplyError :=
  if containsText error.display "409 Conflict" then .conflictTerminal error.display else .retryable error.display

section Build

variable (context : TransactionContext)

/-! ## Recorded answers -/

variable (record : Option LogApplyAppliedOutboxRow)

def cachedOutboxTerminalError : Except OutboxApplyError (Option String) :=
  match record with
  | none => .ok none
  | some record =>
    if record.resultProto.isEmpty then .ok none
    else
      match context.decode record.resultProto with
      | .ok (.error message) => .ok (some message)
      | .ok _ => .ok none
      | .error err => .error (.retryable ("decode cached applied_outbox response: " ++ err))

def cachedOutboxCommittedResource : Except OutboxApplyError (Option Resource) :=
  match record with
  | none => .ok none
  | some record =>
    match context.decode record.resultProto with
    | .ok (.resource resourceVersion data) =>
      match resourceTryFromData resourceVersion data with
      | .ok resource => .ok (some resource)
      | .error error => .error (.retryable ("decode cached applied_outbox resource identity: " ++ error))
    | .ok _ => .ok none
    | .error error => .error (.retryable ("decode cached applied_outbox response: " ++ error))

/-! ## Commits -/

/-- Append the ledger row of a request; its answer is the terminal error, or an acknowledgement. -/
def appendAppliedOutboxLedgerMutation (commit : LogApplyCommit) (request : OutboxRequest) (firstSeenMs : Int)
    (terminalError : Option OutboxApplyError) : LogApplyCommit :=
  let response : StorageResponse := match terminalError with
    | none => .ack 0
    | some error => .error error.display
  let resultProto := match context.encode response with
    | .ok bytes => bytes
    | .error _ => []
  { outboxWatermark := commit.outboxWatermark
    mutations := commit.mutations ++ [.putAppliedOutbox {
      idempotencyKey := request.idempotencyKey
      subjectKey := subjectKeyForCommand request.command
      operation := request.operation
      firstSeenMs
      appliedRv := none
      resultProto
      statusStamp := (podStatusStampOf request.command).filter fun stamp => 0 < stamp }] }

def setLiveCommitWatermark (commit : LogApplyCommit) (watermark : Option OutboxStreamWatermark) : LogApplyCommit :=
  { outboxWatermark := watermark, mutations := commit.mutations }

/-- A commit of nothing but the ledger row and the position of a request. -/
def ledgerOnlyCommit (request : OutboxRequest) (firstSeenMs : Int) (terminalError : Option OutboxApplyError) :
    LogApplyCommit :=
  appendAppliedOutboxLedgerMutation context (setLiveCommitWatermark { mutations := [] } request.watermark) request
    firstSeenMs terminalError

/-- Whether a position is taken; one that is not positive or skips a number is refused. -/
def watermarkAlreadyApplied (db : ClusterDb) : Option OutboxStreamWatermark → Except DbError Bool
  | none => .ok false
  | some watermark =>
    if watermark.streamSeq ≤ 0 then .error (.other "outbox stream seq must be positive")
    else
      match db.lastSeq watermark.clientId watermark.streamId with
      | some lastSeq =>
        if watermark.streamSeq ≤ lastSeq then .ok true
        else if watermark.streamSeq ≠ saturatingAdd lastSeq 1 then
          .error (.other ("outbox stream gap for seq " ++ toString watermark.streamSeq ++ ": last committed seq is " ++
            toString lastSeq))
        else .ok false
      | none =>
        if watermark.streamSeq ≠ 1 then
          .error (.other ("outbox stream gap for seq " ++ toString watermark.streamSeq ++ ": last committed seq is 0"))
        else .ok false

/-! ## The two builders -/

variable (build : CommandBuilder)

/-- A private candidate; committed apply assigns the durable resourceVersion. -/
def outboxMaterializationResourceVersionHint (db : ClusterDb) : Int := saturatingAdd db.resourceVersion 1

/-- A commit without mutations reports the current resourceVersion. -/
def normalizeLedgerOnlyOutboxCommit (db : ClusterDb) (commit : LogApplyCommit) (rv : Int) : Int :=
  if commit.mutations.isEmpty then db.resourceVersion else rv

variable (db : ClusterDb) (now : Int) (request : OutboxRequest)

def buildOutboxInTx : Except DbError BuildOutboxTxnOutcome :=
  match db.tables.appliedOutbox.find request.idempotencyKey with
  | some existing => .ok (.alreadyApplied (some existing))
  | none => do
    let (commit, rv) ← build db request.command request.operation request.authoringNode
      (some (outboxMaterializationResourceVersionHint db)) now
    .ok (.built (appendAppliedOutboxLedgerMutation context commit request now none)
      (normalizeLedgerOnlyOutboxCommit db commit rv) none)

/-- A sequenced command against the live rows: a stale target and a conflict keep the position and the ledger row, with
the error as its answer. -/
def buildSequencedCommit : Except DbError BuildOutboxTxnOutcome :=
  let terminal (error : OutboxApplyError) : BuildOutboxTxnOutcome :=
    .built (ledgerOnlyCommit context request now (some error)) db.resourceVersion (some error)
  let hint := outboxMaterializationResourceVersionHint db
  match terminalErrorForStaleUidBoundPodInTx db request.command with
  | some error => .ok (terminal error)
  | none =>
    if shouldConsumeWatermarkForIdempotentExistingCreateInTx db request.operation request.command then
      .ok (.built (ledgerOnlyCommit context request now none) hint none)
    else
      match build db request.command request.operation request.authoringNode (some hint) now with
      | .ok (commit, rv) =>
        .ok (.built (appendAppliedOutboxLedgerMutation context (setLiveCommitWatermark commit request.watermark)
          request now none) (normalizeLedgerOnlyOutboxCommit db commit rv) none)
      | .error error =>
        if containsText error.display "409 Conflict" then .ok (terminal (.conflictTerminal error.display))
        else .error error

def buildOutboxWithWatermarkInTx : Except DbError BuildOutboxTxnOutcome :=
  match db.tables.appliedOutbox.find request.idempotencyKey with
  | some existing => .ok (.alreadyApplied (some existing))
  | none => do
    let taken ← watermarkAlreadyApplied db request.watermark
    if taken then .ok (.alreadyApplied none) else buildSequencedCommit context build db now request

def leaseRenewOutcome (request : OutboxRequest) : Except OutboxApplyError BuildOutboxOutcome :=
  match validateLeaseRenewCommand request.command request.authoringNode with
  | .ok () => .ok .leaseRenewShortcircuit
  | .error error => .error (.conflictTerminal error.display)

/-- The answer to a recorded key or a taken position. -/
def alreadyAppliedOutcome : Except OutboxApplyError BuildOutboxOutcome := do
  let committedResource ← cachedOutboxCommittedResource context record
  .ok (.alreadyApplied (record.bind LogApplyAppliedOutboxRow.appliedRv) committedResource)

def buildLogApplyCommitForOutbox : Except OutboxApplyError BuildOutboxOutcome :=
  if request.operation = leaseRenew.asStr then leaseRenewOutcome request
  else
    match buildOutboxInTx context build db now request with
    | .error error => .error (outboxApplyErrorFromDbError error)
    | .ok (.built commit rv terminalError) => .ok (.needsPropose commit rv terminalError)
    | .ok (.alreadyApplied record) => do
      match ← cachedOutboxTerminalError context record with
      | some message => .error (.conflictTerminal message)
      | none => alreadyAppliedOutcome context record

def buildLogApplyCommitForOutboxWithWatermark : Except OutboxApplyError BuildOutboxOutcome :=
  if request.watermark.isNone then buildLogApplyCommitForOutbox context build db now request
  else if request.operation = leaseRenew.asStr then leaseRenewOutcome request
  else
    match buildOutboxWithWatermarkInTx context build db now request with
    | .error error => .error (outboxApplyErrorFromDbError error)
    | .ok (.built commit rv terminalError) => .ok (.needsPropose commit rv terminalError)
    -- unlike the unsequenced path, a recorded error is not looked at
    | .ok (.alreadyApplied record) => alreadyAppliedOutcome context record

end Build

/-! ## Recorded keys -/

variable {ctx : TransactionContext} {build : CommandBuilder} {db : ClusterDb} {now : Int} {req : OutboxRequest}
  {row : LogApplyAppliedOutboxRow}

theorem sequenced_recorded (ha : req.watermark.isSome) (hp : req.operation ≠ leaseRenew.asStr)
    (hr : db.tables.appliedOutbox.find req.idempotencyKey = some row) :
    buildLogApplyCommitForOutboxWithWatermark ctx build db now req = alreadyAppliedOutcome ctx (some row) := by
  have hso : req.watermark.isNone = false := by simpa using ha
  unfold buildLogApplyCommitForOutboxWithWatermark buildOutboxWithWatermarkInTx
  simp [hso, hp, hr]

theorem alreadyAppliedOutcome_error {record : Option LogApplyAppliedOutboxRow} {e : OutboxApplyError}
    (h : alreadyAppliedOutcome ctx record = .error e) : ∃ message, e = .retryable message := by
  rcases bind_eq_error.1 h with hcac | ⟨_, -, hok⟩
  · unfold cachedOutboxCommittedResource at hcac
    split at hcac
    · cases hcac
    · split at hcac
      · split at hcac
        · cases hcac
        · exact ⟨_, (Except.error.inj hcac).symm⟩
      · cases hcac
      · exact ⟨_, (Except.error.inj hcac).symm⟩
  · cases hok

end Klights.Store
