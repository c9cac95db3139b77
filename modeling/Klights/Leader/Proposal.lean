import Klights.Store.OutboxBuild
import Klights.Store.OutboxStreams

/-!
# Proposing a delivered outbox command

The leader's proposal of one delivered command (`klights-replication/src/proposal.rs`,
`klights-replication/src/committed_apply.rs`): its gates, the build of the entry, the Raft round with whatever else is
committed before it, and the answer to the node.

- `propose_leaseRenew`: a lease renewal is never proposed;
- `propose_recorded`: a sequenced command whose key is recorded is answered as already applied or as retryable;
- `redelivery_not_rejected`: so a rejection that was recorded is never repeated.
-/

namespace Klights.Leader

open Lib Store OutboxApplyError

/-! ## Operations -/

def allOutboxOperations : List OutboxOperation :=
  [.podStatus, .runtimeReconcile, .probeReadiness, .deadlineExceeded, .containerStatusSnapshot,
    .ephemeralContainerStatuses, .podMetadata, .nodeRegistration, .nodeDataplane, .nodeStatus, .leaseRenew,
    .eventCreate]

def outboxOperationTryFrom (operation : String) : Option OutboxOperation :=
  allOutboxOperations.find? fun known => known.asStr = operation

def outboxOperationUsesPriorityPermit (operation : String) : Bool :=
  match outboxOperationTryFrom operation with
  | some .nodeRegistration | some .nodeDataplane | some .nodeStatus => true
  | _ => false

def outboxOperationWaitsForPermit (operation : String) : Bool :=
  match outboxOperationTryFrom operation with
  | some .podStatus | some .podMetadata | some .runtimeReconcile | some .probeReadiness | some .deadlineExceeded
  | some .containerStatusSnapshot | some .ephemeralContainerStatuses => true
  | _ => false

/-! ## Results of committed apply -/

inductive StorageCommandRejectionCode where
  | alreadyExists
  | notFound
  | conflict
  | invalidCommit

structure StorageCommandResult where
  appliedRv : Option Int
  errorMessage : Option String
  rejectionCode : Option StorageCommandRejectionCode
  publicResourceChanged : Bool
  appliedMutation : Option Resource
  podEndpointEffect : PodEndpointEffect

def rejectionCodeOf : CommittedApplyRejection → StorageCommandRejectionCode
  | .alreadyExists _ => .alreadyExists
  | .notFound _ => .notFound
  | .uidConflict _ | .resourceVersionConflict _ => .conflict
  | .invalidCommit _ => .invalidCommit

def storageCommandResultFromCommittedOutcome (receipt : RaftLogApplyOutcome) : StorageCommandResult :=
  match receipt.committedOutcome with
  | .visible resourceVersion _ =>
    ⟨some resourceVersion, none, none, true, receipt.returnedResource, receipt.podEndpointEffect⟩
  | .noPublicChange resourceVersion _ =>
    ⟨some resourceVersion, none, none, false, receipt.returnedResource, receipt.podEndpointEffect⟩
  | .rejected rejection =>
    ⟨none, some rejection.message, some (rejectionCodeOf rejection), false, none, receipt.podEndpointEffect⟩

/-! ## Proposals -/

inductive ResourceMutationEffect where
  | changed
  | unchanged
  deriving DecidableEq

structure RaftProposalEffect where
  outcome : OutboxApplyOutcome
  resourceEffect : ResourceMutationEffect
  podEndpointEffect : PodEndpointEffect
  committedResource : Option Resource
  deriving DecidableEq

/-- What becomes of a proposed entry: it is not committed, it is committed behind other entries but the reply is lost,
or it is committed behind other entries and answered. -/
inductive ProposeFate where
  | refused (error : String)
  | unanswered (before : List LogApplyCommit) (error : String)
  | committed (before : List LogApplyCommit)

/-- The circumstances of one delivery: the gates, the permits left, the clock and the Raft round. -/
structure ProposalConditions where
  scopedAuthority : Except String Unit
  commandCodecV3 : Except String Unit
  localLeader : Except String Unit
  priorityPermit : Bool
  permit : Bool
  now : Int
  scopedAuthorityAtPropose : Except String Unit
  encodeCommit : Except String Unit
  fate : ProposeFate

/-- The entry goes through Raft and is applied in log order. -/
def proposeMaterializedCommit (policies : ApplyPolicies) (context : TransactionContext) (db : ClusterDb)
    (commit : LogApplyCommit) : ProposeFate → ClusterDb × Except String StorageCommandResult
  | .refused error => (db, .error error)
  | .unanswered before error => (applyEntry policies context (runEntries policies context db before) commit,
    .error error)
  | .committed before =>
    let db := runEntries policies context db before
    match applyCommitInTxForRaftWithContext policies context db commit with
    | .ok (db, outcome) => (db, .ok (storageCommandResultFromCommittedOutcome outcome))
    | .error error => (db, .error error.display)

def acquireFlowPermit (conditions : ProposalConditions) (operation : String) : Except OutboxApplyError Unit :=
  let saturated := retryable "raft proposal flow control saturated; retry outbox later"
  if outboxOperationUsesPriorityPermit operation then
    if conditions.priorityPermit then .ok () else .error saturated
  else if outboxOperationWaitsForPermit operation then .ok ()
  else if conditions.permit then .ok ()
  else .error saturated

def admitProposal (conditions : ProposalConditions) (operation : String) : Except OutboxApplyError Unit := do
  conditions.scopedAuthority.mapError retryable
  conditions.commandCodecV3.mapError retryable
  conditions.localLeader.mapError retryable
  acquireFlowPermit conditions operation

/-- The gates between the build and the Raft round. -/
def admitEntry (conditions : ProposalConditions) : Except OutboxApplyError Unit := do
  conditions.scopedAuthorityAtPropose.mapError retryable
  conditions.encodeCommit.mapError fun error =>
    .retryable ("encode LogApplyCommit for raft outbox propose: " ++ error)

/-- The answer to an applied entry: a committed rejection, the error found while building, or the applied version. -/
def proposalAnswer (result : StorageCommandResult) (terminalError : Option OutboxApplyError) :
    Except OutboxApplyError RaftProposalEffect :=
  match result.errorMessage, terminalError with
  | some message, _ => .error (.conflictTerminal message)
  | none, some error => .error error
  | none, none =>
    .ok ⟨.applied (result.appliedRv.getD 0), if result.publicResourceChanged then .changed else .unchanged,
      result.podEndpointEffect, result.appliedMutation⟩

def buildErrorAnswer : OutboxApplyError → OutboxApplyError
  | .retryable message => .retryable ("build log_apply commit for raft outbox propose: " ++ message)
  | error => error

section Propose

variable (policies : ApplyPolicies) (context : TransactionContext) (build : CommandBuilder)

/-- An entry that was built goes through the remaining gates and the Raft round. -/
def proposeEntry (conditions : ProposalConditions) (db : ClusterDb) (commit : LogApplyCommit)
    (terminalError : Option OutboxApplyError) : ClusterDb × Except OutboxApplyError RaftProposalEffect :=
  match admitEntry conditions with
  | .error error => (db, .error error)
  | .ok () =>
    match proposeMaterializedCommit policies context db commit conditions.fate with
    | (db, .ok result) => (db, proposalAnswer result terminalError)
    | (db, .error error) => (db, .error (.retryable ("raft propose: " ++ error)))

def proposeOutboxCommandEffect (conditions : ProposalConditions) (db : ClusterDb) (request : OutboxRequest) :
    ClusterDb × Except OutboxApplyError RaftProposalEffect :=
  match admitProposal conditions request.operation with
  | .error error => (db, .error error)
  | .ok () =>
    match buildLogApplyCommitForOutboxWithWatermark context build db conditions.now request with
    | .error error => (db, .error (buildErrorAnswer error))
    | .ok .leaseRenewShortcircuit => (db, .ok ⟨.applied 0, .unchanged, .notApplicable, none⟩)
    | .ok (.alreadyApplied appliedRv resource) =>
      (db, .ok ⟨.alreadyApplied appliedRv, .unchanged, .unchanged, resource⟩)
    | .ok (.needsPropose commit _ terminalError) => proposeEntry policies context conditions db commit terminalError

end Propose

/-! ## Redelivery -/

section Redelivery

variable {policies : ApplyPolicies} {context ctx : TransactionContext} {build b : CommandBuilder}
  {cs : ProposalConditions} {db : ClusterDb} {request req : OutboxRequest}

theorem admitProposal_error {op : String} {e : OutboxApplyError}
    (h : admitProposal cs op = .error e) : ∃ message, e = .retryable message := by
  have hg : ∀ {ga : Except String Unit}, ga.mapError retryable = .error e → ∃ message, e = .retryable message := by
    intro ga hg
    obtain ⟨message, -, rfl⟩ := mapError_eq_error.1 hg
    exact ⟨message, rfl⟩
  rcases bind_eq_error.1 h with ha | ⟨_, -, h⟩
  · exact hg ha
  rcases bind_eq_error.1 h with hc | ⟨_, -, h⟩
  · exact hg hc
  rcases bind_eq_error.1 h with hl | ⟨_, -, h⟩
  · exact hg hl
  unfold acquireFlowPermit at h
  split at h
  · split at h
    · cases h
    · exact ⟨_, (Except.error.inj h).symm⟩
  · split at h
    · cases h
    · split at h
      · cases h
      · exact ⟨_, (Except.error.inj h).symm⟩

theorem propose_leaseRenew (hop : request.operation = OutboxOperation.leaseRenew.asStr) :
    (proposeOutboxCommandEffect policies ctx b cs db request).1 = db := by
  have hb : buildLogApplyCommitForOutboxWithWatermark ctx b db cs.now request =
      leaseRenewOutcome request := by
    unfold buildLogApplyCommitForOutboxWithWatermark buildLogApplyCommitForOutbox
    simp [hop]
  unfold proposeOutboxCommandEffect
  split
  · rfl
  · rw [hb]
    unfold leaseRenewOutcome
    cases validateLeaseRenewCommand request.command request.authoringNode <;> rfl

theorem propose_recorded (hma : req.watermark.isSome) (hop : req.operation ≠ OutboxOperation.leaseRenew.asStr)
    (hr : (db.tables.appliedOutbox.find req.idempotencyKey).isSome) :
    let answer := (proposeOutboxCommandEffect policies ctx b cs db req).2
    (∃ appliedRv re, answer = .ok ⟨.alreadyApplied appliedRv, .unchanged, .unchanged, re⟩) ∨
      ∃ ms, answer = .error (.retryable ms) := by
  obtain ⟨r, ho⟩ := Option.isSome_iff_exists.1 hr
  intro answer
  simp only [answer]
  unfold proposeOutboxCommandEffect
  rw [sequenced_recorded hma hop ho]
  cases ha : admitProposal cs req.operation with
  | error error =>
    obtain ⟨ms, rfl⟩ := admitProposal_error ha
    exact .inr ⟨ms, rfl⟩
  | ok _ =>
    cases hn : alreadyAppliedOutcome ctx (some r) with
    | error error =>
      obtain ⟨ms, rfl⟩ := alreadyAppliedOutcome_error hn
      exact .inr ⟨_, rfl⟩
    | ok ou =>
      obtain ⟨re, -, hok⟩ := bind_eq_ok.1 hn
      cases hok
      exact .inl ⟨_, _, rfl⟩

/-- A first delivery that was terminally rejected, with the rejection recorded under its key. -/
structure RejectedAndRecorded (policies : ApplyPolicies) (context : TransactionContext) (build : CommandBuilder)
    (conditions : ProposalConditions) (db : ClusterDb) (request : OutboxRequest) : Prop where
  sequenced : request.watermark.isSome = true
  unseen : db.tables.appliedOutbox.find request.idempotencyKey = none
  rejected : ∃ error, (proposeOutboxCommandEffect policies context build conditions db request).2 = .error error ∧
    error.isTerminal = true
  recorded : ((proposeOutboxCommandEffect policies context build conditions db request).1.tables.appliedOutbox.find
    request.idempotencyKey).isSome = true

theorem RejectedAndRecorded.operation_ne (h : RejectedAndRecorded policies ctx b cs db req) :
    req.operation ≠ OutboxOperation.leaseRenew.asStr := by
  intro hl
  have hr := h.recorded
  rw [propose_leaseRenew hl, h.unseen] at hr
  cases hr

end Redelivery

/-- A recorded rejection is never repeated: after the first delivery of a sequenced command was terminally rejected and
any further entries kept its ledger row, a redelivery under any circumstances is answered as already applied or as
retryable, never as a terminal rejection. -/
theorem redelivery_not_rejected (policies : ApplyPolicies) (context : TransactionContext) (build : CommandBuilder)
    (first again : ProposalConditions) (db : ClusterDb) (request : OutboxRequest)
    (hfirst : RejectedAndRecorded policies context build first db request) (between : List LogApplyCommit)
    (hkept : ((runEntries policies context (proposeOutboxCommandEffect policies context build first db request).1
      between).tables.appliedOutbox.find request.idempotencyKey).isSome = true) :
    let answer := (proposeOutboxCommandEffect policies context build again
      (runEntries policies context (proposeOutboxCommandEffect policies context build first db request).1 between)
      request).2
    ((∃ ap res, answer = .ok ⟨.alreadyApplied ap, .unchanged, .unchanged, res⟩) ∨
        ∃ msg, answer = .error (.retryable msg)) ∧
      ¬ ∃ er, answer = .error er ∧ er.isTerminal := by
  intro answer
  have ha : (∃ ap res, answer = .ok ⟨.alreadyApplied ap, .unchanged, .unchanged, res⟩) ∨
      ∃ msg, answer = .error (.retryable msg) :=
    propose_recorded hfirst.sequenced hfirst.operation_ne hkept
  refine ⟨ha, ?_⟩
  rintro ⟨er, he, ht⟩
  rcases ha with ⟨ap, res, hok⟩ | ⟨msg, hr⟩
  · rw [hok] at he
    cases he
  · rw [hr] at he
    cases he
    cases ht

/-! ## A rejected Pod status -/

/-- Every gate open, the entry committed at once. -/
def sampleConditions : ProposalConditions where
  scopedAuthority := .ok ()
  commandCodecV3 := .ok ()
  localLeader := .ok ()
  priorityPermit := true
  permit := true
  now := 5
  scopedAuthorityAtPropose := .ok ()
  encodeCommit := .ok ()
  fate := .committed []

/-- The status of a Pod that no longer exists, as the first command of its stream. -/
def sampleStaleStatus : OutboxRequest where
  idempotencyKey := "a"
  operation := "PodStatus"
  command := .updateStatus ⟨"v1", "Pod", some "default", "x"⟩ (.obj []) none ⟨some "u", none⟩ none
  authoringNode := "node-a"
  watermark := some ⟨"node-a", 1, 1⟩

/-- A builder for commands that need none. -/
def sampleBuild : CommandBuilder := fun _ command _ _ _ _ => .error (.other ("not built: " ++ command.variantName))

theorem redelivery_not_rejected_sample :
    RejectedAndRecorded samplePolicies sampleContext sampleBuild sampleConditions .empty sampleStaleStatus ∧
    ¬ ∃ error, (proposeOutboxCommandEffect samplePolicies sampleContext sampleBuild sampleConditions
      (runEntries samplePolicies sampleContext (proposeOutboxCommandEffect samplePolicies sampleContext sampleBuild
        sampleConditions .empty sampleStaleStatus).1 []) sampleStaleStatus).2 = .error error ∧
      error.isTerminal = true := by
  have hf : RejectedAndRecorded samplePolicies sampleContext sampleBuild sampleConditions .empty
      sampleStaleStatus :=
    ⟨rfl, rfl, ⟨.notFound "Pod default/x not found", by decide +kernel, rfl⟩, by decide +kernel⟩
  exact ⟨hf, (redelivery_not_rejected samplePolicies sampleContext sampleBuild sampleConditions sampleConditions
    .empty sampleStaleStatus hf [] (by decide +kernel)).2⟩

/-- The first delivery is answered "not found", the second one "already applied". -/
theorem rejected_then_already_applied :
    let first := proposeOutboxCommandEffect samplePolicies sampleContext sampleBuild sampleConditions .empty
      sampleStaleStatus
    first.2 = .error (.notFound "Pod default/x not found") ∧
    (first.1.tables.appliedOutbox.find "a").map (fun r => sampleContext.decode r.resultProto) =
      some (.ok (.error "Pod default/x not found")) ∧
    (proposeOutboxCommandEffect samplePolicies sampleContext sampleBuild sampleConditions first.1
      sampleStaleStatus).2 = .ok ⟨.alreadyApplied (some 0), .unchanged, .unchanged, none⟩ := by
  decide +kernel

end Klights.Leader
