import Klights.Leader.Authorize
import Klights.Lib.Table
import Mathlib.Data.BitVec

/-!
# The node outbox

The durable queue of a node (`klights-node-datastore/src/delivery.rs`, `delivery_queries.rs`, `schema.rs`) and the
dispatcher that drains it (`klights-kubelet/src/node_outbox/mod.rs`).

- the store operations: `enqueueOutbox`, `claimDueOutbox`, `recordOutboxFailure`, `completeOutbox`,
  `completeSupersededStatusOutbox`, `replayDeadLetter`, …;
- the dispatcher's decisions on a claimed row: `beginDelivery` before the delivery, `settle` after the leader's answer.
-/

namespace Klights.Node

open Lib Leader

/-! ## Classification -/

inductive OutboxPriority where
  | lease
  | nodeHealth
  | workload
  | diagnostic

def OutboxPriority.persistedValue : OutboxPriority → Int
  | .lease => 0
  | .nodeHealth => 1
  | .workload => 2
  | .diagnostic => 3

inductive OutboxSupersedability where
  | never
  | podStatus
  deriving DecidableEq

inductive TerminalDeleteClassification where
  | notTerminalDelete
  | actorOwnedPodDelete
  deriving DecidableEq

inductive OutboxSequencePolicy where
  | unsequenced
  | perSubject
  deriving DecidableEq

/-- What a producer says about a row. A terminal Pod delete is not supersedable, and it and the Pod status rows are
sequenced per subject. -/
structure OutboxClassification where
  priority : OutboxPriority
  supersedability : OutboxSupersedability
  terminalDelete : TerminalDeleteClassification
  sequencePolicy : OutboxSequencePolicy
  terminal_never : terminalDelete = .actorOwnedPodDelete → supersedability = .never
  sequenced : terminalDelete = .actorOwnedPodDelete ∨ supersedability = .podStatus → sequencePolicy = .perSubject

/-! ## Tables -/

/-- The columns that a row keeps in the outbox and in the dead letter table. -/
structure OutboxEntry where
  clientId : String
  idempotencyKey : String
  enqueuedMs : Int
  subjectKey : String
  subjectKind : String
  podUid : String
  operation : String
  streamId : Int
  streamSeq : Int
  payload : List UInt8
  deriving DecidableEq

structure OutboxRow where
  id : Int
  entry : OutboxEntry
  priorityClass : Int
  supersedablePodStatus : Bool
  isTerminalPodDelete : Bool
  attempt : Int
  nextDueMs : Int
  leasedUntilMs : Int
  leaseToken : Option String
  lastError : Option String

structure DeadLetterRow where
  id : Int
  originalId : Int
  entry : OutboxEntry
  attempts : Int
  lastError : String
  deriving DecidableEq

structure StreamSequence where
  streamId : Int
  lastSeq : Int

/-- The outbox tables of `node.db`, with the counters of their AUTOINCREMENT ids. -/
structure OutboxDb where
  outbox : Table OutboxRow.id
  outboxIds : Int
  deadLetter : Table DeadLetterRow.id
  deadLetterIds : Int
  sequences : Table StreamSequence.streamId
  clientId : Option String

def OutboxDb.empty : OutboxDb := ⟨.empty, 0, .empty, 0, .empty, none⟩

def OutboxEntry.assigned (entry : OutboxEntry) : Bool := 0 < entry.streamId && 0 < entry.streamSeq

def OutboxDb.lastSeq (db : OutboxDb) (streamId : Int) : Int :=
  ((db.sequences.find streamId).map StreamSequence.lastSeq).getD 0

/-! ## Store operations

`digest` stands for the first eight bytes of the SHA-256 digest of a text. -/

section Store

variable (digest : String → BitVec 64)

def outboxStreamId (subjectKey : String) : Int :=
  let streamId : Int := (digest subjectKey &&& (2 ^ 63 - 1)).toNat
  if streamId = 0 then 1 else streamId

variable (db : OutboxDb)

def OutboxDb.ensureOutboxClientId (fresh : String) : String × OutboxDb :=
  match db.clientId with
  | some clientId => (clientId, db)
  | none => (fresh, { db with clientId := some fresh })

def OutboxDb.allocateNextOutboxStreamSeq (streamId : Int) : Int × OutboxDb :=
  let nextSeq := saturatingAdd (db.lastSeq streamId) 1
  (nextSeq, { db with sequences := db.sequences.put ⟨streamId, nextSeq⟩ })

def OutboxDb.insertRow (entry : OutboxEntry) (classification : OutboxClassification)
    (nextDueMs : Int) : Except String OutboxDb :=
  if db.outbox.rows.any fun row => row.entry.idempotencyKey = entry.idempotencyKey then
    .error "UNIQUE constraint failed: outbox.idempotency_key"
  else if entry.operation = "" || (entry.subjectKind = "Pod" && entry.podUid = "") then
    .error "CHECK constraint failed: outbox"
  else if i64Max ≤ db.outboxIds then .error "database or disk is full"
  else .ok { db with
    outbox := db.outbox.put
      { id := db.outboxIds + 1, entry
        priorityClass := classification.priority.persistedValue
        supersedablePodStatus := classification.supersedability = .podStatus
        isTerminalPodDelete := classification.terminalDelete = .actorOwnedPodDelete
        attempt := 0, nextDueMs, leasedUntilMs := 0, leaseToken := none, lastError := none }
    outboxIds := db.outboxIds + 1 }

structure OutboxInsert where
  idempotencyKey : String
  enqueuedMs : Int
  subjectKey : String
  subjectKind : String
  podUid : String
  operation : String
  classification : OutboxClassification
  payload : List UInt8
  nextDueMs : Int

def OutboxInsert.entry (row : OutboxInsert) (clientId : String) (streamId streamSeq : Int) : OutboxEntry where
  clientId
  idempotencyKey := row.idempotencyKey
  enqueuedMs := row.enqueuedMs
  subjectKey := row.subjectKey
  subjectKind := row.subjectKind
  podUid := row.podUid
  operation := row.operation
  streamId
  streamSeq
  payload := row.payload

def OutboxDb.enqueueOutbox (row : OutboxInsert) (freshClientId : String) : Except String OutboxDb :=
  let (clientId, db) := db.ensureOutboxClientId freshClientId
  if row.classification.sequencePolicy = .perSubject then
    let streamId := outboxStreamId digest row.subjectKey
    let (streamSeq, db) := db.allocateNextOutboxStreamSeq streamId
    db.insertRow (row.entry clientId streamId streamSeq) row.classification row.nextDueMs
  else db.insertRow (row.entry clientId 0 0) row.classification row.nextDueMs

/-- The position a replayed row gets: its own, or a new one if it had none and is sequenced now. -/
def OutboxDb.replayPosition (entry : OutboxEntry) (sequenced : Bool) : Int × Int × OutboxDb :=
  let streamId := if 0 < entry.streamId then entry.streamId
    else if sequenced then outboxStreamId digest entry.subjectKey else 0
  if 0 < entry.streamSeq then (streamId, entry.streamSeq, db)
  else if sequenced then
    let (streamSeq, db) := db.allocateNextOutboxStreamSeq streamId
    (streamId, streamSeq, db)
  else (streamId, 0, db)

/-- The second transaction of `replay_dead_letter`, on the row that the first one read. -/
def OutboxDb.replayDeadLetter (dead : DeadLetterRow) (classification : OutboxClassification)
    (freshClientId : String) (nowMs : Int) : Except String OutboxDb := do
  let (clientId, db) := if dead.entry.clientId = "" then db.ensureOutboxClientId freshClientId
    else (dead.entry.clientId, db)
  let (streamId, streamSeq, db) := db.replayPosition digest dead.entry (classification.sequencePolicy = .perSubject)
  let db ← db.insertRow { dead.entry with clientId, streamId, streamSeq } classification nowMs
  .ok { db with deadLetter := db.deadLetter.deleteWhere fun row => row.id = dead.id }

/-- The first transaction of a claim selects the rows that are due, not leased, and first of their stream: no live or
dead-lettered row of the stream has a lower sequence number. A row without a position is first of its subject. -/
def OutboxDb.claimable (nowMs : Int) (row : OutboxRow) : Bool :=
  row.nextDueMs ≤ nowMs && (row.leasedUntilMs = 0 || row.leasedUntilMs ≤ nowMs) &&
    (if row.entry.assigned then
      (db.outbox.rows.all fun older => older.entry.streamId ≠ row.entry.streamId ||
        !(0 < older.entry.streamSeq && older.entry.streamSeq < row.entry.streamSeq ||
          older.entry.streamSeq = 0 && older.id < row.id)) &&
      (db.deadLetter.rows.all fun dead => dead.entry.streamId ≠ row.entry.streamId ||
        !(0 < dead.entry.streamSeq && dead.entry.streamSeq < row.entry.streamSeq))
    else db.outbox.rows.all fun older => older.entry.subjectKey ≠ row.entry.subjectKey || row.id ≤ older.id)

def outboxDiagnosticAgingMs : Int := 30000

/-- The priority of a claim: diagnostic rows wait behind Pod status until they have aged. -/
def claimRank (eligible : List OutboxRow) (nowMs : Int) (row : OutboxRow) : Int :=
  if row.priorityClass = OutboxPriority.diagnostic.persistedValue then
    if row.entry.enqueuedMs ≤ nowMs - outboxDiagnosticAgingMs then OutboxPriority.workload.persistedValue
    else if eligible.any fun status => !status.isTerminalPodDelete && status.supersedablePodStatus then
      OutboxPriority.diagnostic.persistedValue
    else OutboxPriority.workload.persistedValue
  else row.priorityClass

def claimBefore (eligible : List OutboxRow) (nowMs : Int) (a b : OutboxRow) : Bool :=
  let rank := claimRank eligible nowMs
  rank a < rank b || (rank a = rank b && (a.entry.enqueuedMs < b.entry.enqueuedMs ||
    (a.entry.enqueuedMs = b.entry.enqueuedMs && a.id ≤ b.id)))

def OutboxDb.claimCandidates (nowMs : Int) (limit : Nat) : List OutboxRow :=
  let eligible := db.outbox.rows.filter (db.claimable nowMs)
  (eligible.insertionSort fun a b => claimBefore eligible nowMs a b = true).take limit

def OutboxRow.lease (row : OutboxRow) (leasedUntilMs : Int) (leaseToken : String) : OutboxRow :=
  { row with leasedUntilMs, leaseToken := some leaseToken }

def OutboxDb.setLease (id leasedUntilMs : Int) (leaseToken : String) (nowMs : Int) : OutboxDb :=
  { db with
    outbox := db.outbox.updateWhere (fun row => row.id = id && row.nextDueMs ≤ nowMs && row.leasedUntilMs ≤ nowMs)
      (fun row => row.lease leasedUntilMs leaseToken) fun _ => rfl }

/-- `claim_due_outbox_batch` with its limit, and `claim_next_due_outbox` with limit 1: lease the candidates and read
them back. -/
def OutboxDb.claimDueOutbox (nowMs : Int) (limit : Nat) (leaseMs : Int) (leaseToken : String) :
    List OutboxRow × OutboxDb :=
  let leasedUntilMs := saturatingAdd nowMs (max leaseMs 1)
  let candidates := db.claimCandidates nowMs (min limit 256)
  let db := candidates.foldl (fun db row => db.setLease row.id leasedUntilMs leaseToken nowMs) db
  (candidates.filterMap fun row => db.outbox.find row.id, db)

variable (id : Int) (leaseToken : String)

def OutboxDb.renewOutboxLease (leasedUntilMs : Int) : OutboxDb :=
  { db with
    outbox := db.outbox.updateWhere (fun row => row.id = id && row.leaseToken = some leaseToken)
      (fun row => { row with leasedUntilMs }) fun _ => rfl }

def OutboxDb.requeueExpiredOutboxLeases (nowMs : Int) : OutboxDb :=
  { db with
    outbox := db.outbox.updateWhere (fun row => 0 < row.leasedUntilMs && row.leasedUntilMs ≤ nowMs)
      (fun row => { row with leasedUntilMs := 0, leaseToken := none }) fun _ => rfl }

def OutboxDb.markOutboxAttemptFailed (backoffUntilMs : Int) (error : String) : OutboxDb :=
  { db with
    outbox := db.outbox.updateWhere (fun row => row.id = id && row.leaseToken = some leaseToken)
      (fun row => { row with
        attempt := row.attempt + 1, nextDueMs := backoffUntilMs, leasedUntilMs := 0, leaseToken := none
        lastError := some error }) fun _ => rfl }

def OutboxDb.moveToDeadLetter (row : OutboxRow) (attempts : Int) (lastError : String) : Except String OutboxDb :=
  if i64Max ≤ db.deadLetterIds then .error "database or disk is full"
  else .ok { db with
    deadLetter := db.deadLetter.put ⟨db.deadLetterIds + 1, row.id, row.entry, attempts, lastError⟩
    deadLetterIds := db.deadLetterIds + 1
    outbox := db.outbox.deleteWhere fun other => other.id = row.id }

def OutboxDb.recordOutboxFailure (backoffUntilMs : Int) (error : String) (maxAttempts : Int) : Except String OutboxDb :=
  match (db.outbox.find id).filter fun row => row.leaseToken = some leaseToken with
  | none => .ok db
  | some row =>
    let attempt := saturatingAdd row.attempt 1
    if max maxAttempts 1 ≤ attempt then db.moveToDeadLetter row attempt error
    else .ok (db.markOutboxAttemptFailed id leaseToken backoffUntilMs error)

def OutboxDb.completeOutbox : OutboxDb :=
  { db with outbox := db.outbox.deleteWhere fun row => row.id = id && row.leaseToken = some leaseToken }

def OutboxRow.superseded (subjectKey : String) (terminalDeleteId : Int) (row : OutboxRow) : Bool :=
  row.entry.subjectKey = subjectKey && row.id < terminalDeleteId && !row.isTerminalPodDelete &&
    row.supersedablePodStatus

def OutboxDb.completeSupersededStatusOutbox (subjectKey : String) (terminalDeleteId : Int) : OutboxDb :=
  { db with outbox := db.outbox.deleteWhere (OutboxRow.superseded subjectKey terminalDeleteId) }

def OutboxDb.moveOutboxToDeadLetterIfMaxAttempts (idempotencyKey : String) (maxAttempts : Int) :
    Except String OutboxDb :=
  match db.outbox.rows.find? fun row => row.entry.idempotencyKey = idempotencyKey with
  | none => .ok db
  | some row =>
    if row.attempt < maxAttempts then .ok db else db.moveToDeadLetter row row.attempt (row.lastError.getD "")

/-- Only a row without a position may be deleted from the dead letter table. -/
def OutboxDb.deleteDeadLetter (id : Int) : OutboxDb :=
  { db with
    deadLetter := db.deadLetter.deleteWhere fun row =>
      row.id = id && (row.entry.streamId = 0 || row.entry.streamSeq = 0) }

end Store

/-! ## The dispatcher -/

/-- The database calls that end the handling of a claimed row. -/
inductive SettleOp where
  | complete
  | supersede
  | markFailed (backoffUntilMs : Int) (error : String)
  | recordFailure (backoffUntilMs : Int) (error : String) (maxAttempts : Int)

def maxOutboxAttempts : Int := 720

/-- The operation of a row, if it can be delivered: a lease renewal is not. -/
def deliveryOperation (operation : String) : Option OutboxDeliveryOperation :=
  [OutboxDeliveryOperation.podStatus, .runtimeReconcile, .probeReadiness, .deadlineExceeded, .containerStatusSnapshot,
    .ephemeralContainerStatuses, .podMetadata, .nodeRegistration, .nodeDataplane, .nodeStatus, .eventCreate].find?
    fun candidate => candidate.asWireName = operation

/-- What happens to a claimed row before its delivery: `none` delivers it (as it is, or as a terminal decision when
the leader could not read it), `some ops` ends it here. -/
def beginDelivery (row : OutboxRow) (sentinelEncodes : Bool) (backoffUntilMs : Int) (error : String) :
    Option (List SettleOp) :=
  let deliverable := (deliveryOperation row.entry.operation).isSome
  if !deliverable && !row.entry.assigned then some [.complete]
  else if !deliverable && !sentinelEncodes then some [.markFailed backoffUntilMs error]
  else
    let exactIdentity := row.entry.idempotencyKey ≠ "" && row.entry.clientId ≠ "" && row.entry.assigned
    if exactIdentity && (!deliverable || !row.entry.payload.isEmpty || sentinelEncodes) then none
    else some [.recordFailure row.nextDueMs error 1]

abbrev DeliveryAnswer := Except OutboxDeliveryError OutboxApplyOutcome

/-- An answer that ends a delivery: a result, or a terminal error. -/
def isFinal : DeliveryAnswer → Bool
  | .ok _ => true
  | .error error => error.isTerminal

def actorOwnedPodDeleteNeedsDeadLetter (row : OutboxRow) : OutboxDeliveryError → Bool
  | .uidMismatch .. | .conflictTerminal _ => row.isTerminalPodDelete
  | _ => false

def settle (row : OutboxRow) (backoffUntilMs nowMs : Int) (message : String) : DeliveryAnswer → List SettleOp
  | .ok _ => .complete :: if row.isTerminalPodDelete then [.supersede] else []
  | .error error =>
    if error.isTerminal then
      if actorOwnedPodDeleteNeedsDeadLetter row error then [.recordFailure nowMs message 1] else [.complete]
    else match error with
      | .codecIncompatible .. => [.markFailed backoffUntilMs message]
      | _ => [.recordFailure backoffUntilMs message maxOutboxAttempts]

/-- Execute one of the calls for a claimed row; a failed call changes nothing. -/
def SettleOp.run (op : SettleOp) (db : OutboxDb) (row : OutboxRow) (leaseToken : String) : OutboxDb :=
  match op with
  | .complete => db.completeOutbox row.id leaseToken
  | .supersede => db.completeSupersededStatusOutbox row.entry.subjectKey row.id
  | .markFailed backoffUntilMs error => db.markOutboxAttemptFailed row.id leaseToken backoffUntilMs error
  | .recordFailure backoffUntilMs error maxAttempts =>
    match db.recordOutboxFailure row.id leaseToken backoffUntilMs error maxAttempts with
    | .ok db => db
    | .error _ => db

end Klights.Node
