import Klights.Lib.Table
import Klights.Replay.Retention
import Klights.Store.Basic
import Klights.Store.ResourceShape
import Mathlib.Data.List.Sort
import Mathlib.Data.List.Dedup

/-!
# The durable watch log

The tables `watch_events` and `watch_replay_floors`, the insert of an event (`sqlite/mutation_helpers.rs`) and the
collection of old events (`live_apply/state/watch_history.rs`).

- `insertWatchEventInConn` refuses a second event of one identity at one resourceVersion unless it is a replay
  (`insertWatchEvent_inserted` is its inversion);
- `gcWatchEventsInTx` removes old rows and raises the replay floor of their scopes;
- `targetReplayBoundaries` reads back the boundaries of a watch target (`sqlite/replay_floor.rs`).
-/

namespace Klights.Store

open Lib Replay

/-! ## Rows -/

structure WatchEventRow where
  id : Int
  apiVersion : String
  kind : String
  ns : Option String
  name : String
  resourceVersion : Int
  eventType : String
  data : Blob
  deriving DecidableEq

/-- The partition retention works on: kind and `COALESCE(namespace, '#cluster')`. -/
structure ScopeKey where
  apiVersion : String
  kind : String
  namespaceKey : String
  deriving DecidableEq

def WatchEventRow.scopeKey (row : WatchEventRow) : ScopeKey :=
  ⟨row.apiVersion, row.kind, namespaceKey row.ns⟩

structure ReplayFloorRow where
  scope : ScopeKey
  floorRv : Int
  floorEventId : Int
  floorPositionExact : Bool
  deriving DecidableEq

/-- The watch tables, with the allocator row of `sqlite_sequence`. -/
structure WatchLog where
  events : Table WatchEventRow.id
  seq : Int
  floors : Table ReplayFloorRow.scope
  deriving DecidableEq

namespace WatchLog

def empty : WatchLog := ⟨.empty, 0, .empty⟩

def maxEventId (log : WatchLog) : Int := ((log.events.rows.map WatchEventRow.id).max?).getD 0

end WatchLog

/-! ## Insert -/

structure WatchEventInsert where
  eventId : Option Int
  apiVersion : String
  kind : String
  ns : Option String
  name : String
  resourceVersion : Int
  eventType : String
  data : Blob
  canonicalizeObject : Bool

def canonicalWatchEventObjectBytes (event : WatchEventInsert) : Except DbError Blob := do
  let data ← decodeJson event.data
  .ok (Blob.toVec (hydrateWatchEventData
    ⟨event.apiVersion, event.kind, event.ns, event.name, event.resourceVersion⟩ data))

variable (log : WatchLog)

def WatchLog.sameIdentityRv (event : WatchEventInsert) : Option WatchEventRow :=
  log.events.rows.find? fun row =>
    row.apiVersion = event.apiVersion ∧ row.kind = event.kind ∧ namespaceKey row.ns = namespaceKey event.ns ∧
      row.name = event.name ∧ row.resourceVersion = event.resourceVersion

/-- The id an insert without one is given: AUTOINCREMENT never reuses an id. -/
def WatchLog.nextEventId : Int := max log.seq log.maxEventId + 1

def WatchEventInsert.storedData (event : WatchEventInsert) : Except DbError Blob :=
  if event.canonicalizeObject then canonicalWatchEventObjectBytes event else .ok event.data

def insertWatchEventInConn (event : WatchEventInsert) : Except DbError WatchLog := do
  let data ← event.storedData
  let id := event.eventId.getD log.nextEventId
  if event.eventId = none ∧ id > i64Max then .error (.sqlite "database or disk is full")
  else if (log.events.find id).isSome then .error (.sqlite "UNIQUE constraint failed: watch_events.id")
  else
    match log.sameIdentityRv event with
    | some existing =>
      -- at-least-once replication: the same event again is a benign replay
      if existing.eventType = event.eventType ∧ existing.data = data then .ok log
      else .error (.sqlite "UNIQUE constraint failed: index 'idx_watch_events_identity_rv'")
    | none =>
      .ok { log with
        events := log.events.put ⟨id, event.apiVersion, event.kind, event.ns, event.name, event.resourceVersion,
          event.eventType, data⟩
        seq := max log.seq id }

def WatchEventInsert.row (event : WatchEventInsert) (id : Int) (data : Blob) : WatchEventRow :=
  ⟨id, event.apiVersion, event.kind, event.ns, event.name, event.resourceVersion, event.eventType, data⟩

inductive Inserted (log : WatchLog) (event : WatchEventInsert) : WatchLog → Prop
  | replayed {row : WatchEventRow} {data : Blob} (hdata : event.storedData = .ok data)
      (hclash : log.sameIdentityRv event = some row) (htype : row.eventType = event.eventType)
      (hsame : row.data = data) : Inserted log event log
  | stored {id : Int} {data : Blob} (hid : id = event.eventId.getD log.nextEventId)
      (hdata : event.storedData = .ok data) (hnone : log.sameIdentityRv event = none)
      (hfree : ∀ row ∈ log.events.rows, row.id ≠ id) :
      Inserted log event { log with events := log.events.put (event.row id data), seq := max log.seq id }

theorem insertWatchEvent_inserted {log log' : WatchLog} {event : WatchEventInsert}
    (h : insertWatchEventInConn log event = .ok log') : Inserted log event log' := by
  obtain ⟨data, hd, h⟩ := bind_eq_ok.1 h
  simp only at h
  obtain ⟨-, h⟩ := ite_error_eq_ok.1 h
  obtain ⟨hfre, h⟩ := ite_error_eq_ok.1 h
  split at h
  · rename_i existing hcl
    obtain ⟨heq, h⟩ := ite_else_error_eq_ok.1 h
    cases h
    exact .replayed hd hcl heq.1 heq.2
  · rename_i hno
    cases h
    exact .stored rfl hd hno (Table.find_eq_none_iff.1 (by simpa using hfre))

theorem WatchLog.seq_lt_nextEventId : log.seq < log.nextEventId := by
  unfold nextEventId
  omega

/-! ## Collection -/

def defaultMinWatchEventsPerScope : Int := 1024

def minScopeCountBeforeExpiringScopes : Int := 16

def watchEventsMinScopeRows (maxRows : Int) : Int := max 1 (min maxRows defaultMinWatchEventsPerScope)

def watchEventsMinScopeRowsForScopeCount (maxRows scopeCount : Int) : Int :=
  if maxRows ≤ 0 ∨ scopeCount ≤ 0 then 0
  else
    let fairShare := maxRows / scopeCount
    let dynamicFloor := if fairShare = 0 ∧ scopeCount ≤ minScopeCountBeforeExpiringScopes then 1 else fairShare
    min (watchEventsMinScopeRows maxRows) dynamicFloor

def WatchLog.scopeCount : Int := (log.events.rows.map WatchEventRow.scopeKey).dedup.length

/-- `ROW_NUMBER()` within the scope, newest first. -/
def WatchLog.scopeRank (row : WatchEventRow) : Int :=
  (log.events.rows.filter fun other => other.scopeKey = row.scopeKey ∧ row.id ≤ other.id).length

/-- `LIMIT`, which a negative bound switches off. -/
def limitRows {α : Type} (limit : Int) (rows : List α) : List α :=
  if limit < 0 then rows else rows.take limit.toNat

def WatchLog.gcCandidates (maxRows batchCap : Int) : List WatchEventRow :=
  let minScopeRows := watchEventsMinScopeRowsForScopeCount maxRows log.scopeCount
  let old := log.events.rows.filter fun row =>
    row.id ≤ log.maxEventId - maxRows ∧ log.scopeRank row > minScopeRows
  limitRows batchCap (old.insertionSort fun a b => a.id ≤ b.id)

/-- Raise the floor of a scope: the greater of the old and the new in each column, marked exact. -/
def raiseFloor (floors : Table ReplayFloorRow.scope) (floor : ReplayFloorRow) : Table ReplayFloorRow.scope :=
  match floors.find floor.scope with
  | some old => floors.put ⟨floor.scope, max old.floorRv floor.floorRv, max old.floorEventId floor.floorEventId, true⟩
  | none => floors.put { floor with floorPositionExact := true }

def WatchEventRow.floor (row : WatchEventRow) : ReplayFloorRow := ⟨row.scopeKey, row.resourceVersion, row.id, true⟩

/-- `SQLITE_MAX_VARIABLE_NUMBER`, the most placeholders a statement may have. -/
def sqliteMaxVariableNumber : Nat := 32766

/-- Collect old events: raise the floors of their scopes, then delete them. -/
def gcWatchEventsInTx (maxRows batchCap : Int) : Except DbError (WatchLog × Nat) :=
  let candidates := log.gcCandidates maxRows batchCap
  -- the floors of the batch are gathered per scope first, then each is upserted once
  let batchFloors := (candidates.map WatchEventRow.floor).foldl raiseFloor .empty
  let floors := batchFloors.rows.foldl raiseFloor log.floors
  let ids := candidates.map WatchEventRow.id
  if ids.isEmpty then .ok ({ log with floors }, 0)
  else if ids.length > sqliteMaxVariableNumber then .error (.sqlite "too many SQL variables")
  else .ok ({ log with floors, events := log.events.deleteWhere fun row => ids.contains row.id }, ids.length)

/-! ## Watch targets -/

inductive DurableWatchScope where
  | cluster
  | namespaced (ns : Option String)
  deriving DecidableEq

structure DurableWatchTarget where
  apiVersion : String
  kind : String
  scope : DurableWatchScope

/-- The `WHERE` clause of a target on the namespace column. -/
def DurableWatchScope.includes : DurableWatchScope → Option String → Bool
  | .cluster, ns => ns.isNone
  | .namespaced (some wanted), ns => ns = some wanted
  | .namespaced none, ns => ns.isSome

def DurableWatchTarget.selects (target : DurableWatchTarget) (row : WatchEventRow) : Bool :=
  row.apiVersion = target.apiVersion && row.kind = target.kind && target.scope.includes row.ns

def ReplayFloorRow.toBoundary (row : ReplayFloorRow) : ReplayRetentionBoundary :=
  if row.floorPositionExact then .exact ⟨row.floorRv, row.floorEventId, 0⟩ else .legacyRvOnly row.floorRv

def WatchLog.readScope (scope : ScopeKey) : List ReplayRetentionBoundary :=
  (log.floors.rows.filter fun row => row.scope = scope).map ReplayFloorRow.toBoundary

def WatchLog.readNamespacedAll (apiVersion kind : String) : List ReplayRetentionBoundary :=
  (log.floors.rows.filter fun row =>
    row.scope.apiVersion = apiVersion ∧ row.scope.kind = kind ∧ row.scope.namespaceKey ≠ "#cluster").map
      ReplayFloorRow.toBoundary

/-- The boundaries a replay of a target consults: its own scopes and the restored legacy wildcard. -/
def WatchLog.targetReplayBoundaries (target : DurableWatchTarget) : List ReplayRetentionBoundary :=
  (match target.scope with
    | .cluster => log.readScope ⟨target.apiVersion, target.kind, "#cluster"⟩
    | .namespaced (some ns) => log.readScope ⟨target.apiVersion, target.kind, ns⟩
    | .namespaced none => log.readNamespacedAll target.apiVersion target.kind) ++
    log.readScope ⟨"*", "*", "*"⟩

end Klights.Store
