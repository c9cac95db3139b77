import Klights.Lib.Listing
import Klights.Lib.Rollback
import Klights.Store.Tables
import Mathlib.Data.Prod.Lex
import Mathlib.Data.String.Basic

/-!
# Historical LIST

LIST at a pinned replay position (`sqlite/snapshot.rs`, `position_membership.rs`): candidate keys come from windows over
the live rows and over the touched history, and every candidate is rebuilt backwards from its live row. Every window and
every batch is a database turn of its own; `turns` is what the store holds at each turn.

- `currentCandidateWindow`, `touchedCandidateWindow`, `identityHistoryBatch`: what one turn reads;
- `historicalCandidateWindow`, `historicalIdentityAtPosition`: a window of candidates, one object;
- `boundedHistoricalList`: one page; `followPages`: the pages up to the one without a continuation.

Each loop of the source has a bound on its rounds here; `ListStop.exhausted` is a loop that used it up.
-/

namespace Klights.Store

open Lib Replay

def historicalCandidateCap : Nat := 64

def historicalIdentityHistoryCap : Nat := 64

/-! ## Requests -/

@[ext] structure ResourceCollectionKey where
  ns : Option String
  name : String
  deriving DecidableEq

/-- The derived order: by namespace, no namespace first, then by name. -/
def ResourceCollectionKey.rank (key : ResourceCollectionKey) : WithBot String ×ₗ String := toLex (key.ns, key.name)

theorem ResourceCollectionKey.rank_injective : Function.Injective ResourceCollectionKey.rank := by
  rintro ⟨ns, name⟩ ⟨ns', name'⟩ h
  obtain ⟨rfl, rfl⟩ := Prod.mk.inj (toLex.injective h)
  rfl

instance : LinearOrder ResourceCollectionKey := LinearOrder.lift' _ ResourceCollectionKey.rank_injective

inductive ResourceCollectionScope where
  | cluster
  | allNamespaces
  | namespace (ns : String)
  deriving DecidableEq

def ResourceCollectionScope.durable : ResourceCollectionScope → DurableWatchScope
  | .cluster => .cluster
  | .allNamespaces => .namespaced none
  | .namespace ns => .namespaced (some ns)

/-- A key to go on after, pinned to the position of its page. -/
structure ResourceContinuation where
  after : ResourceCollectionKey
  snapshot : WatchReplayPosition

/-- A LIST request with its selectors parsed; a blank selector is none. -/
structure ResourceListRequest where
  apiVersion : String
  kind : String
  scope : ResourceCollectionScope
  labels : Option (Json → Bool)
  fields : Option (String → String → Json → Bool)
  limit : Option Nat
  continuation : Option ResourceContinuation
  recoveryContinuation : Option ResourceCollectionKey

variable (request : ResourceListRequest)

def ResourceListRequest.target : DurableWatchTarget :=
  ⟨request.apiVersion, request.kind, request.scope.durable⟩

def ResourceListRequest.startAfter : Option ResourceCollectionKey :=
  match request.continuation with
  | some continuation => some continuation.after
  | none => request.recoveryContinuation

/-- Why a LIST ends without a page. -/
inductive ListStop where
  | retryable (message : String)
  | corruptData (message : String)
  | expired (oldestAvailable : Int)
  | exhausted
  deriving DecidableEq

/-! ## Retention -/

def boundaryResourceVersion : ReplayRetentionBoundary → Int
  | .exact position => position.resourceVersion
  | .legacyRvOnly resourceVersion => resourceVersion

/-- The oldest version a position is told about when it is not available: it lies ahead of the store, or behind what
retention kept. -/
def historicalFloor (db : ClusterDb) (target : DurableWatchTarget) (position : WatchReplayPosition) : Option Int :=
  let currentEventId := db.tables.watch.seq
  if position.eventId > currentEventId ∨ position.resourceVersionFilterThroughEventId > currentEventId ∨
      (position.eventId = 0 ∧ position.resourceVersionFilterThroughEventId = 0 ∧
        position.resourceVersion > db.resourceVersion) then some db.resourceVersion
  else
    let boundaries := db.tables.watch.targetReplayBoundaries target
    if ReplayRetentionBoundary.classifyAll boundaries position ≠ .expired then none
    else some (((boundaries.map boundaryResourceVersion).max?).getD position.resourceVersion)

/-- Every turn asks for the floor first. -/
def checkFloor (db : ClusterDb) (target : DurableWatchTarget) (position : WatchReplayPosition) : Except ListStop Unit :=
  match historicalFloor db target position with
  | some oldestAvailable => .error (.expired oldestAvailable)
  | none => .ok ()

/-! ## Candidates from live rows -/

variable (scope : ResourceCollectionScope)

/-- `append_lexical_after`: the keys after a key; a scope with one namespace compares names only. -/
def lexicalAfter (after : Option ResourceCollectionKey) (key : ResourceCollectionKey) : Bool :=
  match after with
  | none => true
  | some after =>
    match scope with
    | .allNamespaces =>
      decide (after.ns.getD "" < key.ns.getD "") || (key.ns.getD "" = after.ns.getD "" && after.name < key.name)
    | .cluster | .namespace _ => after.name < key.name

def lexicalRank (key : ResourceCollectionKey) : String ×ₗ String := toLex (key.ns.getD "", key.name)

def isNamespaceCollection : Bool :=
  request.apiVersion = "v1" && request.kind = "Namespace" && request.scope = .cluster

variable (db : ClusterDb) (request : ResourceListRequest)

def collectionRows : List (ResourceCollectionKey × Blob) :=
  if isNamespaceCollection request then db.tables.namespaces.rows.map fun row => (⟨none, row.name⟩, row.data)
  else (db.tables.resources.rows.filter fun row => row.key.apiVersion = request.apiVersion ∧
      row.key.kind = request.kind ∧ request.scope.durable.includes row.key.ns).map fun row =>
        (⟨row.key.ns, row.key.name⟩, row.data)

def bodyNamespaceMatches (data : Json) : Bool :=
  match scope with
  | .cluster => true
  | .allNamespaces => (data.strAt ["metadata", "namespace"]).isSome
  | .namespace ns => data.strAt ["metadata", "namespace"] = some ns

def currentCandidateWindow (position : WatchReplayPosition)
    (after : Option ResourceCollectionKey) : Except ListStop (List ResourceCollectionKey) := do
  checkFloor db request.target position
  let rows := (collectionRows db request).filter fun row => lexicalAfter request.scope after row.1
  -- the JSON functions of the query fail on a body that does not parse
  if request.scope ≠ .cluster ∧ (rows.any fun row => row.2.fromSlice.isNone) = true then
    .error (.retryable "malformed JSON")
  else
    let keys := (rows.filter fun row => row.2.fromSlice.all (bodyNamespaceMatches request.scope)).map Prod.fst
    .ok ((keys.insertionSort fun a b => lexicalRank a ≤ lexicalRank b).take historicalCandidateCap)

/-! ## Candidates from the touched history -/

def WatchEventRow.collectionKey (row : WatchEventRow) : ResourceCollectionKey := ⟨row.ns, row.name⟩

/-- `append_raw_history_after`: the rows after a row, newest first within one object. -/
def rawHistoryAfter (key : ResourceCollectionKey) (eventId : Int) (row : WatchEventRow) : Bool :=
  let later := decide (key.name < row.name) || (row.name = key.name && row.id < eventId)
  match scope with
  | .allNamespaces =>
    decide (namespaceKey key.ns < namespaceKey row.ns) || (namespaceKey row.ns = namespaceKey key.ns && later)
  | .cluster | .namespace _ => later

/-- `ORDER BY COALESCE(namespace, '#cluster'), name, id DESC`. -/
def rawRank (row : WatchEventRow) : String ×ₗ (String ×ₗ Intᵒᵈ) :=
  toLex (namespaceKey row.ns, toLex (row.name, OrderDual.toDual row.id))

def touchedCandidateWindow (position : WatchReplayPosition)
    (after : Option ResourceCollectionKey) (cursor : Option (ResourceCollectionKey × Int)) :
    Except ListStop (List WatchEventRow) := do
  checkFloor db request.target position
  let rows := db.tables.watch.events.rows.filter fun row => request.target.selects row &&
    match cursor with
    | some (key, eventId) => rawHistoryAfter request.scope key eventId row
    | none => lexicalAfter request.scope after row.collectionKey
  .ok ((rows.insertionSort fun a b => rawRank a ≤ rawRank b).take historicalCandidateCap)

variable (turns : Nat → ClusterDb) (request : ResourceListRequest) (position : WatchReplayPosition)

/-- The keys with an event the position does not represent, until there are enough of them. -/
def touchedCandidates (after : Option ResourceCollectionKey) :
    Nat → Nat → List ResourceCollectionKey → Option (ResourceCollectionKey × Int) →
      Except ListStop (List ResourceCollectionKey × Nat)
  | 0, _, _, _ => .error .exhausted
  | fuel + 1, turn, touched, cursor => do
    let rows ← touchedCandidateWindow (turns turn) request position after cursor
    let unseen := rows.filter fun row => !position.representsEvent row.id row.resourceVersion
    let touched := unseen.foldl (fun touched row => touched.insert row.collectionKey) touched
    let cursor := match rows.getLast? with
      | some last => some (last.collectionKey, last.id)
      | none => cursor
    if rows.length < historicalCandidateCap ∨ historicalCandidateCap ≤ touched.length then .ok (touched, turn + 1)
    else touchedCandidates after fuel (turn + 1) touched cursor

def historicalCandidateWindow (rounds turn : Nat) (after : Option ResourceCollectionKey) :
    Except ListStop (List ResourceCollectionKey × Nat) := do
  let current ← currentCandidateWindow (turns turn) request position after
  let (touched, turn) ← touchedCandidates turns request position after rounds (turn + 1) [] none
  .ok ((mergeKeys current touched).take historicalCandidateCap, turn)

/-! ## One object at the position -/

def resourceFromHistory (key : ResourceKey) (resourceVersion : Int) (data : Json) : Resource :=
  ⟨key, (data.strAt ["metadata", "uid"]).getD "", resourceVersion, data⟩

structure MembershipHistoryEvent where
  eventId : Int
  eventType : String
  resource : Resource

inductive ReconstructedMembership where
  | expired
  | items (resources : List Resource)

/-- The live objects on their way back to the position. -/
structure MembershipReconstructor where
  state : Table Resource.key
  needsPredecessor : List ResourceKey
  position : WatchReplayPosition
  expired : Bool

namespace MembershipReconstructor

def new (current : List Resource) (position : WatchReplayPosition) : MembershipReconstructor :=
  ⟨current.foldl Table.put .empty, [], position, false⟩

variable (self : MembershipReconstructor)

variable (event : MembershipHistoryEvent)

/-- An object that waits for its predecessor takes the event's, which must not be a deletion. -/
def takePredecessor : MembershipReconstructor :=
  if event.resource.key ∈ self.needsPredecessor then
    let self := { self with needsPredecessor := self.needsPredecessor.filter fun key => key ≠ event.resource.key }
    if event.eventType = "DELETED" then { self with expired := true }
    else { self with state := self.state.put event.resource }
  else self

/-- Undo an event the position does not represent. -/
def undo : MembershipReconstructor :=
  match event.eventType with
  | "ADDED" => { self with state := self.state.deleteWhere fun resource => resource.key = event.resource.key }
  | "MODIFIED" => { self with needsPredecessor := self.needsPredecessor.insert event.resource.key }
  | "DELETED" => { self with state := self.state.put event.resource }
  | _ => { self with expired := true }

def observe : MembershipReconstructor :=
  if self.expired then self
  else
    let resolved := self.takePredecessor event
    if resolved.expired || self.position.representsEvent event.eventId event.resource.resourceVersion then resolved
    else resolved.undo event

def canStopBefore (eventId : Int) : Bool :=
  decide (0 < self.position.eventId) && self.position.resourceVersionFilterThroughEventId = 0 &&
    decide (eventId ≤ self.position.eventId) && self.needsPredecessor.isEmpty

def finish : ReconstructedMembership :=
  if self.expired || !self.needsPredecessor.isEmpty then .expired else .items self.state.rows

end MembershipReconstructor

section

variable (db : ClusterDb) (request : ResourceListRequest)

def historicalCurrentResource (key : ResourceCollectionKey) : Except DbError (Option Resource) :=
  let identity : ResourceKey := ⟨request.apiVersion, request.kind, key.ns, key.name⟩
  let row := if request.apiVersion = "v1" ∧ request.kind = "Namespace" then
      (db.tables.namespaces.find key.name).map fun row => (row.resourceVersion, row.data)
    else (db.tables.resources.find identity).map fun row => (row.resourceVersion, row.data)
  match row with
  | none => .ok none
  | some (resourceVersion, data) =>
    (decodeJson data).map fun data => some (resourceFromHistory identity resourceVersion data)

def identityHistory (key : ResourceCollectionKey) (beforeId : Int) : List WatchEventRow :=
  let rows := db.tables.watch.events.rows.filter fun row => row.apiVersion = request.apiVersion ∧
    row.kind = request.kind ∧ namespaceKey row.ns = namespaceKey key.ns ∧ row.name = key.name ∧ row.id < beforeId
  (rows.insertionSort fun a b => b.id ≤ a.id).take historicalIdentityHistoryCap

def historyEvent (request : ResourceListRequest) (key : ResourceCollectionKey) (row : WatchEventRow) :
    Except DbError MembershipHistoryEvent :=
  (decodeJson row.data).map fun data =>
    ⟨row.id, row.eventType,
      resourceFromHistory ⟨request.apiVersion, request.kind, key.ns, key.name⟩ row.resourceVersion data⟩

def identityHistoryBatch (position : WatchReplayPosition) (key : ResourceCollectionKey) (beforeId : Int) :
    Except ListStop (Option Resource × List MembershipHistoryEvent) := do
  checkFloor db request.target position
  let current ← (historicalCurrentResource db request key).mapError fun error => .retryable error.display
  let events ← ((identityHistory db request key beforeId).mapM (historyEvent request key)).mapError fun error =>
    .retryable error.display
  .ok (current, events)

end

/-- The rounds of one object: the live row is taken from the first one. -/
def identityRounds (key : ResourceCollectionKey) :
    Nat → Nat → Int → Option MembershipReconstructor → Except ListStop (Option Resource × Nat)
  | 0, _, _, _ => .error .exhausted
  | fuel + 1, turn, beforeId, reconstructor => do
    let (current, events) ← identityHistoryBatch (turns turn) request position key beforeId
    let reconstructor := reconstructor.getD (.new current.toList position)
    let beforeId := match events.getLast? with
      | some last => last.eventId
      | none => beforeId
    let reconstructor := events.foldl MembershipReconstructor.observe reconstructor
    if events.length < historicalIdentityHistoryCap ∨ reconstructor.canStopBefore beforeId = true then
      match reconstructor.finish with
      | .items resources => .ok (resources.getLast?, turn + 1)
      | .expired => .error (.expired position.resourceVersion)
    else identityRounds key fuel (turn + 1) beforeId (some reconstructor)

/-- The object of a key at the position, or none. -/
def historicalIdentityAtPosition (rounds turn : Nat) (key : ResourceCollectionKey) :
    Except ListStop (Option Resource × Nat) :=
  identityRounds turns request position key rounds turn i64Max none

/-! ## One page -/

/-- What a scan has found, and the last candidate it looked at. -/
structure ListScan where
  emitted : List Resource
  matchedCount : Nat
  candidateAfter : Option ResourceCollectionKey

def countExactRemaining (request : ResourceListRequest) : Bool :=
  request.limit.isSome && request.labels.isNone && request.fields.isNone

def selectorsMatch (request : ResourceListRequest) (resource : Resource) : Bool :=
  request.labels.all (fun labels => labels resource.data) &&
    request.fields.all fun fields => fields resource.key.apiVersion resource.key.kind resource.data

/-- Keep a matching object; a count of what remains needs no more than a page of them. -/
def ListScan.push (scan : ListScan) (request : ResourceListRequest) (resource : Resource) : ListScan :=
  { scan with
    matchedCount := scan.matchedCount + 1
    emitted :=
      if !countExactRemaining request || request.limit.all fun limit => scan.emitted.length < limit then
        scan.emitted ++ [resource]
      else scan.emitted }

/-- One object more than a page is enough to know that there is a next one. -/
def ListScan.isFull (scan : ListScan) (request : ResourceListRequest) : Bool :=
  !countExactRemaining request && request.limit.any fun limit => scan.emitted.length = limit + 1

def scanCandidates (rounds : Nat) : List ResourceCollectionKey → Nat → ListScan → Except ListStop (ListScan × Nat)
  | [], turn, scan => .ok (scan, turn)
  | candidate :: rest, turn, scan => do
    let scan := { scan with candidateAfter := some candidate }
    let (found, turn) ← historicalIdentityAtPosition turns request position rounds turn candidate
    match found with
    | none => scanCandidates rounds rest turn scan
    | some resource =>
      if selectorsMatch request resource = false then scanCandidates rounds rest turn scan
      else
        let scan := scan.push request resource
        if scan.isFull request then .ok (scan, turn) else scanCandidates rounds rest turn scan

/-- Windows of candidates until the page is full or the candidates end; with it, whether more candidates may follow. -/
def scanWindows (rounds : Nat) : Nat → Nat → ListScan → Except ListStop ((ListScan × Bool) × Nat)
  | 0, _, _ => .error .exhausted
  | fuel + 1, turn, scan => do
    let (candidates, turn) ← historicalCandidateWindow turns request position rounds turn scan.candidateAfter
    if candidates.isEmpty then .ok ((scan, false), turn)
    else
      let moreCandidates := decide (candidates.length = historicalCandidateCap)
      let (scan, turn) ← scanCandidates turns request position rounds candidates turn scan
      if scan.isFull request || !moreCandidates then .ok ((scan, moreCandidates), turn)
      else scanWindows rounds fuel turn scan

structure ResourceListPage where
  items : List Resource
  snapshot : WatchReplayPosition
  continuation : Option ResourceContinuation
  remainingItemCount : Option Nat

def pageOf (scan : ListScan) (moreCandidates : Bool) : ResourceListPage :=
  let hasMore := if countExactRemaining request then request.limit.any fun limit => limit < scan.matchedCount
    else (request.limit.any fun limit => limit < scan.emitted.length) || (moreCandidates && request.limit.isNone)
  let items := match request.limit with
    | some limit => scan.emitted.take limit
    | none => scan.emitted
  { items
    snapshot := position
    continuation := if hasMore then
        items.getLast?.map fun resource => ⟨⟨resource.key.ns, resource.key.name⟩, position⟩
      else none
    remainingItemCount := if countExactRemaining request && hasMore then some (scan.matchedCount - items.length)
      else none }

def boundedHistoricalList (rounds turn : Nat) : Except ListStop (ResourceListPage × Nat) := do
  let ((scan, moreCandidates), turn) ← scanWindows turns request position rounds rounds turn ⟨[], 0, request.startAfter⟩
  position.validate.mapError fun message => .corruptData ("invalid LIST snapshot position: " ++ message)
  .ok (pageOf request position scan moreCandidates, turn)

/-- Ask for page after page with the continuation of the last one. -/
def followPages (rounds : Nat) :
    Nat → Nat → ResourceListRequest → WatchReplayPosition → Except ListStop (List (List Resource))
  | 0, _, _, _ => .error .exhausted
  | fuel + 1, turn, request, position => do
    let (page, turn) ← boundedHistoricalList turns request position rounds turn
    match page.continuation with
    | none => .ok [page.items]
    | some continuation => do
      let rest ← followPages rounds fuel turn { request with continuation := some continuation } continuation.snapshot
      .ok (page.items :: rest)

end Klights.Store
