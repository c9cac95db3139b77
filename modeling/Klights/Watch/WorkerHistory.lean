import Klights.Api.ListQuery
import Klights.Store.WatchLog
import Klights.Watch.Events

/-!
# The replay history of a worker

A worker keeps the watch events of its mirrors in a bounded history (`klights-kubelet/src/worker_store/watch.rs`). An
event that is pushed out leaves a boundary for its kind and namespace. `WorkerReplayBoundary` repeats the `Exact` case
of `ReplayRetentionBoundary` with its functions, and `WatchTarget` is a `DurableWatchTarget`; those are used here.

- `worker_replay_no_gap`: a replay that is not refused answers as the log of everything recorded would.
-/

namespace Klights.Watch

open Lib Replay Store Api List ReplayRetentionBoundary

structure WatchEvent where
  eventType : WatchEventType
  object : Json

namespace WatchEvent

def resourceVersion (event : WatchEvent) : Option Int :=
  (event.object.strAt ["metadata", "resourceVersion"]).bind parseI64

/-- `watch_event_topic`. -/
def topic (event : WatchEvent) : Option (String × String) := do
  return (← event.object.strAt ["apiVersion"], ← event.object.strAt ["kind"])

def ns (event : WatchEvent) : Option String := event.object.strAt ["metadata", "namespace"]

end WatchEvent

/-- The kind and the namespace a list of boundaries is kept for. -/
abbrev FloorKey := (String × String) × Option String

abbrev Floors := Table (Prod.fst : FloorKey × List ReplayRetentionBoundary → FloorKey)

structure WorkerWatchHistory where
  nextEventId : Int
  events : List (Int × WatchEvent)
  floors : Floors

def WorkerWatchHistory.empty : WorkerWatchHistory := ⟨1, [], .empty⟩

/-! ## Recording -/

def Floors.at (floors : Floors) (key : FloorKey) : List ReplayRetentionBoundary := (floors.find key).elim [] Prod.snd

/-- The boundary an event leaves. -/
def floorOf (row : Int × WatchEvent) : Option (FloorKey × WatchReplayPosition) := do
  return ((← row.2.topic, row.2.ns), ⟨← row.2.resourceVersion, row.1, 0⟩)

def leaveFloor (floors : Floors) (row : Int × WatchEvent) : Floors :=
  match floorOf row with
  | none => floors
  | some (key, candidate) => floors.put (key, retainExact (Floors.at floors key) candidate)

/-- The loop of `record_watch_event`: the oldest events go while there are more than `capacity` of them
(`WORKER_WATCH_EVENT_HISTORY_CAPACITY`, 32768). -/
def popFront (capacity : Nat) : List (Int × WatchEvent) → Floors → List (Int × WatchEvent) × Floors
  | [], floors => ([], floors)
  | row :: events, floors =>
    if events.length + 1 > capacity then popFront capacity events (leaveFloor floors row) else (row :: events, floors)

def recordWatchEvent (capacity : Nat) (history : WorkerWatchHistory) (event : WatchEvent) : WorkerWatchHistory :=
  if event.resourceVersion.isNone then history
  else
    let kept := popFront capacity (history.events ++ [(history.nextEventId, event)]) history.floors
    ⟨history.nextEventId + 1, kept.1, kept.2⟩

/-! ## Replay -/

def selectsKey (key : FloorKey) (target : DurableWatchTarget) : Bool :=
  key.1 = (target.apiVersion, target.kind) && target.scope.includes key.2

def workerReplayBoundaries (floors : Floors) (target : DurableWatchTarget) : List ReplayRetentionBoundary :=
  (floors.rows.filter fun floor => selectsKey floor.1 target).flatMap Prod.snd

def watchEventMatchesTargets (event : WatchEvent) (targets : List DurableWatchTarget) : Bool :=
  event.topic.any fun topic => targets.any (selectsKey (topic, event.ns))

def workerReplayEventFollowsPosition (position : WatchReplayPosition) (eventId : Int) (event : WatchEvent) : Bool :=
  event.resourceVersion.any fun resourceVersion => !position.representsEvent eventId resourceVersion

structure WorkerCatchUpResource where
  resource : Resource
  eventType : WatchEventType

def catchupResourceFromWatchEvent (event : WatchEvent) : Option WorkerCatchUpResource := do
  let (apiVersion, kind) ← event.topic
  let metadata ← event.object.get "metadata"
  let name ← metadata.strAt ["name"]
  let uid := (metadata.strAt ["uid"]).getD ""
  return ⟨⟨⟨apiVersion, kind, metadata.strAt ["namespace"], name⟩, uid, ← event.resourceVersion, event.object⟩,
    event.eventType⟩

def positionedEvent (row : Int × WatchEvent) : Option (PositionedWatchEvent WorkerCatchUpResource) := do
  return ⟨⟨← row.2.resourceVersion, row.1, 0⟩, ← catchupResourceFromWatchEvent row.2⟩

inductive PositionedWatchReplayRead where
  | events (events : List (PositionedWatchEvent WorkerCatchUpResource)) (nextPosition : WatchReplayPosition)
  | expired

section Replay

variable (targets : List DurableWatchTarget) (position : WatchReplayPosition) (highWaterEventId : Int) (limit : Nat)

/-- An event the client of a cursor waits for. -/
def owed (row : Int × WatchEvent) : Bool :=
  workerReplayEventFollowsPosition position row.1 row.2 && watchEventMatchesTargets row.2 targets

/-- The page from a list of events. An error is the panic of `after_page`. -/
def replayPage (events : List (Int × WatchEvent)) : Except String PositionedWatchReplayRead :=
  let page := ((events.filter (owed targets position)).filterMap positionedEvent).take limit
  (position.afterPage page highWaterEventId limit).map (.events page)

/-- The high water is read before the history is locked, so any number is allowed for it. -/
def listWatchEventsAfterPositionCheckedBounded (history : WorkerWatchHistory) :
    Except String PositionedWatchReplayRead :=
  if ∃ target ∈ targets, classifyAll (workerReplayBoundaries history.floors target) position = .expired then
    .ok .expired
  else replayPage targets position highWaterEventId limit history.events

end Replay

/-! ## What the boundaries know of the events that are gone -/

variable {gone events : List (Int × WatchEvent)} {floors : Floors} {ps : WatchReplayPosition}
  {targets : List DurableWatchTarget} {row : Int × WatchEvent}

/-- The boundaries of its kind and namespace cover every event that is gone. -/
def Floored (gone : List (Int × WatchEvent)) (floors : Floors) : Prop :=
  ∀ row ∈ gone, ∀ floor ∈ floorOf row,
    Covers (Floors.at floors floor.1) [(floor.2.eventId, floor.2.resourceVersion)]

theorem Floored.step (h : Floored gone floors) (row : Int × WatchEvent) :
    Floored (gone ++ [row]) (leaveFloor floors row) := by
  intro ro hm floor hr
  unfold leaveFloor
  cases hf : floorOf row with
  | none =>
    rcases mem_append.1 hm with hm | hm
    · exact h ro hm floor hr
    · rw [mem_singleton.1 hm, hf] at hr
      cases hr
  | some new =>
    unfold Floors.at
    rw [Table.find_put]
    rcases mem_append.1 hm with hm | hm
    · split
      · next hk =>
        have hc := retainExact_covers (h ro hm floor hr) new.2
        rw [← show new.1 = floor.1 from hk] at hc
        exact hc.mono (Subset.refl _) (subset_cons_self _ _)
      · exact h ro hm floor hr
    · rw [mem_singleton.1 hm, hf] at hr
      cases hr
      rw [if_pos rfl]
      exact retainExact_covers ⟨by simp, by simp⟩ _

theorem popFront_spec (capacity : Nat) : ∀ (events) {gone floors}, Floored gone floors → ∃ more,
    events = more ++ (popFront capacity events floors).1 ∧ (popFront capacity events floors).1.length ≤ capacity ∧
      Floored (gone ++ more) (popFront capacity events floors).2
  | [], gone, floors, h => ⟨[], rfl, Nat.zero_le _, by rwa [append_nil]⟩
  | row :: events, gone, floors, h => by
    unfold popFront
    split
    · obtain ⟨more, he, hl, hf⟩ := popFront_spec capacity events (h.step row)
      exact ⟨row :: more, congrArg _ he, hl, by rwa [append_assoc] at hf⟩
    · next hl => exact ⟨[], rfl, Nat.le_of_not_lt hl, by rwa [append_nil]⟩

/-- Everything that is recorded, with the ids it gets. -/
def recordedFrom : Int → List WatchEvent → List (Int × WatchEvent)
  | _, [] => []
  | id, event :: incoming =>
    if event.resourceVersion.isNone then recordedFrom id incoming else (id, event) :: recordedFrom (id + 1) incoming

theorem run_spec (capacity : Nat) : ∀ (incoming) (history) {gone}, Floored gone history.floors →
    history.events.length ≤ capacity →
    let after := incoming.foldl (recordWatchEvent capacity) history
    ∃ more, gone ++ history.events ++ recordedFrom history.nextEventId incoming = more ++ after.events ∧
      after.events.length ≤ capacity ∧ Floored more after.floors
  | [], _, gone, h, hl => ⟨gone, append_nil _, hl, h⟩
  | event :: incoming, history, gone, h, hl => by
    rw [foldl_cons, recordWatchEvent, recordedFrom]
    split
    · exact run_spec capacity incoming history h hl
    · obtain ⟨more, he, hk, hf⟩ := popFront_spec capacity (history.events ++ [(history.nextEventId, event)]) h
      obtain ⟨all, ha, hr⟩ := run_spec capacity incoming ⟨history.nextEventId + 1, _, _⟩ hf hk
      refine ⟨all, ?_, hr⟩
      rw [← ha, append_assoc gone more, ← he]
      simp

/-! ## Refused and answered replays -/

theorem floorOf_of_owed (h : owed targets ps row) :
    ∃ floor ∈ floorOf row, (∃ target ∈ targets, selectsKey floor.1 target) ∧
    ¬ps.representsEvent floor.2.eventId floor.2.resourceVersion := by
  unfold owed workerReplayEventFollowsPosition watchEventMatchesTargets at h
  unfold floorOf
  cases hp : row.2.topic with
  | none => simp [hp] at h
  | some topic =>
    cases hr : row.2.resourceVersion with
    | none => simp [hr] at h
    | some rv =>
      simp only [hp, hr, Option.any_some, Bool.and_eq_true, Bool.not_eq_true', any_eq_true] at h
      exact ⟨_, rfl, h.2, by simp [h.1]⟩

theorem not_owed_of_available (h : Floored gone floors) (hv : ps.validate = .ok ())
    (ha : ¬∃ target ∈ targets, classifyAll (workerReplayBoundaries floors target) ps = .expired)
    (hm : row ∈ gone) : ¬owed targets ps row := by
  intro ho
  obtain ⟨floor, hf, ⟨target, ht, hk⟩, hn⟩ := floorOf_of_owed ho
  have hc := h row hm floor hf
  have hs : Floors.at floors floor.1 ⊆ workerReplayBoundaries floors target := by
    intro b hb
    unfold Floors.at at hb
    cases hi : floors.find floor.1 with
    | none => rw [hi] at hb; cases hb
    | some kept =>
      rw [hi] at hb
      obtain ⟨hi, he⟩ := Table.find_eq_some_iff.1 hi
      exact mem_flatMap.2 ⟨kept, mem_filter.2 ⟨hi, he ▸ hk⟩, hb⟩
  have hw := hc.mono hs (Subset.refl _)
  cases hx : classifyAll (workerReplayBoundaries floors target) ps with
  | available => exact hn (classifyAll_available_represents hw hv hx mem_cons_self)
  | expired => exact ha ⟨target, ht, hx⟩

/-- The bounded history stands for the log of everything: whatever was pushed out, a replay is refused or gives the
page that log would give. -/
theorem worker_replay_no_gap (capacity : Nat) (incoming : List WatchEvent) (targets : List DurableWatchTarget)
    (position : WatchReplayPosition) (hvalid : position.validate = .ok ()) (highWaterEventId : Int) (limit : Nat) :
    let history := incoming.foldl (recordWatchEvent capacity) .empty
    let read := listWatchEventsAfterPositionCheckedBounded targets position highWaterEventId limit history
    history.events.length ≤ capacity ∧ (read = .ok .expired ∨
      read = replayPage targets position highWaterEventId limit (recordedFrom 1 incoming)) := by
  intro history read
  have hstart : Floored [] WorkerWatchHistory.empty.floors := fun _ h => absurd h not_mem_nil
  obtain ⟨gone, he, hl, hf⟩ := run_spec capacity incoming .empty hstart (Nat.zero_le _)
  refine ⟨hl, ?_⟩
  unfold read listWatchEventsAfterPositionCheckedBounded
  split
  · exact .inl rfl
  · next ha =>
    have hg : gone.filter (owed targets position) = [] :=
      filter_eq_nil_iff.2 fun row hm => not_owed_of_available hf hvalid ha hm
    rw [show recordedFrom 1 incoming = gone ++ history.events from he, replayPage, replayPage, filter_append, hg,
      nil_append]
    exact .inr rfl

def sampleWatchEvents : List WatchEvent :=
  ["1", "2"].map fun resourceVersion => ⟨.modified, .obj [("apiVersion", .str "v1"), ("kind", .str "Pod"),
    ("metadata", .obj [("name", .str "web"), ("namespace", .str "default"),
      ("resourceVersion", .str resourceVersion)])]⟩

theorem worker_replay_no_gap_sample : let history := sampleWatchEvents.foldl (recordWatchEvent 1) .empty
    let targets := [⟨"v1", "Pod", .namespaced none⟩]
    history.events.length ≤ 1 ∧
      listWatchEventsAfterPositionCheckedBounded targets (.fromResourceVersion 1) 2 10 history =
        replayPage targets (.fromResourceVersion 1) 2 10 (recordedFrom 1 sampleWatchEvents) := by
  intro history targets
  have h := worker_replay_no_gap 1 sampleWatchEvents targets (.fromResourceVersion 1) rfl 2 10
  exact h.imp_right fun hr => hr.resolve_left nofun

end Klights.Watch
