import Klights.Store.WatchLog

/-!
# Retention of the watch log over whole runs

A run is any sequence of inserts and collections; a failed step is rolled back. Beside the log the run records which
rows were ever inserted and which were ever deleted.

- `raiseFloor_floorAtLeast`, `raiseFloor_raised`: floors only rise, and reach every row they were raised for;
- `step_retained`, `steps_retained`: every deleted row is below the exact floor of its scope, and every inserted row is
  still in the log or was deleted;
- `covers_of_floors`: boundaries that hold the floors of some scopes cover their deleted rows;
- `accepted_cursor_loses_no_event`: so a cursor that is accepted has lost none of its events.
-/

namespace Klights.Store

open Lib Replay WatchEventRow ReplayFloorRow ReplayRetentionBoundary List Table

variable {floor fl : ReplayFloorRow} {log lg l' : WatchLog}

/-! ## Floors only rise -/

/-- The floor of a scope is exact and reaches a resourceVersion and an event id. -/
def FloorAtLeast (floors : Table ReplayFloorRow.scope) (floor : ReplayFloorRow) : Prop :=
  ∃ row ∈ floors.rows, row.scope = floor.scope ∧ row.floorPositionExact = true ∧
    floor.floorRv ≤ row.floorRv ∧ floor.floorEventId ≤ row.floorEventId

theorem raiseFloor_raised (f : Table scope) (floor : ReplayFloorRow) :
    FloorAtLeast (raiseFloor f floor) floor := by
  unfold raiseFloor
  cases h : f.find floor.scope with
  | none => exact ⟨_, mem_put.2 (.inl rfl), rfl, rfl, le_rfl, le_rfl⟩
  | some ol => exact ⟨_, mem_put.2 (.inl rfl), rfl, rfl, le_max_right _ _, le_max_right _ _⟩

variable {f : Table scope} {row ro : WatchEventRow} {bs : List ReplayRetentionBoundary}
  {p : WatchEventRow → Prop}

theorem raiseFloor_floorAtLeast (h : FloorAtLeast f floor)
    (o : ReplayFloorRow) : FloorAtLeast (raiseFloor f o) floor := by
  obtain ⟨ro, hr, hs, he, hv, hi⟩ := h
  unfold raiseFloor
  by_cases heq : ro.scope = o.scope
  · -- the raised row is this one: its columns become the maxima
    rw [← heq, find_of_mem hr]
    refine ⟨_, mem_put.2 (.inl rfl), hs, rfl, ?_, ?_⟩
    · exact le_trans hv (le_max_left _ _)
    · exact le_trans hi (le_max_left _ _)
  · have hk : ∀ ne : ReplayFloorRow, ne.scope = o.scope → ro ∈ (f.put ne).rows := fun ne hn =>
      mem_put.2 (.inr ⟨hr, by rw [hn]; exact heq⟩)
    cases f.find o.scope with
    | none => exact ⟨ro, hk _ rfl, hs, he, hv, hi⟩
    | some ol => exact ⟨ro, hk _ rfl, hs, he, hv, hi⟩

theorem foldl_raiseFloor_floorAtLeast :
    ∀ (ra : List ReplayFloorRow) {f : Table scope}, FloorAtLeast f fl →
      FloorAtLeast (ra.foldl raiseFloor f) fl
  | [], _, h => h
  | other :: rest, _, h => foldl_raiseFloor_floorAtLeast rest (raiseFloor_floorAtLeast h other)

theorem foldl_raiseFloor_raised :
    ∀ (ra : List ReplayFloorRow) (f : Table scope), fl ∈ ra →
      FloorAtLeast (ra.foldl raiseFloor f) fl
  | other :: rest, f, h => by
    rcases mem_cons.1 h with rfl | h
    · exact foldl_raiseFloor_floorAtLeast rest (raiseFloor_raised f _)
    · exact foldl_raiseFloor_raised rest (raiseFloor f other) h

theorem FloorAtLeast.trans {low hi : ReplayFloorRow} (h : FloorAtLeast f hi) (hc : hi.scope = low.scope)
    (hv : low.floorRv ≤ hi.floorRv) (hd : low.floorEventId ≤ hi.floorEventId) : FloorAtLeast f low := by
  obtain ⟨ro, hr, hs, he, hr', hi'⟩ := h
  exact ⟨ro, hr, hs.trans hc, he, hv.trans hr', hd.trans hi'⟩

/-! ## One collection -/

theorem mem_of_mem_limitRows {α : Type} {l : Int} {rows : List α} {row : α} (h : row ∈ limitRows l rows) :
    row ∈ rows := by
  unfold limitRows at h
  split at h
  · exact h
  · exact mem_of_mem_take h

theorem mem_of_mem_gcCandidates {m b : Int}
    (h : ro ∈ lg.gcCandidates m b) : ro ∈ lg.events.rows := by
  have hs := mem_of_mem_limitRows h
  rw [mem_insertionSort] at hs
  exact (mem_filter.1 hs).1

/-- What a collection does: it deletes rows, and the floors reach every row it deleted and all they reached. -/
theorem gcWatchEventsInTx_ok {m b : Int} {r : Nat}
    (h : gcWatchEventsInTx lg m b = .ok (l', r)) :
    (∀ row ∈ l'.events.rows, row ∈ lg.events.rows) ∧
    (∀ row ∈ lg.events.rows, row ∉ l'.events.rows → FloorAtLeast l'.floors row.floor) ∧
    (∀ floor, FloorAtLeast lg.floors floor → FloorAtLeast l'.floors floor) := by
  unfold gcWatchEventsInTx at h
  simp only at h
  split at h
  · simp only [Except.ok.injEq, Prod.mk.injEq] at h
    obtain ⟨rfl, -⟩ := h
    exact ⟨fun _ hr => hr, fun _ hr hn => absurd hr hn, fun _ hf => foldl_raiseFloor_floorAtLeast _ hf⟩
  · obtain ⟨-, h⟩ := ite_error_eq_ok.1 h
    simp only [Except.ok.injEq, Prod.mk.injEq] at h
    obtain ⟨rfl, -⟩ := h
    refine ⟨fun row hr => (mem_deleteWhere.1 hr).1, ?_, fun _ hf => foldl_raiseFloor_floorAtLeast _ hf⟩
    intro row ho hg
    -- a deleted row is one of the candidates, since ids are unique
    have hd : row.id ∈ (lg.gcCandidates m b).map WatchEventRow.id := by
      by_contra ht
      exact hg (mem_deleteWhere.2 ⟨ho, by simpa using ht⟩)
    obtain ⟨ca, hc, heq⟩ := mem_map.1 hd
    have hs : ca = row :=
      inj_on_of_nodup_map lg.events.nodup (mem_of_mem_gcCandidates hc) ho heq
    subst hs
    obtain ⟨ba, hb, hsc, -, hv, hi⟩ :=
      foldl_raiseFloor_raised ((lg.gcCandidates m b).map WatchEventRow.floor) .empty
        (mem_map_of_mem hc)
    exact (foldl_raiseFloor_raised _ lg.floors hb).trans hsc hv hi

theorem insertWatchEventInConn_ok {ev : WatchEventInsert} (h : insertWatchEventInConn lg ev = .ok l') :
    l'.floors = lg.floors ∧ ∀ row ∈ lg.events.rows, row ∈ l'.events.rows := by
  cases insertWatchEvent_inserted h with
  | replayed => exact ⟨rfl, fun _ hr => hr⟩
  | stored _ _ _ hf => exact ⟨rfl, fun row hr => mem_put.2 (.inr ⟨hr, hf row hr⟩)⟩

/-! ## Runs -/

inductive WatchStep where
  | insert (event : WatchEventInsert)
  | gc (maxRows batchCap : Int)

def WatchStep.apply (log : WatchLog) : WatchStep → Except DbError WatchLog
  | .insert event => insertWatchEventInConn log event
  | .gc maxRows batchCap => (gcWatchEventsInTx log maxRows batchCap).map Prod.fst

/-- A log with the rows that were ever in it and those that were deleted from it. -/
structure WatchRun where
  log : WatchLog
  inserted : List WatchEventRow
  deleted : List WatchEventRow

def WatchRun.start (log : WatchLog) : WatchRun := ⟨log, log.events.rows, []⟩

/-- One step; a failed transaction changes nothing. -/
def WatchRun.step (run : WatchRun) (step : WatchStep) : WatchRun :=
  match step.apply run.log with
  | .error _ => run
  | .ok log => {
      log
      inserted := run.inserted ++ log.events.rows.filter fun row => row ∉ run.log.events.rows
      deleted := run.deleted ++ run.log.events.rows.filter fun row => row ∉ log.events.rows }

def WatchRun.steps (run : WatchRun) (steps : List WatchStep) : WatchRun := steps.foldl WatchRun.step run

/-- Deleted rows are below the floor of their scope; other inserted rows are in the log. -/
structure Retained (run : WatchRun) : Prop where
  floor : ∀ row ∈ run.deleted, FloorAtLeast run.log.floors row.floor
  kept : ∀ row ∈ run.inserted, row ∈ run.log.events.rows ∨ row ∈ run.deleted

theorem WatchStep.apply_ok {s : WatchStep} (h : s.apply lg = .ok l') :
    (∀ row ∈ lg.events.rows, row ∉ l'.events.rows → FloorAtLeast l'.floors row.floor) ∧
    (∀ floor, FloorAtLeast lg.floors floor → FloorAtLeast l'.floors floor) := by
  cases s with
  | insert ev =>
    obtain ⟨hl, hs⟩ := insertWatchEventInConn_ok h
    exact ⟨fun row hr hn => absurd (hs row hr) hn, fun floor hf => hl ▸ hf⟩
  | gc ma ba =>
    obtain ⟨⟨log₁, re⟩, hg, rfl⟩ := map_eq_ok.1 h
    obtain ⟨-, hd, hl⟩ := gcWatchEventsInTx_ok hg
    exact ⟨hd, hl⟩

theorem WatchRun.step_retained {run : WatchRun} (h : Retained run) (s : WatchStep) : Retained (run.step s) := by
  unfold WatchRun.step
  cases ha : s.apply run.log with
  | error e => exact h
  | ok lg =>
    obtain ⟨hd, hf⟩ := WatchStep.apply_ok ha
    constructor
    · intro ro hrow
      rcases mem_append.1 hrow with hrow | hrow
      · exact hf _ (h.floor ro hrow)
      · obtain ⟨hi, ho⟩ := mem_filter.1 hrow
        exact hd ro hi (by simpa using ho)
    · intro ro hrow
      -- whatever was in the log is still there, or this step deleted it
      have hp : ro ∈ run.log.events.rows → ro ∈ lg.events.rows ∨
          ro ∈ run.deleted ++ run.log.events.rows.filter fun ro => ro ∉ lg.events.rows := fun hi => by
        by_cases hs : ro ∈ lg.events.rows
        · exact .inl hs
        · exact .inr (mem_append_right _ (mem_filter.2 ⟨hi, by simpa using hs⟩))
      rcases mem_append.1 hrow with hrow | hrow
      · rcases h.kept ro hrow with hi | hdel
        · exact hp hi
        · exact .inr (mem_append_left _ hdel)
      · exact .inl (mem_filter.1 hrow).1

theorem WatchRun.steps_retained (s : WatchLog) (st : List WatchStep) :
    Retained ((WatchRun.start s).steps st) := by
  refine List.foldlRecOn st WatchRun.step ⟨by simp [WatchRun.start], fun ro h => .inl h⟩ ?_
  intro run h ste _
  exact WatchRun.step_retained h ste

/-! ## What accepted cursors have seen -/

variable {run : WatchRun}

/-- A row as the pair the boundaries speak about. -/
def WatchEventRow.position (row : WatchEventRow) : Int × Int := (row.id, row.resourceVersion)

theorem toBoundary_of_exact {row : ReplayFloorRow} (h : row.floorPositionExact) :
    row.toBoundary = .exact ⟨row.floorRv, row.floorEventId, 0⟩ := by
  simp [toBoundary, h]

theorem covers_of_floors (h : Retained run)
    [DecidablePred p] (hb : ∀ row ∈ run.deleted, p row → ∀ floor ∈ run.log.floors.rows, floor.scope = row.scopeKey →
      floor.toBoundary ∈ bs) :
    ReplayRetentionBoundary.Covers bs ((run.deleted.filter p).map position) := by
  have key : ∀ po ∈ (run.deleted.filter p).map position, ∃ floor : WatchReplayPosition,
      .exact floor ∈ bs ∧ po.2 ≤ floor.resourceVersion ∧ po.1 ≤ floor.eventId := by
    intro po hpos
    obtain ⟨row, hr, rfl⟩ := mem_map.1 hpos
    obtain ⟨hd, hp⟩ := mem_filter.1 hr
    obtain ⟨floor, hf, hs, he, hv, hi⟩ := h.floor row hd
    have hm := hb row hd (by simpa using hp) floor hf hs
    rw [toBoundary_of_exact he] at hm
    exact ⟨_, hm, hv, hi⟩
  exact ⟨fun po hpos => (key po hpos).imp fun _ h => ⟨h.1, h.2.1⟩,
    fun po hpos => (key po hpos).imp fun _ h => ⟨h.1, h.2.2⟩⟩

/-- Covered rows of a kept run: deleted ones are represented by an accepted cursor, the others are in the log. -/
theorem accepted_of_covers (h : Retained run) [DecidablePred p]
    (hc : ReplayRetentionBoundary.Covers bs ((run.deleted.filter p).map position))
    {c : WatchReplayPosition} (hv : c.validate = .ok ())
    (ha : classifyAll bs c = .available) :
    (∀ row ∈ run.deleted, p row → c.representsEvent row.id row.resourceVersion) ∧
    (∀ row ∈ run.inserted, p row → c.representsEvent row.id row.resourceVersion = false →
      row ∈ run.log.events.rows) := by
  have hd : ∀ row ∈ run.deleted, p row → c.representsEvent row.id row.resourceVersion :=
    fun row hr hp => classifyAll_available_represents hc hv ha
      (mem_map_of_mem (mem_filter.2 ⟨hr, by simpa using hp⟩))
  refine ⟨hd, fun row hr hp hn => ?_⟩
  rcases h.kept row hr with hi | hgo
  · exact hi
  · rw [hd row hgo hp] at hn; cases hn

theorem mem_readScope (h : fl ∈ lg.floors.rows) : fl.toBoundary ∈ lg.readScope fl.scope :=
  mem_map_of_mem (mem_filter.2 ⟨h, by simp⟩)

/-- The floor row of a selected row's scope is read back for the target. A namespace called like the cluster key is
the one exception: the all-namespaces read skips it. -/
theorem mem_targetReplayBoundaries {target : DurableWatchTarget} (hs : target.selects ro)
    (hn : target.scope = .namespaced none → ro.ns ≠ some "#cluster") (hl : fl ∈ lg.floors.rows)
    (hc : fl.scope = ro.scopeKey) : fl.toBoundary ∈ lg.targetReplayBoundaries target := by
  obtain ⟨av, kd, scope⟩ := target
  simp only [DurableWatchTarget.selects, Bool.and_eq_true, decide_eq_true_eq] at hs
  obtain ⟨⟨rfl, rfl⟩, hi⟩ := hs
  refine mem_append_left _ ?_
  match scope, hn with
  | .cluster, _ =>
    have hno : ro.ns = none := by simpa [DurableWatchScope.includes] using hi
    have := mem_readScope hl
    rwa [hc, scopeKey, hno] at this
  | .namespaced (some ns), _ =>
    have ho : ro.ns = some ns := by simpa [DurableWatchScope.includes] using hi
    have := mem_readScope hl
    rwa [hc, scopeKey, ho] at this
  | .namespaced none, hn =>
    obtain ⟨ns, ho⟩ : ∃ ns, ro.ns = some ns := Option.isSome_iff_exists.1 hi
    have hne : ns ≠ "#cluster" := fun e => hn rfl (by rw [ho, e])
    refine mem_map_of_mem (mem_filter.2 ⟨hl, ?_⟩)
    simpa [hc, scopeKey, ho, namespaceKey] using hne

/-- No watch event is lost behind an accepted cursor: over any run, a cursor the floors of a scope (or of a watch
target) accept already represents every event of the scope that was ever deleted, so every event it does not
represent is still in the log. -/
theorem accepted_cursor_loses_no_event (start : WatchLog) (steps : List WatchStep) (cursor : WatchReplayPosition)
    (hvalid : cursor.validate = .ok ()) :
    let run := (WatchRun.start start).steps steps
    (∀ scope, ReplayRetentionBoundary.classifyAll (run.log.readScope scope) cursor = .available →
      (∀ row ∈ run.deleted, row.scopeKey = scope → cursor.representsEvent row.id row.resourceVersion) ∧
      (∀ row ∈ run.inserted, row.scopeKey = scope → cursor.representsEvent row.id row.resourceVersion = false →
        row ∈ run.log.events.rows)) ∧
    (∀ tgt, ReplayRetentionBoundary.classifyAll (run.log.targetReplayBoundaries tgt) cursor = .available →
      (∀ row ∈ run.deleted,
        (tgt.selects row ∧ (tgt.scope = .namespaced none → row.ns ≠ some "#cluster")) →
        cursor.representsEvent row.id row.resourceVersion) ∧
      (∀ row ∈ run.inserted,
        (tgt.selects row ∧ (tgt.scope = .namespaced none → row.ns ≠ some "#cluster")) →
        cursor.representsEvent row.id row.resourceVersion = false → row ∈ run.log.events.rows)) := by
  have hr := WatchRun.steps_retained start steps
  constructor
  · intro scope ha
    refine accepted_of_covers hr (covers_of_floors hr ?_) hvalid ha
    rintro row - rfl floor hf hs
    rw [← hs]
    exact mem_readScope hf
  · intro tgt ha
    refine accepted_of_covers hr (covers_of_floors hr ?_) hvalid ha
    rintro row - ⟨he, hn⟩ floor hf hs
    exact mem_targetReplayBoundaries he hn hf hs

/-- Three events of one namespace with resourceVersions out of order, then a collection. -/
def sampleWatchSteps : List WatchStep :=
  [.insert ⟨none, "v1", "Pod", some "default", "a", 7, "ADDED", .corrupt [], false⟩,
    .insert ⟨none, "v1", "Pod", some "default", "b", 5, "ADDED", .corrupt [], false⟩,
    .insert ⟨none, "v1", "Pod", some "default", "c", 9, "ADDED", .corrupt [], false⟩,
    .gc 1 10]

/-- The collection removes the first two events, and the composite cursor at 7 through event 2 is accepted. -/
theorem accepted_cursor_loses_no_event_sample :
    let run := (WatchRun.start .empty).steps sampleWatchSteps
    let scope : ScopeKey := ⟨"v1", "Pod", "default"⟩
    let cur := WatchReplayPosition.fromResourceVersionThroughEventId 7 2
    run.deleted.map WatchEventRow.id = [1, 2] ∧ cur.validate = .ok () ∧
      ReplayRetentionBoundary.classifyAll (run.log.readScope scope) cur = .available ∧
      ∀ row ∈ run.deleted, row.scopeKey = scope → cur.representsEvent row.id row.resourceVersion := by
  intro run scope cur
  have ha : classifyAll (run.log.readScope scope) cur = .available := by decide
  have hv : cur.validate = .ok () := by decide
  exact ⟨by decide, hv, ha,
    ((accepted_cursor_loses_no_event .empty sampleWatchSteps cur hv).1 scope ha).1⟩

end Klights.Store
