import Klights.Store.HistoricalList
import Klights.Store.WatchRetention

/-!
# Stores with their whole history

What a LIST at a position should return is stated about a `World`: a store together with every event it ever logged and
the objects that were there before the first one. The object of a key at a position is the one before its first event
the position does not represent (`World.objectAt`).

A world is well formed when its rows are what its history says (`Accounted`) and when what is left of the log is the
newest part of each scope, with floors over the rest (`LogKept`). Between two database turns the store takes steps
(`EnvStep`): commits that log their changes, and collections of the log.

- `EnvStep.preserves`, `steps_wellFormed`: steps keep worlds well formed and only append to the history;
- `objectAt_of_evolves`: appended events do not change what was there at a position that is not ahead of the store;
- `represented_of_available`: an available position represents every event of its target that was collected.
-/

namespace Klights.Store

open Lib Replay List

/-! ## Events as changes -/

def WatchEventRow.object (row : WatchEventRow) : Json := row.data.fromSlice.getD .null

def WatchEventRow.change (row : WatchEventRow) : Change Json :=
  if row.eventType = "ADDED" then .added row.object
  else if row.eventType = "MODIFIED" then .modified row.object
  else .deleted row.object

def WatchEventRow.Known (row : WatchEventRow) : Prop :=
  (row.eventType = "ADDED" ∨ row.eventType = "MODIFIED" ∨ row.eventType = "DELETED") ∧ row.data = Blob.toVec row.object

def DurableWatchTarget.isOf (target : DurableWatchTarget) (key : ResourceCollectionKey) (row : WatchEventRow) : Bool :=
  row.apiVersion = target.apiVersion && row.kind = target.kind && row.collectionKey = key

def WatchEventRow.seenAt (position : WatchReplayPosition) (row : WatchEventRow) : Bool :=
  position.representsEvent row.id row.resourceVersion

/-! ## Worlds -/

/-- A store, the objects before its first event, and all its events. -/
structure World where
  db : ClusterDb
  base : ResourceCollectionKey → Option Json
  history : List WatchEventRow

namespace World

abbrev log (w : World) : WatchLog := w.db.tables.watch

variable (w : World) (target : DurableWatchTarget)

def eventsOf (key : ResourceCollectionKey) : List WatchEventRow :=
  w.history.filter (target.isOf key)

/-- The object of a key at a position: the one before the first event the position does not represent. -/
def objectAt (position : WatchReplayPosition) (key : ResourceCollectionKey) : Option Json :=
  rolledBack WatchEventRow.change (WatchEventRow.seenAt position) (w.base key) (w.eventsOf target key)

def objectNow (key : ResourceCollectionKey) : Option Json :=
  stateAfter WatchEventRow.change (w.base key) (w.eventsOf target key)

end World

def liveData (db : ClusterDb) (target : DurableWatchTarget) (key : ResourceCollectionKey) : Option Blob :=
  if target.apiVersion = "v1" ∧ target.kind = "Namespace" ∧ target.scope = .cluster then
    (db.tables.namespaces.find key.name).map NamespaceRow.data
  else (db.tables.resources.find ⟨target.apiVersion, target.kind, key.ns, key.name⟩).map ResourceRow.data

/-! ## Well-formed worlds -/

/-- The rows of a collection are what the history says: every change of a row has its event, and a deletion carries the
last object. Rows know their namespace, the namespace called like the cluster key is reserved, namespaces have a table
of their own, and event ids are not used up. -/
structure Accounted (target : DurableWatchTarget) (w : World) : Prop where
  room : w.log.seq < i64Max
  known : ∀ row ∈ w.history, target.selects row = true → row.Known
  coherent : ∀ key, target.scope.includes key.ns = true →
    Coherent WatchEventRow.change (w.base key) (w.eventsOf target key)
  live : ∀ key, target.scope.includes key.ns = true → liveData w.db target key = (w.objectNow target key).map Blob.toVec
  shaped : ∀ row ∈ w.db.tables.resources.rows, row.key.apiVersion = target.apiVersion → row.key.kind = target.kind →
    ∀ ns, row.key.ns = some ns → row.data.fromSlice.bind (fun data => data.strAt ["metadata", "namespace"]) = some ns
  reserved : (∀ row ∈ w.db.tables.resources.rows, row.key.ns ≠ some "#cluster") ∧
    ∀ row ∈ w.history, row.ns ≠ some "#cluster"
  placed : (∀ row ∈ w.db.tables.resources.rows, row.key.apiVersion = "v1" → row.key.kind ≠ "Namespace") ∧
    ∀ row ∈ w.history, row.apiVersion = "v1" → row.kind = "Namespace" → row.ns = none

/-- The log is the newest part of the history in each scope, and the floors cover the rest. -/
structure LogKept (w : World) : Prop where
  ascending : Ascending WatchEventRow.id w.history
  issued : ∀ row ∈ w.history, row.id ≤ w.log.seq
  recorded : ∀ row ∈ w.log.events.rows, row ∈ w.history
  covered : ∀ row ∈ w.history, row ∉ w.log.events.rows → FloorAtLeast w.log.floors row.floor
  newest : ∀ row ∈ w.log.events.rows, ∀ other ∈ w.history, row.scopeKey = other.scopeKey → row.id ≤ other.id →
    other ∈ w.log.events.rows

structure WellFormed (target : DurableWatchTarget) (w : World) : Prop where
  accounted : Accounted target w
  kept : LogKept w

/-! ## Steps of the store -/

def World.withLog (w : World) (log : WatchLog) : World :=
  { w with db := { w.db with tables := { w.db.tables with watch := log } } }

structure Logs (log log' : WatchLog) (row : WatchEventRow) : Prop where
  id : log.seq < row.id
  seq : log'.seq = row.id
  events : ∀ r, r ∈ log'.events.rows ↔ r ∈ log.events.rows ∨ r = row
  floors : log'.floors = log.floors

/-- What a commit does to the log: events at a version above the counter, and collections. -/
inductive LogStep : World → World → Prop where
  | event {w : World} {log : WatchLog} {row : WatchEventRow} (hlogs : Logs w.log log row)
      (hversion : w.db.resourceVersion < row.resourceVersion) :
      LogStep w { w.withLog log with history := w.history ++ [row] }
  | gc {w : World} {log : WatchLog} {maxRows batchCap : Int} {removed : Nat}
      (hgc : gcWatchEventsInTx w.log maxRows batchCap = .ok (log, removed)) : LogStep w (w.withLog log)

/-- What the store does between two database turns of a reader: a commit that leaves the rows accounted for, or a
collection. -/
inductive EnvStep (target : DurableWatchTarget) : World → World → Prop where
  | commit {w logged w' : World} (hlogged : Relation.ReflTransGen LogStep w logged) (hlog : w'.log = logged.log)
      (hbase : w'.base = w.base) (hhistory : w'.history = logged.history)
      (hcounter : w.db.resourceVersion ≤ w'.db.resourceVersion) (haccounted : Accounted target w') :
      EnvStep target w w'
  | gc {w : World} {log : WatchLog} {maxRows batchCap : Int} {removed : Nat}
      (hgc : gcWatchEventsInTx w.log maxRows batchCap = .ok (log, removed)) : EnvStep target w (w.withLog log)

/-- What a reader relies on: events are only appended, with new ids and at new versions. -/
structure Evolves (w w' : World) : Prop where
  base : w'.base = w.base
  history : ∃ fresh, w'.history = w.history ++ fresh ∧
    ∀ row ∈ fresh, w.log.seq < row.id ∧ w.db.resourceVersion < row.resourceVersion
  seq : w.log.seq ≤ w'.log.seq
  counter : w.db.resourceVersion ≤ w'.db.resourceVersion

theorem Evolves.refl (w : World) : Evolves w w := ⟨rfl, ⟨[], by simp⟩, le_rfl, le_rfl⟩

theorem Evolves.trans {w w' w'' : World} (h : Evolves w w') (h' : Evolves w' w'') : Evolves w w'' := by
  obtain ⟨fr, hh, hf⟩ := h.history
  obtain ⟨fr', hh', hf'⟩ := h'.history
  refine ⟨h'.base.trans h.base, ⟨fr ++ fr', ?_, ?_⟩, h.seq.trans h'.seq, h.counter.trans h'.counter⟩
  · rw [hh', hh, append_assoc]
  · intro row hrow
    rcases mem_append.1 hrow with hrow | hrow
    · exact hf row hrow
    · have hn := hf' row hrow
      exact ⟨lt_of_le_of_lt h.seq hn.1, lt_of_le_of_lt h.counter hn.2⟩

variable {log l : WatchLog}

section Steps

variable {t : DurableWatchTarget} {w w' : World} {m batchCap : Int} {ro : Nat}

theorem Logs.kept {row : WatchEventRow} (h : Logs w.log log row) (hk : LogKept w) :
    LogKept { w.withLog log with history := w.history ++ [row] } := by
  have hm : ∀ r ∈ w.history ++ [row], r ∈ w.history ∨ r = row := fun r hr => by simpa using hr
  have hl : World.log { w.withLog log with history := w.history ++ [row] } = log := rfl
  -- the new event is above every old one
  have ha : ∀ r ∈ w.history, r.id < row.id := fun r hr => lt_of_le_of_lt (hk.issued r hr) h.id
  refine ⟨?_, fun r hr => ?_, fun r hr => ?_, fun r hr hg => ?_, fun r hr o ho hs hle => ?_⟩
  · refine pairwise_append.2 ⟨hk.ascending, pairwise_singleton _ _, fun r hr o ho => ?_⟩
    rw [mem_singleton.1 ho]
    exact ha r hr
  · rw [hl, h.seq]
    rcases hm r hr with hr | rfl
    · exact le_of_lt (ha r hr)
    · exact le_rfl
  · rcases (h.events r).1 hr with hr | rfl
    · exact mem_append_left _ (hk.recorded r hr)
    · simp
  · rw [hl] at hg ⊢
    rcases hm r hr with hr | rfl
    · rw [h.floors]
      exact hk.covered r hr fun hi => hg ((h.events r).2 (.inl hi))
    · exact absurd ((h.events r).2 (.inr rfl)) hg
  · rcases hm o ho with hd | rfl
    · rcases (h.events r).1 hr with hr | rfl
      · exact (h.events o).2 (.inl (hk.newest r hr o hd hs hle))
      · exact absurd (ha o hd) (not_lt.2 hle)
    · exact (h.events o).2 (.inr rfl)

theorem gcCandidates_oldest {row o : WatchEventRow} (ho : o ∈ l.gcCandidates m batchCap)
    (hro : row ∈ l.events.rows) (hsc : row.scopeKey = o.scopeKey) (hle : row.id ≤ o.id) :
    row ∈ l.gcCandidates m batchCap := by
  unfold WatchLog.gcCandidates at ho ⊢
  set old := l.events.rows.filter fun row => row.id ≤ l.maxEventId - m ∧
    l.scopeRank row > watchEventsMinScopeRowsForScopeCount m l.scopeCount with hd
  have hi : o ∈ old := (mem_insertionSort _).1 (mem_of_mem_limitRows ho)
  obtain ⟨-, hc⟩ := mem_filter.1 hi
  have hc : o.id ≤ l.maxEventId - m ∧
      l.scopeRank o > watchEventsMinScopeRowsForScopeCount m l.scopeCount := by simpa using hc
  -- an older event of the scope has at least as many events of the scope after it
  have hn : l.scopeRank o ≤ l.scopeRank row := by
    refine Int.ofNat_le.2 (List.Sublist.length_le (monotone_filter_right _ fun r hr => ?_))
    simp only [decide_eq_true_eq] at hr ⊢
    exact ⟨hr.1.trans hsc.symm, hle.trans hr.2⟩
  have hw : row ∈ old := mem_filter.2 ⟨hro, by simp only [decide_eq_true_eq]; omega⟩
  have hs : row ∈ old.insertionSort fun a b => a.id ≤ b.id := (mem_insertionSort _).2 hw
  unfold limitRows at ho ⊢
  split
  · exact hs
  · rename_i hl
    rw [if_neg hl] at ho
    have ha : Ascending WatchEventRow.id (old.insertionSort fun a b => a.id ≤ b.id) :=
      insertionSort_strict (List.Nodup.sublist (List.Sublist.map _ filter_sublist) l.events.nodup)
    rcases mem_take_or_beyond ha batchCap.toNat hs with ht | ⟨-, hb⟩
    · exact ht
    · exact absurd (hb o ho) (not_lt.2 hle)

/-- A collection removes its candidates and nothing else; ids are not handed out again. -/
theorem gcWatchEventsInTx_events {l' : WatchLog} (h : gcWatchEventsInTx l m batchCap = .ok (l', ro)) :
    l'.seq = l.seq ∧ ∀ row, row ∈ l'.events.rows ↔ row ∈ l.events.rows ∧ row ∉ l.gcCandidates m batchCap := by
  unfold gcWatchEventsInTx at h
  simp only at h
  split at h
  · rename_i he
    cases h
    have hn : l.gcCandidates m batchCap = [] := by simpa using he
    exact ⟨rfl, fun row => by simp [hn]⟩
  · obtain ⟨-, h⟩ := ite_error_eq_ok.1 h
    cases h
    refine ⟨rfl, fun row => ?_⟩
    rw [Table.mem_deleteWhere]
    refine and_congr_right fun hr => ?_
    -- ids are unique, so an id of a candidate is the candidate
    have hi : row.id ∈ (l.gcCandidates m batchCap).map WatchEventRow.id ↔ row ∈ l.gcCandidates m batchCap := by
      refine ⟨fun hm => ?_, fun hm => mem_map_of_mem hm⟩
      obtain ⟨ca, hc, heq⟩ := mem_map.1 hm
      have hs : ca = row :=
        inj_on_of_nodup_map l.events.nodup (mem_of_mem_gcCandidates hc) hr heq
      rwa [hs] at hc
    rw [← hi]
    simp

theorem gc_kept (hc : gcWatchEventsInTx w.log m batchCap = .ok (log, ro)) (hk : LogKept w) :
    LogKept (w.withLog log) := by
  obtain ⟨-, hd, hf⟩ := gcWatchEventsInTx_ok hc
  obtain ⟨hs, he⟩ := gcWatchEventsInTx_events hc
  have hl : (w.withLog log).log = log := rfl
  refine ⟨hk.ascending, ?_, ?_, ?_, ?_⟩
  · intro row hr
    rw [hl, hs]
    exact hk.issued row hr
  · intro row hr
    exact hk.recorded row ((he row).1 hr).1
  · intro row hr hg
    by_cases hi : row ∈ w.log.events.rows
    · exact hd row hi hg
    · exact hf _ (hk.covered row hr hi)
  · intro row hr o ho hsc hle
    obtain ⟨hi, ht⟩ := (he row).1 hr
    have hh := hk.newest row hi o ho hsc hle
    exact (he o).2 ⟨hh, fun htk => ht (gcCandidates_oldest htk hi hsc hle)⟩

theorem gc_evolves (hc : gcWatchEventsInTx w.log m batchCap = .ok (l, ro)) : Evolves w (w.withLog l) := by
  obtain ⟨hs, -⟩ := gcWatchEventsInTx_events hc
  exact ⟨rfl, ⟨[], by simp [World.withLog]⟩, le_of_eq hs.symm, le_rfl⟩

theorem LogStep.preserves (h : LogStep w w') (hk : LogKept w) : LogKept w' ∧ Evolves w w' := by
  cases h with
  | event hl hv =>
    refine ⟨hl.kept hk, rfl, ⟨[_], rfl, fun r hr => ?_⟩, ?_, le_rfl⟩
    · rw [mem_singleton.1 hr]
      exact ⟨hl.id, hv⟩
    · exact le_trans (le_of_lt hl.id) (le_of_eq hl.seq.symm)
  | gc hg => exact ⟨gc_kept hg hk, gc_evolves hg⟩

theorem logSteps_preserve (h : Relation.ReflTransGen LogStep w w') (hk : LogKept w) : LogKept w' ∧ Evolves w w' := by
  induction h with
  | refl => exact ⟨hk, Evolves.refl w⟩
  | tail _ hs ih =>
    obtain ⟨hk', he⟩ := hs.preserves ih.1
    exact ⟨hk', ih.2.trans he⟩

theorem EnvStep.preserves (h : EnvStep t w w') (hw : WellFormed t w) : WellFormed t w' ∧ Evolves w w' := by
  cases h with
  | commit hl ho hb hh hc ha =>
    obtain ⟨hk, he⟩ := logSteps_preserve hl hw.kept
    obtain ⟨asc, iss, rd, cov, ne⟩ := hk
    rw [← hh, ← ho] at iss cov ne rd
    rw [← hh] at asc
    refine ⟨⟨ha, asc, iss, rd, cov, ne⟩, hb, ?_, ?_, hc⟩
    · rw [hh]
      exact he.history
    · rw [ho]
      exact he.seq
  | gc hg =>
    -- the rows and the history are untouched
    obtain ⟨roo, kn, co, li, sh, re, pl⟩ := hw.accounted
    have hr : (w.withLog _).log.seq < i64Max := lt_of_eq_of_lt (gcWatchEventsInTx_events hg).1 roo
    exact ⟨⟨⟨hr, kn, co, li, sh, re, pl⟩, gc_kept hg hw.kept⟩, gc_evolves hg⟩

theorem steps_wellFormed (h : Relation.ReflTransGen (EnvStep t) w w') (hw : WellFormed t w) :
    WellFormed t w' ∧ Evolves w w' := by
  induction h with
  | refl => exact ⟨hw, Evolves.refl w⟩
  | tail _ hs ih =>
    obtain ⟨hw', he⟩ := hs.preserves ih.1
    exact ⟨hw', ih.2.trans he⟩

end Steps

/-! ## Positions -/

structure NotAhead (position : WatchReplayPosition) (w : World) : Prop where
  eventId : position.eventId ≤ w.log.seq
  filter : position.resourceVersionFilterThroughEventId ≤ w.log.seq
  scalar : position.eventId = 0 → position.resourceVersionFilterThroughEventId = 0 →
    position.resourceVersion ≤ w.db.resourceVersion

variable {t : DurableWatchTarget} {p : WatchReplayPosition} {w w' : World} {key : ResourceCollectionKey}
  {row : WatchEventRow}

theorem NotAhead.unseen (h : NotAhead p w) (hv : p.validate = .ok ()) (hd : w.log.seq < row.id)
    (hr : w.db.resourceVersion < row.resourceVersion) : row.seenAt p = false := by
  obtain ⟨-, -, hf, -⟩ := WatchReplayPosition.validate_ok_iff.1 hv
  rw [Bool.eq_false_iff]
  intro hs
  have he := h.eventId
  have ha := h.filter
  have hc := h.scalar
  rcases WatchReplayPosition.representsEvent_iff.1 hs with hle | ⟨-, hle, -⟩ | ⟨hn, h0, hle⟩
  · omega
  · omega
  · have := hc h0 (by omega)
    omega

theorem objectAt_of_evolves (hv : p.validate = .ok ()) (ha : NotAhead p w) (he : Evolves w w') :
    w'.objectAt t p key = w.objectAt t p key := by
  obtain ⟨fr, hh, hf⟩ := he.history
  unfold World.objectAt World.eventsOf
  rw [he.base, hh, filter_append]
  refine rolledBack_append_unseen fun row hr => ?_
  have hn := hf row (mem_filter.1 hr).1
  exact ha.unseen hv hn.1 hn.2

theorem checkFloor_ok_iff : checkFloor w.db t p = .ok () ↔ NotAhead p w ∧
    ReplayRetentionBoundary.classifyAll (w.log.targetReplayBoundaries t) p = .available := by
  unfold checkFloor historicalFloor
  have hc : ∀ av : ReplayAvailability, av ≠ .expired ↔ av = .available := by
    intro av
    cases av <;> simp
  split
  · rename_i ol hs
    refine ⟨nofun, fun ⟨ha, hv⟩ => ?_⟩
    rw [if_neg] at hs
    · rw [if_pos ((hc _).2 hv)] at hs
      cases hs
    · have he := ha.eventId
      have hf := ha.filter
      have hsc := ha.scalar
      simp only [World.log] at he hf
      omega
  · rename_i hn
    refine ⟨fun _ => ?_, fun _ => rfl⟩
    simp only at hn
    split at hn
    · cases hn
    · rename_i hr
      split at hn
      · rename_i hv
        refine ⟨⟨?_, ?_, ?_⟩, (hc _).1 hv⟩
        · show p.eventId ≤ w.db.tables.watch.seq
          omega
        · show p.resourceVersionFilterThroughEventId ≤ w.db.tables.watch.seq
          omega
        · omega
      · cases hn

theorem LogKept.represented (hk : LogKept w) (hn : ∀ row ∈ w.history, row.ns ≠ some "#cluster")
    (hv : p.validate = .ok ())
    (ha : ReplayRetentionBoundary.classifyAll (w.log.targetReplayBoundaries t) p = .available)
    (ho : row ∈ w.history) (hs : t.selects row = true) (hg : row ∉ w.log.events.rows) : row.seenAt p = true := by
  -- the collected part of the history as a run of the log
  let run : WatchRun := ⟨w.log, w.history, w.history.filter fun row => row ∉ w.log.events.rows⟩
  have hr : Retained run := by
    refine ⟨fun row ho => ?_, fun row ho => ?_⟩
    · obtain ⟨hi, hu⟩ := mem_filter.1 ho
      exact hk.covered row hi (by simpa using hu)
    · by_cases hi : row ∈ w.log.events.rows
      · exact .inl hi
      · exact .inr (mem_filter.2 ⟨ho, by simpa using hi⟩)
  have hc : ReplayRetentionBoundary.Covers (run.log.targetReplayBoundaries t)
      ((run.deleted.filter fun row => t.selects row = true).map WatchEventRow.position) := by
    refine covers_of_floors hr fun row ho he fl hf hsc => ?_
    refine mem_targetReplayBoundaries he (fun _ => ?_) hf hsc
    exact hn row (mem_filter.1 ho).1
  have hd : row ∈ run.deleted := mem_filter.2 ⟨ho, by simpa using hg⟩
  exact (accepted_of_covers hr hc hv ha).1 row hd hs

theorem represented_of_available (hw : WellFormed t w) (hv : p.validate = .ok ())
    (ha : ReplayRetentionBoundary.classifyAll (w.log.targetReplayBoundaries t) p = .available)
    (ho : row ∈ w.history) (hs : t.selects row = true) (hg : row ∉ w.log.events.rows) : row.seenAt p = true :=
  hw.kept.represented hw.accounted.reserved.2 hv ha ho hs hg

end Klights.Store
