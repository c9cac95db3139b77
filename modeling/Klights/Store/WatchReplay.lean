import Klights.Lib.Paging
import Klights.Store.WatchLog

/-!
# Positioned replay of the watch log

`replay_watch_history` and its query (`sqlite/read_store.rs`): a page holds the rows of the targets the cursor has
not seen, in id order, up to the allocator's high water; the cursor then moves with `afterPage`.

- `positionedSelects_iff`: for an exact or composite cursor the `WHERE` clause is the complement of
  `representsEvent`; for a scalar cursor it is too, on positive ids;
- `deliverPages_anchored`: paging from an exact or composite cursor delivers exactly the rows it does not represent;
- `deliverPages_scalar`: paging from a scalar cursor delivers one page of those, then every later row of the targets.
-/

namespace Klights.Store

open Lib Replay WatchReplayPosition List

variable {page p : List WatchEventRow} {row r last l : WatchEventRow}

/-! ## The query -/

def WatchLog.byId (log : WatchLog) : List WatchEventRow := log.events.rows.insertionSort fun a b => a.id ≤ b.id

/-- The cursor part of the `WHERE` clause, in the three forms of the query text. -/
def positionedSelects (position : WatchReplayPosition) (highWaterEventId : Int) (row : WatchEventRow) : Bool :=
  if position.resourceVersionFilterThroughEventId > 0 then
    row.id > position.eventId && row.id ≤ highWaterEventId &&
      (row.id > position.resourceVersionFilterThroughEventId || row.resourceVersion > position.resourceVersion)
  else if position.eventId = 0 then row.resourceVersion > position.resourceVersion && row.id ≤ highWaterEventId
  else row.id > position.eventId && row.id ≤ highWaterEventId

def selectedByTargets (targets : List DurableWatchTarget) (row : WatchEventRow) : Bool :=
  targets.any fun target => target.selects row

variable (log : WatchLog) (targets : List DurableWatchTarget)

def WatchLog.positionedWatchQuery
    (position : WatchReplayPosition) (highWaterEventId : Int) (limit : Nat) : List WatchEventRow :=
  (log.byId.filter fun row =>
    positionedSelects position highWaterEventId row && selectedByTargets targets row).take limit

def WatchEventRow.positioned (row : WatchEventRow) : PositionedWatchEvent WatchEventRow :=
  ⟨⟨row.resourceVersion, row.id, 0⟩, row⟩

open WatchEventRow

/-! ## One read -/

inductive WatchHistoryRead where
  | expired
  | events (page : List WatchEventRow) (nextPosition : WatchReplayPosition)

/-- The page invariants `WatchHistoryPage::try_new` checks. -/
def pageInOrder (nextPosition : WatchReplayPosition) : Option Int → List WatchEventRow → Bool
  | _, [] => true
  | prior, row :: rest => (row.positioned.position.validate = .ok ()) && !prior.any (fun id => row.id ≤ id) &&
      row.id ≤ nextPosition.eventId && pageInOrder nextPosition (some row.id) rest

/-- Whether any target's history no longer reaches back to the cursor. -/
def WatchLog.positionExpired (position : WatchReplayPosition) : Bool :=
  targets.any fun target =>
    ReplayRetentionBoundary.classifyAll (log.targetReplayBoundaries target) position = .expired

/-- `replay_watch_history`, at a store whose resourceVersion counter is `currentRv`. -/
def WatchLog.replayWatchHistory (log : WatchLog) (currentRv : Int) (targets : List DurableWatchTarget)
    (position : WatchReplayPosition) (limit : Nat) : Except DbError WatchHistoryRead :=
  if position.eventId > log.seq ∨ (position.eventId = 0 ∧ position.resourceVersion > currentRv) then .ok .expired
  else
    let cursorCoversCurrent := position.eventId ≥ log.seq ∨
      (position.resourceVersionFilterThroughEventId ≥ log.seq ∧ position.resourceVersion ≥ currentRv)
    if ¬cursorCoversCurrent ∧ log.positionExpired targets position then .ok .expired
    else
      let page := log.positionedWatchQuery targets position log.seq limit
      if page.any fun row => row.data.fromSlice.isNone then .error decodeError
      else
        match position.afterPage (page.map positioned) log.seq limit with
        | .error message => .error (.other message)
        | .ok nextPosition =>
          if nextPosition.validate = .ok () ∧ pageInOrder nextPosition none page then .ok (.events page nextPosition)
          else .error (.sqlite "Query is not read-only")

/-! ## Paging until a page is empty -/

section Paging

variable (log : WatchLog) (targets : List DurableWatchTarget) (highWaterEventId : Int) (limit : Nat)

/-- Read pages until one is empty. `none`: a cursor transition panicked, or the fuel ran out. -/
def deliverPages : Nat → WatchReplayPosition → Option (List WatchEventRow)
  | 0, _ => none
  | fuel + 1, position =>
    let page := log.positionedWatchQuery targets position highWaterEventId limit
    if page.isEmpty then some []
    else do
      let next ← (position.afterPage (page.map positioned) highWaterEventId limit).toOption
      let rest ← deliverPages fuel next
      some (page ++ rest)

/-- The target rows up to the high water that a cursor does not represent, in id order. -/
def unrepresented (position : WatchReplayPosition) : List WatchEventRow :=
  log.byId.filter fun row => !position.representsEvent row.id row.resourceVersion &&
    (row.id ≤ highWaterEventId && selectedByTargets targets row)

def targetRowsAfter (eventId : Int) : List WatchEventRow :=
  log.byId.filter fun row => eventId < row.id && (row.id ≤ highWaterEventId && selectedByTargets targets row)

variable {log targets highWaterEventId limit} {position ps : WatchReplayPosition}

theorem byId_ascending : Ascending WatchEventRow.id log.byId := insertionSort_strict log.events.nodup

theorem mem_byId : r ∈ log.byId ↔ r ∈ log.events.rows := mem_insertionSort _

theorem positionedSelects_iff (h : ps.Anchored ∨ 0 < r.id) : positionedSelects ps highWaterEventId r =
      (!ps.representsEvent r.id r.resourceVersion && decide (r.id ≤ highWaterEventId)) := by
  have hr := @representsEvent_iff ps r.id r.resourceVersion
  rw [WatchReplayPosition.Anchored] at h
  rw [Bool.eq_iff_iff, Bool.and_eq_true, Bool.not_eq_true', Bool.eq_false_iff, Ne, hr]
  unfold positionedSelects
  split
  · simp only [Bool.and_eq_true, Bool.or_eq_true, decide_eq_true_eq]
    omega
  · split
    · simp only [Bool.and_eq_true, decide_eq_true_eq]
      omega
    · simp only [Bool.and_eq_true, decide_eq_true_eq]
      omega

theorem positionedWatchQuery_eq (h : ps.Anchored ∨ ∀ row ∈ log.events.rows, 0 < row.id) :
    log.positionedWatchQuery targets ps highWaterEventId limit =
      (unrepresented log targets highWaterEventId ps).take limit := by
  unfold WatchLog.positionedWatchQuery unrepresented
  congr 1
  refine filter_congr fun row hr => ?_
  rw [positionedSelects_iff (h.imp_right fun h => h row (mem_byId.1 hr)), Bool.and_assoc]

theorem unrepresented_ascending : Ascending WatchEventRow.id (unrepresented log targets highWaterEventId ps) :=
  byId_ascending.filter _

theorem mem_unrepresented : row ∈ unrepresented log targets highWaterEventId ps ↔
      row ∈ log.events.rows ∧ ps.representsEvent row.id row.resourceVersion = false ∧
        row.id ≤ highWaterEventId ∧ selectedByTargets targets row := by
  simp [unrepresented, mem_byId]

theorem positioned_validateExact (hv : 0 ≤ r.resourceVersion) (hd : 0 ≤ r.id) :
    r.positioned.position.validateExact = .ok () :=
  validateExact_ok_iff.2 ⟨hv, hd, rfl⟩

theorem afterPage_page (hv : ps.validate = .ok ()) (hl : p.getLast? = some l)
    (hx : l.positioned.position.validateExact = .ok ())
    (hn : ps.representsEvent l.id l.resourceVersion = false) :
    ps.afterPage (p.map positioned) highWaterEventId limit = .ok (ps.consume l.positioned.position) := by
  have ha : ps.eventId < l.id := by
    have := mt representsEvent_iff.2 (by rw [hn]; decide)
    omega
  have hm : (p.map positioned).getLast? = some l.positioned := by
    rw [getLast?_map, hl]; rfl
  unfold afterPage
  rw [hm]
  simp only [advanceThroughEvent_eq hv hx ha hn]
  rfl

theorem unrepresented_consume (ha : ps.Anchored)
    (hl : ((unrepresented log targets highWaterEventId ps).take limit).getLast? = some l)
    (hx : l.positioned.position.validateExact = .ok ())
    (he : ps.representsEvent l.id l.resourceVersion = false) :
    unrepresented log targets highWaterEventId (ps.consume l.positioned.position) =
      (unrepresented log targets highWaterEventId ps).drop limit := by
  have hf : ps.eventId < l.id := by
    have := mt representsEvent_iff.2 (by rw [he]; decide)
    omega
  rw [← rows_after_take unrepresented_ascending hl]
  unfold unrepresented
  rw [filter_filter]
  refine filter_congr fun r _ => ?_
  have hs := @represents_consume ps l.positioned.position ha hx hf
    r.id r.resourceVersion
  have hi : l.positioned.position.eventId = l.id := rfl
  rw [Bool.eq_iff_iff]
  simp only [Bool.and_eq_true, Bool.not_eq_true', Bool.eq_false_iff, Ne, hs, decide_eq_true_eq]
  constructor
  · rintro ⟨hn, hr⟩
    exact ⟨by omega, fun h => hn (.inr h), hr⟩
  · rintro ⟨hlt, hn, hr⟩
    exact ⟨fun h => h.elim (by omega) hn, hr⟩

/-- The rows of a non-empty page and its last row, with the facts the cursor needs. -/
theorem last_of_page (hr : ∀ row ∈ log.events.rows, 0 ≤ row.resourceVersion) (ha : position.validate = .ok ())
    (hg : p = (unrepresented log targets highWaterEventId position).take limit) (hne : p ≠ []) :
    ∃ last, p.getLast? = some last ∧ last.positioned.position.validateExact = .ok () ∧
      position.representsEvent last.id last.resourceVersion = false ∧ 0 < last.id := by
  obtain ⟨last, hl⟩ : ∃ last, p.getLast? = some last := ⟨_, getLast?_eq_some_getLast hne⟩
  have hm : last ∈ unrepresented log targets highWaterEventId position :=
    mem_of_mem_take (hg ▸ mem_of_getLast? hl)
  obtain ⟨hi, hn, -, -⟩ := mem_unrepresented.1 hm
  have hf := mt representsEvent_iff.2 (by rw [hn]; decide)
  have hv := validate_ok_iff.1 ha
  have hpos : 0 < last.id := by omega
  exact ⟨last, hl, positioned_validateExact (hr last hi) (le_of_lt hpos), hn, hpos⟩

theorem deliverPages_anchored (hl : 0 < limit) (hr : ∀ row ∈ log.events.rows, 0 ≤ row.resourceVersion) :
    ∀ (fuel : Nat) {position : WatchReplayPosition}, position.validate = .ok () → position.Anchored →
      (unrepresented log targets highWaterEventId position).length < fuel →
      deliverPages log targets highWaterEventId limit fuel position =
        some (unrepresented log targets highWaterEventId position)
  | 0, _, _, _, hf => absurd hf (Nat.not_lt_zero _)
  | fuel + 1, position, hv, ha, hf => by
    have hp : log.positionedWatchQuery targets position highWaterEventId limit =
        (unrepresented log targets highWaterEventId position).take limit :=
      positionedWatchQuery_eq (.inl ha)
    unfold deliverPages
    simp only [hp, List.isEmpty_iff]
    split
    · rename_i he
      rcases List.take_eq_nil_iff.1 he with h | h
      · omega
      · rw [h]
    · rename_i hne
      obtain ⟨l, hla, hx, hn, hpos⟩ := last_of_page hr hv rfl hne
      have hlf := unrepresented_consume ha hla hx hn
      have hnx := deliverPages_anchored hl hr fuel (consume_valid hv hx) (consume_anchored hpos) (by
          rw [hlf, List.length_drop]
          have : 0 < (unrepresented log targets highWaterEventId position).length :=
            List.length_pos_of_ne_nil fun h => hne (by simp [h])
          omega)
      rw [afterPage_page hv hla hx hn, hlf] at *
      simp [Except.toOption, hnx]

theorem unrepresented_consume_scalar (hf : ps.resourceVersionFilterThroughEventId = 0)
    (hx : l.positioned.position.validateExact = .ok ()) (hp : 0 < l.id) :
    unrepresented log targets highWaterEventId (ps.consume l.positioned.position) =
      targetRowsAfter log targets highWaterEventId l.id := by
  refine filter_congr fun r _ => ?_
  have hs := @represents_consume_scalar ps l.positioned.position hf hx hp
    r.id r.resourceVersion
  have hi : l.positioned.position.eventId = l.id := rfl
  congr 1
  rw [Bool.eq_iff_iff]
  simp only [Bool.not_eq_true', Bool.eq_false_iff, Ne, hs, decide_eq_true_eq]
  omega

theorem length_unrepresented_le : (unrepresented log targets highWaterEventId ps).length ≤
    log.events.rows.length :=
  le_trans (length_filter_le _ _) (le_of_eq (length_insertionSort _ _))

theorem deliverPages_scalar (hl : 0 < limit) (hr : ∀ row ∈ log.events.rows, 0 ≤ row.resourceVersion)
    (hd : ∀ row ∈ log.events.rows, 0 < row.id) {f : Nat} (hu : log.events.rows.length + 1 < f)
    (hv : ps.validate = .ok ()) (hf : ps.resourceVersionFilterThroughEventId = 0) :
    deliverPages log targets highWaterEventId limit f ps =
      let p := (unrepresented log targets highWaterEventId ps).take limit
      some (p ++ (p.getLast?.elim [] fun l => targetRowsAfter log targets highWaterEventId l.id)) := by
  obtain ⟨f, rfl⟩ : ∃ n, f = n + 1 := ⟨f - 1, by omega⟩
  have hp : log.positionedWatchQuery targets ps highWaterEventId limit =
      (unrepresented log targets highWaterEventId ps).take limit :=
    positionedWatchQuery_eq (.inr hd)
  unfold deliverPages
  simp only [hp, List.isEmpty_iff]
  split
  · rename_i he
    simp [he]
  · rename_i hne
    obtain ⟨l, ha, hx, hn, hpos⟩ := last_of_page hr hv rfl hne
    have hlf : unrepresented log targets highWaterEventId (ps.consume l.positioned.position) =
        targetRowsAfter log targets highWaterEventId l.id := unrepresented_consume_scalar hf hx hpos
    -- from here on the cursor is exact
    have hnx : deliverPages log targets highWaterEventId limit f (ps.consume l.positioned.position) =
        some (unrepresented log targets highWaterEventId (ps.consume l.positioned.position)) :=
      deliverPages_anchored hl hr f (consume_valid hv hx)
        (consume_anchored hpos) (lt_of_le_of_lt length_unrepresented_le (by omega))
    rw [hlf] at hnx
    rw [afterPage_page hv ha hx hn]
    simp [Except.toOption, hnx, ha]

theorem scalar_delivery_ascending :
    let page := (unrepresented log targets highWaterEventId ps).take limit
    Ascending WatchEventRow.id
      (page ++ page.getLast?.elim [] fun l => targetRowsAfter log targets highWaterEventId l.id) := by
  intro page
  have hp : Ascending WatchEventRow.id page := unrepresented_ascending.sublist (take_sublist _ _)
  cases ha : page.getLast? with
  | none => simpa using hp
  | some l =>
    refine pairwise_append.2 ⟨hp, byId_ascending.filter _, fun r hr lat hl => ?_⟩
    -- a page row is at most the last one, and the later rows are after it
    have hle : r.id ≤ l.id := by
      by_contra hg
      have hd : r ∈ page.drop page.length := by
        rw [← rows_after_take (n := page.length) hp (by simpa using ha)]
        exact mem_filter.2 ⟨hr, by simpa using hg⟩
      simp at hd
    have hlt : l.id < lat.id := by
      have := (mem_filter.1 hl).2
      simp only [Bool.and_eq_true, decide_eq_true_eq] at this
      exact this.1
    exact lt_of_le_of_lt hle hlt

theorem scalar_delivery_complete (hl : 0 < limit) (ho : r ∈ unrepresented log targets highWaterEventId ps) :
    let p := (unrepresented log targets highWaterEventId ps).take limit
    r ∈ p ++ p.getLast?.elim [] fun l => targetRowsAfter log targets highWaterEventId l.id := by
  intro p
  rw [← take_append_drop limit (unrepresented log targets highWaterEventId ps)] at ho
  rcases mem_append.1 ho with hi | hr
  · exact mem_append_left _ hi
  · cases ha : p.getLast? with
    | none =>
      have hn : p = [] := getLast?_eq_none_iff.1 ha
      rcases take_eq_nil_iff.1 hn with h | h
      · omega
      · simp [h] at hr
    | some l =>
      rw [← rows_after_take unrepresented_ascending ha] at hr
      obtain ⟨hm, hlt⟩ := mem_filter.1 hr
      obtain ⟨hi, -, hh, ht⟩ := mem_unrepresented.1 hm
      refine mem_append_right _ (mem_filter.2 ⟨mem_byId.2 hi, ?_⟩)
      simp [hlt, hh, ht]

end Paging

/-- Positioned replay paging. From any valid cursor, with enough reads, paging until a page is empty delivers each row
once, in ascending id order, and misses no row the cursor does not represent. From an exact or composite cursor it
delivers exactly those rows. From a scalar cursor it delivers the first page of those rows and then every later row of
the targets, since the cursor is an event position from the first page on. -/
theorem positioned_replay_paging (highWaterEventId : Int)
    (limit : Nat) (hlimit : 0 < limit) (hrv : ∀ row ∈ log.events.rows, 0 ≤ row.resourceVersion)
    (hid : ∀ row ∈ log.events.rows, 0 < row.id) (cursor : WatchReplayPosition) (hvalid : cursor.validate = .ok ())
    (fuel : Nat) (hfuel : log.events.rows.length + 1 < fuel) :
    ∃ delivered, deliverPages log targets highWaterEventId limit fuel cursor = some delivered ∧
      Ascending WatchEventRow.id delivered ∧
      (∀ row ∈ unrepresented log targets highWaterEventId cursor, row ∈ delivered) ∧
      (cursor.Anchored → delivered = unrepresented log targets highWaterEventId cursor) ∧ (¬cursor.Anchored →
        let page := (unrepresented log targets highWaterEventId cursor).take limit
        delivered = page ++ page.getLast?.elim [] fun last =>
          targetRowsAfter log targets highWaterEventId last.id) := by
  by_cases ha : cursor.Anchored
  · refine ⟨_, deliverPages_anchored hlimit hrv fuel hvalid ha
      (lt_of_le_of_lt length_unrepresented_le (by omega)), unrepresented_ascending, fun _ h => h, fun _ => rfl,
      fun h => absurd ha h⟩
  · have hf : cursor.resourceVersionFilterThroughEventId = 0 := by
      have := validate_ok_iff.1 hvalid
      unfold WatchReplayPosition.Anchored at ha
      omega
    exact ⟨_, deliverPages_scalar hlimit hrv hid hfuel hvalid hf, scalar_delivery_ascending,
      fun _ h => scalar_delivery_complete hlimit h, fun h => absurd h ha, fun _ => rfl⟩

/-- Three Pod events whose second has an older resourceVersion than the first. -/
def sampleReplayLog : WatchLog :=
  ⟨⟨[⟨1, "v1", "Pod", some "default", "a", 11, "ADDED", .json (.obj [])⟩,
    ⟨2, "v1", "Pod", some "default", "b", 5, "ADDED", .json (.obj [])⟩,
    ⟨3, "v1", "Pod", some "default", "c", 12, "ADDED", .json (.obj [])⟩], by decide⟩, 3, .empty⟩

def sampleReplayTargets : List DurableWatchTarget := [⟨"v1", "Pod", .namespaced none⟩]

theorem positioned_replay_paging_sample :
    let cursor := WatchReplayPosition.fromResourceVersionThroughEventId 10 3
    cursor.validate = .ok () ∧ (∀ row ∈ sampleReplayLog.events.rows, 0 ≤ row.resourceVersion ∧ 0 < row.id) ∧
      ∃ dlv, deliverPages sampleReplayLog sampleReplayTargets 3 1 5 cursor = some dlv ∧
        dlv = unrepresented sampleReplayLog sampleReplayTargets 3 cursor := by
  intro cursor
  have hv : cursor.validate = .ok () := by decide
  have hr : ∀ row ∈ sampleReplayLog.events.rows, 0 ≤ row.resourceVersion ∧ 0 < row.id := by decide
  obtain ⟨dlv, hu, -, -, ha, -⟩ := positioned_replay_paging sampleReplayLog sampleReplayTargets 3 1
    (by decide) (fun row h => (hr row h).1) (fun row h => (hr row h).2) cursor hv 5 (by decide)
  exact ⟨hv, hr, dlv, hu, ha (by decide)⟩

/-- A scalar cursor at 10, read one row at a time, delivers event 2 at resourceVersion 5, which it represents. -/
theorem scalar_replay_delivers_represented :
    let cursor := WatchReplayPosition.fromResourceVersion 10
    cursor.validate = .ok () ∧ sampleReplayLog.positionExpired sampleReplayTargets cursor = false ∧
      (unrepresented sampleReplayLog sampleReplayTargets 3 cursor).map WatchEventRow.id = [1, 3] ∧
      (deliverPages sampleReplayLog sampleReplayTargets 3 1 5 cursor).map (List.map WatchEventRow.id) =
        some [1, 2, 3] := by
  decide

end Klights.Store
