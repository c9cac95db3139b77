import Klights.Lib.Runs
import Klights.Store.Entries
import Klights.Store.History
import Klights.Store.Versions

/-!
# Changes and the events that record them

A reader that has the objects of a point of a run and follows the watch log should end up with the objects of any later
point. The store writes an event with each object it changes, unless the commit brings events along.

- `objectAt`: the object stored under a key, with its identity columns and resourceVersion in place;
- `Appended`: a log with some events more, each under an id that was never handed out;
- `LoggedAt`, `LoggedAt.insert`: events appended at one version, and one more of them;
- `EventsRecorded`: events that say what became of every row that changed;
- `EventsRecorded.step`, `applyMutations_recorded`: the mutations of a commit that lets the store write its events.
-/

namespace Klights.Store

open Lib List Table

variable {event ev : WatchEventInsert} {row r : WatchEventRow}

/-! ## Objects and events -/

def rowObject (key : ResourceKey) (resourceVersion : Int) (data : Blob) : Json :=
  (data.fromSlice.map (hydrateWatchEventData ⟨key.apiVersion, key.kind, key.ns, key.name, resourceVersion⟩)).getD .null

def objectAt (tables : Tables) (key : ResourceKey) : Option Json :=
  if key = namespaceKeyOf key.name then
    (tables.namespaces.find key.name).map fun row => rowObject key row.resourceVersion row.data
  else (tables.resources.find key).map fun row => rowObject key row.resourceVersion row.data

def WatchEventRow.key (row : WatchEventRow) : ResourceKey := ⟨row.apiVersion, row.kind, row.ns, row.name⟩

/-- What an event says of its object: `ADDED` and `MODIFIED` set it, `DELETED` removes it. -/
def WatchEventRow.outcome (row : WatchEventRow) : Option Json :=
  if row.eventType = "DELETED" then none else some row.object

/-- The events with an id above a given one, oldest first. -/
def WatchLog.since (log : WatchLog) (seq : Int) : List WatchEventRow :=
  (log.events.rows.filter fun row => seq < row.id).insertionSort fun a b => a.id ≤ b.id

theorem objectAt_congr {t t' : Tables} {key : ResourceKey} (hr : t'.resources.find key = t.resources.find key)
    (hn : key = namespaceKeyOf key.name → t'.namespaces.find key.name = t.namespaces.find key.name) :
    objectAt t' key = objectAt t key := by
  unfold objectAt
  split
  · rename_i hk
    rw [hn hk]
  · rw [hr]

/-! ## Appended events -/

structure Appended (log log' : WatchLog) (events : List WatchEventRow) : Prop where
  rows : log'.events.rows = log.events.rows ++ events
  ascending : events.Pairwise fun a b => a.id < b.id
  above : ∀ row ∈ events, log.seq < row.id
  issued : ∀ row ∈ events, row.id ≤ log'.seq
  seq : log.seq ≤ log'.seq

def WatchLog.Issued (log : WatchLog) : Prop := ∀ row ∈ log.events.rows, row.id ≤ log.seq

variable {l l' l'' : WatchLog} {events : List WatchEventRow} {v : Int} {bf t t' : Tables}

section Appended

variable {la : List WatchEventRow}

theorem Appended.refl (l : WatchLog) : Appended l l [] :=
  ⟨(append_nil _).symm, .nil, fun _ h => absurd h not_mem_nil, fun _ h => absurd h not_mem_nil, le_rfl⟩

theorem Appended.trans (h : Appended l l' events) (h' : Appended l' l'' la) : Appended l l'' (events ++ la) := by
  refine ⟨by rw [h'.rows, h.rows, append_assoc], ?_, fun r hrow => ?_, fun r hrow => ?_, le_trans h.seq h'.seq⟩
  · refine pairwise_append.2 ⟨h.ascending, h'.ascending, fun a ha b hb => ?_⟩
    exact lt_of_le_of_lt (h.issued a ha) (h'.above b hb)
  · rcases mem_append.1 hrow with hrow | hrow
    · exact h.above r hrow
    · exact lt_of_le_of_lt h.seq (h'.above r hrow)
  · rcases mem_append.1 hrow with hrow | hrow
    · exact le_trans (h.issued r hrow) h'.seq
    · exact h'.issued r hrow

theorem Appended.keepsIssued (h : Appended l l' events) (hi : l.Issued) : l'.Issued := by
  intro r hrow
  rw [h.rows] at hrow
  rcases mem_append.1 hrow with hrow | hrow
  · exact le_trans (hi r hrow) h.seq
  · exact h.issued r hrow

theorem Appended.since (h : Appended l l' events) (hi : l.Issued) : l'.since l.seq = events := by
  have ho : l.events.rows.filter (fun r => l.seq < r.id) = [] := by
    rw [filter_eq_nil_iff]
    intro r hr
    simpa using hi r hr
  have hn : events.filter (fun r => l.seq < r.id) = events :=
    filter_eq_self.2 fun r hr => by simpa using h.above r hr
  unfold WatchLog.since
  rw [h.rows, filter_append, ho, hn, nil_append]
  exact List.Pairwise.insertionSort_eq (h.ascending.imp fun hlt => le_of_lt hlt)

end Appended

/-! ## One insert -/

def WatchEventInsert.key (event : WatchEventInsert) : ResourceKey :=
  ⟨event.apiVersion, event.kind, event.ns, event.name⟩

/-- An event clashes with one of its own key, if neither namespace is called like the key of the cluster. -/
theorem sameIdentityRv_some (h : l.sameIdentityRv ev = some r) :
    r ∈ l.events.rows ∧ r.resourceVersion = ev.resourceVersion ∧
      (r.ns ≠ some "#cluster" → ev.ns ≠ some "#cluster" → r.key = ev.key) := by
  have heq := find?_some h
  simp only [decide_eq_true_eq] at heq
  obtain ⟨ha, hk, hs, hn, hv⟩ := heq
  refine ⟨mem_of_find?_eq_some h, hv, fun hr he => ?_⟩
  rw [WatchEventRow.key, WatchEventInsert.key, ha, hk, (namespaceKey_inj hr he).1 hs, hn]

theorem sameIdentityRv_none (h : l.sameIdentityRv ev = none) (hr : r ∈ l.events.rows)
    (hv : r.resourceVersion = ev.resourceVersion) : r.key ≠ ev.key := by
  intro hk
  obtain ⟨ha, hi, hs, hn⟩ := ResourceKey.mk.inj hk
  have hc := find?_eq_none.1 h r hr
  simp [ha, hi, hs, hn, hv] at hc

theorem insertWatchEvent_cases (hn : ev.eventId = none) (h : insertWatchEventInConn l ev = .ok l') :
    ∃ d, ev.storedData = .ok d ∧
      ((l' = l ∧ ∃ row, l.sameIdentityRv ev = some row ∧ row.eventType = ev.eventType ∧ row.data = d) ∨
        (l.sameIdentityRv ev = none ∧ Appended l l' [ev.row l.nextEventId d])) := by
  cases insertWatchEvent_inserted h with
  | @replayed row d hd hc ht heq => exact ⟨d, hd, .inl ⟨rfl, row, hc, ht, heq⟩⟩
  | @stored id d hi hd ho hf =>
    have hx := l.seq_lt_nextEventId
    rw [hn, Option.getD_none] at hi
    subst hi
    refine ⟨d, hd, .inr ⟨ho, ?_, pairwise_singleton _ _, fun row hr => ?_, fun row hr => ?_, ?_⟩⟩
    · exact upsert_of_new _ _ hf
    · obtain rfl := mem_singleton.1 hr
      exact hx
    · obtain rfl := mem_singleton.1 hr
      exact le_max_right _ _
    · exact le_max_left _ _

theorem insertWatchEvent_issued (hi : l.Issued) (h : insertWatchEventInConn l ev = .ok l') :
    l'.Issued := by
  cases insertWatchEvent_inserted h with
  | replayed => exact hi
  | stored =>
    intro r hr
    rcases mem_put.1 hr with rfl | ⟨ho, -⟩
    · exact le_max_right _ _
    · exact le_trans (hi r ho) (le_max_left _ _)

/-! ## Events of one version -/

structure LoggedAt (version : Int) (log log' : WatchLog) (events : List WatchEventRow) : Prop where
  appended : Appended log log' events
  version : ∀ event ∈ events, event.resourceVersion = version
  reserved : ∀ event ∈ events, event.ns ≠ some "#cluster"

/-- A row that stores an event is among the events: it was there already, or is the only one more. -/
structure Stores (event : WatchEventInsert) (events events' : List WatchEventRow) (row : WatchEventRow) : Prop where
  key : row.key = event.key
  eventType : row.eventType = event.eventType
  data : event.storedData = .ok row.data
  mem : row ∈ events'
  old : ∀ other ∈ events, other ∈ events'
  new : ∀ other ∈ events', other ∈ events ∨ other = row
  only : row ∈ events ∨ ∀ other ∈ events, other.key ≠ event.key

/-- Nothing was written at a version. -/
def WatchLog.FreshAt (log : WatchLog) (version : Int) : Prop :=
  ∀ row ∈ log.events.rows, row.resourceVersion ≠ version

section LoggedAt

theorem LoggedAt.refl (v : Int) (l : WatchLog) : LoggedAt v l l [] := by
  refine ⟨.refl _, ?_, ?_⟩ <;> exact fun _ hm => absurd hm not_mem_nil

theorem LoggedAt.mem (h : LoggedAt v l l' events) (hfr : l.FreshAt v)
    (hr : r ∈ l'.events.rows) (hv : r.resourceVersion = v) : r ∈ events := by
  rw [h.appended.rows] at hr
  exact (mem_append.1 hr).resolve_left fun ho => hfr r ho hv

theorem LoggedAt.insert (h : LoggedAt v l l' events) (hfr : l.FreshAt v)
    (hid : ev.eventId = none) (hv : ev.resourceVersion = v) (hs : ev.ns ≠ some "#cluster")
    (hi : insertWatchEventInConn l' ev = .ok l'') :
    ∃ e' row, LoggedAt v l l'' e' ∧ Stores ev events e' row := by
  obtain ⟨data, hd, hc⟩ := insertWatchEvent_cases hid hi
  rcases hc with ⟨rfl, row, hcl, ht, heq⟩ | ⟨hn, ha⟩
  · -- the very event is there already
    obtain ⟨ho, hr, hk⟩ := sameIdentityRv_some hcl
    have hm := h.mem hfr ho (hr.trans hv)
    refine ⟨events, row, h, hk (h.reserved row hm) hs, ht, ?_, hm, fun _ he => he, fun _ he => .inl he, .inl hm⟩
    rwa [heq]
  · have hl : ∀ e ∈ events, e.key ≠ ev.key := by
      intro e he
      refine sameIdentityRv_none hn ?_ ((h.version e he).trans hv.symm)
      rw [h.appended.rows]
      exact mem_append_right _ he
    have hla : ∀ e ∈ events ++ [ev.row l'.nextEventId data], e ∈ events ∨ e = ev.row l'.nextEventId data :=
      fun e he => (mem_append.1 he).imp_right mem_singleton.1
    refine ⟨_, ev.row l'.nextEventId data, ⟨h.appended.trans ha, fun e he => ?_, fun e he => ?_⟩,
      ⟨rfl, rfl, hd, by simp, fun e he => mem_append_left _ he, hla, .inr hl⟩⟩
    · rcases hla e he with he | rfl
      · exact h.version e he
      · exact hv
    · rcases hla e he with he | rfl
      · exact h.reserved e he
      · exact hs

end LoggedAt

/-! ## Recorded changes -/

/-- The events of one version say what became of every row that is not what it was. -/
structure EventsRecorded (version : Int) (before after : Tables) (events : List WatchEventRow) : Prop extends
    LoggedAt version before.watch after.watch events where
  outcome : ∀ event ∈ events, event.outcome = objectAt after event.key
  resources : ∀ key, (∀ event ∈ events, event.key ≠ key) → after.resources.find key = before.resources.find key
  namespaces : ∀ name, (∀ event ∈ events, event.key ≠ namespaceKeyOf name) →
    after.namespaces.find name = before.namespaces.find name

section EventsRecorded

theorem EventsRecorded.refl (v : Int) (t : Tables) : EventsRecorded v t t [] :=
  ⟨.refl _ _, fun _ hm => absurd hm not_mem_nil, fun _ _ => rfl, fun _ _ => rfl⟩

section

variable (h : EventsRecorded v bf t events)
include h

theorem EventsRecorded.covers : Covers WatchEventRow.key WatchEventRow.outcome (objectAt bf) (objectAt t) events := by
  refine ⟨h.outcome, fun k hk => objectAt_congr (h.resources k hk) fun heq => h.namespaces k.name ?_⟩
  rwa [← heq]

theorem EventsRecorded.aside (ha : t'.watch = t.watch) (hr : t'.resources = t.resources)
    (hs : t'.namespaces = t.namespaces) : EventsRecorded v bf t' events := by
  refine ⟨by rw [ha]; exact h.toLoggedAt, fun ev he => ?_, fun k hk => ?_, fun nm hn => ?_⟩
  · rw [h.outcome ev he]
    exact (objectAt_congr (by rw [hr]) fun _ => by rw [hs]).symm
  · rw [hr]
    exact h.resources k hk
  · rw [hs]
    exact h.namespaces nm hn

theorem EventsRecorded.change {w : WatchLog} {final : Option Json} (hfr : bf.watch.FreshAt v)
    (hd : ev.eventId = none) (hv : ev.resourceVersion = v) (hns : ev.ns ≠ some "#cluster")
    (hi : insertWatchEventInConn t.watch ev = .ok w) (hw : t'.watch = w)
    (hb : objectAt t' ev.key = final)
    (hf : ∀ d, ev.storedData = .ok d →
      (if ev.eventType = "DELETED" then none else some (d.fromSlice.getD .null)) = final)
    (hre : ∀ key, ev.key ≠ key → t'.resources.find key = t.resources.find key)
    (hn : ∀ nm, ev.key ≠ namespaceKeyOf nm → t'.namespaces.find nm = t.namespaces.find nm) :
    ∃ events', EventsRecorded v bf t' events' := by
  obtain ⟨events', r, hl, hs⟩ := h.toLoggedAt.insert hfr hd hv hns hi
  have hr : r.outcome = final := by
    rw [← hf r.data hs.data, WatchEventRow.outcome, WatchEventRow.object, hs.eventType]
  rw [← hw] at hl
  refine ⟨events', hl, fun e he => ?_, fun key hno => ?_, fun nm hno => ?_⟩
  · by_cases ha : e.key = ev.key
    · rw [ha, hb, ← hr]
      rcases hs.new e he with ho | rfl
      · rcases hs.only with hm | hoths
        · rw [h.outcome e ho, h.outcome r hm, ha, hs.key]
        · exact absurd ha (hoths e ho)
      · rfl
    · have ho : e ∈ events := (hs.new e he).resolve_right fun heq => ha (heq ▸ hs.key)
      rw [h.outcome e ho]
      refine (objectAt_congr (hre e.key fun heq => ha heq.symm) fun heq => hn e.key.name ?_).symm
      rw [← heq]
      exact fun heq => ha heq.symm
  · rw [hre key (hs.key ▸ hno r hs.mem)]
    exact h.resources key fun e he => hno e (hs.old e he)
  · rw [hn nm (hs.key ▸ hno r hs.mem)]
    exact h.namespaces nm fun e he => hno e (hs.old e he)

end

end EventsRecorded

/-! ## Commits that let the store write their events -/

/-- Objects under keys of their own: not in the table of namespaces, nor in a namespace called like the cluster key. -/
def placedKey (key : ResourceKey) : Bool :=
  key.ns ≠ some "#cluster" && key ≠ namespaceKeyOf key.name

/-- A mutation whose changes can be recorded: it clears no namespace, collects no events and has a key of its own. -/
def LogApplyMutation.recordable : LogApplyMutation → Bool
  | .putResource row => placedKey (resourceIdentity row.key)
  | .patchResourceLatest patch => placedKey (resourceIdentity patch.key)
  | .deleteResource delete => placedKey (resourceIdentity delete.key)
  | .deleteNamespaceContents _ | .gcWatchEvents _ _ => false
  | _ => true

variable {p : ApplyPolicies} {st : Option StagedPostCommit} {mu : LogApplyMutation} {key k : ResourceKey}

theorem placedKey_ns (h : placedKey k) : k.ns ≠ some "#cluster" := by
  simp only [placedKey, Bool.and_eq_true, decide_eq_true_eq] at h
  exact h.1

theorem placedKey_ne (h : placedKey k) (name : String) : k ≠ namespaceKeyOf name := by
  rintro rfl
  simp [placedKey, namespaceKeyOf] at h

theorem objectAt_placed (h : placedKey k) (t : Tables) :
    objectAt t k = (t.resources.find k).map fun row => rowObject k row.resourceVersion row.data :=
  if_neg (placedKey_ne h _)

theorem storedData_object {d : Blob} (hc : ev.canonicalizeObject) (h : ev.storedData = .ok d) :
    d.fromSlice.getD .null = rowObject ev.key ev.resourceVersion ev.data := by
  rw [WatchEventInsert.storedData, if_pos hc] at h
  obtain ⟨bo, hb, h⟩ := bind_eq_ok.1 h
  cases h
  unfold decodeJson at hb
  split at hb
  · rename_i vl hv
    cases hb
    rw [rowObject, hv]
    rfl
  · cases hb

theorem EventsRecorded.emitted {c : Tables} {et : String} {d : Blob}
    (h : EventsRecorded v bf t events) (hfr : bf.watch.FreshAt v)
    (hns : k.ns ≠ some "#cluster") (hm : c.emitWatch true k v et d = .ok (t', st))
    (ha : c.watch = t.watch)
    (ho : objectAt c k = if et = "DELETED" then none else some (rowObject k v d))
    (hr : ∀ o, k ≠ o → c.resources.find o = t.resources.find o)
    (hn : ∀ nm, k ≠ namespaceKeyOf nm → c.namespaces.find nm = t.namespaces.find nm) :
    ∃ events', EventsRecorded v bf t' events' := by
  rcases emitWatch_ok hm with ⟨ht, -⟩ | ⟨-, watch, hi, rfl⟩
  · cases ht
  · rw [ha] at hi
    refine h.change hfr rfl rfl hns hi rfl ho (fun s hs => ?_) hr hn
    rw [storedData_object rfl hs]
    rfl

theorem placed_of_target (hr : mu.recordable) (ht : mu.target = some key)
    (hp : ∀ row, mu ≠ .putNamespace row) (hd : ∀ nm, mu ≠ .deleteNamespace nm) :
    placedKey key := by
  cases mu with
  | putResource row | patchResourceLatest row | deleteResource row =>
    cases ht
    exact hr
  | putNamespace row => exact absurd rfl (hp row)
  | deleteNamespace nm => exact absurd rfl (hd nm)
  | _ => cases ht

theorem EventsRecorded.effect (h : EventsRecorded v bf t events) (hfr : bf.watch.FreshAt v)
    (hr : mu.recordable) (hv : mu.isPutWatchEvent = false)
    (hp : ∀ row, mu ≠ .putNamespace row) (hd : ∀ nm, mu ≠ .deleteNamespace nm)
    (he : Effect v true t mu t') :
    ∃ events', EventsRecorded v bf t' events' := by
  cases he with
  | @wrote _ k ui et da _ _ ht hy hm =>
    have hl := placed_of_target hr ht hp hd
    refine h.emitted hfr (placedKey_ns hl) hm rfl ?_ (fun o ho => ?_) fun _ _ => rfl
    · rw [objectAt_placed hl, if_neg hy]
      exact congrArg (Option.map _) ((find_upsertResource t k k _ _ _).trans (if_pos rfl))
    · exact (find_upsertResource t k o _ _ _).trans (if_neg ho)
  | indexed => exact ⟨events, h.aside rfl rfl rfl⟩
  | @deleted del cur _ _ hf hm =>
    refine h.emitted hfr (placedKey_ns hr) hm rfl ?_ (fun o ho => ?_) fun _ _ => rfl
    · rw [objectAt_placed hr, if_pos rfl]
      exact congrArg (Option.map _) ((find_deleteWhere_key _ _ _).trans (if_pos rfl))
    · exact (find_deleteWhere_key _ _ _).trans (if_neg ho)
  | @wroteNamespace row => exact absurd rfl (hp row)
  | @deletedNamespace nm => exact absurd rfl (hd nm)
  | cleared nm => cases hr
  | event hi => cases hv
  | collected hg => cases hr
  | aside => exact ⟨events, h.aside rfl rfl rfl⟩

theorem objectAt_namespace (t : Tables) (nm : String) : objectAt t (namespaceKeyOf nm) =
      (t.namespaces.find nm).map fun row => rowObject (namespaceKeyOf nm) row.resourceVersion row.data :=
  if_pos rfl

section

variable (h : EventsRecorded v bf t events) (hfr : bf.watch.FreshAt v)
include h hfr

theorem EventsRecorded.putNamespace {row : LogApplyNamespaceRow} (hv : row.resourceVersion = v)
    (hput : putNamespace t row true = .ok (t', st)) :
    ∃ events', EventsRecorded v bf t' events' := by
  unfold Store.putNamespace at hput
  simp only at hput
  split at hput
  · cases hput
    exact ⟨events, h⟩
  · rw [hv] at hput
    have ht : (if (t.namespaces.find row.name).isSome = true then "MODIFIED" else "ADDED") ≠ "DELETED" := by
      split <;> decide
    refine h.emitted hfr (Option.some_ne_none _).symm hput rfl ?_ (fun _ _ => rfl) fun nm hn => ?_
    · rw [objectAt_namespace, if_neg ht]
      exact congrArg (Option.map _) (find_put_self _ _)
    · exact find_put_ne fun heq => hn (congrArg namespaceKeyOf heq)

theorem EventsRecorded.deleteNamespace {nm : String} (hdel : deleteNamespace t v nm true = .ok (t', st)) :
    ∃ events', EventsRecorded v bf t' events' := by
  unfold Store.deleteNamespace at hdel
  split at hdel
  · cases hdel
    exact ⟨events, h⟩
  · refine h.emitted hfr (Option.some_ne_none _).symm hdel rfl ?_ (fun _ _ => rfl) fun o ho => ?_
    · rw [objectAt_namespace, if_pos rfl]
      exact congrArg (Option.map _) ((find_deleteWhere_key _ _ _).trans (if_pos rfl))
    · exact (find_deleteWhere_key _ _ _).trans (if_neg fun heq => ho (congrArg namespaceKeyOf heq))

theorem EventsRecorded.step (hr : mu.recordable) (he : mu.isPutWatchEvent = false)
    (hp : applyClusterMutation p v true t mu = .ok (t', st)) :
    ∃ events', EventsRecorded v bf t' events' := by
  cases mu with
  | putNamespace r =>
    simp only [applyClusterMutation] at hp
    obtain ⟨hv, hp⟩ := ite_error_eq_ok.1 hp
    exact h.putNamespace hfr (not_ne_iff.1 hv) hp
  | deleteNamespace nm => exact h.deleteNamespace hfr hp
  | _ =>
    exact h.effect hfr hr he (fun _ h => by cases h) (fun _ h => by cases h) (applyClusterMutation_effects hp)

end

theorem applyMutations_recorded {ms : List LogApplyMutation} {pd : List StagedPostCommit}
    (hfr : bf.watch.FreshAt v) (hr : ∀ m ∈ ms, m.recordable)
    (hv : ∀ m ∈ ms, m.isPutWatchEvent = false)
    (hu : applyMutations p v true t ms = .ok (t', pd))
    (h : EventsRecorded v bf t events) : ∃ events', EventsRecorded v bf t' events' := by
  refine applyMutations_invariant (P := fun aft => ∃ events', EventsRecorded v bf aft events') hu
    (fun m hm _ _ _ hn hb => ?_) ⟨events, h⟩
  obtain ⟨events', h'⟩ := hb
  exact h'.step hfr (hr m hm) (hv m hm) hn

end Klights.Store
