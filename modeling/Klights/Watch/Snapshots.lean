import Klights.Watch.Informers
import Klights.Watch.SelectorMirror

/-!
# Ready scopes are snapshots

- `Snapshot`: a scope holds the selected objects of the log as of its position;
- `Informers.Inv`: every scope is a snapshot, and no driver is ahead of its scope (`Inv.step`, `Inv.run`);
- `ready_scope_snapshot`: a ready scope lists its objects as of its position, if different scopes have no objects in
  common (`narrow_stream_skips` is a run where they have).
-/

namespace Klights.Watch

open Lib Lib.Mirror Replay Selector
open WatchCache ResourceFilter LeaderLog List Function WatchReplayPosition

variable {position ps : WatchReplayPosition} {lg : LeaderLog} {cache cache' ca' : WatchCache}
  {request : ResourceListRequest} {filter : ResourceFilter} {u : CacheReadinessRequest → Prop} {stream : Stream}

/-! ## Exact positions -/

section Exact

variable {p' : WatchReplayPosition}

theorem validate_of_exact (h : ps.validateExact = .ok ()) : ps.validate = .ok () := by
  obtain ⟨hv, he, hfilter⟩ := validateExact_ok_iff.1 h
  exact validate_ok_iff.2 ⟨hv, he, by omega, by omega⟩

theorem permitsSuccessor_exact (h : position.validateExact = .ok ()) (h' : p'.validateExact = .ok ()) :
    position.permitsSuccessor p' ↔ position.eventId < p'.eventId ∨ p' = position := by
  have hx := validateExact_ok_iff.1 h
  have hx' := validateExact_ok_iff.1 h'
  rw [permitsSuccessor_iff]
  simp only [validate_of_exact h, validate_of_exact h', true_and]
  obtain ⟨r, e, f⟩ := position
  obtain ⟨r', e', f'⟩ := p'
  simp only [WatchReplayPosition.mk.injEq] at hx hx' ⊢
  omega

end Exact

/-! ## Snapshots -/

structure Snapshot (log : LeaderLog) (entry : ScopeEntry) (filter : ResourceFilter) (position : WatchReplayPosition) :
    Prop where
  filter_ok : ResourceFilter.forCacheScope entry.scope = .ok filter
  position_eq : entry.state.position = some position
  exact : position.validateExact = .ok ()
  contents : entry.state.contents = selected filter.matchesResource (log.stateAt position.eventId)

/-- Every scope of a cache is a snapshot, and one of the scopes in use. -/
def Snapshots (log : LeaderLog) (used : CacheReadinessRequest → Prop) (cache : WatchCache) : Prop :=
  ∀ scope entry, cache.scopes.find scope = some entry →
    used scope ∧ ∃ filter position, Snapshot log entry filter position

def ConsistentList (log : LeaderLog) (request : ResourceListRequest) (resources : List Resource)
    (position : WatchReplayPosition) : Prop :=
  position.validateExact = .ok () ∧ ∀ filter, ResourceFilter.forList request = .ok filter → ∀ resource,
    resource ∈ resources ↔ log.stateAt position.eventId resource.key = some resource ∧
      filter.matchesResource resource = true

def AtLeast (cache : WatchCache) (scope : CacheReadinessRequest) (eventId : Int) : Prop :=
  ∃ entry position, cache.scopes.find scope = some entry ∧ entry.state.position = some position ∧
    eventId ≤ position.eventId

/-- The scopes of a cache are all there later, and no position has gone back. -/
def Advances (cache cache' : WatchCache) : Prop :=
  ∀ scope eventId, AtLeast cache scope eventId → AtLeast cache' scope eventId

def Overlaps (scope scope' : CacheReadinessRequest) : Prop :=
  scope.apiVersion = scope'.apiVersion ∧ scope.kind = scope'.kind ∧
    (scope.ns = none ∨ scope'.ns = none ∨ scope.ns = scope'.ns)

instance (scope scope' : CacheReadinessRequest) : Decidable (Overlaps scope scope') :=
  inferInstanceAs (Decidable (_ ∧ _ ∧ _))

section Steps

variable {r : List Resource} {scope scope' : CacheReadinessRequest} {f' : ResourceFilter}
  {rs : Resource}

theorem ResourceFilter.forCacheScope_ok (h : forCacheScope scope = .ok filter) :
    filter.apiVersion = scope.apiVersion ∧ filter.kind = scope.kind ∧ filter.ns = scope.ns := by
  obtain ⟨la, -, h⟩ := bind_eq_ok.1 h
  obtain ⟨fi, -, h⟩ := bind_eq_ok.1 h
  cases h
  exact ⟨rfl, rfl, rfl⟩

theorem overlaps_of_identity (hfilter : forCacheScope scope = .ok filter)
    (hi' : forCacheScope scope' = .ok f') (h : filter.matchesIdentity rs)
    (h' : f'.matchesIdentity rs) : Overlaps scope scope' := by
  obtain ⟨hp, hi, hns⟩ := forCacheScope_ok hfilter
  obtain ⟨hp', hki', hns'⟩ := forCacheScope_ok hi'
  simp only [matchesIdentity, Bool.and_eq_true, decide_eq_true_iff] at h h'
  obtain ⟨⟨ha, hk⟩, hn⟩ := h
  obtain ⟨⟨ha', hk'⟩, hn'⟩ := h'
  refine ⟨by rw [← hp, ← hp', ← ha, ha'], by rw [← hi, ← hki', ← hk, hk'], ?_⟩
  rw [hns] at hn
  rw [hns'] at hn'
  cases hs : scope.ns with
  | none => exact .inl rfl
  | some ns =>
    cases hs' : scope'.ns with
    | none => exact .inr (.inl rfl)
    | some ns' =>
      have ho : rs.key.ns = some ns := by simpa [hs] using hn
      have ht : rs.key.ns = some ns' := by simpa [hs'] using hn'
      exact .inr (.inr (ho.symm.trans ht))

theorem Snapshots.at {entry : ScopeEntry} (h : Snapshots lg u cache) (hn : cache.scopes.find scope = some entry)
    (hp : entry.state.position = some position) : u scope ∧ ∃ filter, Snapshot lg entry filter position := by
  obtain ⟨hu, filter, st, hs⟩ := h scope entry hn
  cases hs.position_eq.symm.trans hp
  exact ⟨hu, filter, hs⟩

/-! ## Priming -/

theorem snapshot_listed (hi : ConsistentList lg request r position)
    (hfilter : forList request = .ok filter) (hd : (r.map Resource.key).Nodup) :
    Snapshot lg ⟨cacheScope request, ⟨some position, listedMembers position r⟩⟩ filter position := by
  refine ⟨hfilter, rfl, hi.1, ?_⟩
  funext key
  refine Option.ext fun rs => ?_
  rw [contents_listed hd, selected, Option.filter_eq_some_iff, hi.2 filter hfilter rs]
  constructor
  · rintro ⟨⟨hs, hm⟩, rfl⟩
    exact ⟨hs, hm⟩
  · rintro ⟨hs, hm⟩
    obtain rfl := stateAt_keyed hs
    exact ⟨⟨hs, hm⟩, rfl⟩

/-- A replacement with a consistent list keeps snapshots and takes its scope at least to the position of the list. -/
theorem replaceScope_snapshots (hsn : Snapshots lg u cache) (hu : u (cacheScope request))
    (hi : ConsistentList lg request r ps)
    (h : cache.replaceScope request r ps = .ok ca') :
    Snapshots lg u ca' ∧ Advances cache ca' ∧ AtLeast ca' (cacheScope request) ps.eventId := by
  obtain ⟨filter, hfilter, -, hd, -, ⟨rfl, e, cu, he, hc, ho⟩ | ⟨hw, hf⟩⟩ :=
    replaceScope_cases h
  · -- the scope is past the list
    obtain ⟨-, filter, hs⟩ := hsn.at he hc
    refine ⟨hsn, fun _ _ => id, e, cu, he, hc, ?_⟩
    have hn := mt (permitsSuccessor_exact hs.exact hi.1).2 (by rw [ho]; decide)
    push Not at hn
    exact hn.1
  · have hse : ca'.scopes.find (cacheScope request) =
        some ⟨cacheScope request, ⟨some ps, listedMembers ps r⟩⟩ := by
      rw [hf, if_pos rfl]
    refine ⟨fun scope e he => ?_, fun scope eventId hlea => ?_, _, ps, hse, rfl, le_rfl⟩
    · rw [hf] at he
      split at he
      · rename_i hsc
        cases he
        exact ⟨hsc ▸ hu, filter, ps, snapshot_listed hi hfilter hd⟩
      · exact hsn scope e he
    · obtain ⟨e, cu, he, hc, hle⟩ := hlea
      by_cases hsc : cacheScope request = scope
      · subst hsc
        refine ⟨_, ps, hse, rfl, ?_⟩
        obtain ⟨-, _, hs⟩ := hsn.at he hc
        rcases (permitsSuccessor_exact hs.exact hi.1).1 (hw e cu he hc) with hlt | rfl
        · omega
        · exact hle
      · exact ⟨e, cu, by rw [hf, if_neg hsc, he], hc, hle⟩

end Steps

/-! ## Reading a stream -/

/-- A stream that has told its reader all since an event: they hold the selected objects, and these have not changed
between that event and the one it has read up to. -/
structure InStep (log : LeaderLog) (filter : ResourceFilter) (eventId : Int) (stream : Stream) : Prop where
  le : eventId ≤ stream.reached
  held : stream.held = selected filter.matchesResource (log.stateAt stream.reached)
  quiet : ∀ t, eventId ≤ t → t ≤ stream.reached → selected filter.matchesResource (log.stateAt t) = stream.held

structure Told (log : LeaderLog) (filter : ResourceFilter) (stream : Stream) (logged : LogEntry)
    (told : KeyChange ResourceKey Resource) (event : ResourceEvent) : Prop where
  next_eq : next LogEntry.eventId log.entries stream.reached = some logged
  told_eq : streamTold filter stream.held logged.change = some told
  eventType : event.eventType = eventTypeOf told.kind
  resource : event.resource = told.value
  position : event.resumePosition = some logged.position

section Read

variable {scope : CacheReadinessRequest} {event : ResourceEvent} {entry e : ScopeEntry} {l : LogEntry}
  {td : KeyChange ResourceKey Resource} {eventId : Int}

section

variable (h : InStep lg filter eventId stream)
  (hnext : next LogEntry.eventId lg.entries stream.reached = some l)
include h hnext

theorem InStep.held_before_next {t : Int} (hl : eventId ≤ t) (ht : t < l.eventId) :
    selected filter.matchesResource (lg.stateAt t) = stream.held := by
  by_cases hr : t ≤ stream.reached
  · exact h.quiet t hl hr
  · rw [stateAt_before_next hnext (by omega) ht, h.held]

theorem InStep.held_at_next : afterChanges stream.held (streamTold filter stream.held l.change).toList =
      selected filter.matchesResource (lg.stateAt l.eventId) := by
  rw [h.held, stateAt_next hnext]
  exact streamTold_mirrors (lg.keyed _ (next_mem hnext)) fun _ _ => stateAt_keyed

end

/-- The object of a told event belongs to the collection, and is selected unless the event is a deletion. -/
theorem Told.value (h : Told lg filter stream l td event) (hstr : InStep lg filter eventId stream) :
    event.resource.key = td.key ∧ filter.matchesIdentity event.resource ∧
      (if event.eventType ≠ .deleted ∧ filter.matchesResource event.resource = true then some event.resource
        else none) = td.outcome := by
  have ht := h.told_eq
  rw [hstr.held] at ht
  obtain ⟨he, hd, hk⟩ :=
    streamTold_value (lg.keyed _ (next_mem h.next_eq)) (fun _ _ => stateAt_keyed) ht
  rw [h.resource, h.eventType]
  refine ⟨he, hd, ?_⟩
  by_cases hi : td.kind = .deleted
  · rw [if_neg (by rw [hi]; exact fun ha => ha.1 rfl), KeyChange.outcome_of_deleted hi]
  · have had : eventTypeOf td.kind ≠ .deleted := by
      cases hc : td.kind with
      | added => decide
      | modified => decide
      | deleted => exact absurd hc hi
    rw [if_pos ⟨had, hk hi⟩, KeyChange.outcome_of_kept hi]

theorem updateEntry_of_other (hfilter : forCacheScope entry.scope = .ok filter)
    (hd : filter.matchesIdentity event.resource = false) : updateEntry event entry = entry := by
  have hn : applyToScope event entry = none := by
    simp [applyToScope, hfilter, hd]
  rw [updateEntry, hn]
  rfl

theorem updateEntry_of_snapshot (h : Snapshot lg entry filter ps)
    (hi : filter.matchesIdentity event.resource) {d : WatchReplayPosition}
    (hd : event.resumePosition = some d) (hx : d.validateExact = .ok ()) :
    updateEntry event entry = if ps.eventId < d.eventId then
        ⟨entry.scope, ⟨some d, applyToMembers filter entry.state.members event⟩⟩
      else entry := by
  have hs : isSuccessor entry.state event = decide (ps.eventId < d.eventId) := by
    unfold isSuccessor
    rw [h.position_eq, hd, Bool.eq_iff_iff]
    simp only [Bool.and_eq_true, decide_eq_true_iff, permitsSuccessor_exact h.exact hx]
    constructor
    · rintro ⟨hne, hlt | heq⟩
      · exact hlt
      · exact absurd heq hne
    · intro hlt
      refine ⟨?_, .inl hlt⟩
      rintro rfl
      omega
  unfold updateEntry applyToScope
  rw [h.filter_ok]
  dsimp only
  rw [hi, hs, Bool.true_and, hd]
  by_cases hlt : ps.eventId < d.eventId
  · rw [if_pos (decide_eq_true hlt), if_pos hlt]
    rfl
  · rw [if_neg (by simpa using hlt), if_neg hlt]
    rfl

/-- A told event leaves a snapshot of the scope of its stream a snapshot, at least as of the entry it tells of. -/
theorem Told.own (h : Told lg filter stream l td event) (hstr : InStep lg filter eventId stream)
    (hs : Snapshot lg e filter ps) (hl : eventId ≤ ps.eventId) :
    ∃ la, Snapshot lg (updateEntry event e) filter la ∧ ps.eventId ≤ la.eventId ∧ l.eventId ≤ la.eventId := by
  obtain ⟨hk, hi, ho⟩ := h.value hstr
  have he := lg.exact _ (next_mem h.next_eq)
  rw [updateEntry_of_snapshot hs hi h.position he]
  split
  · rename_i hlt
    refine ⟨l.position, ⟨hs.filter_ok, rfl, he, ?_⟩, hlt.le, le_rfl⟩
    show CachedScope.contents _ = selected filter.matchesResource (lg.stateAt l.eventId)
    rw [contents_applyToMembers, ho, hk, ← hstr.held_at_next h.next_eq, h.told_eq,
      hs.contents, hstr.held_before_next h.next_eq hl hlt]
    rfl
  · rename_i hn
    exact ⟨ps, hs, le_rfl, not_lt.1 hn⟩

variable (hsep : ∀ scope scope', u scope → u scope' → Overlaps scope scope' → scope = scope')

include hsep

section

variable (h : Told lg filter stream l td event) (hstr : InStep lg filter eventId stream)
  (hsn : Snapshots lg u cache) (hu : u scope) (hfilter : forCacheScope scope = .ok filter)
  (hlea : AtLeast cache scope eventId)
include h hstr hsn hu hfilter hlea

/-- A told event leaves every scope a snapshot, no position goes back, and that of the scope of its stream is at least
that of the entry. -/
theorem Told.updated {o : CacheReadinessRequest} (hn : cache.scopes.find o = some e) (hp : e.state.position = some ps) :
    u o ∧ ∃ f' la, Snapshot lg (updateEntry event e) f' la ∧
      ps.eventId ≤ la.eventId ∧ (o = scope → l.eventId ≤ la.eventId) := by
  obtain ⟨he, f', hs⟩ := hsn.at hn hp
  have ho := hs.filter_ok
  rw [Table.find_key hn] at ho
  refine ⟨he, f', ?_⟩
  rcases eq_or_ne o scope with rfl | hsc
  · cases hfilter.symm.trans ho
    obtain ⟨e', cu, he', hc, hle⟩ := hlea
    cases hn.symm.trans he'
    cases hp.symm.trans hc
    obtain ⟨la, hl, hg, hr⟩ := h.own hstr hs hle
    exact ⟨la, hl, hg, fun _ => hr⟩
  · -- the object of the event belongs to no other scope
    have hi : f'.matchesIdentity event.resource = false := by
      by_contra hm
      exact hsc (hsep _ _ he hu (overlaps_of_identity ho hfilter (by simpa using hm) (h.value hstr).2.1))
    rw [updateEntry_of_other hs.filter_ok hi]
    exact ⟨ps, hs, le_rfl, fun heq => absurd heq hsc⟩

/-- A told event keeps snapshots and takes the scope of its stream at least to the entry that was read. -/
theorem Told.snapshots : Snapshots lg u (cache.applyEvent event).1 ∧ Advances cache (cache.applyEvent event).1 ∧
      AtLeast (cache.applyEvent event).1 scope l.eventId := by
  have hc : event.eventType.isChange := by
    rw [h.eventType]
    cases td.kind <;> rfl
  have hf : ∀ o bef, cache.scopes.find o = some bef →
      (cache.applyEvent event).1.scopes.find o = some (updateEntry event bef) := by
    intro o bef hb
    rw [applyEvent_find hc, hb]
    rfl
  refine ⟨fun o e he => ?_, fun o t ha => ?_, ?_⟩
  · rw [applyEvent_find hc, Option.map_eq_some_iff] at he
    obtain ⟨bef, hb, rfl⟩ := he
    obtain ⟨-, _, st, hn⟩ := hsn o bef hb
    obtain ⟨ho, f', lat, hl, -⟩ :=
      h.updated hsep hstr hsn hu hfilter hlea hb hn.position_eq
    exact ⟨ho, f', lat, hl⟩
  · obtain ⟨bef, st, hb, hs, hle⟩ := ha
    obtain ⟨-, f', lat, hl, hg, -⟩ :=
      h.updated hsep hstr hsn hu hfilter hlea hb hs
    exact ⟨_, lat, hf o bef hb, hl.position_eq, hle.trans hg⟩
  · obtain ⟨bef, st, hb, hs, -⟩ := id hlea
    obtain ⟨-, f', lat, hl, -, hr⟩ :=
      h.updated hsep hstr hsn hu hfilter hlea hb hs
    exact ⟨_, lat, hf scope bef hb, hl.position_eq, hr rfl⟩

end

end Read

/-! ## Drivers -/

/-- The cursor of a driver: an exact position that its scope has reached. -/
structure CursorOk (cache : WatchCache) (request : ResourceListRequest) (cursor : WatchResumeCursor)
    (position : WatchReplayPosition) : Prop where
  position_eq : cursor.replayPosition = some position
  exact : position.validateExact = .ok ()
  reached : AtLeast cache (cacheScope request) position.eventId

def DriverOk (log : LeaderLog) (cache : WatchCache) (request : ResourceListRequest) : DriverPhase → Prop
  | .unprimed => True
  | .primed cursor => ∃ position, CursorOk cache request cursor position
  | .watching cursor stream => ∃ position filter, CursorOk cache request cursor position ∧
      ResourceFilter.forList request = .ok filter ∧ InStep log filter position.eventId stream

section Drivers

variable {phase : DriverPhase} {cs : WatchResumeCursor}

theorem DriverOk.advances (h : DriverOk lg cache request phase) (ha : Advances cache ca') :
    DriverOk lg ca' request phase := by
  cases phase with
  | unprimed => trivial
  | primed cs =>
    obtain ⟨ps, hc⟩ := h
    exact ⟨ps, hc.position_eq, hc.exact, ha _ _ hc.reached⟩
  | watching cs stream =>
    obtain ⟨ps, filter, hc, hfilter, hstr⟩ := h
    exact ⟨ps, filter, ⟨hc.position_eq, hc.exact, ha _ _ hc.reached⟩, hfilter, hstr⟩

theorem openStream_ok (hc : CursorOk cache request cs ps) : DriverOk lg cache request (openStream lg request cs) := by
  unfold openStream
  rw [hc.position_eq]
  cases hfilter : forList request with
  | error error => exact ⟨ps, hc⟩
  | ok filter =>
    refine ⟨ps, filter, hc, hfilter, le_rfl, rfl, fun t hg hle => ?_⟩
    rw [show t = ps.eventId from le_antisymm hle hg]

theorem advanceAfterApply_position {event : ResourceEvent} {c' : WatchResumeCursor}
    (h : cs.advanceAfterApply event = .ok c') : c'.replayPosition = event.resumePosition := by
  unfold WatchResumeCursor.advanceAfterApply at h
  dsimp only at h
  split at h
  · split at h
    · cases h
    · cases h
      simp_all
  · cases h
    rfl

variable (hsep : ∀ scope scope', u scope → u scope' → Overlaps scope scope' → scope = scope')

include hsep

theorem readStream_ok (hsn : Snapshots lg u cache) (hu : u (cacheScope request))
    (hd : DriverOk lg cache request (.watching cs stream)) :
    Snapshots lg u (readStream lg cache request cs stream).1 ∧
      Advances cache (readStream lg cache request cs stream).1 ∧
      DriverOk lg (readStream lg cache request cs stream).1 request (readStream lg cache request cs stream).2 := by
  obtain ⟨ps, filter, hc, hfilter, hstr⟩ := id hd
  unfold readStream
  rw [hfilter]
  cases hnext : next LogEntry.eventId lg.entries stream.reached with
  | none => exact ⟨hsn, fun _ _ => id, hd⟩
  | some l =>
    have hl : ps.eventId ≤ l.eventId := hstr.le.trans (lt_next hnext).le
    dsimp only
    cases ho : streamTold filter stream.held l.change with
    | none =>
      -- nothing the reader holds has changed
      have hh := hstr.held_at_next hnext
      rw [ho] at hh
      refine ⟨hsn, fun _ _ => id, ps, filter, hc, hfilter, hl, hh, fun t hg hle => ?_⟩
      by_cases hlt : t < l.eventId
      · exact hstr.held_before_next hnext hg hlt
      · rw [show t = l.eventId from le_antisymm hle (not_lt.1 hlt)]
        exact hh.symm
    | some td =>
      rw [tell]
      cases hev : ResourceEvent.tryNew (eventTypeOf td.kind) td.value (some l.position) with
      | error error => exact ⟨hsn, fun _ _ => id, ps, hc⟩
      | ok event =>
        dsimp only [Except.map]
        cases ha : cs.advanceAfterApply event with
        | error error => exact ⟨hsn, fun _ _ => id, ps, hc⟩
        | ok cu' =>
          obtain ⟨hy, hv, hpos⟩ := ResourceEvent.tryNew_ok hev
          have he : Told lg filter stream l td event := ⟨hnext, ho, hy, hv, hpos⟩
          obtain ⟨hs', had, hr⟩ :=
            he.snapshots hsep hstr hsn hu hfilter hc.reached
          refine ⟨hs', had, l.position, filter, ⟨?_, lg.exact _ (next_mem hnext), hr⟩,
            hfilter, le_rfl, ?_, fun t hg hle => ?_⟩
          · exact (advanceAfterApply_position ha).trans hpos
          · rw [← ho, hstr.held_at_next hnext]
          · have ht : t = l.eventId := le_antisymm hle hg
            rw [ht, ← hstr.held_at_next hnext, ho]

end Drivers

/-! ## Runs -/

def Action.Consistent (log : LeaderLog) (requests : List ResourceListRequest) : Action → Prop
  | .replace request resources position => ConsistentList log request resources position
  | .driver index (.prime resources position) =>
    ∀ request, requests[index]? = some request → ConsistentList log request resources position
  | _ => True

def Action.scope : Action → Option CacheReadinessRequest
  | .replace request _ _ => some (cacheScope request)
  | _ => none

namespace Informers

/-- Every scope is a snapshot, a ready scope is there, and no driver is ahead of its scope. -/
structure Inv (log : LeaderLog) (used : CacheReadinessRequest → Prop) (requests : List ResourceListRequest)
    (informers : Informers) : Prop where
  snapshots : Snapshots log used informers.cache
  ready : ∀ scope, informers.cache.readyScopes scope = true → ∃ entry, informers.cache.scopes.find scope = some entry
  requests : informers.drivers.map Driver.request = requests
  drivers : ∀ driver ∈ informers.drivers, DriverOk log informers.cache driver.request driver.phase

variable {requests : List ResourceListRequest} {i : Informers}

theorem start_inv : Inv lg u requests (start requests) := by
  refine ⟨fun scope e h => ?_, fun scope h => ?_, ?_, fun dr hd => ?_⟩
  · cases h
  · cases h
  · rw [start, map_map]
    exact map_id requests
  · obtain ⟨request, -, rfl⟩ := mem_map.1 hd
    trivial

theorem Inv.of_cache (h : Inv lg u requests i) (hsn : Snapshots lg u cache') (ha : Advances i.cache cache')
    (hr : ∀ scope, cache'.readyScopes scope → ∃ entry, cache'.scopes.find scope = some entry) :
    Inv lg u requests { i with cache := cache' } :=
  ⟨hsn, hr, h.requests, fun dr hd => (h.drivers dr hd).advances ha⟩

theorem Inv.ready_advances (h : Inv lg u requests i) (ha : Advances i.cache ca')
    (hr : ca'.readyScopes = i.cache.readyScopes) :
    ∀ scope, ca'.readyScopes scope → ∃ entry, ca'.scopes.find scope = some entry := by
  intro scope hc
  rw [hr] at hc
  obtain ⟨entry, he⟩ := h.ready scope hc
  obtain ⟨-, filter, ps, hs⟩ := h.snapshots scope entry he
  obtain ⟨e', -, he', -⟩ := ha scope _ ⟨entry, ps, he, hs.position_eq, le_rfl⟩
  exact ⟨e', he'⟩

theorem readStream_ready {cursor : WatchResumeCursor} :
    (readStream lg cache request cursor stream).1.readyScopes = cache.readyScopes := by
  unfold readStream
  split
  · dsimp only
    split
    · rfl
    · rfl
    · split
      · rfl
      · exact applyEvent_ready
  · rfl

theorem driverStep_ok (hsep : ∀ scope scope', u scope → u scope' → Overlaps scope scope' → scope = scope')
    {dr : Driver} {a : DriverAction} (hsn : Snapshots lg u cache)
    (hu : u (cacheScope dr.request)) (hd : DriverOk lg cache dr.request dr.phase)
    (hi : ∀ resources position, a = .prime resources position → ConsistentList lg dr.request resources position) :
    Snapshots lg u (driverStep lg cache dr a).1 ∧ Advances cache (driverStep lg cache dr a).1 ∧
      (driverStep lg cache dr a).1.readyScopes = cache.readyScopes ∧
      DriverOk lg (driverStep lg cache dr a).1 dr.request (driverStep lg cache dr a).2 := by
  obtain ⟨request, phase⟩ := dr
  have hs : Snapshots lg u cache ∧ Advances cache cache ∧ cache.readyScopes = cache.readyScopes ∧
      DriverOk lg cache request phase := ⟨hsn, fun _ _ => id, rfl, hd⟩
  cases a with
  | prime resources position =>
    have hc := hi resources position rfl
    rw [driverStep]
    cases hr : cache.replaceScope request resources position with
    | error error => exact hs
    | ok ca' =>
      obtain ⟨hs', ha, hh⟩ := replaceScope_snapshots hsn hu hc hr
      obtain ⟨-, -, -, -, hy, -⟩ := replaceScope_cases hr
      exact ⟨hs', ha, hy, position, rfl, hc.1, hh⟩
  | openStream =>
    cases phase with
    | primed cs =>
      obtain ⟨position, hcu⟩ := hd
      exact ⟨hsn, fun _ _ => id, rfl, openStream_ok hcu⟩
    | _ => exact hs
  | read =>
    cases phase with
    | watching cs stream =>
      obtain ⟨hs', ha, hd'⟩ := readStream_ok hsep hsn hu hd
      exact ⟨hs', ha, readStream_ready, hd'⟩
    | _ => exact hs
  | close =>
    cases phase with
    | watching cs stream =>
      obtain ⟨position, filter, hcu, -⟩ := hd
      exact ⟨hsn, fun _ _ => id, rfl, position, hcu⟩
    | _ => exact hs
  | expire => exact ⟨hsn, fun _ _ => id, rfl, trivial⟩

variable (hsep : ∀ scope scope', u scope → u scope' → Overlaps scope scope' → scope = scope')
  (hu : ∀ request ∈ requests, u (cacheScope request))

include hsep hu

theorem Inv.step (h : Inv lg u requests i) {act : Action}
    (hs : ∀ scope, act.scope = some scope → u scope) (hl : act.Consistent lg requests) :
    Inv lg u requests (i.step lg act) := by
  cases act with
  | replace request r position =>
    rw [Informers.step]
    cases he : i.cache.replaceScope request r position with
    | error error => exact h
    | ok ca' =>
      obtain ⟨hsn, ha, -⟩ := replaceScope_snapshots h.snapshots (hs _ rfl) hl he
      obtain ⟨-, -, -, -, hr, -⟩ := replaceScope_cases he
      exact h.of_cache hsn ha (h.ready_advances ha hr)
  | markReady scope =>
    rw [Informers.step]
    cases hm : i.cache.markReady scope with
    | error error => exact h
    | ok ca' =>
      obtain ⟨-, hm⟩ | ⟨hf, hm⟩ := ite_ok_cases hm
      · cases hm
      · cases hm
        refine h.of_cache h.snapshots (fun _ _ => id) fun scope' hr => ?_
        by_cases heq : scope' = scope
        · rw [heq]
          exact Option.ne_none_iff_exists'.1 fun hn => hf (by rw [hn]; rfl)
        · have hb : Function.update i.cache.readyScopes scope true scope' := hr
          rw [update_of_ne heq] at hb
          exact h.ready scope' hb
  | clearReady scope =>
    refine h.of_cache h.snapshots (fun _ _ => id) fun scope' hr => h.ready scope' ?_
    have ht : Function.update i.cache.readyScopes scope false scope' := hr
    by_cases heq : scope' = scope
    · rw [heq, update_self] at ht
      cases ht
    · rwa [update_of_ne heq] at ht
  | insert rs => exact h.of_cache h.snapshots (fun _ _ => id) h.ready
  | driver ix act =>
    rw [Informers.step]
    cases hf : i.drivers[ix]? with
    | none => exact h
    | some driver =>
      have hme := mem_of_getElem? hf
      have hq : requests[ix]? = some driver.request := by
        rw [← h.requests, getElem?_map, hf]
        rfl
      have hp : ∀ r position, act = .prime r position →
          ConsistentList lg driver.request r position := by
        rintro r position rfl
        exact hl _ hq
      obtain ⟨hsn, ha, hr, hd⟩ := driverStep_ok hsep h.snapshots (hu _ (mem_of_getElem? hq)) (h.drivers driver hme) hp
      refine ⟨hsn, h.ready_advances ha hr, ?_, fun dr' hd' => ?_⟩
      · rw [map_set, h.requests]
        obtain ⟨hi, hse⟩ := List.getElem?_eq_some_iff.1 hq
        rw [← hse]
        exact set_getElem_self hi
      · rcases mem_or_eq_of_mem_set hd' with ho | rfl
        · exact (h.drivers dr' ho).advances ha
        · exact hd

theorem Inv.run (h : Inv lg u requests i) {a : List Action} (hc : ∀ ac ∈ a, ∀ scope, ac.scope = some scope → u scope)
    (hi : ∀ ac ∈ a, ac.Consistent lg requests) :
    Inv lg u requests (a.foldl (Informers.step lg) i) := by
  induction a generalizing i with
  | nil => exact h
  | cons ac tl ih =>
    refine ih (h.step hsep hu (hc ac mem_cons_self) (hi ac mem_cons_self)) ?_ ?_
    · exact fun ac' hm => hc ac' (mem_cons_of_mem _ hm)
    · exact fun ac' hm => hi ac' (mem_cons_of_mem _ hm)

end Informers

/-! ## Ready scopes -/

def scopesInUse (requests : List ResourceListRequest) (actions : List Action) : List CacheReadinessRequest :=
  requests.map cacheScope ++ actions.filterMap Action.scope

/-- **A ready scope lists its objects as of its position**, if different scopes have no objects in common. -/
theorem ready_scope_snapshot (log : LeaderLog) (requests : List ResourceListRequest) (actions : List Action)
    (hseparate : ∀ scope ∈ scopesInUse requests actions, ∀ scope' ∈ scopesInUse requests actions,
      Overlaps scope scope' → scope = scope')
    (hlist : ∀ action ∈ actions, action.Consistent log requests) (request : ResourceListRequest)
    (hready : (actions.foldl (Informers.step log) (.start requests)).cache.isReady (cacheScope request) = true) :
    ∃ filter position items, ResourceFilter.forList request = .ok filter ∧
      (actions.foldl (Informers.step log) (.start requests)).cache.list request =
        .ok ⟨items, position.resourceVersion, some position⟩ ∧
      (items.map Resource.key).Nodup ∧
      ∀ resource, resource ∈ items ↔ log.stateAt position.eventId resource.key = some resource ∧
        filter.matchesResource resource = true := by
  have hv : Informers.Inv log (· ∈ scopesInUse requests actions) requests
      (actions.foldl (Informers.step log) (.start requests)) := by
    refine Informers.Inv.run (fun scope scope' h h' => hseparate scope h scope' h') ?_ Informers.start_inv ?_ hlist
    · exact fun request hm => mem_append_left _ (mem_map_of_mem hm)
    · exact fun action hm scope hc => mem_append_right _ (mem_filterMap.2 ⟨action, hm, hc⟩)
  obtain ⟨entry, he⟩ := hv.ready _ hready
  obtain ⟨-, filter, position, hs⟩ := hv.snapshots _ _ he
  have hfilter : forList request = .ok filter := by
    rw [forList, ← Table.find_key he]
    exact hs.filter_ok
  obtain ⟨items, hi, hn, hm⟩ := list_ok hfilter hready he hs.position_eq (validate_of_exact hs.exact)
  refine ⟨filter, position, items, hfilter, hi, hn, fun resource => ?_⟩
  rw [hm, hs.contents, selected, Option.filter_eq_some_iff]
  exact ⟨fun h => h.1, fun h => ⟨h, h.2⟩⟩

/-! ## Scopes with objects in common -/

def podsRequest : ResourceListRequest := ⟨"v1", "Pod", .namespace "default", none, none, by decide⟩

def webPodsRequest : ResourceListRequest := ⟨"v1", "Pod", .namespace "default", some "app=web", none, by decide⟩

def podAdded (eventId : Int) (name app : String) : LogEntry :=
  ⟨⟨eventId, eventId, 0⟩, ⟨.added, (labelledPod name app eventId).key, labelledPod name app eventId⟩⟩

/-- Three pods are added, the second of which is no web pod. -/
def podsLog : LeaderLog where
  initial := fun _ => none
  entries := [podAdded 1 "a" "web", podAdded 2 "b" "db", podAdded 3 "c" "web"]
  increasing := by decide
  exact := by decide
  keyed := by decide
  initial_keyed := fun _ _ h => by cases h

/-- A driver lists its scope when there is one pod, and opens a stream. -/
def primedAtFirst (index : Nat) (request : ResourceListRequest) : List Action :=
  [.driver index (.prime [labelledPod "a" "web" 1] ⟨1, 1, 0⟩), .markReady (cacheScope request),
    .driver index .openStream]

def readsRest (index : Nat) : List Action := [.driver index .read, .driver index .read]

theorem primedAtFirst_consistent
    (hfilter : ∀ filter, forList request = .ok filter → filter.matchesResource (labelledPod "a" "web" 1)) :
    ConsistentList podsLog request [labelledPod "a" "web" 1] ⟨1, 1, 0⟩ := by
  refine ⟨by decide, fun filter ho rs => ?_⟩
  have hs : podsLog.stateAt 1 =
      Function.update (fun _ => none) (labelledPod "a" "web" 1).key (some (labelledPod "a" "web" 1)) := rfl
  rw [hs, mem_singleton]
  constructor
  · rintro rfl
    exact ⟨update_self _ _ _, hfilter filter ho⟩
  · rintro ⟨hf, -⟩
    by_cases hk : rs.key = (labelledPod "a" "web" 1).key
    · rw [hk, update_self] at hf
      exact (Option.some.inj hf).symm
    · rw [update_of_ne hk] at hf
      cases hf

theorem pods_consistent : ConsistentList podsLog podsRequest [labelledPod "a" "web" 1] ⟨1, 1, 0⟩ := by
  refine primedAtFirst_consistent fun filter hfilter => ?_
  cases hfilter
  decide +kernel

theorem webPods_consistent : ConsistentList podsLog webPodsRequest [labelledPod "a" "web" 1] ⟨1, 1, 0⟩ := by
  refine primedAtFirst_consistent fun filter hfilter => ?_
  cases hfilter
  decide +kernel

theorem forall_primedAtFirst {ix : Nat} {requests : List ResourceListRequest} (hr : requests[ix]? = some request)
    (hi : ConsistentList podsLog request [labelledPod "a" "web" 1] ⟨1, 1, 0⟩) :
    ∀ ac ∈ primedAtFirst ix request, ac.Consistent podsLog requests := by
  refine forall_mem_cons.2 ⟨fun req' hr' => ?_, forall_mem_cons.2 ⟨trivial, ?_⟩⟩
  · rw [hr] at hr'
    cases hr'
    exact hi
  · exact forall_mem_singleton.2 trivial

theorem forall_readsRest {ix : Nat} {requests : List ResourceListRequest} :
    ∀ a ∈ readsRest ix, a.Consistent podsLog requests :=
  forall_mem_cons.2 ⟨trivial, forall_mem_singleton.2 trivial⟩

/-- With one driver its scope lists all pods as of its position. -/
theorem ready_scope_snapshot_pods : ∃ filter position items, ResourceFilter.forList podsRequest = .ok filter ∧
      ((primedAtFirst 0 podsRequest ++ readsRest 0).foldl (Informers.step podsLog) (.start [podsRequest])).cache.list
        podsRequest = .ok ⟨items, position.resourceVersion, some position⟩ ∧
      (items.map Resource.key).Nodup ∧
      ∀ resource, resource ∈ items ↔ podsLog.stateAt position.eventId resource.key = some resource ∧
        filter.matchesResource resource = true :=
  ready_scope_snapshot podsLog [podsRequest] (primedAtFirst 0 podsRequest ++ readsRest 0) (by decide)
    (forall_mem_append.2 ⟨forall_primedAtFirst rfl pods_consistent, forall_readsRest⟩) podsRequest
    (by decide +kernel)

/-- The drivers of all pods and of the web pods start together; the second one reads ahead. -/
def narrowAhead : List Action :=
  (primedAtFirst 0 podsRequest ++ primedAtFirst 1 webPodsRequest) ++ (readsRest 1 ++ readsRest 0)

/-- The stream of the web pods takes the scope of all pods past the second pod, which its own stream tells of in vain.
-/
theorem narrow_stream_skips : (∀ action ∈ narrowAhead, action.Consistent podsLog [podsRequest, webPodsRequest]) ∧
      (narrowAhead.foldl (Informers.step podsLog) (.start [podsRequest, webPodsRequest])).cache.list podsRequest =
        .ok ⟨[labelledPod "a" "web" 1, labelledPod "c" "web" 3], 3, some ⟨3, 3, 0⟩⟩ ∧
      podsLog.stateAt 3 (labelledPod "b" "db" 2).key = some (labelledPod "b" "db" 2) := by
  refine ⟨?_, by decide +kernel, rfl⟩
  refine forall_mem_append.2 ⟨forall_mem_append.2 ⟨?_, ?_⟩, forall_mem_append.2 ⟨?_, ?_⟩⟩
  · exact forall_primedAtFirst rfl pods_consistent
  · exact forall_primedAtFirst rfl webPods_consistent
  · exact forall_readsRest
  · exact forall_readsRest

end Klights.Watch
