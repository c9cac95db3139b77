import Klights.Lib.Timeline
import Klights.Watch.Cache
import Klights.Watch.Transitions

/-!
# The informers of a worker

The watch drivers of a worker (`run_watch_driver`, klights-leader-rpc/src/client/watch.rs) and its other list calls
share one cache. A driver primes its scope with a LIST result, opens a stream from the position of the list, and feeds
what the stream tells it to `applyEvent`; the stream reads the log of the leader and projects it by the selectors of the
driver.

- `LeaderLog.stateAt`: the objects as of an event;
- `streamTold`: what a stream tells of a change, which keeps its reader in step (`streamTold_mirrors`);
- `Informers.step`: one step of the cache's users, in any order.
-/

namespace Klights.Watch

open Lib Lib.Mirror Replay Selector ResourceFilter KeyChange Option

/-! ## The log of the leader -/

structure LogEntry where
  position : WatchReplayPosition
  change : KeyChange ResourceKey Resource

def LogEntry.eventId (entry : LogEntry) : Int := entry.position.eventId

/-- The changes that the leader has committed since `initial`. -/
structure LeaderLog where
  initial : ResourceKey → Option Resource
  entries : List LogEntry
  increasing : entries.Pairwise fun earlier later => earlier.eventId < later.eventId
  exact : ∀ entry ∈ entries, entry.position.validateExact = .ok ()
  keyed : ∀ entry ∈ entries, entry.change.key = entry.change.value.key
  initial_keyed : ∀ key resource, initial key = some resource → resource.key = key

namespace LeaderLog

variable (log : LeaderLog)

def stateAt (eventId : Int) : ResourceKey → Option Resource :=
  afterChanges log.initial ((upTo LogEntry.eventId log.entries eventId).map LogEntry.change)

variable {log} {e : LogEntry} {t u : Int}

theorem stateAt_next (h : next LogEntry.eventId log.entries t = some e) :
    log.stateAt e.eventId = afterChanges (log.stateAt t) [e.change] := by
  rw [stateAt, upTo_next log.increasing h, List.map_append, afterChanges, replay_append]
  rfl

theorem stateAt_before_next (h : next LogEntry.eventId log.entries t = some e) (ht : t ≤ u)
    (hu : u < e.eventId) : log.stateAt u = log.stateAt t := by
  rw [stateAt, upTo_before_next log.increasing h ht hu, stateAt]

theorem stateAt_keyed {ed : Int} {key : ResourceKey} {resource : Resource}
    (h : log.stateAt ed key = some resource) : resource.key = key := by
  have hke : ∀ (en : List LogEntry) (st : ResourceKey → Option Resource),
      (∀ e ∈ en, e.change.key = e.change.value.key) →
      (∀ key resource, st key = some resource → resource.key = key) →
      ∀ key resource, afterChanges st (en.map LogEntry.change) key = some resource → resource.key = key := by
    intro en
    induction en with
    | nil => exact fun st _ hs => hs
    | cons e tl ih =>
      intro st hn hs
      refine ih _ (fun e' h => hn e' (List.mem_cons_of_mem _ h)) ?_
      intro key resource hr
      have hu : Function.update st e.change.key e.change.outcome key = some resource := hr
      by_cases hy : key = e.change.key
      · rw [hy, Function.update_self] at hu
        by_cases hk : e.change.kind = .deleted
        · rw [outcome_of_deleted hk] at hu
          cases hu
        · rw [outcome_of_kept hk] at hu
          cases hu
          rw [hy, hn e List.mem_cons_self]
      · rw [Function.update_of_ne hy] at hu
        exact hs key resource hu
  refine hke _ _ (fun e he => log.keyed e ?_) log.initial_keyed key resource h
  exact (List.mem_filter.1 he).1

end LeaderLog

/-! ## Streams -/

/-- What a stream tells of a change: with selectors the transitions of its membership, without them every change of
the collection. -/
def streamTold (filter : ResourceFilter) (held : ResourceKey → Option Resource)
    (change : KeyChange ResourceKey Resource) : Option (KeyChange ResourceKey Resource) :=
  if filter.hasSelector then relay filter.matchesResource held change
  else if filter.matchesIdentity change.value then some change
  else none

section StreamTold

variable {f : ResourceFilter} {st : ResourceKey → Option Resource} {resource resource' : Resource}
  {c told : KeyChange ResourceKey Resource}

theorem ResourceFilter.matchesIdentity_congr (h : resource.key = resource'.key) :
    f.matchesIdentity resource = f.matchesIdentity resource' := by
  unfold matchesIdentity
  rw [h]

theorem ResourceFilter.identity_of_matches (h : f.matchesResource resource) :
    f.matchesIdentity resource := by
  unfold matchesResource at h
  rw [Bool.and_eq_true, Bool.and_eq_true] at h
  exact h.1.1

theorem streamTold_key {hd : ResourceKey → Option Resource} (h : streamTold f hd c = some told) : told.key = c.key := by
  unfold streamTold at h
  split at h
  · exact relay_key h
  · split at h
    · cases h
      rfl
    · cases h

variable (hy : c.key = c.value.key) (hke : ∀ key resource, st key = some resource → resource.key = key)

include hy hke

theorem streamTold_mirrors : afterChanges (selected f.matchesResource st)
        (streamTold f (selected f.matchesResource st) c).toList =
      selected f.matchesResource (afterChanges st [c]) := by
  refine replay_told (fun told ht => streamTold_key ht) ?_
  unfold streamTold
  cases hs : f.hasSelector with
  | true => exact relay_outcome
  | false =>
    have he := matchesResource_of_no_selector hs
    cases hi : f.matchesIdentity c.value with
    | true =>
      show c.outcome = c.outcome.filter f.matchesResource
      by_cases hk : c.kind = .deleted
      · rw [outcome_of_deleted hk]
        rfl
      · rw [outcome_of_kept hk, filter_some, if_pos (by rw [he, hi])]
    | false =>
      -- neither the old nor the new object of the key belongs to the collection
      have ho : ∀ resource : Resource, resource.key = c.key → f.matchesResource resource = false := by
        intro resource hr
        rw [he, matchesIdentity_congr (hr.trans hy), hi]
      have hn : c.outcome.filter f.matchesResource = none := by
        by_cases hk : c.kind = .deleted
        · rw [outcome_of_deleted hk]
          rfl
        · rw [outcome_of_kept hk, filter_some, if_neg (by rw [ho _ hy.symm]; decide)]
      have hl : selected f.matchesResource st c.key = none := by
        rw [selected, filter_eq_none_iff]
        intro resource hr
        rw [ho resource (hke _ _ hr)]
        decide
      rwa [hn]

/-- An object that a stream tells of belongs to its collection, and unless it is deleted it is selected. -/
theorem streamTold_value (h : streamTold f (selected f.matchesResource st) c = some told) :
    told.value.key = told.key ∧ f.matchesIdentity told.value ∧
      (told.kind ≠ .deleted → f.matchesResource told.value) := by
  have hh : ∀ {prior}, selected f.matchesResource st c.key = some prior →
      prior.key = c.key ∧ f.matchesIdentity prior := by
    intro prior hr
    obtain ⟨ht, hm⟩ := filter_eq_some_iff.1 hr
    exact ⟨hke _ _ ht, identity_of_matches hm⟩
  unfold streamTold at h
  split at h
  · by_cases hi : c.kind = .deleted
    · rw [relay_deleted hi] at h
      split at h
      · rename_i ho
        cases h
        refine ⟨hy.symm, ?_, fun hk => absurd hi hk⟩
        rcases (Bool.or_eq_true _ _).mp ho with hr | hm
        · obtain ⟨prior, hr⟩ := isSome_iff_exists.1 hr
          obtain ⟨hp, hd⟩ := hh hr
          rw [matchesIdentity_congr (hy.symm.trans hp.symm), hd]
        · exact identity_of_matches hm
      · cases h
    · cases hr : selected f.matchesResource st c.key with
      | some prior =>
        rw [relay_held hi hr] at h
        split at h
        · rename_i hm
          cases h
          exact ⟨hy.symm, identity_of_matches hm, fun _ => hm⟩
        · cases h
          exact ⟨(hh hr).1, (hh hr).2, fun hk => absurd rfl hk⟩
      | none =>
        rw [relay_absent hi hr] at h
        split at h
        · rename_i hm
          cases h
          exact ⟨hy.symm, identity_of_matches hm, fun _ => hm⟩
        · cases h
  · rename_i hs
    split at h
    · rename_i hd
      cases h
      refine ⟨hy.symm, hd, fun _ => ?_⟩
      rw [matchesResource_of_no_selector (by simpa using hs), hd]
    · cases h

end StreamTold

/-- An open stream: the event it has read up to, and the objects that its reader holds if they apply all it told. -/
structure Stream where
  reached : Int
  held : ResourceKey → Option Resource

structure WatchResumeCursor where
  resourceVersion : Option Int
  replayPosition : Option WatchReplayPosition

def WatchResumeCursor.advanceAfterApply (cursor : WatchResumeCursor) (event : ResourceEvent) :
    Except LeaderWatchError WatchResumeCursor :=
  let advanced : WatchResumeCursor :=
    ⟨if event.resource.resourceVersion > 0 then
        some (max (cursor.resourceVersion.getD 0) event.resource.resourceVersion)
      else cursor.resourceVersion,
      event.resumePosition⟩
  match cursor.replayPosition, event.resumePosition with
  | some current, some delivered =>
    if !current.permitsSuccessor delivered then .error (.outOfOrderEvent current.eventId delivered.eventId)
    else .ok advanced
  | _, _ => .ok advanced

/-! ## Drivers -/

inductive DriverPhase where
  /-- Before the first list, and after its position has expired. -/
  | unprimed
  /-- Without a stream. -/
  | primed (cursor : WatchResumeCursor)
  | watching (cursor : WatchResumeCursor) (stream : Stream)

structure Driver where
  request : ResourceListRequest
  phase : DriverPhase

inductive DriverAction where
  /-- Lists the scope and replaces it. -/
  | prime (resources : List Resource) (position : WatchReplayPosition)
  | openStream
  /-- The stream reads one entry of the log, and the driver applies what it is told. -/
  | read
  /-- The stream ends: an error, the idle timeout, a closed connection. -/
  | close
  /-- The server has no history from the cursor on. -/
  | expire

def readStream (log : LeaderLog) (cache : WatchCache) (request : ResourceListRequest) (cursor : WatchResumeCursor)
    (stream : Stream) : WatchCache × DriverPhase :=
  match next LogEntry.eventId log.entries stream.reached, ResourceFilter.forList request with
  | some entry, .ok filter =>
    let told := streamTold filter stream.held entry.change
    let stream : Stream := ⟨entry.eventId, afterChanges stream.held told.toList⟩
    match tell (some entry.position) told with
    | .error _ => (cache, .primed cursor)
    | .ok none => (cache, .watching cursor stream)
    | .ok (some event) =>
      match cursor.advanceAfterApply event with
      | .error _ => (cache, .primed cursor)
      | .ok cursor => ((cache.applyEvent event).1, .watching cursor stream)
  | _, _ => (cache, .watching cursor stream)

/-- The filter of a stream reads the same texts as that of the scope. -/
def openStream (log : LeaderLog) (request : ResourceListRequest) (cursor : WatchResumeCursor) : DriverPhase :=
  match cursor.replayPosition, ResourceFilter.forList request with
  | some position, .ok filter =>
    .watching cursor ⟨position.eventId, selected filter.matchesResource (log.stateAt position.eventId)⟩
  | _, _ => .primed cursor

def driverStep (log : LeaderLog) (cache : WatchCache) (driver : Driver) : DriverAction → WatchCache × DriverPhase
  | .prime resources position =>
    match cache.replaceScope driver.request resources position with
    | .error _ => (cache, driver.phase)
    | .ok cache => (cache, .primed ⟨some position.resourceVersion, some position⟩)
  | .openStream =>
    match driver.phase with
    | .primed cursor => (cache, openStream log driver.request cursor)
    | phase => (cache, phase)
  | .read =>
    match driver.phase with
    | .watching cursor stream => readStream log cache driver.request cursor stream
    | phase => (cache, phase)
  | .close =>
    match driver.phase with
    | .watching cursor _ => (cache, .primed cursor)
    | phase => (cache, phase)
  | .expire => (cache, .unprimed)

/-! ## The worker -/

structure Informers where
  cache : WatchCache
  drivers : List Driver

inductive Action where
  /-- A list call of the worker that replaces its scope. -/
  | replace (request : ResourceListRequest) (resources : List Resource) (position : WatchReplayPosition)
  /-- Of a list call or a driver, some time after it replaced the scope. -/
  | markReady (scope : CacheReadinessRequest)
  | clearReady (scope : CacheReadinessRequest)
  | insert (resource : Resource)
  | driver (index : Nat) (action : DriverAction)

namespace Informers

def start (requests : List ResourceListRequest) : Informers :=
  ⟨.empty, requests.map fun request => ⟨request, .unprimed⟩⟩

def step (log : LeaderLog) (informers : Informers) : Action → Informers
  | .replace request resources position =>
    match informers.cache.replaceScope request resources position with
    | .error _ => informers
    | .ok cache => { informers with cache }
  | .markReady scope =>
    match informers.cache.markReady scope with
    | .error _ => informers
    | .ok cache => { informers with cache }
  | .clearReady scope => { informers with cache := informers.cache.clearReady scope }
  | .insert resource => { informers with cache := informers.cache.insert resource }
  | .driver index action =>
    match informers.drivers[index]? with
    | none => informers
    | some driver =>
      let (cache, phase) := driverStep log informers.cache driver action
      ⟨cache, informers.drivers.set index { driver with phase }⟩

end Informers

end Klights.Watch
