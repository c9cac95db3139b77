import Klights.Store.HistoricalList
import Klights.Watch.Events

/-!
# The informer cache

`WatchCache` (klights-watch/src/cache.rs): the objects a worker knows, and the scopes it has primed. A scope is primed
with a LIST result and its position (`replaceScope`); an event of any stream is applied to every scope whose identity
its object has (`applyEvent`); a ready scope answers lists (`list`).

- `replaceScope_cases`: a replacement is ignored or replaces its scope;
- `applyEvent_find`: what an event leaves of a scope (`applyToScope`);
- `list_ok`: the answer of a ready scope, in terms of its members and position.
-/

namespace Klights.Watch

open Lib Replay Selector List Table ResourceFilter Function

/-! ## Scopes -/

/-- A scope: a collection with the texts of its selectors. -/
structure CacheReadinessRequest where
  apiVersion : String
  kind : String
  ns : Option String
  labelSelector : Option String
  fieldSelector : Option String
  deriving DecidableEq

inductive WatchCacheError where
  | invalidSelector (message : String)
  /-- The invalid selector whose message is that of the field selector parser. -/
  | invalidFieldSelector (reason : FieldSelectorParseError)
  | corruptState (message : String)
  | notReady (message : String)
  deriving DecidableEq

def ResourceListScope.ns : ResourceListScope → Option String
  | .namespace ns => some ns
  | .cluster | .allNamespaces => none

/-- A LIST request, with the checks that it passed when it was made. What selects a page of a list (limit, continuation,
version match) is not here: only a complete live list reaches the cache. -/
structure ResourceListRequest where
  apiVersion : String
  kind : String
  scope : ResourceListScope
  labelSelector : Option String
  fieldSelector : Option String
  identity : validateWatchIdentity apiVersion kind scope.ns = .ok ()

/-- The scope of a request; its identity was checked, so `cache_scope` does not fail. -/
def cacheScope (request : ResourceListRequest) : CacheReadinessRequest :=
  ⟨request.apiVersion, request.kind, request.scope.ns, request.labelSelector, request.fieldSelector⟩

namespace ResourceFilter

def forCacheScope (request : CacheReadinessRequest) : Except WatchCacheError ResourceFilter := do
  let labelSelector ← (parseLabel request.labelSelector).mapError .invalidSelector
  let fieldSelector ← (parseField request.fieldSelector).mapError .invalidFieldSelector
  .ok ⟨request.apiVersion, request.kind, request.ns, labelSelector, fieldSelector⟩

def forList (request : ResourceListRequest) : Except WatchCacheError ResourceFilter :=
  forCacheScope (cacheScope request)

end ResourceFilter

/-! ## The state -/

structure CachedResource where
  resource : Resource
  position : Option WatchReplayPosition

def CachedResource.key (cached : CachedResource) : ResourceKey := cached.resource.key

structure CachedScope where
  position : Option WatchReplayPosition
  members : Table CachedResource.key

structure ScopeEntry where
  scope : CacheReadinessRequest
  state : CachedScope

structure WatchCache where
  resources : Table CachedResource.key
  tombstones : ResourceKey → Option WatchReplayPosition
  scopes : Table ScopeEntry.scope
  pinnedResources : ResourceKey → Bool
  readyScopes : CacheReadinessRequest → Bool

structure ResourceListResult where
  items : List Resource
  resourceVersion : Int
  watchReplayPosition : Option WatchReplayPosition
  deriving DecidableEq

def ResourceListResult.tryNew (items : List Resource) (resourceVersion : Int)
    (watchReplayPosition : Option WatchReplayPosition) : Except String ResourceListResult :=
  if resourceVersion < 0 then .error "LIST resourceVersion is negative"
  else if watchReplayPosition.any fun position =>
      position.validate ≠ .ok () ∨ position.resourceVersion ≠ resourceVersion then
    .error "LIST replay position is invalid or does not match its public resourceVersion"
  else .ok ⟨items, resourceVersion, watchReplayPosition⟩

namespace WatchCache

def empty : WatchCache := ⟨.empty, fun _ => none, .empty, fun _ => false, fun _ => false⟩

def get (cache : WatchCache) (key : ResourceKey) : Option Resource :=
  (cache.resources.find key).map CachedResource.resource

/-- The order of the items: by namespace, no namespace first, then by name. -/
def inListOrder (left right : Resource) : Prop :=
  (⟨left.key.ns, left.key.name⟩ : Store.ResourceCollectionKey).rank ≤
    (⟨right.key.ns, right.key.name⟩ : Store.ResourceCollectionKey).rank

instance : DecidableRel inListOrder := fun _ _ => inferInstanceAs (Decidable (_ ≤ _))

def list (cache : WatchCache) (request : ResourceListRequest) : Except WatchCacheError ResourceListResult := do
  let filter ← forList request
  let scope := cacheScope request
  if !cache.readyScopes scope then
    .error (.notReady ("watch cache scope " ++ scope.apiVersion ++ "/" ++ scope.kind ++ " " ++
      debugNamespace scope.ns ++ " is not ready"))
  else
    let scopeState := (cache.scopes.find scope).map ScopeEntry.state
    let items := match scopeState with
      | some state => (state.members.rows.map CachedResource.resource).filter filter.matchesResource
      | none => []
    let position := scopeState.bind CachedScope.position
    (ResourceListResult.tryNew (items.insertionSort inListOrder)
      (position.elim 0 WatchReplayPosition.resourceVersion) position).mapError .corruptState

/-! ## Priming a scope -/

/-- A cached object is retained while it is pinned or a member of some scope. -/
def isRetained (cache : WatchCache) (key : ResourceKey) : Bool :=
  cache.pinnedResources key || cache.scopes.rows.any fun entry => (entry.state.members.find key).isSome

/-- The entry of the object map for one listed object, unless a newer tombstone or body is known. -/
def cacheListed (position : WatchReplayPosition) (cache : WatchCache) (resource : Resource) : WatchCache :=
  let keepNewerTombstone := (cache.tombstones resource.key).any fun tombstone =>
    tombstone = position || !tombstone.permitsSuccessor position
  let keepNewerResource := (cache.resources.find resource.key).any fun cached =>
    cached.position.any fun current => !current.permitsSuccessor position
  if keepNewerTombstone || keepNewerResource then cache
  else { cache with
    tombstones := update cache.tombstones resource.key none
    resources := cache.resources.put ⟨resource, some position⟩ }

/-- Drop an object that no scope holds any more. -/
def dropUnretained (cache : WatchCache) (key : ResourceKey) : WatchCache :=
  if cache.isRetained key then cache
  else { cache with resources := cache.resources.deleteWhere fun cached => cached.key = key }

def checkReplacement (filter : ResourceFilter) (resources : List Resource) (position : WatchReplayPosition) :
    Except WatchCacheError Unit := do
  position.validate.mapError .corruptState
  if resources.any fun resource => !filter.matchesResource resource then
    .error (.corruptState "cache replacement contains a resource outside its LIST scope")
  else if resources.any fun resource => resource.resourceVersion > position.resourceVersion then
    .error (.corruptState "cache replacement contains a body newer than its snapshot position")
  else if ¬(resources.map Resource.key).Nodup then
    .error (.corruptState "cache replacement contains duplicate resource identities")
  else .ok ()

def listedMembers (position : WatchReplayPosition) (resources : List Resource) : Table CachedResource.key :=
  (resources.map fun resource => (⟨resource, some position⟩ : CachedResource)).foldl Table.put .empty

def replaceScope (cache : WatchCache) (request : ResourceListRequest) (resources : List Resource)
    (position : WatchReplayPosition) : Except WatchCacheError WatchCache := do
  let filter ← forList request
  let scope := cacheScope request
  checkReplacement filter resources position
  let current := (cache.scopes.find scope).map ScopeEntry.state
  -- a list that is older than the scope is ignored
  if (current.bind CachedScope.position).any fun current => !current.permitsSuccessor position then .ok cache
  else
    let priorMembers := current.elim [] fun state => state.members.rows.map CachedResource.key
    let listed := resources.foldl (cacheListed position) cache
    let replaced := { listed with
      scopes := listed.scopes.put ⟨scope, ⟨some position, listedMembers position resources⟩⟩ }
    .ok (priorMembers.foldl dropUnretained replaced)

def insert (cache : WatchCache) (resource : Resource) : WatchCache :=
  { cache with
    pinnedResources := update cache.pinnedResources resource.key true
    resources := cache.resources.put ⟨resource, none⟩ }

/-! ## Applying an event -/

def isSuccessor (state : CachedScope) (event : ResourceEvent) : Bool :=
  match state.position, event.resumePosition with
  | some current, some delivered => delivered ≠ current && current.permitsSuccessor delivered
  | none, some _ => true
  | _, none => (state.members.find event.resource.key).all fun current =>
      event.resource.resourceVersion ≥ current.resource.resourceVersion

def applyToMembers (filter : ResourceFilter) (members : Table CachedResource.key) (event : ResourceEvent) :
    Table CachedResource.key :=
  if event.eventType ≠ .deleted ∧ filter.matchesResource event.resource then
    members.put ⟨event.resource, event.resumePosition⟩
  else members.deleteWhere fun cached => cached.key = event.resource.key

/-- One scope in the loop of `apply_event`; `none` if the event is not applied to it. -/
def applyToScope (event : ResourceEvent) (entry : ScopeEntry) : Option CachedScope :=
  match forCacheScope entry.scope with
  | .error _ => none
  | .ok filter =>
    if filter.matchesIdentity event.resource && isSuccessor entry.state event then
      some ⟨event.resumePosition.or entry.state.position, applyToMembers filter entry.state.members event⟩
    else none

def updateEntry (event : ResourceEvent) (entry : ScopeEntry) : ScopeEntry :=
  ⟨entry.scope, (applyToScope event entry).getD entry.state⟩

theorem updateEntry_scope (ev : ResourceEvent) (e : ScopeEntry) : (updateEntry ev e).scope = e.scope :=
  rfl

/-- Whether an event comes after what the object map knows of its object. -/
def isGlobalSuccessor (cache : WatchCache) (event : ResourceEvent) : Bool :=
  let key := event.resource.key
  match event.resumePosition with
  | some delivered => ((cache.tombstones key).all fun tombstone =>
      delivered ≠ tombstone && tombstone.permitsSuccessor delivered) &&
    (cache.resources.find key).all fun current => current.position.all fun position =>
      delivered ≠ position && position.permitsSuccessor delivered
  | none => (cache.resources.find key).all fun current =>
      event.resource.resourceVersion ≥ current.resource.resourceVersion

/-- The object map after a deletion that comes after what it knows. -/
def forget (cache : WatchCache) (event : ResourceEvent) : WatchCache :=
  let key := event.resource.key
  let unpinned := { cache with
    pinnedResources := update cache.pinnedResources key false
    tombstones := event.resumePosition.elim cache.tombstones fun position =>
      update cache.tombstones key (some position) }
  unpinned.dropUnretained key

/-- The object map after an addition or modification that comes after what it knows. -/
def remember (cache : WatchCache) (event : ResourceEvent) : WatchCache :=
  { cache with
    tombstones := update cache.tombstones event.resource.key none
    resources := cache.resources.put ⟨event.resource, event.resumePosition⟩ }

def applyEvent (cache : WatchCache) (event : ResourceEvent) : WatchCache × Option Resource :=
  if !event.eventType.isChange then (cache, none)
  else
    let appliedToScope := cache.scopes.rows.any fun entry => (applyToScope event entry).isSome
    let applied := { cache with
      scopes := cache.scopes.updateWhere (fun _ => true) (updateEntry event) (updateEntry_scope event) }
    let globalSuccessor := applied.isGlobalSuccessor event
    if !globalSuccessor && !appliedToScope then (applied, none)
    else if !globalSuccessor then (applied, some event.resource)
    else if event.eventType = .deleted then (applied.forget event, some event.resource)
    else (applied.remember event, some event.resource)

/-! ## Readiness -/

def markReady (cache : WatchCache) (scope : CacheReadinessRequest) : Except WatchCacheError WatchCache :=
  if (cache.scopes.find scope).isNone then
    .error (.notReady "watch cache scope cannot become ready before a baseline replacement")
  else .ok { cache with readyScopes := update cache.readyScopes scope true }

def clearReady (cache : WatchCache) (scope : CacheReadinessRequest) : WatchCache :=
  { cache with readyScopes := update cache.readyScopes scope false }

def isReady (cache : WatchCache) (scope : CacheReadinessRequest) : Bool := cache.readyScopes scope

end WatchCache

/-! ## What a scope holds -/

def CachedScope.contents (state : CachedScope) : ResourceKey → Option Resource :=
  fun key => (state.members.find key).map CachedResource.resource

variable {key : ResourceKey} {resource rs : Resource} {filter : ResourceFilter}

theorem CachedScope.contents_eq_some {st : CachedScope} :
    st.contents key = some rs ↔ rs ∈ st.members.rows.map CachedResource.resource ∧ rs.key = key := by
  rw [contents, Option.map_eq_some_iff, mem_map]
  constructor
  · rintro ⟨cac, hfi, rfl⟩
    obtain ⟨hm, hk⟩ := find_eq_some_iff.1 hfi
    exact ⟨⟨cac, hm, rfl⟩, hk⟩
  · rintro ⟨⟨cac, hm, rfl⟩, hk⟩
    exact ⟨cac, find_eq_some_iff.2 ⟨hm, hk⟩, rfl⟩

namespace WatchCache

variable {cache ca ca' : WatchCache} {ev : ResourceEvent} {rq : ResourceListRequest}
  {r : List Resource} {position ps : WatchReplayPosition}

theorem contents_applyToMembers (filter : ResourceFilter) (st : CachedScope) (position : Option WatchReplayPosition) :
    (CachedScope.mk position (applyToMembers filter st.members ev)).contents = update st.contents ev.resource.key
        (if ev.eventType ≠ .deleted ∧ filter.matchesResource ev.resource = true then some ev.resource
          else none) := by
  funext key
  unfold CachedScope.contents applyToMembers
  rcases eq_or_ne key ev.resource.key with rfl | hkey
  · rw [update_self]
    split
    · exact congrArg (Option.map CachedResource.resource) (find_put_self st.members _)
    · rw [find_deleteWhere_key, if_pos rfl]
      rfl
  · rw [update_of_ne hkey]
    split
    · exact congrArg (Option.map CachedResource.resource) (find_put_ne fun h => hkey h.symm)
    · rw [find_deleteWhere_key, if_neg fun h => hkey h.symm]

theorem contents_listed (hd : (r.map Resource.key).Nodup) {s : Option WatchReplayPosition} :
    (CachedScope.mk s (listedMembers ps r)).contents key = some rs ↔ rs ∈ r ∧ rs.key = key := by
  have hks : ((r.map fun rs => (⟨rs, some ps⟩ : CachedResource)).map CachedResource.key).Nodup := by
    rwa [map_map]
  rw [CachedScope.contents_eq_some, mem_map]
  constructor
  · rintro ⟨⟨cac, hm, rfl⟩, hk⟩
    rcases (mem_foldl_put hks).1 hm with hm | ⟨hm, -⟩
    · obtain ⟨li, hl, rfl⟩ := mem_map.1 hm
      exact ⟨hl, hk⟩
    · cases hm
  · rintro ⟨hm, hk⟩
    exact ⟨⟨⟨rs, some ps⟩, (mem_foldl_put hks).2 (.inl (mem_map_of_mem hm)), rfl⟩, hk⟩

theorem applyEvent_find (hh : ev.eventType.isChange) (sc : CacheReadinessRequest) :
    (ca.applyEvent ev).1.scopes.find sc = (ca.scopes.find sc).map (updateEntry ev) := by
  have hs : (ca.applyEvent ev).1.scopes =
      ca.scopes.updateWhere (fun _ => true) (updateEntry ev) (updateEntry_scope ev) := by
    unfold applyEvent
    rw [if_neg (by simp [hh])]
    dsimp only
    split
    · rfl
    · split
      · rfl
      · split
        · unfold forget dropUnretained
          dsimp only
          split <;> rfl
        · rfl
  rw [hs, find_updateWhere]
  rfl

theorem applyEvent_ready : (ca.applyEvent ev).1.readyScopes = ca.readyScopes := by
  unfold applyEvent
  split
  · rfl
  · dsimp only
    split
    · rfl
    · split
      · rfl
      · split
        · unfold forget dropUnretained
          dsimp only
          split <;> rfl
        · rfl

/-! ## Priming and listing -/

theorem foldl_scopes {α : Type} {step : WatchCache → α → WatchCache}
    (h : ∀ cache x, (step cache x).scopes = cache.scopes ∧ (step cache x).readyScopes = cache.readyScopes)
    (l : List α) (cache : WatchCache) :
    (l.foldl step cache).scopes = cache.scopes ∧ (l.foldl step cache).readyScopes = cache.readyScopes := by
  induction l generalizing cache with
  | nil => exact ⟨rfl, rfl⟩
  | cons x tl ih =>
    obtain ⟨hs, hr⟩ := ih (step cache x)
    exact ⟨hs.trans (h cache x).1, hr.trans (h cache x).2⟩

theorem foldl_cacheListed (cache : WatchCache) : (r.foldl (cacheListed ps) cache).scopes = cache.scopes ∧
      (r.foldl (cacheListed ps) cache).readyScopes = cache.readyScopes := by
  refine foldl_scopes (fun cache rs => ?_) r cache
  unfold cacheListed
  dsimp only
  split <;> exact ⟨rfl, rfl⟩

theorem foldl_dropUnretained (ks : List ResourceKey) (cache : WatchCache) :
    (ks.foldl dropUnretained cache).scopes = cache.scopes ∧
      (ks.foldl dropUnretained cache).readyScopes = cache.readyScopes := by
  refine foldl_scopes (fun cache key => ?_) ks cache
  unfold dropUnretained
  split <;> exact ⟨rfl, rfl⟩

theorem checkReplacement_ok (h : checkReplacement filter r ps = .ok ()) :
    ps.validate = .ok () ∧ (∀ resource ∈ r, filter.matchesResource resource) ∧ (r.map Resource.key).Nodup := by
  obtain ⟨_, hv, h⟩ := bind_eq_ok.1 h
  obtain ⟨-, h⟩ | ⟨hm, h⟩ := ite_ok_cases h
  · cases h
  obtain ⟨-, h⟩ | ⟨-, h⟩ := ite_ok_cases h
  · cases h
  obtain ⟨-, h⟩ | ⟨hnd, -⟩ := ite_ok_cases h
  · cases h
  exact ⟨mapError_eq_ok.1 hv, by simpa using hm, not_not.1 hnd⟩

theorem replaceScope_cases (h : ca.replaceScope rq r ps = .ok ca') :
    ∃ filter, forList rq = .ok filter ∧ ps.validate = .ok () ∧
      (r.map Resource.key).Nodup ∧ ca'.readyScopes = ca.readyScopes ∧
      ((ca' = ca ∧ ∃ e c, ca.scopes.find (cacheScope rq) = some e ∧
          e.state.position = some c ∧ c.permitsSuccessor ps = false) ∨
        ((∀ e c, ca.scopes.find (cacheScope rq) = some e → e.state.position = some c → c.permitsSuccessor ps) ∧
          ∀ sc, ca'.scopes.find sc = if cacheScope rq = sc then
            some ⟨cacheScope rq, ⟨some ps, listedMembers ps r⟩⟩
            else ca.scopes.find sc)) := by
  obtain ⟨filter, hf, h⟩ := bind_eq_ok.1 h
  obtain ⟨_, hck, h⟩ := bind_eq_ok.1 h
  obtain ⟨hv, -, hnd⟩ := checkReplacement_ok hck
  refine ⟨filter, hf, hv, hnd, ?_⟩
  obtain ⟨ho, h⟩ | ⟨hn, h⟩ := ite_ok_cases h
  · cases h
    refine ⟨rfl, .inl ⟨rfl, ?_⟩⟩
    cases he : ca.scopes.find (cacheScope rq) with
    | none => simp [he] at ho
    | some e =>
      cases hpos : e.state.position with
      | none => simp [he, hpos] at ho
      | some c => exact ⟨e, c, rfl, hpos, by simpa [he, hpos] using ho⟩
  · cases h
    obtain ⟨hr, hd⟩ := foldl_dropUnretained
      (((ca.scopes.find (cacheScope rq)).map ScopeEntry.state).elim [] fun state =>
        state.members.rows.map CachedResource.key)
      { r.foldl (cacheListed ps) ca with
        scopes := (r.foldl (cacheListed ps) ca).scopes.put ⟨cacheScope rq, ⟨some ps, listedMembers ps r⟩⟩ }
    obtain ⟨hs, hy⟩ := @foldl_cacheListed r ps ca
    refine ⟨hd.trans hy, .inr ⟨?_, fun sc => ?_⟩⟩
    · intro e c he hpos
      simpa [he, hpos] using hn
    · rw [hr, hs, find_put]

theorem list_ok {e : ScopeEntry} (hf : forList rq = .ok filter)
    (hr : ca.readyScopes (cacheScope rq)) (hi : ca.scopes.find (cacheScope rq) = some e)
    (hs : e.state.position = some ps) (hv : ps.validate = .ok ()) :
    ∃ it, ca.list rq = .ok ⟨it, ps.resourceVersion, some ps⟩ ∧ (it.map Resource.key).Nodup ∧ ∀ resource, resource ∈ it ↔
        e.state.contents resource.key = some resource ∧ filter.matchesResource resource := by
  refine ⟨((e.state.members.rows.map CachedResource.resource).filter filter.matchesResource).insertionSort
    inListOrder, ?_, ?_, fun resource => ?_⟩
  · have hnn := (WatchReplayPosition.validate_ok_iff.1 hv).1
    rw [list, hf]
    show (if !ca.readyScopes (cacheScope rq) then _ else _) = _
    rw [hr, hi]
    show Except.mapError _ (ResourceListResult.tryNew _ (e.state.position.elim 0 _) e.state.position) = _
    rw [hs, ResourceListResult.tryNew, if_neg (by simpa using hnn), if_neg (by simp [hv])]
    rfl
  · have hpm := perm_insertionSort inListOrder
      ((e.state.members.rows.map CachedResource.resource).filter filter.matchesResource)
    refine ((hpm.map Resource.key).nodup_iff).2 ?_
    refine List.Nodup.sublist (filter_sublist.map Resource.key) ?_
    rw [map_map]
    exact e.state.members.nodup
  · rw [mem_insertionSort, mem_filter, CachedScope.contents_eq_some]
    exact ⟨fun h => ⟨⟨h.1, rfl⟩, h.2⟩, fun h => ⟨h.1.1, h.2⟩⟩

end WatchCache

end Klights.Watch
