import Klights.Selector.Parse

/-!
# Watch requests, watch events and the filter of a scope

The transport-neutral watch boundary (`klights-leader-api/src/lib.rs`) and the filter that server sessions and the
informer cache apply (`klights-watch/src/filter.rs`). A `WatchRequest` and a `ResourceEvent` are only built by their
checked constructors, so each carries what the constructor checked.

- `WatchRequest.tryNewWithScope`, `ResourceEvent.tryNew`, `ResourceEvent.validateFor`;
- `ResourceFilter`: identity, labels and fields of the objects of a scope;
- `InScope`: an object that belongs to the collection a request watches (`InScope.validateFor`,
  `InScope.validateEventScope`: its events pass the checks of a session).
-/

namespace Klights.Watch

open Lib Replay Selector Store

variable {event ev : ResourceEvent} {f : ResourceFilter}

/-! ## Errors -/

inductive LeaderWatchError where
  | invalidRequest (field message : String)
  /-- The invalid request for `watch.field_selector`, with the parser's reason for its message. -/
  | invalidFieldSelector (reason : FieldSelectorParseError)
  | malformedEvent (message : String)
  | mismatchedEvent (message : String)
  | unknownEventType (eventType : String)
  | outOfOrderEvent (currentEventId deliveredEventId : Int)
  deriving DecidableEq

/-- The `Debug` text of a namespace; a namespace has no character that is escaped. -/
def debugNamespace : Option String → String
  | none => "None"
  | some ns => "Some(\"" ++ ns ++ "\")"

/-! ## Requests -/

inductive ResourceListScope where
  | cluster
  | allNamespaces
  | namespace (ns : String)
  deriving DecidableEq

def validateWatchIdentity (apiVersion kind : String) (ns : Option String) : Except LeaderWatchError Unit :=
  if apiVersion = "" then .error (.invalidRequest "watch.api_version" "must not be empty")
  else if kind = "" then .error (.invalidRequest "watch.kind" "must not be empty")
  else if ns = some "" then .error (.invalidRequest "watch.namespace" "must not be empty")
  else .ok ()

def validateWatchScope (ns : Option String) : ResourceListScope → Except LeaderWatchError Unit
  | .namespace expected =>
    match ns with
    | none => .error (.invalidRequest "watch.scope" "namespace scope requires watch.namespace")
    | some actual =>
      if expected = actual then .ok ()
      else .error (.invalidRequest "watch.scope" "namespace scope must equal watch.namespace")
  | .cluster | .allNamespaces =>
    match ns with
    | none => .ok ()
    | some _ =>
      .error (.invalidRequest "watch.scope" "cluster and all-namespaces scopes must not carry watch.namespace")

structure WatchRequest where
  apiVersion : String
  kind : String
  ns : Option String
  scope : ResourceListScope
  labelSelector : Option String
  fieldSelector : Option String
  startResourceVersion : Option Int
  startWatchReplayPosition : Option WatchReplayPosition
  identity : validateWatchIdentity apiVersion kind ns = .ok ()
  inScope : validateWatchScope ns scope = .ok ()

variable (selector : Option String)

/-- A selector that is not blank. -/
def normalized : Option String := selector.filter fun selector => !isBlank selector

/-! ## Events -/

inductive WatchEventType where
  | added
  | modified
  | deleted
  | bookmark
  | error
  deriving DecidableEq

def WatchEventType.isChange : WatchEventType → Bool
  | .added | .modified | .deleted => true
  | .bookmark | .error => false

def checkResumePosition : Option WatchReplayPosition → Except LeaderWatchError Unit
  | none => .ok ()
  | some position => position.validate.mapError fun message => .malformedEvent
      ("watch event resume position is invalid: invalid watch.start_watch_replay_position: " ++ message)

def checkEvent (eventType : WatchEventType) (resource : Resource) (resumePosition : Option WatchReplayPosition) :
    Except LeaderWatchError Unit :=
  if resource.key.apiVersion = "" ∨ resource.key.kind = "" then
    .error (.malformedEvent "watch event is missing apiVersion or kind")
  else if eventType.isChange ∧ resource.key.name = "" then
    .error (.malformedEvent "resource watch event is missing metadata.name")
  else if resource.resourceVersion < 0 then .error (.malformedEvent "watch event has a negative resourceVersion")
  else checkResumePosition resumePosition

@[ext]
structure ResourceEvent where
  eventType : WatchEventType
  resource : Resource
  resumePosition : Option WatchReplayPosition
  checked : checkEvent eventType resource resumePosition = .ok ()
  deriving DecidableEq

variable {et : WatchEventType} {resumePosition re : Option WatchReplayPosition}

namespace ResourceEvent

def tryNew (eventType : WatchEventType) (resource : Resource) (resumePosition : Option WatchReplayPosition) :
    Except LeaderWatchError ResourceEvent :=
  match h : checkEvent eventType resource resumePosition with
  | .error error => .error error
  | .ok () => .ok ⟨eventType, resource, resumePosition, h⟩

def tryFromWireType (eventType : String) (resource : Resource) (resumePosition : Option WatchReplayPosition) :
    Except LeaderWatchError ResourceEvent :=
  match eventType with
  | "ADDED" => tryNew .added resource resumePosition
  | "MODIFIED" => tryNew .modified resource resumePosition
  | "DELETED" => tryNew .deleted resource resumePosition
  | "BOOKMARK" => tryNew .bookmark resource resumePosition
  | "ERROR" => tryNew .error resource resumePosition
  | unknown => .error (.unknownEventType unknown)

def validateFor (event : ResourceEvent) (request : WatchRequest) : Except LeaderWatchError Unit :=
  let key := event.resource.key
  if event.eventType = .error then .ok ()
  else if key.apiVersion ≠ request.apiVersion ∨ key.kind ≠ request.kind ∨
      (event.eventType.isChange ∧ request.ns.any fun ns => key.ns ≠ some ns) then
    .error (.mismatchedEvent ("watch event " ++ key.apiVersion ++ "/" ++ key.kind ++ " " ++ debugNamespace key.ns ++
      " does not match request " ++ request.apiVersion ++ "/" ++ request.kind ++ " " ++ debugNamespace request.ns))
  else .ok ()

theorem tryNew_ok {resource : Resource} (h : tryNew et resource resumePosition = .ok ev) :
    ev.eventType = et ∧ ev.resource = resource ∧ ev.resumePosition = resumePosition := by
  unfold tryNew at h
  split at h
  · cases h
  · cases h
    exact ⟨rfl, rfl, rfl⟩

theorem tryNew_eq {resource : Resource} (h : checkEvent et resource re = .ok ()) :
    tryNew et resource re = .ok ⟨et, resource, re, h⟩ := by
  unfold tryNew
  split
  · rename_i er he
    rw [h] at he
    cases he
  · rfl

theorem tryNew_self (event : ResourceEvent) :
    tryNew event.eventType event.resource event.resumePosition = .ok event := tryNew_eq event.checked

theorem position_checked (event : ResourceEvent) : checkResumePosition event.resumePosition = .ok () := by
  have h := event.checked
  unfold checkEvent at h
  split at h
  · cases h
  · split at h
    · cases h
    · split at h
      · cases h
      · exact h

end ResourceEvent

/-! ## Filters -/

/-- The `matches` of identity and selectors (`ResourceFilter`, klights-watch/src/filter.rs). -/
structure ResourceFilter where
  apiVersion : String
  kind : String
  ns : Option String
  labelSelector : Option (List LabelRequirement)
  fieldSelector : Option FieldSelector
  deriving DecidableEq

def parseLabel : Except String (Option (List LabelRequirement)) :=
  match normalized selector with
  | none => .ok none
  | some selector => (parseLabelSelector selector).map some

def parseField : Except FieldSelectorParseError (Option FieldSelector) :=
  match normalized selector with
  | none => .ok none
  | some selector => (FieldSelector.parse selector).map some

namespace ResourceFilter

def forWatch (request : WatchRequest) : Except LeaderWatchError ResourceFilter := do
  let labelSelector ← (parseLabel request.labelSelector).mapError (.invalidRequest "watch.label_selector")
  let fieldSelector ← (parseField request.fieldSelector).mapError .invalidFieldSelector
  .ok ⟨request.apiVersion, request.kind, request.ns, labelSelector, fieldSelector⟩

def hasSelector (filter : ResourceFilter) : Bool := filter.labelSelector.isSome || filter.fieldSelector.isSome

def matchesIdentity (filter : ResourceFilter) (resource : Resource) : Bool :=
  resource.key.apiVersion = filter.apiVersion && resource.key.kind = filter.kind &&
    filter.ns.all fun expected => resource.key.ns = some expected

def matchesResource (filter : ResourceFilter) (resource : Resource) : Bool :=
  filter.matchesIdentity resource &&
    filter.labelSelector.all (fun selector => matchesLabelRequirements resource.data selector) &&
    filter.fieldSelector.all fun selector =>
      selector.matchesResourceWithIdentity resource.key.apiVersion resource.key.kind resource.data

theorem forWatch_ok {request : WatchRequest} (h : forWatch request = .ok f) :
    f.apiVersion = request.apiVersion ∧ f.kind = request.kind ∧ f.ns = request.ns := by
  obtain ⟨la, -, h⟩ := bind_eq_ok.1 h
  obtain ⟨fi, -, h⟩ := bind_eq_ok.1 h
  cases h
  exact ⟨rfl, rfl, rfl⟩

theorem matchesResource_of_no_selector (h : f.hasSelector = false) (resource : Resource) :
    f.matchesResource resource = f.matchesIdentity resource := by
  obtain ⟨hl, hf⟩ := (Bool.or_eq_false_iff).1 h
  rw [Option.isSome_eq_false_iff, Option.isNone_iff_eq_none] at hl hf
  simp [matchesResource, hl, hf]

end ResourceFilter

/-! ## The collection a request watches -/

def ResourceListScope.durable : ResourceListScope → DurableWatchScope
  | .cluster => .cluster
  | .allNamespaces => .namespaced none
  | .namespace ns => .namespaced (some ns)

def resourceMatchesScope (resource : Resource) (scope : DurableWatchScope) : Bool := scope.includes resource.key.ns

def debugScope : DurableWatchScope → String
  | .cluster => "Cluster"
  | .namespaced ns => "Namespaced(" ++ debugNamespace ns ++ ")"

def validateEventScope (event : ResourceEvent) (scope : DurableWatchScope) : Except LeaderWatchError Unit :=
  if !event.eventType.isChange then .ok ()
  else if resourceMatchesScope event.resource scope then .ok ()
  else .error (.mismatchedEvent ("watch event namespace " ++ debugNamespace event.resource.key.ns ++
    " does not match target scope " ++ debugScope scope))

structure InScope (request : WatchRequest) (resource : Resource) : Prop where
  apiVersion : resource.key.apiVersion = request.apiVersion
  kind : resource.key.kind = request.kind
  scope : resourceMatchesScope resource request.scope.durable = true
  name : resource.key.name ≠ ""
  resourceVersion : 0 ≤ resource.resourceVersion

instance (request : WatchRequest) (resource : Resource) : Decidable (InScope request resource) :=
  decidable_of_iff (_ ∧ _ ∧ _ ∧ _ ∧ _) ⟨fun h => ⟨h.1, h.2.1, h.2.2.1, h.2.2.2.1, h.2.2.2.2⟩,
    fun h => ⟨h.apiVersion, h.kind, h.scope, h.name, h.resourceVersion⟩⟩

namespace InScope

variable {r : WatchRequest} {resource res : Resource}

theorem ns_eq (h : InScope r res) {ns : String} (hs : r.ns = some ns) : res.key.ns = some ns := by
  have hv := r.inScope
  have hsc := h.scope
  rw [hs] at hv
  cases hc : r.scope with
  | cluster => rw [hc] at hv; cases hv
  | allNamespaces => rw [hc] at hv; cases hv
  | «namespace» expected =>
    rw [hc] at hv hsc
    obtain ⟨rfl, -⟩ | ⟨-, hv⟩ := ite_ok_cases hv
    · exact of_decide_eq_true hsc
    · cases hv

theorem checkEvent (h : InScope r res) (et : WatchEventType) {p : Option WatchReplayPosition}
    (hs : checkResumePosition p = .ok ()) : checkEvent et res p = .ok () := by
  have hi := r.identity
  have hk : ¬(res.key.apiVersion = "" ∨ res.key.kind = "") := by
    rintro (hemp | hemp)
    · rw [validateWatchIdentity, if_pos (h.apiVersion ▸ hemp)] at hi
      cases hi
    · obtain ⟨-, hi⟩ | ⟨-, hi⟩ := ite_ok_cases hi
      · cases hi
      · rw [if_pos (h.kind ▸ hemp)] at hi
        cases hi
  rwa [Watch.checkEvent, if_neg hk, if_neg fun hn => h.name hn.2, if_neg (by have := h.resourceVersion; omega)]

theorem validateFor (h : InScope r ev.resource) : ev.validateFor r = .ok () := by
  unfold ResourceEvent.validateFor
  split
  · rfl
  · rw [if_neg]
    rintro (hne | hne | ⟨-, hne⟩)
    · exact hne h.apiVersion
    · exact hne h.kind
    · cases hn : r.ns with
      | none => simp [hn] at hne
      | some ns => simp [hn, h.ns_eq hn] at hne

theorem validateEventScope (h : InScope r ev.resource) : validateEventScope ev r.scope.durable = .ok () := by
  unfold Watch.validateEventScope
  split
  · rfl
  · rw [if_pos h.scope]

theorem matchesIdentity (h : InScope r resource) (hf : ResourceFilter.forWatch r = .ok f) :
    f.matchesIdentity resource := by
  obtain ⟨ha, hk, hn⟩ := ResourceFilter.forWatch_ok hf
  have hl : (f.ns.all fun ex => resource.key.ns = some ex) := by
    rw [hn]
    cases hr : r.ns with
    | none => rfl
    | some ns => simpa using h.ns_eq hr
  simp [ResourceFilter.matchesIdentity, h.apiVersion, h.kind, ha, hk, hl]

end InScope

end Klights.Watch
