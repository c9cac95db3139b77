import Klights.Lib.Mirror
import Klights.Watch.Events

/-!
# Membership of a selector watch

A watch with selectors turns the raw events of a collection into events of the selected objects. The server session
(`SelectorMembership`, klights-watch/src/session.rs) and the reflectors of workers
(`SelectorWatchTransitionProjector`, klights-watch/src/remote_cache.rs) each keep the selected objects, under keys and
with filters of their own.

- `prepareTransition_eq`: a transition is `relay`, with the told change made an event at the position of the raw one
  (`SelectorMembership.transition_eq`, `SelectorWatchTransitionProjector.transition_eq`);
- `SelectorWatchFilter.tryNew_eq`: the two filters of a request are the same.
-/

namespace Klights.Watch

open Lib Lib.Mirror Replay Selector ResourceEvent Function

/-! ## A transition -/

inductive SelectorMutation (κ : Type) where
  | none
  | upsert (key : κ) (resource : Resource)
  | remove (key : κ)

/-- The event of a transition, and what is committed once it was delivered. -/
structure PendingTransition (κ : Type) where
  event : Option ResourceEvent
  mutation : SelectorMutation κ

/-- The transition of one raw event. The two sources have this text word for word, each with its own `key`. -/
def prepareTransition {κ : Type} (key : Resource → κ) (membership : κ → Option Resource) (event : ResourceEvent)
    (isMatch : Bool) : Except LeaderWatchError (PendingTransition κ) :=
  let prior := membership (key event.resource)
  match event.eventType with
  | .bookmark | .error => .ok ⟨some event, .none⟩
  | .deleted =>
    .ok ⟨if prior.isSome || isMatch then some event else none,
      if prior.isSome then .remove (key event.resource) else .none⟩
  | .added | .modified =>
    if isMatch then (if prior.isSome || event.eventType = .added then .ok event
        else ResourceEvent.tryNew .added event.resource event.resumePosition).map fun told =>
          ⟨some told, .upsert (key event.resource) event.resource⟩
    else
      match prior with
      | some prior => (ResourceEvent.tryNew .deleted prior event.resumePosition).map fun told =>
          ⟨some told, .remove (key event.resource)⟩
      | none => .ok ⟨none, .none⟩

def commitMutation {κ : Type} [DecidableEq κ] (membership : κ → Option Resource) :
    SelectorMutation κ → κ → Option Resource
  | .none => membership
  | .upsert key resource => update membership key (some resource)
  | .remove key => update membership key none

def membershipOf {κ : Type} [DecidableEq κ] (key : Resource → κ) (resources : List Resource) : κ → Option Resource :=
  resources.foldl (fun membership resource => update membership (key resource) (some resource)) fun _ => none

/-! ## The server -/

structure SelectorKey where
  ns : Option String
  name : String
  deriving DecidableEq

def SelectorKey.fromResource (resource : Resource) : SelectorKey := ⟨resource.key.ns, resource.key.name⟩

structure SelectorMembership where
  matched : SelectorKey → Option Resource

namespace SelectorMembership

def empty : SelectorMembership := ⟨fun _ => none⟩

def replace (resources : List Resource) : SelectorMembership := ⟨membershipOf SelectorKey.fromResource resources⟩

variable (membership : SelectorMembership)

def prepare (event : ResourceEvent) (isMatch : Bool) : Except LeaderWatchError (PendingTransition SelectorKey) :=
  prepareTransition SelectorKey.fromResource membership.matched event isMatch

def commit (mutation : SelectorMutation SelectorKey) : SelectorMembership :=
  ⟨commitMutation membership.matched mutation⟩

def transition (event : ResourceEvent) (isMatch : Bool) :
    Except LeaderWatchError (Option ResourceEvent × SelectorMembership) := do
  let pending ← membership.prepare event isMatch
  .ok (pending.event, membership.commit pending.mutation)

end SelectorMembership

/-! ## The reflectors -/

def transpose {ε α : Type} : Option (Except ε α) → Except ε (Option α)
  | none => .ok none
  | some result => result.map some

/-- The filter of a reflector: the same data as a `ResourceFilter`, built and applied by code of its own. -/
structure SelectorWatchFilter where
  apiVersion : String
  kind : String
  ns : Option String
  labelSelector : Option (List LabelRequirement)
  fieldSelector : Option FieldSelector

namespace SelectorWatchFilter

def tryNew (request : WatchRequest) : Except LeaderWatchError SelectorWatchFilter := do
  let labelSelector ← (transpose ((request.labelSelector.filter fun selector => !isBlank selector).map
    parseLabelSelector)).mapError (.invalidRequest "watch.label_selector")
  let fieldSelector ← (transpose ((request.fieldSelector.filter fun selector => !isBlank selector).map
    FieldSelector.parse)).mapError .invalidFieldSelector
  .ok ⟨request.apiVersion, request.kind, request.ns, labelSelector, fieldSelector⟩

def matchesResource (filter : SelectorWatchFilter) (resource : Resource) : Bool :=
  resource.key.apiVersion = filter.apiVersion && resource.key.kind = filter.kind &&
    (filter.ns.all fun expected => resource.key.ns = some expected) &&
    filter.labelSelector.all (fun selector => matchesLabelRequirements resource.data selector) &&
    filter.fieldSelector.all fun selector =>
      selector.matchesResourceWithIdentity resource.key.apiVersion resource.key.kind resource.data

end SelectorWatchFilter

structure SelectorWatchTransitionProjector where
  filter : SelectorWatchFilter
  membership : ResourceKey → Option Resource

namespace SelectorWatchTransitionProjector

def tryNew (request : WatchRequest) : Except LeaderWatchError SelectorWatchTransitionProjector :=
  (SelectorWatchFilter.tryNew request).map fun filter => ⟨filter, fun _ => none⟩

variable (projector : SelectorWatchTransitionProjector)

def replace (resources : List Resource) : SelectorWatchTransitionProjector :=
  { projector with membership := membershipOf Resource.key resources }

def prepare (event : ResourceEvent) : Except LeaderWatchError (PendingTransition ResourceKey) :=
  prepareTransition Resource.key projector.membership event (projector.filter.matchesResource event.resource)

/-- The source erases the type of the token and checks it here again. -/
def commit (token : SelectorMutation ResourceKey) : SelectorWatchTransitionProjector :=
  { projector with membership := commitMutation projector.membership token }

/-- The consumer applies the event of a prepared transition, then commits it. -/
def transition (event : ResourceEvent) :
    Except LeaderWatchError (Option ResourceEvent × SelectorWatchTransitionProjector) := do
  let prepared ← projector.prepare event
  .ok (prepared.event, projector.commit prepared.mutation)

end SelectorWatchTransitionProjector

/-! ## Events as changes -/

def WatchEventType.changeKind : WatchEventType → Option ChangeKind
  | .added => some .added
  | .modified => some .modified
  | .deleted => some .deleted
  | .bookmark | .error => none

def eventTypeOf : ChangeKind → WatchEventType
  | .added => .added
  | .modified => .modified
  | .deleted => .deleted

def ResourceEvent.change {κ : Type} (key : Resource → κ) (event : ResourceEvent) : Option (KeyChange κ Resource) :=
  event.eventType.changeKind.map fun kind => ⟨kind, key event.resource, event.resource⟩

def tell {κ : Type} (position : Option WatchReplayPosition) :
    Option (KeyChange κ Resource) → Except LeaderWatchError (Option ResourceEvent)
  | none => .ok none
  | some change => (ResourceEvent.tryNew (eventTypeOf change.kind) change.value position).map some

def relayed {κ : Type} [DecidableEq κ] (sel : Resource → Bool) (position : Option WatchReplayPosition)
    (held : κ → Option Resource) (change : KeyChange κ Resource) :
    Except LeaderWatchError (Option ResourceEvent × (κ → Option Resource)) :=
  (tell position (relay sel held change)).map fun told => (told, afterChanges held (relay sel held change).toList)

variable {event : ResourceEvent} {sel : Resource → Bool}

section Refinement

variable {κ : Type} [DecidableEq κ] {key : Resource → κ} {change : KeyChange κ Resource} {hd : κ → Option Resource}

omit [DecidableEq κ] in
theorem change_eq_some (h : event.change key = some change) :
    event.eventType = eventTypeOf change.kind ∧ change.key = key event.resource ∧ change.value = event.resource := by
  obtain ⟨kind, hk, rfl⟩ := Option.map_eq_some_iff.1 h
  refine ⟨?_, rfl, rfl⟩
  cases ht : event.eventType <;> rw [ht] at hk <;> cases hk <;> rfl

section

variable (h : event.change key = some change)
include h

omit [DecidableEq κ] in
theorem tell_change : tell event.resumePosition (some change) = .ok (some event) := by
  obtain ⟨ht, -, hv⟩ := change_eq_some h
  rw [tell, ← ht, hv, tryNew_self]
  rfl

theorem relayed_deleted (hi : change.kind = .deleted) : relayed sel event.resumePosition hd change =
      .ok (if (hd (key event.resource)).isSome || sel event.resource then some event else none,
        if (hd (key event.resource)).isSome then update hd (key event.resource) none else hd) := by
  obtain ⟨-, hk, hv⟩ := change_eq_some h
  have ht := tell_change h
  rw [relayed, relay_deleted hi, hk, hv]
  have ho : afterChanges hd [change] = update hd (key event.resource) none := by
    show update hd change.key change.outcome = _
    rw [hk, KeyChange.outcome_of_deleted hi]
  cases hh : hd (key event.resource) with
  | some pr =>
    simp only [Option.isSome_some, Bool.true_or, if_true, ht]
    show Except.ok (some event, afterChanges hd [change]) = _
    rw [ho]
  | none =>
    simp only [Option.isSome_none, Bool.false_or, Bool.false_eq_true, if_false]
    split
    · -- the key was not held, so removing it changes nothing
      rw [ht]
      show Except.ok (some event, afterChanges hd [change]) = _
      rw [ho, ← hh, update_eq_self]
    · rfl

/-- An update of an object that the reader holds: the object changes for them, or is gone. -/
theorem relayed_held {p : Resource} (hi : change.kind ≠ .deleted) (hh : hd (key event.resource) = some p) :
    relayed sel event.resumePosition hd change = if sel event.resource then
        .ok (some event, update hd (key event.resource) (some event.resource))
      else (tryNew .deleted p event.resumePosition).map fun t => (some t, update hd (key event.resource) none) := by
  obtain ⟨-, hk, hv⟩ := change_eq_some h
  rw [relayed, relay_held hi (hk ▸ hh), hv]
  split
  · have ho : afterChanges hd [change] = update hd (key event.resource) (some event.resource) := by
      show update hd change.key change.outcome = _
      rw [hk, KeyChange.outcome_of_kept hi, hv]
    rw [tell_change h, ← ho]
    rfl
  · show ((tryNew .deleted p event.resumePosition).map some).map (fun t => (t, update hd change.key none)) = _
    rw [hk]
    generalize tryNew .deleted p event.resumePosition = attempt
    cases attempt <;> rfl

/-- An update of an object that the reader does not hold: it is added for them, or not told. -/
theorem relayed_absent (hi : change.kind ≠ .deleted) (hh : hd (key event.resource) = none) :
    relayed sel event.resumePosition hd change = if sel event.resource then
        (tryNew .added event.resource event.resumePosition).map fun t =>
          (some t, update hd (key event.resource) (some event.resource))
      else .ok (none, hd) := by
  obtain ⟨-, hk, hv⟩ := change_eq_some h
  rw [relayed, relay_absent hi (hk ▸ hh), hv]
  split
  · show ((tryNew .added event.resource event.resumePosition).map some).map
      (fun t => (t, update hd change.key (some event.resource))) = _
    rw [hk]
    generalize tryNew .added event.resource event.resumePosition = attempt
    cases attempt <;> rfl
  · rfl

end

omit [DecidableEq κ] in
theorem added_again (event : ResourceEvent) :
    (if (none : Option Resource).isSome || event.eventType = .added then .ok event
      else tryNew .added event.resource event.resumePosition) =
      tryNew .added event.resource event.resumePosition := by
  split
  · rename_i ha
    rw [← of_decide_eq_true (p := event.eventType = .added) ha, event.tryNew_self]
  · rfl

theorem prepareTransition_eq (h : event.change key = some change) :
    (prepareTransition key hd event (sel event.resource)).map
        (fun pend => (pend.event, commitMutation hd pend.mutation)) =
      relayed sel event.resumePosition hd change := by
  obtain ⟨ht, -, -⟩ := change_eq_some h
  unfold prepareTransition
  cases hi : change.kind with
  | deleted =>
    rw [relayed_deleted h hi, ht, hi]
    cases hd (key event.resource) <;> rfl
  | _ =>
    have hk : change.kind ≠ .deleted := by rw [hi]; decide
    have ha := added_again event
    rw [ht, hi] at ha ⊢
    dsimp only [eventTypeOf] at ha ⊢
    cases hh : hd (key event.resource) with
    | some pr =>
      rw [relayed_held h hk hh]
      cases sel event.resource with
      | true => rfl
      | false =>
        dsimp only
        generalize tryNew .deleted pr event.resumePosition = attempt
        cases attempt <;> rfl
    | none =>
      rw [relayed_absent h hk hh]
      cases sel event.resource with
      | true =>
        rw [if_pos rfl, if_pos rfl, ha]
        generalize tryNew .added event.resource event.resumePosition = attempt
        cases attempt <;> rfl
      | false => rfl

end Refinement

/-! ## Both are the relay -/

theorem SelectorMembership.transition_eq {membership : SelectorMembership} {change : KeyChange SelectorKey Resource}
    (h : event.change SelectorKey.fromResource = some change) :
    membership.transition event (sel event.resource) =
      (relayed sel event.resumePosition membership.matched change).map fun re => (re.1, ⟨re.2⟩) := by
  rw [← prepareTransition_eq h]
  unfold transition prepare
  cases prepareTransition SelectorKey.fromResource membership.matched event (sel event.resource) <;> rfl

theorem SelectorWatchTransitionProjector.transition_eq {projector : SelectorWatchTransitionProjector}
    {change : KeyChange ResourceKey Resource} (h : event.change Resource.key = some change) :
    projector.transition event =
      (relayed projector.filter.matchesResource event.resumePosition projector.membership change).map fun re =>
        (re.1, ⟨projector.filter, re.2⟩) := by
  rw [← prepareTransition_eq h]
  unfold transition prepare
  cases prepareTransition Resource.key projector.membership event (projector.filter.matchesResource event.resource) <;>
    rfl

theorem SelectorWatchFilter.tryNew_eq {r : WatchRequest} :
    SelectorWatchFilter.tryNew r = (ResourceFilter.forWatch r).map fun f =>
      ⟨f.apiVersion, f.kind, f.ns, f.labelSelector, f.fieldSelector⟩ := by
  have hl : transpose ((r.labelSelector.filter fun se => !isBlank se).map parseLabelSelector) =
      parseLabel r.labelSelector := by
    unfold parseLabel normalized
    cases r.labelSelector.filter fun se => !isBlank se <;> rfl
  have hf : transpose ((r.fieldSelector.filter fun se => !isBlank se).map FieldSelector.parse) =
      parseField r.fieldSelector := by
    unfold parseField normalized
    cases r.fieldSelector.filter fun se => !isBlank se <;> rfl
  rw [tryNew, ResourceFilter.forWatch, hl, hf]
  cases parseLabel r.labelSelector with
  | error ms => rfl
  | ok labelSelector => cases parseField r.fieldSelector <;> rfl

end Klights.Watch
