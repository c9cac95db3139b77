import Klights.Watch.Session

/-!
# Selector watches mirror the selected objects

What a session or a reflector delivers of a log is what its raw events relay (`runRelay`), and the relay keeps a reader
in step with the selected objects.

- `drain_eq`, `SelectorWatchTransitionProjector.run_eq`: both deliver the relayed events;
- `runRelay_rename`: their different keys make no difference;
- `selector_watch_mirrors`: after every event of a log the delivered events give exactly the objects that are selected
  then, each is legal, and session and reflector deliver the same; a deletion has to carry an object that is selected
  only if the deleted one was (`deletion_of_unselected` is a log where it does not).
-/

namespace Klights.Watch

open Lib Lib.Mirror Replay Selector Store ResourceEvent
open SelectorKey PositionedCursor List ResourceFilter

/-! ## What a reader of raw events is told -/

section RunRelay

variable {κ κ' : Type} [DecidableEq κ] [DecidableEq κ'] (key : Resource → κ) (sel : Resource → Bool)
  {raw : List ResourceEvent}

def runRelay : (κ → Option Resource) → List ResourceEvent → Except LeaderWatchError (List (Option ResourceEvent))
  | _, [] => .ok []
  | held, event :: rest =>
    match event.change key with
    | none => (runRelay held rest).map (some event :: ·)
    | some change => do
      let (told, held) ← relayed sel event.resumePosition held change
      let later ← runRelay held rest
      .ok (told :: later)

variable {key sel} {event ev : ResourceEvent}

omit [DecidableEq κ] in
theorem prepareTransition_of_no_change {held : κ → Option Resource} {i : Bool} (h : ev.change key = none) :
    prepareTransition key held ev i = .ok ⟨some ev, .none⟩ := by
  have ht := Option.map_eq_none_iff.1 h
  unfold prepareTransition
  cases hc : ev.eventType <;> rw [hc] at ht <;> first | rfl | cases ht

theorem drain_eq {filter : ResourceFilter} (hs : filter.hasSelector) (raw : List ResourceEvent)
    (m : SelectorMembership) :
    (drain filter m raw).map Prod.fst =
      runRelay fromResource filter.matchesResource m.matched raw := by
  induction raw generalizing m with
  | nil => rfl
  | cons ev tl ih =>
    rw [PositionedCursor.drain, deliver, if_pos hs, runRelay]
    cases hc : ev.change fromResource with
    | none =>
      rw [SelectorMembership.transition, SelectorMembership.prepare, prepareTransition_of_no_change hc]
      rw [← ih m]
      show Except.map Prod.fst (drain filter m tl >>= _) = _
      cases drain filter m tl <;> rfl
    | some change =>
      rw [SelectorMembership.transition_eq hc]
      dsimp only
      cases relayed filter.matchesResource ev.resumePosition m.matched change with
      | error error => rfl
      | ok re =>
        show Except.map Prod.fst (drain filter ⟨re.2⟩ tl >>= _) =
          runRelay fromResource filter.matchesResource re.2 tl >>= _
        rw [← ih ⟨re.2⟩]
        cases drain filter ⟨re.2⟩ tl <;> rfl

theorem drain_of_no_selector {filter : ResourceFilter} (hs : filter.hasSelector = false) (raw : List ResourceEvent)
    (m : SelectorMembership) : drain filter m raw = .ok (raw.map some, m) := by
  induction raw with
  | nil => rfl
  | cons ev tl ih =>
    rw [PositionedCursor.drain, deliver, hs]
    show (drain filter m tl >>= _) = _
    rw [ih]
    rfl

theorem SelectorWatchTransitionProjector.run_eq (raw : List ResourceEvent) (p : SelectorWatchTransitionProjector) :
    p.run raw = runRelay Resource.key p.filter.matchesResource p.membership raw := by
  induction raw generalizing p with
  | nil => rfl
  | cons ev tl ih =>
    rw [run, runRelay]
    cases hc : ev.change Resource.key with
    | none =>
      rw [transition, prepare, prepareTransition_of_no_change hc]
      rw [← ih p]
      show (p.run tl >>= _) = _
      cases p.run tl <;> rfl
    | some change =>
      rw [transition_eq hc]
      dsimp only
      cases relayed p.filter.matchesResource ev.resumePosition p.membership change with
      | error error => rfl
      | ok re =>
        show (run ⟨p.filter, re.2⟩ tl >>= _) = runRelay Resource.key p.filter.matchesResource re.2 tl >>= _
        rw [ih ⟨p.filter, re.2⟩]

theorem runRelay_rename {k' : Resource → κ'} {f : κ → κ'} (hf : Function.Injective f)
    (hk : ∀ event ∈ raw, k' event.resource = f (key event.resource)) {held : κ → Option Resource}
    {hd' : κ' → Option Resource} (hh : ∀ k, hd' (f k) = held k) :
    runRelay k' sel hd' raw = runRelay key sel held raw := by
  induction raw generalizing held hd' with
  | nil => rfl
  | cons event tl ih =>
    have hr := fun ev' h => hk ev' (mem_cons_of_mem _ h)
    have hc' : event.change k' = (event.change key).map (KeyChange.mapKey f) := by
      rw [change, change, Option.map_map, hk event mem_cons_self]
      rfl
    rw [runRelay, runRelay, hc']
    cases event.change key with
    | none => rw [← ih hr hh]; rfl
    | some change =>
      show (relayed sel event.resumePosition hd' (change.mapKey f) >>= _) =
        (relayed sel event.resumePosition held change >>= _)
      have ht : ∀ told : Option (KeyChange κ Resource),
          tell event.resumePosition (told.map (KeyChange.mapKey f)) = tell event.resumePosition told :=
        fun told => by cases told <;> rfl
      unfold relayed
      rw [relay_mapKey hh, ht]
      cases tell event.resumePosition (relay sel held change) with
      | error error => rfl
      | ok told =>
        show (runRelay k' sel _ tl >>= _) = (runRelay key sel _ tl >>= _)
        rw [ih hr fun k => afterChanges_mapKey hf hh _ k]

/-- Every object that is held belongs to the collection and is held under its own key. -/
def Holds (request : WatchRequest) (key : Resource → κ) (held : κ → Option Resource) : Prop :=
  ∀ k resource, held k = some resource → InScope request resource ∧ key resource = k

variable {request : WatchRequest} {held : κ → Option Resource} {change told : KeyChange κ Resource}

omit [DecidableEq κ] in
/-- What is told of an object of the collection is about an object of the collection. -/
theorem Holds.of_relay (hh : Holds request key held) (hs : InScope request ev.resource)
    (hc : ev.change key = some change) (ho : relay sel held change = some told) :
    InScope request told.value ∧ key told.value = told.key := by
  obtain ⟨-, hk, hv⟩ := change_eq_some hc
  rw [relay_key ho]
  rcases relay_value ho with hn | hpr
  · rw [hn, hv, hk]
    exact ⟨hs, rfl⟩
  · exact hh _ _ hpr

theorem Holds.afterChanges (hh : Holds request key held) (ho : InScope request told.value ∧ key told.value = told.key) :
    Holds request key (afterChanges held [told]) := by
  intro k resource hr
  have hu : Function.update held told.key told.outcome k = some resource := hr
  by_cases hk : k = told.key
  · rw [hk, Function.update_self] at hu
    by_cases hi : told.kind = .deleted
    · rw [KeyChange.outcome_of_deleted hi] at hu
      cases hu
    · rw [KeyChange.outcome_of_kept hi] at hu
      cases hu
      rwa [hk]
  · rw [Function.update_of_ne hk] at hu
    exact hh k resource hu

omit [DecidableEq κ] in
theorem tell_ok (position : ResourceEvent) (ho : InScope request told.value ∧ key told.value = told.key) :
    ∃ t, tell position.resumePosition (some told) = .ok (some t) ∧ t.change key = some told := by
  have hc := ho.1.checkEvent (eventTypeOf told.kind) position.position_checked
  refine ⟨⟨eventTypeOf told.kind, told.value, position.resumePosition, hc⟩, ?_, ?_⟩
  · rw [tell, tryNew_eq hc]
    rfl
  · obtain ⟨kd, toldKey, value⟩ := told
    have hk : key value = toldKey := ho.2
    subst hk
    cases kd <;> rfl

/-- The raw events of a log of the collection are relayed without an error, as the log is. -/
theorem runRelay_ok {l : List (KeyChange κ Resource)} (hl : raw.map (ResourceEvent.change key) = l.map some)
    (hc : ∀ event ∈ raw, InScope request event.resource) (hh : Holds request key held) :
    ∃ d, runRelay key sel held raw = .ok d ∧
      d.map (Option.map (ResourceEvent.change key)) = (relayAll sel held l).map (Option.map some) := by
  induction raw generalizing l held with
  | nil =>
    cases l with
    | nil => exact ⟨[], rfl, rfl⟩
    | cons change l => cases hl
  | cons event tl ih =>
    cases l with
    | nil => cases hl
    | cons change l =>
      obtain ⟨hch, hr⟩ := List.cons.inj hl
      have ha := fun ev' h => hc ev' (mem_cons_of_mem _ h)
      rw [runRelay, hch]
      cases hto : relay sel held change with
      | none =>
        obtain ⟨d, hu, hd⟩ := ih hr ha hh
        refine ⟨none :: d, ?_, ?_⟩
        · show (relayed sel event.resumePosition held change >>= _) = _
          rw [relayed, hto]
          show (runRelay key sel held tl >>= _) = _
          rw [hu]
          rfl
        · rw [map_cons, relayAll, hto, hd]
          rfl
      | some told =>
        have hg := hh.of_relay (hc event mem_cons_self) hch hto
        obtain ⟨tol, ht, ho⟩ := tell_ok event hg
        obtain ⟨d, hu, hd⟩ := ih hr ha (hh.afterChanges hg)
        refine ⟨some tol :: d, ?_, ?_⟩
        · show (relayed sel event.resumePosition held change >>= _) = _
          rw [relayed, hto, ht]
          show (runRelay key sel (afterChanges held [told]) tl >>= _) = _
          rw [hu]
          rfl
        · rw [map_cons, relayAll, map_cons, hto, hd, Option.map_some, ho]
          rfl

theorem runRelay_of_selected {l : List (KeyChange κ Resource)}
    (hl : raw.map (ResourceEvent.change key) = l.map some) (hs : ∀ event ∈ raw, sel event.resource)
    (he : Along (fun st change => afterChanges st [change]) KeyChange.Legal held l) :
    runRelay key sel held raw = .ok (raw.map some) := by
  induction raw generalizing l held with
  | nil => rfl
  | cons event tl ih =>
    cases l with
    | nil => cases hl
    | cons change l =>
      obtain ⟨hc, hr⟩ := List.cons.inj hl
      obtain ⟨-, -, hv⟩ := change_eq_some hc
      have ht := relay_of_selected he.1 (hv ▸ hs event mem_cons_self)
      rw [runRelay, hc]
      show (relayed sel event.resumePosition held change >>= _) = _
      rw [relayed, ht, tell_change hc]
      show (runRelay key sel (afterChanges held [change]) tl >>= _) = _
      rw [ih hr (fun ev' h => hs ev' (mem_cons_of_mem _ h)) he.2]
      rfl

end RunRelay

variable {d : List (Option ResourceEvent)}

/-! ## The mirror -/

section Mirror

variable {request : WatchRequest} {filter : ResourceFilter} {position : WatchReplayPosition}
  {pages : List WatchHistoryPage}

def changesOf (pages : List WatchHistoryPage) : List (KeyChange SelectorKey Resource) :=
  (rowsOf pages).filterMap DurableWatchEvent.change

/-- A log of the collection from a state: its pages follow each other, its rows are about objects of the collection,
and each key is added when it is absent, and modified or deleted when it is present. -/
structure WellFormedLog (request : WatchRequest) (position : WatchReplayPosition)
    (state : SelectorKey → Option Resource) (pages : List WatchHistoryPage) : Prop where
  follows : Follows position pages
  rows : ∀ row ∈ rowsOf pages, RowInScope request row
  legal : Along (fun state change => afterChanges state [change]) KeyChange.Legal state (changesOf pages)

def deliveredChanges (delivered : List (Option ResourceEvent)) : List (KeyChange SelectorKey Resource) :=
  (delivered.map fun told => told.bind (change SelectorKey.fromResource)).reduceOption

def fullKey (request : WatchRequest) (key : SelectorKey) : ResourceKey :=
  ⟨request.apiVersion, request.kind, key.ns, key.name⟩

theorem fullKey_injective : Function.Injective (fullKey request) := by
  intro key k' h
  obtain ⟨ns, nm⟩ := key
  obtain ⟨n', nm'⟩ := k'
  cases h
  rfl

theorem InScope.key_eq {r : Resource} (h : InScope request r) : r.key = fullKey request (fromResource r) := by
  obtain ⟨⟨av, kd, ns, nm⟩, ui, rv, da⟩ := r
  have ha : av = request.apiVersion := h.apiVersion
  have hk : kd = request.kind := h.kind
  rw [ha, hk]
  rfl

theorem membershipOf_fullKey {it : List Resource} (hc : ∀ r ∈ it, InScope request r)
    (hu : (it.map Resource.key).Nodup) (hh : (it.map fromResource).Nodup) (key : SelectorKey) :
    membershipOf Resource.key it (fullKey request key) = membershipOf fromResource it key := by
  refine Option.ext fun r => ?_
  rw [membershipOf_eq_some hu, membershipOf_eq_some hh]
  constructor
  · rintro ⟨hm, hk⟩
    rw [(hc r hm).key_eq] at hk
    exact ⟨hm, fullKey_injective hk⟩
  · rintro ⟨hm, rfl⟩
    exact ⟨hm, (hc r hm).key_eq⟩

theorem map_change_eq {rs : List DurableWatchEvent} (h : ∀ r ∈ rs, RowInScope request r) :
    rs.map DurableWatchEvent.change = (rs.filterMap DurableWatchEvent.change).map some := by
  induction rs with
  | nil => rfl
  | cons r tl ih =>
    obtain ⟨change, hc⟩ := Option.isSome_iff_exists.1 (h r mem_cons_self).2
    rw [map_cons, filterMap_cons_some hc, map_cons, hc, ih fun r' h' => h r' (mem_cons_of_mem _ h')]

theorem Baseline.holds (bl : Baseline request position) (sel : Resource → Bool) :
    Holds request fromResource (selected sel bl.state) := by
  intro key re h
  obtain ⟨hf, -⟩ := Option.filter_eq_some_iff.1 h
  exact ⟨bl.inScope re (Table.find_mem hf), Table.find_key hf⟩

section Delivered

variable {raw : List ResourceEvent} (hfilter : forWatch request = .ok filter)
  (bl : Baseline request position)

include hfilter

/-- A session delivers what its raw events relay to a reader of the selected objects. -/
theorem Baseline.served (hl : WellFormedLog request position bl.state pages)
    (hr : decodePages request request.scope.durable position pages = .ok raw)
    (hc : raw.map (ResourceEvent.change fromResource) = (changesOf pages).map some)
    (hsc : ∀ event ∈ raw, InScope request event.resource) :
    ∃ c, openSession request position (bl.page filter) = .ok c ∧
      c.serve pages = runRelay fromResource filter.matchesResource (selected filter.matchesResource bl.state) raw := by
  obtain ⟨mbs, ho, hm⟩ := bl.openSession_ok hfilter
  refine ⟨_, ho, ?_⟩
  rw [serve_eq hl.follows hr]
  cases hs : filter.hasSelector with
  | true => rw [drain_eq hs, hm hs]
  | false =>
    -- without selectors every object of the collection is selected
    have ha : ∀ resource, InScope request resource → filter.matchesResource resource := fun resource h => by
      rw [matchesResource_of_no_selector hs, h.matchesIdentity hfilter]
    have ht : selected filter.matchesResource bl.state = bl.state := by
      funext key
      refine Option.ext fun resource => ?_
      rw [selected, Option.filter_eq_some_iff]
      exact ⟨And.left, fun h => ⟨h, ha resource (bl.inScope resource (Table.find_mem h))⟩⟩
    have hp := runRelay_of_selected hc (fun event h => ha _ (hsc event h)) hl.legal
    rw [ht, hp, drain_of_no_selector hs]
    rfl

theorem Baseline.reflected (hc : ∀ event ∈ raw, InScope request event.resource) :
    ∃ p, SelectorWatchTransitionProjector.tryNew request = .ok p ∧ (p.replace (bl.page filter).items).run raw =
        runRelay fromResource filter.matchesResource (selected filter.matchesResource bl.state) raw := by
  refine ⟨⟨⟨filter.apiVersion, filter.kind, filter.ns, filter.labelSelector, filter.fieldSelector⟩, fun _ => none⟩,
    ?_, ?_⟩
  · rw [SelectorWatchTransitionProjector.tryNew, SelectorWatchFilter.tryNew_eq, hfilter]
    rfl
  · rw [SelectorWatchTransitionProjector.run_eq]
    refine runRelay_rename fullKey_injective (fun event h => (hc event h).key_eq) fun key => ?_
    have hh : selected filter.matchesResource bl.state =
        membershipOf fromResource (bl.page filter).items := (membershipOf_filter _ _).symm
    rw [hh]
    refine membershipOf_fullKey (fun resource h => ?_) (bl.nodup_keys filter) ?_ key
    · exact bl.inScope resource (mem_filter.1 h).1
    · exact bl.objects.nodup.sublist (filter_sublist.map fromResource)

end Delivered

section

variable {told : List (Option (KeyChange SelectorKey Resource))}
  (h : d.map (Option.map (change fromResource)) = told.map (Option.map some))
include h

theorem deliveredChanges_take (n : Nat) : deliveredChanges (d.take n) = (told.take n).reduceOption := by
  have hj : d.map (fun ev => ev.bind (change fromResource)) = told := by
    calc d.map (fun ev => ev.bind (change fromResource))
        = (d.map (Option.map (change fromResource))).map Option.join := by
          rw [map_map]
          exact map_congr_left fun ev _ => by cases ev <;> rfl
      _ = told := by
          rw [h, map_map]
          exact map_id'' (fun change => by cases change <;> rfl) told
  rw [deliveredChanges, map_take, hj]

theorem delivered_getElem? {n : Nat} {event : ResourceEvent} (hv : d[n]? = some (some event)) :
    ∃ change, event.change fromResource = some change ∧ told[n]? = some (some change) := by
  have hn := congrArg (fun li => li[n]?) h
  simp only [getElem?_map, hv, Option.map_some] at hn
  cases ht : told[n]? with
  | none => rw [ht] at hn; cases hn
  | some change =>
    cases change with
    | none => rw [ht] at hn; cases hn
    | some change =>
      rw [ht] at hn
      exact ⟨change, Option.some.inj (Option.some.inj hn), rfl⟩

end

/-- **A selector watch mirrors the selected objects.** Its events are legal for the reader too if objects are deleted as
selected only if they were. -/
theorem selector_watch_mirrors (hfilter : forWatch request = .ok filter)
    (baseline : Baseline request position) (hlog : WellFormedLog request position baseline.state pages) :
    ∃ cursor projector raw delivered,
      openSession request position (baseline.page filter) = .ok cursor ∧ cursor.serve pages = .ok delivered ∧
      SelectorWatchTransitionProjector.tryNew request = .ok projector ∧
      decodePages request request.scope.durable position pages = .ok raw ∧
      (projector.replace (baseline.page filter).items).run raw = .ok delivered ∧
      delivered.length = (changesOf pages).length ∧
      ∀ n, afterChanges (selected filter.matchesResource baseline.state) (deliveredChanges (delivered.take n)) =
          selected filter.matchesResource (afterChanges baseline.state ((changesOf pages).take n)) ∧
        (Along (fun state change => afterChanges state [change]) (DeletesSelected filter.matchesResource)
            baseline.state (changesOf pages) →
          ∀ event, delivered[n]? = some (some event) → ∃ change, event.change SelectorKey.fromResource = some change ∧
            change.Legal (afterChanges (selected filter.matchesResource baseline.state)
              (deliveredChanges (delivered.take n)))) := by
  obtain ⟨raw, ha, ho, hs⟩ := decodePages_ok hlog.follows hlog.rows
  have hc : raw.map (ResourceEvent.change fromResource) = (changesOf pages).map some := by
    rw [ho, map_change_eq hlog.rows]
    rfl
  obtain ⟨cursor, hn, he⟩ := baseline.served hfilter hlog ha hc hs
  obtain ⟨projector, hp, hr⟩ := baseline.reflected hfilter hs
  obtain ⟨delivered, hu, hd⟩ :=
    @runRelay_ok _ _ _ filter.matchesResource _ _ _ _ hc hs (baseline.holds filter.matchesResource)
  refine ⟨cursor, projector, raw, delivered, hn, he.trans hu, hp, ha, hr.trans hu, ?_, fun n => ?_⟩
  · have hl := congrArg List.length hd
    rwa [length_map, length_map, length_relayAll] at hl
  · rw [deliveredChanges_take hd n, mirror]
    refine ⟨rfl, fun hdeletes event hv => ?_⟩
    obtain ⟨change, hh, ht⟩ := delivered_getElem? hd hv
    exact ⟨change, hh, told_legal hlog.legal hdeletes ht⟩

end Mirror

/-! ## Pods of the label `app=web` -/

/-- The watch of the pods of a namespace that carry the label `app=web`. -/
def webRequest : WatchRequest where
  apiVersion := "v1"
  kind := "Pod"
  ns := some "default"
  scope := .namespace "default"
  labelSelector := some "app=web"
  fieldSelector := none
  startResourceVersion := none
  startWatchReplayPosition := none
  identity := by decide
  inScope := by decide

def webFilter : ResourceFilter := ⟨"v1", "Pod", some "default", some [.equality "app" "web"], none⟩

def labelledPod (name app : String) (resourceVersion : Int) : Resource :=
  ⟨⟨"v1", "Pod", some "default", name⟩, "uid-" ++ name, resourceVersion,
    .obj [("metadata", .obj [("name", .str name), ("labels", .obj [("app", .str app)])])]⟩

def webStart : WatchReplayPosition := ⟨5, 5, 0⟩

/-- A pod that is selected and one that is not. -/
def webBaseline : Baseline webRequest webStart where
  objects := ⟨[labelledPod "a" "web" 3, labelledPod "b" "db" 4], by decide⟩
  inScope := by decide
  notNewer := by decide

def webPage (eventId : Int) (eventType : String) (resource : Resource) : WatchHistoryPage :=
  ⟨[⟨⟨resource.resourceVersion, eventId, 0⟩, ⟨eventType, resource⟩⟩], ⟨resource.resourceVersion, eventId, 0⟩⟩

/-- The second pod is selected by an update, the first one is not any more, then the second one is deleted. -/
def webPages : List WatchHistoryPage :=
  [webPage 6 "MODIFIED" (labelledPod "b" "web" 6), webPage 7 "MODIFIED" (labelledPod "a" "db" 7),
    webPage 8 "DELETED" (labelledPod "b" "web" 8)]

theorem wellFormedLog_webPages : WellFormedLog webRequest webStart webBaseline.state webPages :=
  ⟨⟨by decide +kernel, by decide +kernel, by decide +kernel, trivial⟩, by decide +kernel, by decide +kernel⟩

/-- Two readers of these events hold the first pod, both, the second one, and none. -/
theorem selector_watch_mirrors_web :
    ∃ cursor projector raw delivered, openSession webRequest webStart (webBaseline.page webFilter) = .ok cursor ∧
      cursor.serve webPages = .ok delivered ∧
      SelectorWatchTransitionProjector.tryNew webRequest = .ok projector ∧
      decodePages webRequest webRequest.scope.durable webStart webPages = .ok raw ∧
      (projector.replace (webBaseline.page webFilter).items).run raw = .ok delivered ∧ delivered.length = 3 ∧
      ∀ event, delivered[2]? = some (some event) → ∃ change, event.change SelectorKey.fromResource = some change ∧
        change.Legal (afterChanges (selected webFilter.matchesResource webBaseline.state)
          (deliveredChanges (delivered.take 2))) := by
  have hd : Along (fun state change => afterChanges state [change]) (DeletesSelected webFilter.matchesResource)
      webBaseline.state (changesOf webPages) := by decide +kernel
  obtain ⟨cursor, projector, raw, delivered, ho, hs, hp, hr, hu, hl, hm⟩ :=
    @selector_watch_mirrors webRequest webFilter webStart webPages (by decide +kernel) webBaseline
      wellFormedLog_webPages
  exact ⟨cursor, projector, raw, delivered, ho, hs, hp, hr, hu, hl, (hm 2).2 hd⟩

/-! ## Pods of one resourceVersion -/

/-- The watch of the pods with resourceVersion 6. -/
def versionRequest : WatchRequest where
  apiVersion := "v1"
  kind := "Pod"
  ns := some "default"
  scope := .namespace "default"
  labelSelector := none
  fieldSelector := some "metadata.resourceVersion=6"
  startResourceVersion := none
  startWatchReplayPosition := none
  identity := by decide
  inScope := by decide

def versionFilter : ResourceFilter :=
  ⟨"v1", "Pod", some "default", none, some ⟨[⟨"metadata.resourceVersion", .equals, "6"⟩]⟩⟩

/-- A stored pod, with the version in its body. -/
def stampedPod (name : String) (resourceVersion : Int) : Resource :=
  ⟨⟨"v1", "Pod", some "default", name⟩, "uid-" ++ name, resourceVersion,
    .obj [("metadata", .obj [("name", .str name), ("resourceVersion", .str (toString resourceVersion))])]⟩

def versionBaseline : Baseline versionRequest webStart where
  objects := ⟨[stampedPod "b" 4], by decide⟩
  inScope := by decide
  notNewer := by decide

/-- The deletion of the pod carries its body with the version of the deletion. -/
def stampedDeletion : ResourceEvent := ⟨.deleted, stampedPod "b" 6, some ⟨6, 6, 0⟩, by decide⟩

/-- It is delivered to a reader who does not hold the pod. -/
theorem deletion_of_unselected :
    WellFormedLog versionRequest webStart versionBaseline.state [webPage 6 "DELETED" (stampedPod "b" 6)] ∧
      (openSession versionRequest webStart (versionBaseline.page versionFilter)).bind (fun cursor =>
        cursor.serve [webPage 6 "DELETED" (stampedPod "b" 6)]) = .ok [some stampedDeletion] ∧
      ∀ change, stampedDeletion.change SelectorKey.fromResource = some change →
        ¬change.Legal (selected versionFilter.matchesResource versionBaseline.state) := by
  refine ⟨⟨⟨by decide +kernel, trivial⟩, by decide +kernel, by decide +kernel⟩, by decide +kernel, ?_⟩
  rintro change hc
  cases hc
  decide +kernel

end Klights.Watch
