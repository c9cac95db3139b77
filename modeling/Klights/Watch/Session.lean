import Klights.Store.HistoricalList
import Klights.Watch.Transitions

/-!
# Watch sessions

A positioned watch session of the leader (`PositionedWatchService`, `PositionedCursor`, klights-watch/src/session.rs):
it is opened with the selected objects at its start position, reads the durable log in pages, decodes each page with
the position after each of its events, and delivers what its membership makes of them. A reflector
(`SelectorWatchTransitionProjector`) that reads the raw events does the same on its side.

- `openSession`, `PositionedCursor.replayOnce`, `PositionedCursor.serve`;
- `decodePages_ok`: the pages of a log of the collection decode, in order and with valid positions;
- `serve_eq`: what a session delivers of its pages is what it delivers of their raw events;
- `openSession_ok`: a session opens on a consistent baseline and holds its selected objects.
-/

namespace Klights.Watch

open Lib Lib.Mirror Replay Selector Store ResourceEvent SelectorKey List

/-! ## Pages of the log -/

structure DurableWatchEvent where
  eventType : String
  resource : Resource

structure WatchHistoryPage where
  events : List (PositionedWatchEvent DurableWatchEvent)
  nextPosition : WatchReplayPosition

def cursorAfter : WatchReplayPosition → List (PositionedWatchEvent DurableWatchEvent) →
    Except String WatchReplayPosition
  | cursor, [] => .ok cursor
  | cursor, event :: rest => do
    let cursor ← (cursor.advanceThroughEvent event.position).mapError
      ("invalid watch-history event continuation: " ++ ·)
    cursorAfter cursor rest

def WatchHistoryPage.validateAfter (page : WatchHistoryPage) (requested : WatchReplayPosition) :
    Except String Unit := do
  requested.validate
  let cursor ← cursorAfter requested page.events
  if cursor.permitsSuccessor page.nextPosition then .ok ()
  else .error ("watch-history page position " ++ page.nextPosition.debug ++ " is not a canonical continuation of " ++
    cursor.debug)

def decodeEvents (request : WatchRequest) (scope : DurableWatchScope) : WatchReplayPosition →
    List (PositionedWatchEvent DurableWatchEvent) → Except LeaderWatchError (List ResourceEvent)
  | _, [] => .ok []
  | delivered, positioned :: rest => do
    let delivered ← (delivered.advanceThroughEvent positioned.position).mapError .malformedEvent
    let event ← ResourceEvent.tryFromWireType positioned.event.eventType positioned.event.resource (some delivered)
    event.validateFor request
    validateEventScope event scope
    let decoded ← decodeEvents request scope delivered rest
    .ok (event :: decoded)

/-! ## A session -/

def checkBaselineItems (requested : WatchReplayPosition) (scope : DurableWatchScope) (filter : ResourceFilter)
    (identities : List ResourceKey) : List Resource → Except LeaderWatchError Unit
  | [] => .ok ()
  | resource :: rest =>
    if resource.key ∈ identities then
      .error (.malformedEvent "positioned selector baseline contains duplicate resource identities")
    else if requested.resourceVersionFilterThroughEventId = 0 ∧
        resource.resourceVersion > requested.resourceVersion then
      .error (.malformedEvent "positioned selector baseline contains a body newer than its snapshot")
    else if !filter.matchesResource resource || !resourceMatchesScope resource scope then
      .error (.mismatchedEvent "positioned selector baseline contains a resource outside its scope or selector")
    else checkBaselineItems requested scope filter (resource.key :: identities) rest

def validateSelectorBaseline (page : ResourceListPage) (requested : WatchReplayPosition) (scope : DurableWatchScope)
    (filter : ResourceFilter) : Except LeaderWatchError Unit :=
  if page.snapshot ≠ requested then
    .error (.malformedEvent ("selector baseline snapshot " ++ page.snapshot.debug ++
      " does not equal requested position " ++ requested.debug))
  else if page.continuation.isSome ∨ page.remainingItemCount.any (0 < ·) then
    .error (.malformedEvent "positioned selector baseline must be complete and non-paginated")
  else checkBaselineItems requested scope filter [] page.items

/-- A session: where it reads on, what it decoded and has not delivered, and the objects it told of. -/
structure PositionedCursor where
  request : WatchRequest
  deliveryScope : DurableWatchScope
  replayPosition : WatchReplayPosition
  pending : List ResourceEvent
  filter : ResourceFilter
  membership : SelectorMembership

open PositionedCursor

/-- A session from a position, whose store answers `baseline` as the list at that position. -/
def openSession (request : WatchRequest) (replayPosition : WatchReplayPosition) (baseline : ResourceListPage) :
    Except LeaderWatchError PositionedCursor := do
  let filter ← ResourceFilter.forWatch request
  let scope := request.scope.durable
  if filter.hasSelector then
    validateSelectorBaseline baseline replayPosition scope filter
    .ok ⟨request, scope, replayPosition, [], filter, .replace baseline.items⟩
  else .ok ⟨request, scope, replayPosition, [], filter, .empty⟩

namespace PositionedCursor

def replayOnce (cursor : PositionedCursor) (page : WatchHistoryPage) : Except LeaderWatchError PositionedCursor := do
  (page.validateAfter cursor.replayPosition).mapError .malformedEvent
  let decoded ← decodeEvents cursor.request cursor.deliveryScope cursor.replayPosition page.events
  .ok { cursor with replayPosition := page.nextPosition, pending := decoded }

def deliver (filter : ResourceFilter) (membership : SelectorMembership) (event : ResourceEvent) :
    Except LeaderWatchError (Option ResourceEvent × SelectorMembership) :=
  if filter.hasSelector then membership.transition event (filter.matchesResource event.resource)
  else .ok (some event, membership)

/-- The loop of `next_event` over the pending events; each entry is what one of them gave. -/
def drain (filter : ResourceFilter) : SelectorMembership → List ResourceEvent →
    Except LeaderWatchError (List (Option ResourceEvent) × SelectorMembership)
  | membership, [] => .ok ([], membership)
  | membership, event :: rest => do
    let (told, membership) ← deliver filter membership event
    let (later, membership) ← drain filter membership rest
    .ok (told :: later, membership)

def serve : PositionedCursor → List WatchHistoryPage → Except LeaderWatchError (List (Option ResourceEvent))
  | _, [] => .ok []
  | cursor, page :: rest => do
    let cursor ← cursor.replayOnce page
    let (told, membership) ← drain cursor.filter cursor.membership cursor.pending
    let later ← serve { cursor with membership, pending := [] } rest
    .ok (told ++ later)

end PositionedCursor

def SelectorWatchTransitionProjector.run : SelectorWatchTransitionProjector → List ResourceEvent →
    Except LeaderWatchError (List (Option ResourceEvent))
  | _, [] => .ok []
  | projector, event :: rest => do
    let (told, projector) ← projector.transition event
    let later ← projector.run rest
    .ok (told :: later)

/-! ## Decoding -/

def wireKind : String → Option ChangeKind
  | "ADDED" => some .added
  | "MODIFIED" => some .modified
  | "DELETED" => some .deleted
  | _ => none

def DurableWatchEvent.change (row : DurableWatchEvent) : Option (KeyChange SelectorKey Resource) :=
  (wireKind row.eventType).map fun kind => ⟨kind, SelectorKey.fromResource row.resource, row.resource⟩

theorem tryFromWireType_eq {et : String} {kd : ChangeKind} (h : wireKind et = some kd)
    (r : Resource) (position : Option WatchReplayPosition) :
    tryFromWireType et r position = tryNew (eventTypeOf kd) r position := by
  unfold wireKind at h
  split at h
  · cases h; rfl
  · cases h; rfl
  · cases h; rfl
  · cases h

def RowInScope (request : WatchRequest) (row : DurableWatchEvent) : Prop :=
  InScope request row.resource ∧ row.change.isSome = true

instance (request : WatchRequest) (row : DurableWatchEvent) : Decidable (RowInScope request row) :=
  inferInstanceAs (Decidable (_ ∧ _))

variable {rq : WatchRequest} {position : WatchReplayPosition}

section Decode

variable {cursor next : WatchReplayPosition} {e : List (PositionedWatchEvent DurableWatchEvent)}

theorem decode_row {r : DurableWatchEvent} (hr : RowInScope rq r) (hs : position.validate = .ok ()) :
    ∃ ev, tryFromWireType r.eventType r.resource (some position) = .ok ev ∧
      ev.resource = r.resource ∧ ev.change fromResource = r.change := by
  obtain ⟨change, hh⟩ := Option.isSome_iff_exists.1 hr.2
  obtain ⟨kd, hk, -⟩ := Option.map_eq_some_iff.1 hh
  have hv : checkResumePosition (some position) = .ok () := by
    rw [checkResumePosition, hs]
    rfl
  have hc := hr.1.checkEvent (eventTypeOf kd) hv
  refine ⟨⟨eventTypeOf kd, r.resource, some position, hc⟩, ?_, rfl, ?_⟩
  · rw [tryFromWireType_eq hk, tryNew_eq hc]
  · rw [DurableWatchEvent.change, hk]
    cases kd <;> rfl

theorem decodeEvents_ok (hx : cursorAfter cursor e = .ok next) (hrs : ∀ r ∈ e, RowInScope rq r.event) :
    ∃ ra, decodeEvents rq rq.scope.durable cursor e = .ok ra ∧
      ra.map (change fromResource) = e.map (fun r => r.event.change) ∧
      ∀ ev ∈ ra, InScope rq ev.resource := by
  induction e generalizing cursor with
  | nil => exact ⟨[], rfl, rfl, by simp⟩
  | cons r tl ih =>
    obtain ⟨aft, ha, hx⟩ := bind_eq_ok.1 hx
    rw [mapError_eq_ok] at ha
    have hr := hrs r mem_cons_self
    obtain ⟨ev, hv, he, hh⟩ :=
      decode_row hr (WatchReplayPosition.advanceThroughEvent_valid ha)
    have hsc : InScope rq ev.resource := he ▸ hr.1
    obtain ⟨ra, hw, hc, hs⟩ := ih hx fun r' h => hrs r' (mem_cons_of_mem _ h)
    refine ⟨ev :: ra, ?_, ?_, ?_⟩
    · rw [decodeEvents, ha]
      show (tryFromWireType r.event.eventType r.event.resource (some aft) >>= _) = _
      rw [hv]
      show (ev.validateFor rq >>= _) = _
      rw [hsc.validateFor]
      rw [hsc.validateEventScope]
      rw [hw]
      rfl
    · rw [map_cons, map_cons, hh, hc]
    · exact forall_mem_cons.2 ⟨hsc, hs⟩

end Decode

/-! ## Page after page -/

def Follows : WatchReplayPosition → List WatchHistoryPage → Prop
  | _, [] => True
  | position, page :: rest => page.validateAfter position = .ok () ∧ Follows page.nextPosition rest

def decodePages (request : WatchRequest) (scope : DurableWatchScope) : WatchReplayPosition → List WatchHistoryPage →
    Except LeaderWatchError (List ResourceEvent)
  | _, [] => .ok []
  | position, page :: rest => do
    let raw ← decodeEvents request scope position page.events
    let later ← decodePages request scope page.nextPosition rest
    .ok (raw ++ later)

def rowsOf (pages : List WatchHistoryPage) : List DurableWatchEvent :=
  pages.flatMap fun page => page.events.map PositionedWatchEvent.event

theorem rowsOf_cons (pe : WatchHistoryPage) (rest : List WatchHistoryPage) :
    rowsOf (pe :: rest) = pe.events.map PositionedWatchEvent.event ++ rowsOf rest := rfl

section Pages

variable {p : List WatchHistoryPage} {f : ResourceFilter}

theorem drain_append (r l : List ResourceEvent) (m : SelectorMembership) : drain f m (r ++ l) =
      (drain f m r).bind fun ft => (drain f ft.2 l).map fun tl => (ft.1 ++ tl.1, tl.2) := by
  induction r generalizing m with
  | nil =>
    show drain f m l = (drain f m l).map fun tl => ([] ++ tl.1, tl.2)
    cases drain f m l <;> rfl
  | cons ev r ih =>
    rw [cons_append, PositionedCursor.drain, PositionedCursor.drain]
    cases deliver f m ev with
    | error error => rfl
    | ok re =>
      show (drain f re.2 (r ++ l) >>= _) = (drain f re.2 r >>= _).bind _
      rw [ih]
      cases drain f re.2 r with
      | error error => rfl
      | ok ft =>
        show ((drain f ft.2 l).map _ >>= _) = (drain f ft.2 l).map _
        cases drain f ft.2 l <;> rfl

theorem WatchHistoryPage.cursorAfter_ok {pe : WatchHistoryPage} (h : pe.validateAfter position = .ok ()) :
    ∃ next, cursorAfter position pe.events = .ok next := by
  obtain ⟨-, -, h⟩ := bind_eq_ok.1 h
  obtain ⟨next, hn, -⟩ := bind_eq_ok.1 h
  exact ⟨next, hn⟩

theorem decodePages_ok (hf : Follows position p) (hs : ∀ r ∈ rowsOf p, RowInScope rq r) :
    ∃ ra, decodePages rq rq.scope.durable position p = .ok ra ∧
      ra.map (change fromResource) = (rowsOf p).map DurableWatchEvent.change ∧
      ∀ ev ∈ ra, InScope rq ev.resource := by
  induction p generalizing position with
  | nil => exact ⟨[], rfl, rfl, by simp⟩
  | cons pa tl ih =>
    obtain ⟨next, hn⟩ := pa.cursorAfter_ok hf.1
    obtain ⟨ra, hw, hc, hsc⟩ := @decodeEvents_ok rq _ _ _ hn fun r hr =>
      hs r.event (mem_flatMap.2 ⟨pa, .head _, mem_map_of_mem hr⟩)
    obtain ⟨lat, ht, ha, hl⟩ := ih hf.2 fun r hr => by
      obtain ⟨pa', hp', hr⟩ := mem_flatMap.1 hr
      exact hs r (mem_flatMap.2 ⟨pa', .tail _ hp', hr⟩)
    refine ⟨ra ++ lat, ?_, ?_, ?_⟩
    · rw [decodePages, hw]
      rw [ht]
      rfl
    · rw [map_append, hc, ha, rowsOf_cons, map_append, map_map]
      rfl
    · intro ev he
      exact (mem_append.1 he).elim (hsc ev) (hl ev)

theorem serve_eq {r : List ResourceEvent} {cursor : PositionedCursor} (hf : Follows cursor.replayPosition p)
    (hr : decodePages cursor.request cursor.deliveryScope cursor.replayPosition p = .ok r) :
    cursor.serve p = (drain cursor.filter cursor.membership r).map Prod.fst := by
  induction p generalizing cursor r with
  | nil =>
    cases hr
    rfl
  | cons pa tl ih =>
    obtain ⟨first, hf1, hr⟩ := bind_eq_ok.1 hr
    obtain ⟨lat, hl, hr⟩ := bind_eq_ok.1 hr
    cases hr
    have ho : cursor.replayOnce pa = .ok { cursor with replayPosition := pa.nextPosition, pending := first } := by
      rw [replayOnce, hf.1]
      rw [hf1]
      rfl
    rw [serve, ho, drain_append]
    show (drain cursor.filter cursor.membership first >>= _) = _
    cases drain cursor.filter cursor.membership first with
    | error error => rfl
    | ok re =>
      show (serve ⟨cursor.request, cursor.deliveryScope, pa.nextPosition, [], cursor.filter, re.2⟩ tl >>= _) =
        Except.map _ ((drain cursor.filter re.2 lat).map _)
      rw [ih hf.2 hl]
      cases drain cursor.filter re.2 lat <;> rfl

end Pages

/-! ## The baseline -/

section Membership

variable {κ : Type} [DecidableEq κ] {ky : Resource → κ}

theorem membershipOf_eq_some {rs : List Resource} (hd : (rs.map ky).Nodup) {k : κ}
    {re : Resource} : membershipOf ky rs k = some re ↔ re ∈ rs ∧ ky re = k := by
  have hf : ∀ (rs : List Resource) (ini : κ → Option Resource), (rs.map ky).Nodup →
      (rs.foldl (fun mbs r => Function.update mbs (ky r) (some r)) ini k = some re ↔
        (re ∈ rs ∧ ky re = k) ∨ (ini k = some re ∧ k ∉ rs.map ky)) := by
    intro rs
    induction rs with
    | nil => simp
    | cons r tl ih =>
      intro ini hd
      obtain ⟨hr, hs⟩ := nodup_cons.1 hd
      rw [foldl_cons, ih _ hs]
      by_cases hk : k = ky r
      · subst hk
        rw [Function.update_self]
        constructor
        · rintro (⟨hmem, he⟩ | ⟨ho, -⟩)
          · exact .inl ⟨mem_cons_of_mem _ hmem, he⟩
          · cases ho
            exact .inl ⟨mem_cons_self, rfl⟩
        · rintro (⟨hmem, he⟩ | ⟨-, hn⟩)
          · rcases mem_cons.1 hmem with rfl | hmem
            · exact .inr ⟨rfl, hr⟩
            · exact .inl ⟨hmem, he⟩
          · exact absurd mem_cons_self hn
      · rw [Function.update_of_ne hk]
        constructor
        · rintro (⟨hmem, he⟩ | ⟨hi, hn⟩)
          · exact .inl ⟨mem_cons_of_mem _ hmem, he⟩
          · exact .inr ⟨hi, fun h => (mem_cons.1 h).elim hk hn⟩
        · rintro (⟨hmem, he⟩ | ⟨hi, hn⟩)
          · rcases mem_cons.1 hmem with rfl | hmem
            · exact absurd he.symm hk
            · exact .inl ⟨hmem, he⟩
          · exact .inr ⟨hi, fun h => hn (mem_cons_of_mem _ h)⟩
  rw [membershipOf, hf rs _ hd]
  simp

/-- The membership of the selected rows of a table is the selected part of its lookups. -/
theorem membershipOf_filter (ta : Table ky) (s : Resource → Bool) :
    membershipOf ky (ta.rows.filter s) = selected s ta.find := by
  have hn : ((ta.rows.filter s).map ky).Nodup := ta.nodup.sublist (filter_sublist.map ky)
  funext k
  refine Option.ext fun re => ?_
  rw [membershipOf_eq_some hn, selected, Option.filter_eq_some_iff, Table.find_eq_some_iff, mem_filter]
  tauto

end Membership

structure Baseline (request : WatchRequest) (position : WatchReplayPosition) where
  objects : Table SelectorKey.fromResource
  inScope : ∀ resource ∈ objects.rows, InScope request resource
  /-- A position without a filter is at least as new as every body. -/
  notNewer : position.resourceVersionFilterThroughEventId = 0 →
    ∀ resource ∈ objects.rows, resource.resourceVersion ≤ position.resourceVersion

namespace Baseline

variable (baseline bl : Baseline rq position)

def state : SelectorKey → Option Resource := baseline.objects.find

/-- The list that the store answers at the position. -/
def page (filter : ResourceFilter) : ResourceListPage :=
  ⟨baseline.objects.rows.filter filter.matchesResource, position, none, none⟩

/-- Objects of one collection with the same key are told apart by namespace and name alone. -/
theorem nodup_keys (filter : ResourceFilter) : ((bl.page filter).items.map Resource.key).Nodup := by
  refine List.Nodup.of_map (fun ky : ResourceKey => (⟨ky.ns, ky.name⟩ : SelectorKey)) ?_
  rw [map_map]
  exact bl.objects.nodup.sublist (filter_sublist.map fromResource)

theorem checkBaselineItems_ok {sc : DurableWatchScope} {filter : ResourceFilter} :
    ∀ {it : List Resource} {i : List ResourceKey}, (it.map Resource.key).Nodup → (∀ resource ∈ it, resource.key ∉ i) →
      (∀ resource ∈ it, filter.matchesResource resource ∧ resourceMatchesScope resource sc ∧
        (position.resourceVersionFilterThroughEventId = 0 → resource.resourceVersion ≤ position.resourceVersion)) →
      checkBaselineItems position sc filter i it = .ok ()
  | [], _, _, _, _ => rfl
  | resource :: rest, i, hd, hn, hit => by
    obtain ⟨hf, he⟩ := nodup_cons.1 hd
    obtain ⟨hm, hs, hb⟩ := hit resource mem_cons_self
    have hw : ¬(position.resourceVersionFilterThroughEventId = 0 ∧
        resource.resourceVersion > position.resourceVersion) := fun h => by
      omega
    rw [checkBaselineItems, if_neg (hn resource mem_cons_self), if_neg hw, if_neg (by simp [hm, hs])]
    refine checkBaselineItems_ok he (fun r hr h => ?_) fun r hr => hit r (mem_cons_of_mem _ hr)
    rcases mem_cons.1 h with heq | h
    · exact hf (heq ▸ mem_map_of_mem hr)
    · exact hn r (mem_cons_of_mem _ hr) h

theorem openSession_ok {filter : ResourceFilter} (hf : ResourceFilter.forWatch rq = .ok filter) :
    ∃ m, openSession rq position (bl.page filter) = .ok ⟨rq, rq.scope.durable, position, [], filter, m⟩ ∧
      (filter.hasSelector → m.matched = selected filter.matchesResource bl.state) := by
  unfold openSession
  rw [hf]
  cases hs : filter.hasSelector with
  | false =>
    refine ⟨.empty, ?_, nofun⟩
    show (if filter.hasSelector = true then _ else _) = _
    rw [hs]
    rfl
  | true =>
    have hv : validateSelectorBaseline (bl.page filter) position rq.scope.durable filter = .ok () := by
      rw [validateSelectorBaseline, if_neg (by simp [page]), if_neg (by simp [page])]
      refine checkBaselineItems_ok (bl.nodup_keys filter) (by simp) fun re hr => ?_
      obtain ⟨he, hm⟩ := mem_filter.1 hr
      exact ⟨hm, (bl.inScope re he).scope, fun hp => bl.notNewer hp re he⟩
    refine ⟨.replace (bl.page filter).items, ?_, fun _ => membershipOf_filter _ _⟩
    show (if filter.hasSelector = true then _ else _) = _
    rw [if_pos hs, hv]
    rfl

end Baseline

end Klights.Watch
