import Klights.Store.HistoricalList
import Mathlib.Data.List.Chain

/-!
# Rebuilding the objects at a position

`reconstruct_membership` (`position_membership.rs`) undoes the retained events, newest first, from the current objects.
`replayMembership` goes the other way: it applies events, oldest first, to nothing.

- a well-formed history is a coherent change log for each key (`coherent_eventsOf`), and replaying it is the state of
  that log (`find_replayMembership`);
- observing an event moves the walk of its own key and no other (`observe_projects`, `observe_other`);
- `observe_rebuilds`, `foldl_observe_rebuilds`: so every key is walked back at once;
- `reconstructMembership_eq_replay`: what comes out is the replay of the events the position represents.
-/

namespace Klights.Store

open Lib Replay MembershipHistoryEvent MembershipReconstructor List Table

/-! ## Rebuilding and replaying -/

/-- `reconstruct_membership`: the retained events are observed newest first. -/
def reconstructMembership (current : List Resource) (history : List MembershipHistoryEvent)
    (position : WatchReplayPosition) : ReconstructedMembership :=
  (history.reverse.foldl MembershipReconstructor.observe (.new current position)).finish

def contentOf (resource : Resource) : Json := clearMetadataResourceVersion resource.data

/-- The key of an object, and its data apart from the resourceVersion. -/
def listing (resource : Resource) : ResourceKey × Json := (resource.key, contentOf resource)

namespace MembershipHistoryEvent

def key (event : MembershipHistoryEvent) : ResourceKey := event.resource.key

def seenAt (position : WatchReplayPosition) (event : MembershipHistoryEvent) : Bool :=
  position.representsEvent event.eventId event.resource.resourceVersion

def applyTo (state : Table Resource.key) (event : MembershipHistoryEvent) : Table Resource.key :=
  if event.eventType = "DELETED" then state.deleteWhere fun resource => resource.key = event.key
  else state.put event.resource

def changeBy (content : Resource → Json) (event : MembershipHistoryEvent) : Change Json :=
  if event.eventType = "ADDED" then .added (content event.resource)
  else if event.eventType = "MODIFIED" then .modified (content event.resource)
  else .deleted (content event.resource)

def change (event : MembershipHistoryEvent) : Change Json := event.changeBy contentOf

end MembershipHistoryEvent

def replayMembership (events : List MembershipHistoryEvent) : Table Resource.key :=
  events.foldl MembershipHistoryEvent.applyTo .empty

/-! ## Well-formed histories -/

def eventsOf (key : ResourceKey) (events : List MembershipHistoryEvent) : List MembershipHistoryEvent :=
  events.filter fun event => event.key = key

/-- ADDED, then any number of MODIFIED, then DELETED, possibly repeated. -/
def lifecycle : Bool → List MembershipHistoryEvent → Bool
  | _, [] => true
  | alive, event :: rest =>
    match event.eventType, alive with
    | "ADDED", false => lifecycle true rest
    | "MODIFIED", true => lifecycle true rest
    | "DELETED", true => lifecycle false rest
    | _, _ => false

/-- A watch history: every object lives through its lifecycle, ids ascend and resourceVersions do not decrease. -/
structure WellFormedHistory (events : List MembershipHistoryEvent) : Prop where
  lifecycles : ∀ event ∈ events, lifecycle false (eventsOf event.key events) = true
  ids : events.Pairwise fun earlier later => earlier.eventId < later.eventId
  versions : events.Pairwise fun earlier later => earlier.resource.resourceVersion ≤ later.resource.resourceVersion

def DeletionsCarryLast (events : List MembershipHistoryEvent) : Prop :=
  ∀ event ∈ events, (eventsOf event.key events).IsChain fun previous event =>
    event.eventType = "DELETED" → contentOf event.resource = contentOf previous.resource

instance (events : List MembershipHistoryEvent) : Decidable (DeletionsCarryLast events) :=
  inferInstanceAs (Decidable (∀ event ∈ events, List.IsChain _ _))

variable {fr rest tl : List MembershipHistoryEvent} {event : MembershipHistoryEvent} {key : ResourceKey}
  {position ps : WatchReplayPosition} {rc : MembershipReconstructor}

section History

variable {events es : List MembershipHistoryEvent}

@[simp] theorem eventsOf_append : eventsOf key (fr ++ rest) = eventsOf key fr ++ eventsOf key rest :=
  filter_append ..

theorem eventsOf_cons_self : eventsOf event.key (event :: rest) = event :: eventsOf event.key rest := by
  simp [eventsOf]

theorem eventsOf_cons_ne (h : event.key ≠ key) : eventsOf key (event :: rest) = eventsOf key rest := by
  simp [eventsOf, h]

theorem eventsOf_eq_nil (h : ∀ event ∈ es, event.key ≠ key) : eventsOf key es = [] := by
  simpa [eventsOf, filter_eq_nil_iff] using h

def MembershipHistoryEvent.Known (event : MembershipHistoryEvent) : Prop :=
  event.eventType = "ADDED" ∨ event.eventType = "MODIFIED" ∨ event.eventType = "DELETED"

theorem lifecycle_cons {al : Bool} (h : lifecycle al (event :: tl)) :
    (event.eventType = "ADDED" ∧ al = false ∧ lifecycle true tl) ∨
      (event.eventType = "MODIFIED" ∧ al ∧ lifecycle true tl) ∨
      (event.eventType = "DELETED" ∧ al ∧ lifecycle false tl) := by
  unfold lifecycle at h
  split at h
  · rename_i ht
    exact .inl ⟨ht, rfl, h⟩
  · rename_i ht
    exact .inr (.inl ⟨ht, rfl, h⟩)
  · rename_i ht
    exact .inr (.inr ⟨ht, rfl, h⟩)
  · cases h

theorem known_of_lifecycle {al : Bool} (h : lifecycle al es) : ∀ event ∈ es, event.Known := by
  induction es generalizing al with
  | nil => simp
  | cons head tl ih =>
    intro event hev
    rcases lifecycle_cons h with ⟨ht, -, hr⟩ | ⟨ht, -, hr⟩ | ⟨ht, -, hr⟩ <;>
      rcases mem_cons.1 hev with rfl | hev
    · exact .inl ht
    · exact ih hr event hev
    · exact .inr (.inl ht)
    · exact ih hr event hev
    · exact .inr (.inr ht)
    · exact ih hr event hev

theorem WellFormedHistory.known (h : WellFormedHistory es) : ∀ event ∈ es, event.Known := by
  intro event he
  exact known_of_lifecycle (h.lifecycles event he) event (by simp [eventsOf, he])

theorem coherent_of_lifecycle {i : Option Json} (h : lifecycle i.isSome events)
    (hh : ∀ event ∈ events.head?, event.eventType = "DELETED" → i = some (contentOf event.resource))
    (hc : events.IsChain fun p event =>
      event.eventType = "DELETED" → contentOf event.resource = contentOf p.resource) :
    Coherent change i events := by
  induction events generalizing i with
  | nil =>
    intro fr event tl h
    simp at h
  | cons event tl ih =>
    obtain ⟨hx, hc⟩ := isChain_cons.1 hc
    have ha : ∀ next ∈ tl.head?, next.eventType = "DELETED" →
        some (contentOf event.resource) = some (contentOf next.resource) :=
      fun next hi ht => congrArg some (hx next hi ht).symm
    rcases lifecycle_cons h with ⟨ht, hl, hr⟩ | ⟨ht, hl, hr⟩ | ⟨ht, hl, hr⟩
    · have hch : event.change = .added (contentOf event.resource) := by
        simp [change, changeBy, ht]
      refine coherent_cons ?_ ?_ <;> rw [hch]
      · exact Option.isSome_eq_false_iff.1 hl |> Option.isNone_iff_eq_none.1
      · exact ih hr ha hc
    · have hch : event.change = .modified (contentOf event.resource) := by
        simp [change, changeBy, ht]
      refine coherent_cons ?_ ?_ <;> rw [hch]
      · exact hl
      · exact ih hr ha hc
    · have hch : event.change = .deleted (contentOf event.resource) := by
        simp [change, changeBy, ht]
      refine coherent_cons ?_ ?_ <;> rw [hch]
      · exact hh event rfl ht
      · -- nothing is deleted right after a deletion
        refine ih hr (fun next hi hd => ?_) hc
        cases tl with
        | nil => simp at hi
        | cons se tl =>
          obtain rfl : se = next := by simpa using hi
          rcases lifecycle_cons hr with ⟨had, -⟩ | ⟨-, ho, -⟩ | ⟨-, ho, -⟩
          · simp [had] at hd
          · cases ho
          · cases ho

theorem coherent_eventsOf (h : WellFormedHistory es) (ha : DeletionsCarryLast es) (key : ResourceKey) :
    Coherent change none (eventsOf key es) := by
  by_cases hk : ∃ event ∈ es, event.key = key
  · obtain ⟨event, hv, rfl⟩ := hk
    have hl := h.lifecycles event hv
    refine coherent_of_lifecycle hl (fun head hh ht => ?_) (ha event hv)
    -- a lifecycle does not begin with a deletion
    obtain ⟨rest, hr⟩ : ∃ rest, eventsOf event.key es = head :: rest := by
      cases he : eventsOf event.key es with
      | nil => simp [he] at hh
      | cons fst rest => exact ⟨rest, by simpa [he] using hh⟩
    rw [hr] at hl
    rcases lifecycle_cons hl with ⟨hd, -⟩ | ⟨-, ho, -⟩ | ⟨-, ho, -⟩
    · simp [hd] at ht
    · cases ho
    · cases ho
  · rw [eventsOf_eq_nil fun event hv heq => hk ⟨event, hv, heq⟩]
    intro fr event rest h
    simp at h

theorem find_replayMembership (hn : ∀ event ∈ es, event.Known) :
    ((replayMembership es).find key).map contentOf = stateAfter change none (eventsOf key es) := by
  induction es using List.reverseRecOn with
  | nil => rfl
  | append_singleton es event ih =>
    have ih := ih fun e he => hn e (mem_append_left _ he)
    have hs : replayMembership (es ++ [event]) = event.applyTo (replayMembership es) := by
      simp [replayMembership]
    rw [hs, eventsOf_append]
    rcases eq_or_ne event.key key with rfl | hkey
    · rw [show eventsOf event.key [event] = [event] by simp [eventsOf], stateAfter_append_singleton]
      unfold applyTo
      rcases hn event (by simp) with hty | hty | hty
      · simp [hty, change, changeBy, key, Change.after]
      · simp [hty, change, changeBy, key, Change.after]
      · rw [if_pos hty, find_deleteWhere_key, if_pos rfl]
        simp [hty, change, changeBy, Change.after]
    · rw [show eventsOf key [event] = [] by simp [eventsOf, hkey], append_nil, ← ih]
      unfold applyTo
      split
      · rw [find_deleteWhere_key, if_neg hkey]
      · rw [find_put_ne (show event.resource.key ≠ key from hkey)]

/-- What a position represents of a history is a first part of each object's events. -/
theorem eventsOf_seen (h : WellFormedHistory es) (position : WatchReplayPosition) (key : ResourceKey) :
    eventsOf key (es.filter (seenAt position)) = (eventsOf key es).takeWhile (seenAt position) := by
  have hm : es.Pairwise fun pr lat => lat.seenAt position → pr.seenAt position := by
    refine (h.ids.and h.versions).imp fun {pr lat} hlt hse => ?_
    unfold seenAt at hse ⊢
    rw [WatchReplayPosition.representsEvent_iff] at hse ⊢
    omega
  have hk : (eventsOf key es).Pairwise fun pr lat =>
      lat.seenAt position → pr.seenAt position := hm.sublist filter_sublist
  rw [← filter_eq_takeWhile hk]
  exact filter_comm ..

end History

/-! ## The walk of one key -/

section Walk

variable {w : Rollback Json} {content : Resource → Json}

/-- What the reconstructor holds for one key is a walk back along that key's log. -/
structure Projects (content : Resource → Json) (key : ResourceKey) (reconstructor : MembershipReconstructor)
    (walk : Rollback Json) : Prop where
  state : (reconstructor.state.find key).map content = walk.state
  pending : key ∈ reconstructor.needsPredecessor ↔ walk.pending = true
  failed : reconstructor.expired = walk.failed

theorem find_put_content (st : Table Resource.key) (event : MembershipHistoryEvent) :
    ((st.put event.resource).find event.key).map content = some (content event.resource) := by
  rw [find_put, if_pos (show event.resource.key = event.key from rfl)]
  rfl

section

variable (h : Projects content event.key rc w) (hn : event.Known)
include h hn

theorem takePredecessor_projects :
    Projects content event.key (rc.takePredecessor event) (w.resolve (event.changeBy content)) := by
  unfold takePredecessor Rollback.resolve
  have hk : event.resource.key = event.key := rfl
  cases hw : w.pending with
  | false =>
    have hd : event.key ∉ rc.needsPredecessor := fun hi => by simp [h.pending.1 hi] at hw
    rw [if_neg (by rwa [hk]), if_neg (by simp)]
    exact h
  | true =>
    have hi : event.key ∈ rc.needsPredecessor := h.pending.2 hw
    rw [if_pos (by rwa [hk]), if_pos rfl]
    rcases hn with hty | hty | hty
    · simp only [changeBy, hty, if_true]
      exact ⟨find_put_content _ _, by simp [hk], h.failed⟩
    · simp only [changeBy, hty, if_true]
      exact ⟨find_put_content _ _, by simp [hk], h.failed⟩
    · simp only [changeBy, hty, if_true]
      exact ⟨h.state, by simp [hk], rfl⟩

theorem undo_projects : Projects content event.key (rc.undo event) (w.undo (event.changeBy content)) := by
  unfold undo
  rcases hn with hty | hty | hty
  · simp only [changeBy, hty, if_true, Rollback.undo]
    refine ⟨?_, h.pending, h.failed⟩
    rw [find_deleteWhere_key, if_pos (show event.resource.key = event.key from rfl)]
    rfl
  · simp only [changeBy, hty, Rollback.undo]
    exact ⟨h.state, by simp [MembershipHistoryEvent.key], h.failed⟩
  · simp only [changeBy, hty, Rollback.undo]
    exact ⟨find_put_content _ _, h.pending, h.failed⟩

theorem observe_projects (hs : rc.position = position) : Projects content event.key (rc.observe event)
      (w.observe (changeBy content) (seenAt position) event) := by
  have hr := takePredecessor_projects h hn
  unfold observe Rollback.observe
  rw [h.failed]
  split
  · exact h
  · have he : rc.position.representsEvent event.eventId event.resource.resourceVersion =
        event.seenAt position := by
      rw [hs]
      rfl
    simp only [he, hr.failed]
    split
    · exact hr
    · exact undo_projects hr hn

end

theorem observe_position : (rc.observe event).position = rc.position := by
  have ht : (rc.takePredecessor event).position = rc.position := by
    unfold takePredecessor
    split
    · simp only
      split <;> rfl
    · rfl
  have hu : ∀ rs : MembershipReconstructor, (rs.undo event).position = rs.position := by
    intro rs
    unfold undo
    split <;> rfl
  unfold observe
  split
  · rfl
  · simp only
    split
    · exact ht
    · exact (hu _).trans ht

theorem observe_other (rc : MembershipReconstructor) (hk : event.key ≠ key) :
    (rc.observe event).state.find key = rc.state.find key ∧
      (key ∈ (rc.observe event).needsPredecessor ↔ key ∈ rc.needsPredecessor) := by
  have hne : event.resource.key ≠ key := hk
  have hp : ∀ st : Table Resource.key, (st.put event.resource).find key = st.find key :=
    fun st => find_put_ne hne
  have ht : (rc.takePredecessor event).state.find key = rc.state.find key ∧
      (key ∈ (rc.takePredecessor event).needsPredecessor ↔ key ∈ rc.needsPredecessor) := by
    unfold takePredecessor
    split
    · simp only
      split <;> simp [hp, hne.symm]
    · exact ⟨rfl, Iff.rfl⟩
  have hu : ∀ rs : MembershipReconstructor, (rs.undo event).state.find key = rs.state.find key ∧
      (key ∈ (rs.undo event).needsPredecessor ↔ key ∈ rs.needsPredecessor) := by
    intro rs
    unfold undo
    split
    · exact ⟨by rw [find_deleteWhere_key, if_neg hne], Iff.rfl⟩
    · exact ⟨rfl, by simp [hne.symm]⟩
    · exact ⟨hp _, Iff.rfl⟩
    · exact ⟨rfl, Iff.rfl⟩
  unfold observe
  split
  · exact ⟨rfl, Iff.rfl⟩
  · simp only
    split
    · exact ht
    · exact ⟨(hu _).1.trans ht.1, (hu _).2.trans ht.2⟩

end Walk

variable {st : Table Resource.key} {c : List Resource}

/-! ## The walks of all keys -/

section Rebuild

variable {r : List MembershipHistoryEvent}

structure Rebuilds (position : WatchReplayPosition) (front rest : List MembershipHistoryEvent)
    (reconstructor : MembershipReconstructor) : Prop where
  cursor : reconstructor.position = position
  alive : reconstructor.expired = false
  walks : ∀ key, ∃ walk, Projects contentOf key reconstructor walk ∧
    Rollback.Tracks MembershipHistoryEvent.change (MembershipHistoryEvent.seenAt position) none (eventsOf key front)
      (eventsOf key rest) walk

theorem observe_rebuilds (hn : event.Known) (hc : Coherent change none (eventsOf event.key (fr ++ event :: tl)))
    (h : Rebuilds ps (fr ++ [event]) tl rc) :
    Rebuilds ps fr (event :: tl) (rc.observe event) := by
  obtain ⟨w, hp, ht⟩ := h.walks event.key
  have hm := observe_projects hp hn h.cursor
  rw [eventsOf_append, eventsOf_cons_self] at hc ht
  have ht := Rollback.observe_tracks hc ht
  have ha : (rc.observe event).expired = false := hm.failed.trans ht.alive
  refine ⟨observe_position.trans h.cursor, ha, fun key => ?_⟩
  rcases eq_or_ne event.key key with rfl | hkey
  · refine ⟨_, hm, ?_⟩
    rwa [eventsOf_cons_self]
  · obtain ⟨w, hp, ht⟩ := h.walks key
    obtain ⟨hs, he⟩ := observe_other rc hkey
    refine ⟨w, ⟨by rw [hs, hp.state], he.trans hp.pending, ?_⟩, ?_⟩
    · rw [ha, ht.alive]
    · rw [eventsOf_append, show eventsOf key [event] = [] from eventsOf_cons_ne hkey, append_nil] at ht
      rwa [eventsOf_cons_ne hkey]

theorem foldl_observe_rebuilds (hn : ∀ event ∈ r, event.Known)
    (hc : ∀ key, Coherent change none (eventsOf key (fr ++ r ++ tl)))
    (h : Rebuilds ps (fr ++ r) tl rc) :
    Rebuilds ps fr (r ++ tl) (r.reverse.foldl observe rc) := by
  induction r using List.reverseRecOn generalizing tl rc with
  | nil => simpa using h
  | append_singleton r event ih =>
    have hs : Rebuilds ps (fr ++ r) (event :: tl) (rc.observe event) := by
      refine observe_rebuilds (hn event (by simp)) ?_ ?_
      · simpa using hc event.key
      · simpa using h
    have hr := ih (fun e he => hn e (mem_append_left _ he)) (by simpa using hc) hs
    simpa using hr

theorem mem_listings {content : Json} :
    (key, content) ∈ st.rows.map listing ↔ (st.find key).map contentOf = some content := by
  rw [mem_map, Option.map_eq_some_iff]
  constructor
  · rintro ⟨re, hi, hl⟩
    obtain ⟨rfl, rfl⟩ := Prod.mk.inj hl
    exact ⟨re, find_of_mem hi, rfl⟩
  · rintro ⟨re, hf, rfl⟩
    have hk : re.key = key := find_key hf
    exact ⟨re, find_mem hf, by rw [listing, hk]⟩

theorem listings_perm {o : Table Resource.key} (h : ∀ key, (st.find key).map contentOf = (o.find key).map contentOf) :
    (st.rows.map listing).Perm (o.rows.map listing) := by
  have hd : ∀ t : Table Resource.key, (t.rows.map listing).Nodup := by
    intro t
    refine List.Nodup.of_map Prod.fst ?_
    rw [map_map]
    exact t.nodup
  refine (perm_ext_iff_of_nodup (hd st) (hd o)).2 fun e => ?_
  rw [mem_listings, mem_listings, h]

theorem find_new (h : (c.map listing).Perm (st.rows.map listing)) (key : ResourceKey) :
    ((new c ps).state.find key).map contentOf = (st.find key).map contentOf := by
  have hk : (c.map Resource.key).Perm (st.rows.map Resource.key) := by
    have hf := h.map Prod.fst
    rwa [map_map, map_map] at hf
  have hd : (c.map Resource.key).Nodup := hk.nodup_iff.2 st.nodup
  refine Option.ext fun content => ?_
  have hr : (key, content) ∈ (new c ps).state.rows.map listing ↔ (key, content) ∈ c.map listing := by
    simp [mem_map, new, mem_foldl_put hd, rows_empty, not_mem_nil, false_and, or_false]
  rw [← mem_listings, ← mem_listings, hr, h.mem_iff]

theorem new_rebuilds {events : List MembershipHistoryEvent} (hn : ∀ event ∈ events, event.Known)
    (hc : (c.map listing).Perm ((replayMembership events).rows.map listing)) :
    Rebuilds ps events [] (.new c ps) := by
  refine ⟨rfl, rfl, fun key => ⟨_, ⟨?_, ?_, rfl⟩, Rollback.start_tracks⟩⟩
  · rw [find_new hc, find_replayMembership hn]
    rfl
  · simp [new, Rollback.start]

theorem finish_eq_items_iff {items : List Resource} : rc.finish = .items items ↔
    rc.expired = false ∧ rc.needsPredecessor = [] ∧ rc.state.rows = items := by
  unfold finish
  cases rc.expired with
  | true => simp
  | false => cases rc.needsPredecessor <;> simp

/-- With only represented events in front, a reconstructor that waits for nothing holds the replay of the represented
events. -/
theorem Rebuilds.eq_replay (hw : WellFormedHistory (fr ++ tl)) (h : Rebuilds position fr tl rc)
    (hd : rc.needsPredecessor = [])
    (hf : ∀ event ∈ fr, event.seenAt position) (key : ResourceKey) :
    (rc.state.find key).map contentOf =
      ((replayMembership ((fr ++ tl).filter (seenAt position))).find key).map contentOf := by
  obtain ⟨w, hp, ht⟩ := h.walks key
  have he : w.pending = false := by
    refine Bool.eq_false_iff.2 fun ha => ?_
    simpa [hd] using hp.pending.2 ha
  have hs : ∀ event ∈ eventsOf key fr, event.seenAt position :=
    fun event hv => hf event (mem_of_mem_filter hv)
  have hn : ∀ event ∈ (fr ++ tl).filter (seenAt position), event.Known :=
    fun event hv => hw.known event (mem_of_mem_filter hv)
  rw [hp.state, ht.finish he hs, ← eventsOf_append, find_replayMembership hn, eventsOf_seen hw]
  rfl

theorem Rebuilds.idle (h : Rebuilds ps [] tl rc) : rc.needsPredecessor = [] := by
  refine eq_nil_iff_forall_not_mem.2 fun key hi => ?_
  obtain ⟨w, hp, ht⟩ := h.walks key
  have hs := (ht.waiting (hp.pending.1 hi)).2
  simp [eventsOf] at hs

/-- If every event that is no longer retained is represented by the position, and a delete row carries the last object,
the rebuilt objects are those of replaying the represented events; with the whole history the position never expires. -/
theorem reconstructMembership_eq_replay (current : List Resource) (dropped retained : List MembershipHistoryEvent)
    (position : WatchReplayPosition) (hwell : WellFormedHistory (dropped ++ retained))
    (hlast : DeletionsCarryLast (dropped ++ retained))
    (hcurrent : (current.map listing).Perm ((replayMembership (dropped ++ retained)).rows.map listing))
    (hdropped : ∀ event ∈ dropped, event.seenAt position = true) :
    (∀ items, reconstructMembership current retained position = .items items →
      (items.map listing).Perm ((replayMembership
        ((dropped ++ retained).filter (MembershipHistoryEvent.seenAt position))).rows.map listing)) ∧
      (dropped = [] → ∃ items, reconstructMembership current retained position = .items items) := by
  have hc := coherent_eventsOf hwell hlast
  have hr : Rebuilds position dropped (retained ++ []) (retained.reverse.foldl observe (.new current position)) := by
    refine foldl_observe_rebuilds (fun event he => hwell.known event (mem_append_right _ he)) ?_ ?_
    · simpa using hc
    · exact new_rebuilds hwell.known hcurrent
  rw [append_nil] at hr
  refine ⟨fun items hi => ?_, fun hw => ?_⟩
  · obtain ⟨-, hd, rfl⟩ := finish_eq_items_iff.1 hi
    exact listings_perm (hr.eq_replay hwell hd hdropped)
  · subst hw
    exact ⟨_, finish_eq_items_iff.2 ⟨hr.alive, hr.idle, rfl⟩⟩

end Rebuild

/-! ## Fixed histories -/

def settingsEvent (id : Int) (eventType value : String) : MembershipHistoryEvent :=
  ⟨id, eventType, ⟨"v1", "ConfigMap", some "default", "settings"⟩, "u1", id, .obj [("data", .str value)]⟩

theorem reconstructMembership_eq_replay_recreated :
    ∃ items, reconstructMembership [(settingsEvent 4 "ADDED" "new").resource]
        [settingsEvent 2 "MODIFIED" "b", settingsEvent 3 "DELETED" "b", settingsEvent 4 "ADDED" "new"] ⟨0, 2, 0⟩ =
          .items items ∧
      (items.map listing).Perm [(⟨"v1", "ConfigMap", some "default", "settings"⟩, .obj [("data", .str "b")])] := by
  have h := reconstructMembership_eq_replay [(settingsEvent 4 "ADDED" "new").resource] [settingsEvent 1 "ADDED" "a"]
    [settingsEvent 2 "MODIFIED" "b", settingsEvent 3 "DELETED" "b", settingsEvent 4 "ADDED" "new"] ⟨0, 2, 0⟩
    ⟨by decide +kernel, by decide +kernel, by decide +kernel⟩ (by decide +kernel) (by decide +kernel)
      (by decide +kernel)
  exact ⟨_, rfl, h.1 _ rfl⟩

/-- A dropped addition the position does not represent stays in the result, and a delete row with another object
brings that object back. -/
theorem reconstructMembership_dropped_addition : (WellFormedHistory ([settingsEvent 1 "ADDED" "a"] ++ []) ∧
      (replayMembership [settingsEvent 1 "ADDED" "a"]).rows = [(settingsEvent 1 "ADDED" "a").resource] ∧
      reconstructMembership [(settingsEvent 1 "ADDED" "a").resource] [] ⟨0, 0, 0⟩ =
        .items [(settingsEvent 1 "ADDED" "a").resource] ∧
      (replayMembership ([settingsEvent 1 "ADDED" "a"].filter (MembershipHistoryEvent.seenAt ⟨0, 0, 0⟩))).rows = []) ∧
    (WellFormedHistory [settingsEvent 1 "ADDED" "a", settingsEvent 2 "DELETED" "b"] ∧
      (replayMembership [settingsEvent 1 "ADDED" "a", settingsEvent 2 "DELETED" "b"]).rows = [] ∧
      reconstructMembership [] [settingsEvent 1 "ADDED" "a", settingsEvent 2 "DELETED" "b"] ⟨0, 1, 0⟩ =
        .items [(settingsEvent 2 "DELETED" "b").resource] ∧
      (replayMembership ([settingsEvent 1 "ADDED" "a", settingsEvent 2 "DELETED" "b"].filter
        (MembershipHistoryEvent.seenAt ⟨0, 1, 0⟩))).rows = [(settingsEvent 1 "ADDED" "a").resource]) :=
  ⟨⟨⟨by decide +kernel, by decide +kernel, by decide +kernel⟩, by decide +kernel, rfl, by decide +kernel⟩,
    ⟨by decide +kernel, by decide +kernel, by decide +kernel⟩, by decide +kernel, rfl, by decide +kernel⟩

end Klights.Store
