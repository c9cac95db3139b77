import Mathlib.Data.List.Induction

/-!
# Rolling an object back along its change log

The events of one object, oldest first. Every event is a `Change`: the object is added, modified or deleted, and the
change carries an object (the new one, or the last one for a deletion). A reader has seen some of the events;
`rolledBack` is the object before the first one it has not seen.

`Rollback` walks the log backwards from the current object without knowing where it will stop: an unseen addition
leaves nothing, an unseen deletion brings its object back, and an unseen modification waits for the event before it.

- `observe_tracks`: one observation keeps what the walk knows (`Tracks`);
- `foldl_observe_tracks`: so does a batch of them;
- `Tracks.finish`: a walk that waits for nothing, with only seen events before it, has rolled the object back.
-/

namespace Klights.Lib

open List

inductive Change (α : Type) where
  | added (object : α)
  | modified (object : α)
  | deleted (object : α)

namespace Change

variable {α : Type}

def after : Change α → Option α
  | added object | modified object => some object
  | deleted _ => none

/-- A change fits the object it meets. -/
def Follows (before : Option α) : Change α → Prop
  | added _ => before = none
  | modified _ => before.isSome = true
  | deleted object => before = some object

end Change

section Log

variable {τ α : Type} (change : τ → Change α) (seen : τ → Bool) (initial : Option α)

def stateAfter (events : List τ) : Option α :=
  match events.getLast? with
  | none => initial
  | some event => (change event).after

/-- Every event fits the object the events before it leave. -/
def Coherent (events : List τ) : Prop :=
  ∀ front event rest, events = front ++ event :: rest → (change event).Follows (stateAfter change initial front)

/-- The object before the first event that was not seen. -/
def rolledBack (events : List τ) : Option α := stateAfter change initial (events.takeWhile seen)

variable {change seen initial} {fr rest tl events : List τ} {event ev : τ}

@[simp] theorem stateAfter_nil : stateAfter change initial [] = initial := rfl

@[simp] theorem stateAfter_append_singleton : stateAfter change initial (fr ++ [ev]) = (change ev).after := by
  simp [stateAfter]

theorem stateAfter_cons : stateAfter change initial (event :: rest) = stateAfter change (change event).after rest := by
  cases rest with
  | nil => rfl
  | cons next rest =>
    have hl : (next :: rest).getLast? = some ((next :: rest).getLast (cons_ne_nil next rest)) :=
      getLast?_eq_some_getLast _
    simp [stateAfter, hl]

theorem coherent_cons (hf : (change event).Follows initial) (hr : Coherent change (change event).after tl) :
    Coherent change initial (event :: tl) := by
  intro fr o lat h
  cases fr with
  | nil =>
    obtain ⟨rfl, -⟩ := List.cons.inj h
    exact hf
  | cons head fr =>
    obtain ⟨rfl, ht⟩ := List.cons.inj h
    rw [stateAfter_cons]
    exact hr fr o lat ht

theorem rolledBack_append_seen (h : ∀ event ∈ fr, seen event) :
    rolledBack change seen initial (fr ++ tl) = stateAfter change initial (fr ++ tl.takeWhile seen) := by
  rw [rolledBack, takeWhile_append_of_pos h]

/-- A reader that has seen everything sees the current object. -/
theorem rolledBack_of_seen (h : ∀ event ∈ events, seen event) :
    rolledBack change seen initial events = stateAfter change initial events := by
  rw [← append_nil events, rolledBack_append_seen h]
  rfl

/-- Later events do not matter once none of them is seen. -/
theorem rolledBack_append_unseen (h : ∀ event ∈ tl, seen event = false) :
    rolledBack change seen initial (events ++ tl) = rolledBack change seen initial events := by
  have hs : tl.takeWhile seen = [] := by
    cases tl with
    | nil => rfl
    | cons event tl => simp [h event (by simp)]
  unfold rolledBack
  rw [takeWhile_append]
  split
  · rename_i ha
    rw [hs, append_nil, List.IsPrefix.eq_of_length ( takeWhile_prefix _) ha]
  · rfl

/-- What was seen is a first part of the log as soon as nothing is seen after something unseen. -/
theorem filter_eq_takeWhile (h : events.Pairwise fun p l => seen l → seen p) :
    events.filter seen = events.takeWhile seen := by
  induction events with
  | nil => rfl
  | cons ev events ih =>
    obtain ⟨hh, ht⟩ := pairwise_cons.1 h
    cases hs : seen ev with
    | true => rw [filter_cons_of_pos hs, takeWhile_cons_of_pos hs, ih ht]
    | false =>
      -- nothing after an unseen event is seen
      rw [takeWhile_cons_of_neg (by simp [hs]), filter_eq_nil_iff]
      intro l hlat hy
      rcases mem_cons.1 hlat with rfl | hlat
      · simp [hs] at hy
      · exact absurd (hh l hlat hy) (by simp [hs])

end Log

/-! ## Walking backwards -/

/-- What a walk knows: the object so far, whether a modification waits for the event before it, and whether the log
made no sense. -/
structure Rollback (α : Type) where
  state : Option α
  pending : Bool
  failed : Bool

namespace Rollback

variable {τ α : Type} (change : τ → Change α) (seen : τ → Bool) (initial : Option α)

def start (current : Option α) : Rollback α := ⟨current, false, false⟩

/-- A waiting modification takes its object from the event before it. -/
def resolve (walk : Rollback α) (change : Change α) : Rollback α :=
  if walk.pending then
    match change with
    | .deleted _ => { walk with pending := false, failed := true }
    | .added object | .modified object => { walk with pending := false, state := some object }
  else walk

def undo (walk : Rollback α) : Change α → Rollback α
  | .added _ => { walk with state := none }
  | .modified _ => { walk with pending := true }
  | .deleted object => { walk with state := some object }

def observe (walk : Rollback α) (event : τ) : Rollback α :=
  if walk.failed then walk
  else
    let resolved := walk.resolve (change event)
    if resolved.failed || seen event then resolved else resolved.undo (change event)

structure Tracks (front rest : List τ) (walk : Rollback α) : Prop where
  alive : walk.failed = false
  known : walk.pending = false → walk.state = stateAfter change initial (front ++ rest.takeWhile seen)
  waiting : walk.pending = true → rest.takeWhile seen = [] ∧ (stateAfter change initial front).isSome = true

variable {change seen initial} {front fr rest tl events : List τ} {event ev : τ} {w : Rollback α}

/-- Before anything is observed, the walk knows the current object. -/
theorem start_tracks : Tracks change seen initial events [] (start (stateAfter change initial events)) :=
  ⟨rfl, fun _ => by simp [start], nofun⟩

/-- With a waiting modification resolved, the walk knows the object after the event at hand. -/
theorem resolve_tracks (h : Tracks change seen initial (fr ++ [ev]) tl w) :
    (w.resolve (change ev)).failed = false ∧ (w.resolve (change ev)).pending = false ∧
      (w.resolve (change ev)).state = stateAfter change initial (fr ++ [ev] ++ tl.takeWhile seen) := by
  unfold resolve
  cases hp : w.pending with
  | false => exact ⟨h.alive, hp, h.known hp⟩
  | true =>
    obtain ⟨hsp, hs⟩ := h.waiting hp
    rw [hsp, append_nil]
    rw [stateAfter_append_singleton] at hs ⊢
    cases hc : change ev with
    | added ob => exact ⟨h.alive, rfl, rfl⟩
    | modified ob => exact ⟨h.alive, rfl, rfl⟩
    | deleted ob => simp [hc, Change.after] at hs

theorem observe_tracks (hc : Coherent change initial (front ++ event :: tl))
    (h : Tracks change seen initial (front ++ [event]) tl w) :
    Tracks change seen initial front (event :: tl) (w.observe change seen event) := by
  obtain ⟨ha, hp, ht⟩ := resolve_tracks h
  have hf : (change event).Follows (stateAfter change initial front) := hc front event tl rfl
  have hi : ¬ (w.resolve (change event)).pending := by simp [hp]
  unfold observe
  simp only [h.alive, ha, Bool.false_eq_true, if_false, Bool.false_or]
  cases hs : seen event with
  | true =>
    simp only [if_true]
    refine ⟨ha, fun _ => ?_, fun hw => absurd hw hi⟩
    rw [ht, takeWhile_cons_of_pos hs, append_assoc, singleton_append]
  | false =>
    -- an unseen event ends what was seen of the rest: the object is the one before it
    have hsp : (event :: tl).takeWhile seen = [] := by simp [hs]
    have hb : front ++ (event :: tl).takeWhile seen = front := by rw [hsp, append_nil]
    cases hh : change event with
    | modified ob =>
      rw [hh] at hf ha
      exact ⟨ha, fun hn => absurd hn (by simp [undo]), fun _ => ⟨hsp, hf⟩⟩
    | added ob | deleted ob =>
      rw [hh] at hf ha hi
      refine ⟨ha, fun _ => ?_, fun hw => absurd hw hi⟩
      rw [hb]
      exact hf.symm

theorem foldl_observe_tracks {ba : List τ} :
    ∀ {front rest : List τ} {w : Rollback α}, Coherent change initial (front ++ ba ++ rest) →
      Tracks change seen initial (front ++ ba) rest w →
        Tracks change seen initial front (ba ++ rest) (ba.reverse.foldl (observe change seen) w) := by
  induction ba using List.reverseRecOn with
  | nil => simp
  | append_singleton ba ev ih =>
    intro front rest w hc h
    have hs : Tracks change seen initial (front ++ ba) (ev :: rest) (w.observe change seen ev) := by
      refine observe_tracks ?_ ?_
      · simpa using hc
      · simpa using h
    have hr := ih (by simpa using hc) hs
    simpa using hr

theorem Tracks.finish (h : Tracks change seen initial fr tl w) (hp : w.pending = false)
    (hs : ∀ event ∈ fr, seen event) : w.state = rolledBack change seen initial (fr ++ tl) := by
  rw [h.known hp, rolledBack_append_seen hs]

end Rollback

end Klights.Lib
