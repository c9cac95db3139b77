import Klights.Lib.Except

/-!
# Durable watch-log cursors

`WatchReplayPosition` and its transitions (`klights-cluster-core/src/replay.rs`). A cursor has one of three
shapes: a scalar resourceVersion (`eventId = 0`, no filter), an exact event position (`eventId > 0`, no filter),
or a composite that filters the rows through an establishment anchor by resourceVersion.

- `representsEvent` is the set of events a cursor has already seen (`representsEvent_iff`);
- consuming an event the cursor has not seen succeeds (`advanceThroughEvent_eq`); from an exact or composite cursor it
  adds exactly the events up to that one (`represents_consume`);
- from a scalar cursor it forgets the resourceVersion filter (`represents_consume_scalar`);
- `permitsSuccessor_iff` says what a successor is; both ways to advance lead to one (`cursor_algebra`).
-/

namespace Klights.Replay

open Lib

/-- Lossless durable watch-log cursor. -/
structure WatchReplayPosition where
  resourceVersion : Int
  eventId : Int
  /-- While non-zero, rows through this event id are filtered by `resourceVersion`. -/
  resourceVersionFilterThroughEventId : Int
  deriving DecidableEq

namespace WatchReplayPosition

def fromResourceVersion (resourceVersion : Int) : WatchReplayPosition := ⟨resourceVersion, 0, 0⟩

def fromResourceVersionThroughEventId (resourceVersion eventId : Int) : WatchReplayPosition :=
  ⟨resourceVersion, 0, eventId⟩

/-- The `Debug` text of a cursor, as error messages show it. -/
def debug (p : WatchReplayPosition) : String :=
  "WatchReplayPosition \x7b resource_version: " ++ toString p.resourceVersion ++ ", event_id: " ++
    toString p.eventId ++ ", resource_version_filter_through_event_id: " ++
    toString p.resourceVersionFilterThroughEventId ++ " \x7d"

/-- Whether an event's post-state is already represented by the cursor. -/
def representsEvent (p : WatchReplayPosition) (eventId resourceVersion : Int) : Bool :=
  if eventId ≤ p.eventId then true
  else if p.resourceVersionFilterThroughEventId > 0 then
    eventId ≤ p.resourceVersionFilterThroughEventId && resourceVersion ≤ p.resourceVersion
  else p.eventId == 0 && resourceVersion ≤ p.resourceVersion

/-- The canonical composite representation. -/
def validate (p : WatchReplayPosition) : Except String Unit :=
  if p.resourceVersion < 0 ∨ p.eventId < 0 ∨ p.resourceVersionFilterThroughEventId < 0 then
    .error ("replay position must be non-negative: " ++ p.debug)
  else if p.resourceVersionFilterThroughEventId > 0 ∧ p.eventId ≥ p.resourceVersionFilterThroughEventId then
    .error ("replay position retained a completed resourceVersion filter boundary: " ++ p.debug)
  else .ok ()

def validateExact (p : WatchReplayPosition) : Except String Unit := do
  p.validate
  if p.resourceVersionFilterThroughEventId ≠ 0 then
    .error ("exact replay position must not carry a composite filter: " ++ p.debug)
  else .ok ()

/-- Whether `next` is a canonical non-regressing continuation. -/
def permitsSuccessor (p next : WatchReplayPosition) : Bool :=
  if p.validate ≠ .ok () ∨ next.validate ≠ .ok () then false
  else if next.eventId < p.eventId then false
  else if next.eventId = p.eventId then next = p
  else if p.resourceVersionFilterThroughEventId = 0 then next.resourceVersionFilterThroughEventId = 0
  else if next.eventId < p.resourceVersionFilterThroughEventId then
    next.resourceVersion = p.resourceVersion ∧
      next.resourceVersionFilterThroughEventId = p.resourceVersionFilterThroughEventId
  else next.resourceVersionFilterThroughEventId = 0

def advanceThroughEvent (p event : WatchReplayPosition) : Except String WatchReplayPosition := do
  p.validate
  event.validateExact
  if event.eventId ≤ p.eventId then
    .error ("event position " ++ event.debug ++ " does not strictly follow cursor " ++ p.debug)
  else if p.resourceVersionFilterThroughEventId > 0 ∧ event.eventId ≤ p.resourceVersionFilterThroughEventId ∧
      event.resourceVersion ≤ p.resourceVersion then
    .error ("event position " ++ event.debug ++ " is excluded by composite cursor " ++ p.debug)
  else if p.resourceVersionFilterThroughEventId > 0 ∧ event.eventId < p.resourceVersionFilterThroughEventId then
    .ok { p with eventId := event.eventId }
  else .ok event

/-- Anchor the cursor at the high water of an empty page. -/
def advanceToHighWater (p : WatchReplayPosition) (highWaterEventId : Int) : Except String WatchReplayPosition := do
  p.validate
  if highWaterEventId < p.eventId then
    .error ("high-water event ID " ++ toString highWaterEventId ++ " regresses cursor " ++ p.debug)
  else if highWaterEventId = p.eventId then .ok p
  else .ok {
    resourceVersion := p.resourceVersion
    eventId := highWaterEventId
    resourceVersionFilterThroughEventId :=
      if highWaterEventId < p.resourceVersionFilterThroughEventId then p.resourceVersionFilterThroughEventId
      else 0 }

/-! ## Validity and representation -/

variable {p event ev n : WatchReplayPosition}

theorem validate_ok_iff : p.validate = .ok () ↔
    0 ≤ p.resourceVersion ∧ 0 ≤ p.eventId ∧ 0 ≤ p.resourceVersionFilterThroughEventId ∧
      (0 < p.resourceVersionFilterThroughEventId → p.eventId < p.resourceVersionFilterThroughEventId) := by
  unfold validate
  split
  · simp; omega
  · split
    · simp; omega
    · simp; omega

theorem validateExact_ok_iff : p.validateExact = .ok () ↔
    0 ≤ p.resourceVersion ∧ 0 ≤ p.eventId ∧ p.resourceVersionFilterThroughEventId = 0 := by
  rw [validateExact, bind_eq_ok]
  simp only [ite_error_eq_ok, and_true, not_not]
  constructor
  · rintro ⟨_, hv, hf⟩
    have := validate_ok_iff.1 hv
    omega
  · intro h
    exact ⟨(), validate_ok_iff.2 (by omega), h.2.2⟩

theorem representsEvent_iff {e rv : Int} : p.representsEvent e rv ↔ e ≤ p.eventId ∨
      (0 < p.resourceVersionFilterThroughEventId ∧ e ≤ p.resourceVersionFilterThroughEventId ∧ rv ≤ p.resourceVersion) ∨
      (p.resourceVersionFilterThroughEventId ≤ 0 ∧ p.eventId = 0 ∧ rv ≤ p.resourceVersion) := by
  unfold representsEvent
  split
  · simp [*]
  · split
    · simp only [Bool.and_eq_true, decide_eq_true_eq]; omega
    · simp only [Bool.and_eq_true, decide_eq_true_eq, beq_iff_eq]; omega

/-! ## Consuming an event -/

def Anchored (p : WatchReplayPosition) : Prop := 0 < p.eventId ∨ 0 < p.resourceVersionFilterThroughEventId

instance (p : WatchReplayPosition) : Decidable p.Anchored := inferInstanceAs (Decidable (_ ∨ _))

def consume (p event : WatchReplayPosition) : WatchReplayPosition :=
  if p.resourceVersionFilterThroughEventId > 0 ∧ event.eventId < p.resourceVersionFilterThroughEventId then
    { p with eventId := event.eventId }
  else event

theorem advanceThroughEvent_eq (hp : p.validate = .ok ()) (he : ev.validateExact = .ok ())
    (ha : p.eventId < ev.eventId) (hn : p.representsEvent ev.eventId ev.resourceVersion = false) :
    p.advanceThroughEvent ev = .ok (p.consume ev) := by
  have ho := mt representsEvent_iff.2 (by rw [hn]; decide)
  have h₁ : ¬ev.eventId ≤ p.eventId := by omega
  have h₂ : ¬(p.resourceVersionFilterThroughEventId > 0 ∧ ev.eventId ≤ p.resourceVersionFilterThroughEventId ∧
      ev.resourceVersion ≤ p.resourceVersion) := by omega
  simp only [advanceThroughEvent, hp, he, bind, Except.bind, if_neg h₁, if_neg h₂, consume]
  split <;> rfl

theorem consume_valid (hp : p.validate = .ok ()) (he : ev.validateExact = .ok ()) :
    (p.consume ev).validate = .ok () := by
  have hp' := validate_ok_iff.1 hp
  have he' := validateExact_ok_iff.1 he
  unfold consume
  split
  · refine validate_ok_iff.2 ?_
    simp only
    omega
  · refine validate_ok_iff.2 ?_
    omega

theorem advanceThroughEvent_ok (h : p.advanceThroughEvent ev = .ok n) :
    p.validate = .ok () ∧ ev.validateExact = .ok () ∧ p.eventId < ev.eventId ∧ n = p.consume ev := by
  obtain ⟨_, hp, h⟩ := bind_eq_ok.1 h
  obtain ⟨_, he, h⟩ := bind_eq_ok.1 h
  obtain ⟨ha, h⟩ := ite_error_eq_ok.1 h
  obtain ⟨-, h⟩ := ite_error_eq_ok.1 h
  rw [← apply_ite Except.ok] at h
  cases h
  exact ⟨hp, he, Int.not_le.1 ha, rfl⟩

theorem advanceThroughEvent_valid (h : p.advanceThroughEvent ev = .ok n) : n.validate = .ok () := by
  obtain ⟨hp, he, -, rfl⟩ := advanceThroughEvent_ok h
  exact consume_valid hp he

theorem consume_anchored (ha : 0 < ev.eventId) : (p.consume ev).Anchored := by
  unfold consume
  split
  · exact .inl ha
  · exact .inl ha

theorem represents_consume (ha : p.Anchored) (he : ev.validateExact = .ok ())
    (hf : p.eventId < ev.eventId) {e rv : Int} :
    (p.consume ev).representsEvent e rv ↔ e ≤ ev.eventId ∨ p.representsEvent e rv := by
  have he' := validateExact_ok_iff.1 he
  unfold Anchored at ha
  rw [representsEvent_iff, representsEvent_iff]
  unfold consume
  split
  · simp only
    omega
  · omega

theorem represents_consume_scalar (hf : p.resourceVersionFilterThroughEventId = 0)
    (he : event.validateExact = .ok ()) (ha : 0 < event.eventId) {e rv : Int} :
    (p.consume event).representsEvent e rv ↔ e ≤ event.eventId := by
  have he' := validateExact_ok_iff.1 he
  have hev : p.consume event = event := by
    unfold consume
    rw [if_neg]
    omega
  rw [hev, representsEvent_iff]
  omega

/-! ## Successors -/

theorem permitsSuccessor_iff : p.permitsSuccessor n ↔ p.validate = .ok () ∧ n.validate = .ok () ∧
    p.eventId ≤ n.eventId ∧
      (n.eventId = p.eventId ∨ n.eventId < p.resourceVersionFilterThroughEventId →
        n.resourceVersion = p.resourceVersion ∧
        n.resourceVersionFilterThroughEventId = p.resourceVersionFilterThroughEventId) ∧
      (p.eventId < n.eventId → p.resourceVersionFilterThroughEventId ≤ n.eventId →
        n.resourceVersionFilterThroughEventId = 0) := by
  by_cases hv : p.validate = .ok () ∧ n.validate = .ok ()
  · have hp := validate_ok_iff.1 hv.1
    have hn := validate_ok_iff.1 hv.2
    obtain ⟨r, e, f⟩ := p
    obtain ⟨r', e', f'⟩ := n
    simp only [permitsSuccessor, hv, mk.injEq, ne_eq, not_true_eq_false, or_self, if_false, true_and] at hp hn ⊢
    split_ifs <;> simp only [decide_eq_true_eq, false_iff] <;> omega
  · simp only [permitsSuccessor, if_pos (not_and_or.1 hv)]
    simpa using fun hp hn => absurd ⟨hp, hn⟩ hv

theorem permitsSuccessor_trans {q r : WatchReplayPosition} (h : p.permitsSuccessor q) (h' : q.permitsSuccessor r) :
    p.permitsSuccessor r := by
  obtain ⟨hp, hq, h⟩ := permitsSuccessor_iff.1 h
  obtain ⟨-, hr, h'⟩ := permitsSuccessor_iff.1 h'
  refine permitsSuccessor_iff.2 ⟨hp, hr, ?_⟩
  omega

/-- A successor of an anchored cursor represents what that does and every event up to its own. -/
theorem represents_successor (h : p.permitsSuccessor n) (ha : p.Anchored) (e rv : Int) :
    n.representsEvent e rv ↔ p.representsEvent e rv ∨ e ≤ n.eventId := by
  obtain ⟨hp, -, h⟩ := permitsSuccessor_iff.1 h
  have hp' := validate_ok_iff.1 hp
  rw [representsEvent_iff, representsEvent_iff]
  unfold Anchored at ha
  omega

theorem advanceThroughEvent_permits (h : p.advanceThroughEvent ev = .ok n) : p.permitsSuccessor n := by
  obtain ⟨hp, he, ha, rfl⟩ := advanceThroughEvent_ok h
  refine permitsSuccessor_iff.2 ⟨hp, consume_valid hp he, ?_⟩
  have he' := validateExact_ok_iff.1 he
  unfold consume
  split
  · dsimp only
    omega
  · omega

theorem advanceToHighWater_permits {w : Int} (h : p.advanceToHighWater w = .ok n) : p.permitsSuccessor n := by
  obtain ⟨_, hp, h⟩ := bind_eq_ok.1 h
  obtain ⟨ha, h⟩ := ite_error_eq_ok.1 h
  have hv := validate_ok_iff.1 hp
  split at h
  · cases h
    exact permitsSuccessor_iff.2 ⟨hp, hp, by omega⟩
  · cases h
    refine permitsSuccessor_iff.2 ⟨hp, validate_ok_iff.2 ?_, ?_⟩
    · dsimp only
      split <;> omega
    · dsimp only
      split <;> omega

/-- **Cursor algebra.** What an event or a high water advances a cursor to is valid, a permitted successor, and from an
anchored cursor represents exactly the events up to it besides those before; successors compose. -/
theorem cursor_algebra (cursor : WatchReplayPosition) :
    (∀ next, ((∃ event, cursor.advanceThroughEvent event = .ok next) ∨
        ∃ highWater, cursor.advanceToHighWater highWater = .ok next) →
      next.validate = .ok () ∧ cursor.permitsSuccessor next ∧ (cursor.Anchored → ∀ eventId resourceVersion,
        next.representsEvent eventId resourceVersion ↔
          cursor.representsEvent eventId resourceVersion ∨ eventId ≤ next.eventId)) ∧
    ∀ next last, cursor.permitsSuccessor next → next.permitsSuccessor last → cursor.permitsSuccessor last := by
  refine ⟨fun next h => ?_, fun next last => permitsSuccessor_trans⟩
  have hs : cursor.permitsSuccessor next := by
    obtain ⟨event, h⟩ | ⟨highWater, h⟩ := h
    · exact advanceThroughEvent_permits h
    · exact advanceToHighWater_permits h
  exact ⟨(permitsSuccessor_iff.1 hs).2.1, hs, represents_successor hs⟩

end WatchReplayPosition

/-! ## Pages -/

structure PositionedWatchEvent (α : Type) where
  position : WatchReplayPosition
  event : α

/-- Advance through the returned rows, or anchor an empty page at its high water. A failed transition panics in the
source (`expect`); that is the error here. -/
def WatchReplayPosition.afterPage {α : Type} (current : WatchReplayPosition) (events : List (PositionedWatchEvent α))
    (highWaterEventId : Int) (_limit : Nat) : Except String WatchReplayPosition :=
  match events.getLast? with
  | some event => (current.advanceThroughEvent event.position).mapError fun e =>
      "watch-history page positions must be validated before transition: \"" ++ e ++ "\""
  | none => (current.advanceToHighWater highWaterEventId).mapError fun e =>
      "watch-history high water must be validated before transition: \"" ++ e ++ "\""

end Klights.Replay
