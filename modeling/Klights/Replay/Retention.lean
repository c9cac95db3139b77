import Klights.Replay.Position

/-!
# Retained-history boundaries

`ReplayRetentionBoundary` (`klights-cluster-store/src/replay_retention.rs`): what is left of the rows a
collection removed from the watch log, and which cursors may still be replayed over it.

What a list of boundaries has to keep is `Covers`: some exact boundary reaches the resourceVersion of every removed
row, and some exact boundary reaches its event id. The two may be different boundaries.

- `classifyAll_available_represents`: over covering boundaries, an accepted cursor represents every removed row,
  whatever its shape;
- `retainExact_covers`: keeping only the two extreme boundaries still covers.
-/

namespace Klights.Replay

open List

inductive ReplayRetentionBoundary where
  | exact (floor : WatchReplayPosition)
  | legacyRvOnly (resourceVersion : Int)

inductive ReplayAvailability where
  | available
  | expired
  deriving DecidableEq

variable {r : List (Int × Int)}

namespace ReplayRetentionBoundary

def classify (boundary : ReplayRetentionBoundary) (cursor : WatchReplayPosition) : ReplayAvailability :=
  match boundary with
  | .exact floor =>
    if cursor.eventId > 0 then
      if cursor.eventId < floor.eventId then .expired else .available
    else if cursor.resourceVersionFilterThroughEventId > 0 then
      if cursor.resourceVersion < floor.resourceVersion ∨
          cursor.resourceVersionFilterThroughEventId < floor.eventId then .expired
      else .available
    else if cursor.resourceVersion < floor.resourceVersion then .expired
    else .available
  | .legacyRvOnly resourceVersion =>
    if cursor.eventId > 0 ∨ cursor.resourceVersionFilterThroughEventId > 0 ∨
        cursor.resourceVersion < resourceVersion then .expired
    else .available

variable (boundaries bs : List ReplayRetentionBoundary)

/-- A cursor is accepted when no boundary expires it. -/
def classifyAll (cursor : WatchReplayPosition) : ReplayAvailability :=
  if boundaries.any fun boundary => boundary.classify cursor = .expired then .expired else .available

def exactPosition : ReplayRetentionBoundary → Option WatchReplayPosition
  | .exact position => some position
  | .legacyRvOnly _ => none

/-- `Iterator::max_by_key`: the last of the greatest elements. -/
def maxByKey (f : WatchReplayPosition → Int) (first : WatchReplayPosition) (rest : List WatchReplayPosition) :
    WatchReplayPosition :=
  rest.foldl (fun best p => if f best ≤ f p then p else best) first

/-- Keep the two real exact boundaries that scalar and positioned cursors need. -/
def retainExact (candidate : WatchReplayPosition) : List ReplayRetentionBoundary :=
  match boundaries.filterMap exactPosition ++ [candidate] with
  | [] => boundaries
  | first :: rest =>
    let highestResourceVersion := maxByKey (·.resourceVersion) first rest
    let highestEventId := maxByKey (·.eventId) first rest
    boundaries.filter (fun boundary => boundary.exactPosition.isNone) ++ .exact highestResourceVersion ::
      if highestEventId ≠ highestResourceVersion then [.exact highestEventId] else []

/-! ## What the boundaries keep -/

/-- Removed rows, as (event id, resourceVersion), stay below some exact boundary in each coordinate. -/
structure Covers (removed : List (Int × Int)) : Prop where
  resourceVersion : ∀ row ∈ removed, ∃ floor, .exact floor ∈ boundaries ∧ row.2 ≤ floor.resourceVersion
  eventId : ∀ row ∈ removed, ∃ floor, .exact floor ∈ boundaries ∧ row.1 ≤ floor.eventId

variable {bs : List ReplayRetentionBoundary} {c fl : WatchReplayPosition}

theorem Covers.mono {bs' : List ReplayRetentionBoundary} {r' : List (Int × Int)} (h : Covers bs r) (hb : bs ⊆ bs')
    (hr : r' ⊆ r) : Covers bs' r' where
  resourceVersion ro hm := (h.resourceVersion ro (hr hm)).imp fun _ hf => hf.imp_left (hb ·)
  eventId ro hm := (h.eventId ro (hr hm)).imp fun _ hf => hf.imp_left (hb ·)

theorem classifyAll_available_iff : classifyAll bs c = .available ↔ ∀ bu ∈ bs, bu.classify c = .available := by
  unfold classifyAll
  constructor
  · intro h bu hb
    cases hc : bu.classify c with
    | available => rfl
    | expired =>
      have : (bs.any fun b => decide (b.classify c = .expired)) :=
        any_eq_true.2 ⟨bu, hb, by simp [hc]⟩
      simp [this] at h
  · intro h
    rw [if_neg]
    simp only [any_eq_true, decide_eq_true_eq, not_exists, not_and]
    intro b hb
    simp [h b hb]

/-- What an exact boundary guarantees about a cursor it accepts, one case per cursor shape. -/
theorem classify_exact_available (h : (exact fl).classify c = .available) : (0 < c.eventId ∧ fl.eventId ≤ c.eventId) ∨
    (c.eventId ≤ 0 ∧ 0 < c.resourceVersionFilterThroughEventId ∧ fl.resourceVersion ≤ c.resourceVersion ∧
      fl.eventId ≤ c.resourceVersionFilterThroughEventId) ∨
    (c.eventId ≤ 0 ∧ c.resourceVersionFilterThroughEventId ≤ 0 ∧ fl.resourceVersion ≤ c.resourceVersion) := by
  unfold classify at h
  by_cases hi : c.eventId > 0
  · have : ¬c.eventId < fl.eventId := fun hlt => by simp [hi, hlt] at h
    omega
  · by_cases hf : c.resourceVersionFilterThroughEventId > 0
    · have : ¬(c.resourceVersion < fl.resourceVersion ∨
          c.resourceVersionFilterThroughEventId < fl.eventId) := fun hlt => by simp [hi, hf, hlt] at h
      omega
    · have : ¬c.resourceVersion < fl.resourceVersion := fun hlt => by simp [hi, hf, hlt] at h
      omega

theorem classifyAll_available_represents (hc : Covers bs r)
    (hv : c.validate = .ok ()) (h : classifyAll bs c = .available) {ro : Int × Int}
    (hr : ro ∈ r) : c.representsEvent ro.1 ro.2 := by
  obtain ⟨byR, hb, hrv⟩ := hc.resourceVersion ro hr
  obtain ⟨byI, hy, hd⟩ := hc.eventId ro hr
  obtain ⟨-, hn, -⟩ := WatchReplayPosition.validate_ok_iff.1 hv
  have hcr := classify_exact_available (classifyAll_available_iff.1 h _ hb)
  have hi := classify_exact_available (classifyAll_available_iff.1 h _ hy)
  rw [WatchReplayPosition.representsEvent_iff]
  omega

/-! ## Keeping two boundaries -/

variable {f : WatchReplayPosition → Int}

theorem le_maxByKey (f : WatchReplayPosition → Int) : ∀ first tl, ∀ p ∈ first :: tl, f p ≤ f (maxByKey f first tl)
  | first, [] => by simp [maxByKey]
  | first, q :: tl => by
    have ih := le_maxByKey f (if f first ≤ f q then q else first) tl
    have hh := ih _ mem_cons_self
    intro p hp
    rcases mem_cons.1 hp with rfl | hp
    · refine Int.le_trans ?_ hh
      split <;> omega
    · rcases mem_cons.1 hp with rfl | hp
      · refine Int.le_trans ?_ hh
        split <;> omega
      · exact ih p (mem_cons_of_mem _ hp)

theorem retainExact_covers (ho : Covers bs r) (cd : WatchReplayPosition) :
    Covers (retainExact bs cd) ((cd.eventId, cd.resourceVersion) :: r) := by
  -- every exact boundary of the input, and the candidate, is among the positions the maxima range over
  have hm : ∀ fl, .exact fl ∈ bs → fl ∈ bs.filterMap exactPosition ++ [cd] :=
    fun fl h => mem_append_left _ (mem_filterMap.2 ⟨_, h, rfl⟩)
  have hc : cd ∈ bs.filterMap exactPosition ++ [cd] := by simp
  unfold retainExact
  cases hpos : bs.filterMap exactPosition ++ [cd] with
  | nil => simp at hpos
  | cons fst tl =>
    rw [hpos] at hm hc
    have hr := le_maxByKey (·.resourceVersion) fst tl
    have hi := le_maxByKey (·.eventId) fst tl
    constructor
    · intro ro hrow
      refine ⟨maxByKey (·.resourceVersion) fst tl, by simp, ?_⟩
      rcases mem_cons.1 hrow with rfl | hrow
      · exact hr cd hc
      · obtain ⟨fl, hf, hle⟩ := ho.resourceVersion ro hrow
        exact Int.le_trans hle (hr fl (hm fl hf))
    · intro ro hrow
      refine ⟨maxByKey (·.eventId) fst tl, ?_, ?_⟩
      · by_cases heq : maxByKey (·.eventId) fst tl = maxByKey (·.resourceVersion) fst tl
        · simp [heq]
        · simp [heq]
      · rcases mem_cons.1 hrow with rfl | hrow
        · exact hi cd hc
        · obtain ⟨fl, hf, hle⟩ := ho.eventId ro hrow
          exact Int.le_trans hle (hi fl (hm fl hf))

end ReplayRetentionBoundary

end Klights.Replay
