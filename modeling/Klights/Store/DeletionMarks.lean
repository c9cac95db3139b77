import Klights.Lib.Runs
import Klights.Store.ResourceShape

/-!
# Deletion marks over updates

`preserve_server_metadata_fields_from_existing`: an update takes the deletion timestamp and the grace period of the
stored object, unless it shortens the grace period. The mark of an object survives an update exactly when the body has
metadata and, if it shortens the grace period, carries a mark of its own.

- `preserveServer_get`: the two fields after an update;
- `marked_iff`: which updates keep a mark;
- `grace_step`: no update lengthens the grace period;
- `deletion_marks_iff`: both over every sequence of updates.
-/

namespace Klights.Store

open Lib

/-! ## Marks -/

def metadataOf (object : Json) : Json := (object.get "metadata").getD .null

/-- A `deletionTimestamp` that is not `null`. -/
def isMarked (object : Json) : Bool :=
  (object.pointer ["metadata", "deletionTimestamp"]).any fun timestamp => !timestamp.isNull

def graceOf (object : Json) : Option Json := object.pointer ["metadata", "deletionGracePeriodSeconds"]

def shortensGrace (existing body : Json) : Bool := carriesShorterDeleteGrace (metadataOf existing) (metadataOf body)

theorem pointer_metadata (ob : Json) (key : String) : ob.pointer ["metadata", key] = (metadataOf ob).get key := by
  unfold Json.pointer metadataOf
  cases ob.get "metadata" with
  | none => rfl
  | some md => simp [Json.pointer]

theorem isMarked_eq (ob : Json) : isMarked ob = ((metadataOf ob).get "deletionTimestamp").any fun ts => !ts.isNull := by
  rw [isMarked, pointer_metadata]

/-! ## One update -/

section Update

variable {e metadata md body b : Json} {key k : String}

theorem copyField_get_ne {other : String} (h : other ≠ k) : (copyField k e md).get other = md.get other := by
  unfold copyField
  split
  · exact Json.get_insertField_ne _ _ h
  · rfl

theorem copyNonNullField_get_ne {other : String} (h : other ≠ k) :
    (copyNonNullField k e md).get other = md.get other := by
  unfold copyNonNullField
  split
  · rfl
  · rfl
  · exact Json.get_insertField_ne _ _ h

theorem copyNonNullField_get_self (ho : md.asObject.isSome) : (copyNonNullField k e md).get k =
      ((e.get k).filter fun vl => !vl.isNull).or (md.get k) := by
  cases md with
  | obj fs =>
    unfold copyNonNullField
    cases e.get k with
    | none => rfl
    | some vl =>
      cases vl with
      | null => rfl
      | _ => exact Json.get_insertField_self fs k _
  | _ => cases ho

theorem copyNonNullField_object : (copyNonNullField k e md).asObject.isSome = md.asObject.isSome := by
  unfold copyNonNullField
  split
  · rfl
  · rfl
  · simp

theorem preserveServerMetadata_eq (e metadata : Json) : ∃ f, f.asObject.isSome = metadata.asObject.isSome ∧
      (∀ key, key ≠ "uid" → key ≠ "creationTimestamp" → f.get key = metadata.get key) ∧
      preserveServerMetadata e metadata = if carriesShorterDeleteGrace e metadata then f
        else copyNonNullField "deletionGracePeriodSeconds" e (copyNonNullField "deletionTimestamp" e f) := by
  have hc : ∀ (key : String) (v : Json), (copyField key e v).asObject.isSome = v.asObject.isSome := by
    intro key v
    unfold copyField
    split
    · simp
    · rfl
  have hi : ∀ (key : String) (v : Json), ∃ f, f = (if missingOrEmpty (v.get key) then copyField key e v else v) ∧
        f.asObject.isSome = v.asObject.isSome ∧ ∀ other, other ≠ key → f.get other = v.get other := by
    intro key v
    refine ⟨_, rfl, ?_, fun other ho => ?_⟩
    · split
      · exact hc key v
      · rfl
    · split
      · exact copyField_get_ne ho
      · rfl
  obtain ⟨ide, hd, hb, he⟩ := hi "uid" metadata
  obtain ⟨f, hf, ho', hg'⟩ := hi "creationTimestamp" ide
  have hs : ∀ key, key ≠ "uid" → key ≠ "creationTimestamp" → f.get key = metadata.get key :=
    fun key hu hr => (hg' key hr).trans (he key hu)
  refine ⟨f, ho'.trans hb, hs, ?_⟩
  have hg : carriesShorterDeleteGrace e f = carriesShorterDeleteGrace e metadata := by
    unfold carriesShorterDeleteGrace
    rw [hs _ (by decide) (by decide)]
  unfold preserveServerMetadata
  dsimp only
  rw [← hd, ← hf, hg]

theorem metadataOf_preserve (hb : (metadataOf b).asObject.isSome) (ho : (metadataOf e).asObject.isSome) :
    metadataOf (preserveServerMetadataFieldsFromExisting e b) =
      preserveServerMetadata (metadataOf e) (metadataOf b) := by
  unfold metadataOf at *
  unfold preserveServerMetadataFieldsFromExisting
  cases hg : b.get "metadata" with
  | none => rw [hg] at hb; cases hb
  | some md =>
    rw [hg] at hb
    cases hs : e.get "metadata" with
    | none => rw [hs] at ho; cases ho
    | some s =>
      rw [hs] at ho
      cases md with
      | obj fs =>
        cases s with
        | obj st =>
          cases b with
          | obj bo => simp
          | _ => cases hg
        | _ => cases ho
      | _ => cases hb

theorem preserve_eq_self (h : (metadataOf body).asObject.isSome = false ∨ (metadataOf e).asObject.isSome = false) :
    preserveServerMetadataFieldsFromExisting e body = body := by
  unfold metadataOf at h
  unfold preserveServerMetadataFieldsFromExisting
  split
  · rename_i hb ho
    rw [hb, ho] at h
    rcases h with h | h <;> cases h
  · rfl

theorem preserveServer_get (hb : (metadataOf b).asObject.isSome) (hl : (metadataOf e).asObject.isSome)
    (hk : k = "deletionTimestamp" ∨ k = "deletionGracePeriodSeconds") :
    (metadataOf (preserveServerMetadataFieldsFromExisting e b)).get k =
      if shortensGrace e b then (metadataOf b).get k
      else (((metadataOf e).get k).filter fun vl => !vl.isNull).or ((metadataOf b).get k) := by
  obtain ⟨filled, ho, hf, hp⟩ := preserveServerMetadata_eq (metadataOf e) (metadataOf b)
  rw [hb] at ho
  rw [metadataOf_preserve hb hl, hp]
  unfold shortensGrace
  split
  · rcases hk with rfl | rfl <;> exact hf _ (by decide) (by decide)
  · rcases hk with rfl | rfl
    · rw [copyNonNullField_get_ne (by decide), copyNonNullField_get_self ho, hf _ (by decide) (by decide)]
    · rw [copyNonNullField_get_self (copyNonNullField_object.trans ho), copyNonNullField_get_ne (by decide),
        hf _ (by decide) (by decide)]

theorem object_of_marked (h : isMarked e) : (metadataOf e).asObject.isSome := by
  rw [isMarked_eq] at h
  cases hm : metadataOf e with
  | obj fs => rfl
  | _ => rw [hm] at h; cases h

end Update

/-- An update that keeps the mark: it has metadata, and with a shorter grace period a mark of its own. -/
structure KeepsMark (existing body : Json) : Prop where
  metadata : (metadataOf body).asObject.isSome = true
  shorter : shortensGrace existing body = true → isMarked body = true

/-- No update lengthens a grace period. -/
def GraceShrinks (existing body : Json) : Prop :=
  ∀ before after, graceOf existing = some (.num before) →
    graceOf (preserveServerMetadataFieldsFromExisting existing body) = some (.num after) → after ≤ before

section Steps

variable {e body : Json}

theorem marked_iff (h : isMarked e) :
    isMarked (preserveServerMetadataFieldsFromExisting e body) ↔ KeepsMark e body := by
  have ho := object_of_marked h
  by_cases hb : (metadataOf body).asObject.isSome
  · rw [isMarked_eq, preserveServer_get hb ho (.inl rfl)]
    cases hs : shortensGrace e body with
    | true =>
      rw [if_pos rfl, ← isMarked_eq]
      exact ⟨fun hm => ⟨hb, fun _ => hm⟩, fun hk => hk.shorter hs⟩
    | false =>
      refine ⟨fun _ => ⟨hb, fun hh => (by rw [hs] at hh; cases hh)⟩, fun _ => ?_⟩
      rw [isMarked_eq] at h
      obtain ⟨ts, ht, hn⟩ := Option.any_eq_true _ _ |>.mp h
      rwa [ht, Option.filter_some, if_pos hn]
  · rw [preserve_eq_self (.inl (by simpa using hb))]
    constructor
    · intro hm
      exact absurd (object_of_marked hm) hb
    · intro hk
      exact absurd hk.metadata hb

theorem grace_step (e body : Json) : GraceShrinks e body := by
  intro bef aft he ha
  rw [graceOf, pointer_metadata] at he ha
  have ho : ∀ {ob : Json} {k : String} {v : Json}, (metadataOf ob).get k = some v →
      (metadataOf ob).asObject.isSome := by
    intro ob k v hv
    cases hm : metadataOf ob with
    | obj fs => rfl
    | _ => rw [hm] at hv; cases hv
  have hl := ho he
  by_cases hb : (metadataOf body).asObject.isSome
  · rw [preserveServer_get hb hl (.inr rfl)] at ha
    split at ha
    · rename_i hsh
      unfold shortensGrace carriesShorterDeleteGrace at hsh
      rw [he, ha] at hsh
      split at hsh
      · rename_i inc stored hi hs
        have hlt : inc < stored := by
          simp only [Bool.and_eq_true, decide_eq_true_eq] at hsh
          exact hsh.2
        obtain ⟨-, hi⟩ := Option.ite_none_right_eq_some.1 hi
        obtain ⟨-, hs⟩ := Option.ite_none_right_eq_some.1 hs
        cases hi
        cases hs
        exact Int.le_of_lt hlt
      · cases hsh
    · rw [he] at ha
      obtain rfl := Json.num.inj (Option.some.inj ha)
      exact Int.le_refl _
  · rw [preserve_eq_self (.inl (by simpa using hb))] at ha
    exact absurd (ho ha) hb

end Steps

/-- **Deletion marks.** Over every sequence of updates of a marked object, the mark stays exactly as long as each body
has metadata and marks the object itself where it shortens the grace period; no update lengthens that period. -/
theorem deletion_marks_iff (existing : Json) (bodies : List Json) (hmarked : isMarked existing = true) :
    (Along preserveServerMetadataFieldsFromExisting
        (fun existing body => isMarked (preserveServerMetadataFieldsFromExisting existing body) = true)
          existing bodies ↔
      Along preserveServerMetadataFieldsFromExisting KeepsMark existing bodies) ∧
      Along preserveServerMetadataFieldsFromExisting GraceShrinks existing bodies := by
  constructor
  · apply along_congr (I := fun existing => isMarked existing)
    · intro old' body _ h
      exact marked_iff h
    · intro old' body _ hk _
      exact hk
    · exact hmarked
  · exact along_of_forall grace_step

/-! ## A shorter grace period without a mark -/

/-- An object with a deletion timestamp, if any, and a grace period. -/
def gracedObject (mark : Option String) (grace : Int) : Json :=
  .obj [("metadata", .obj (("deletionGracePeriodSeconds", .num grace) ::
    (mark.map fun timestamp => ("deletionTimestamp", Json.str timestamp)).toList))]

theorem deletion_marks_shortened : Along preserveServerMetadataFieldsFromExisting
      (fun existing body => isMarked (preserveServerMetadataFieldsFromExisting existing body) = true)
      (gracedObject (some "2026-01-01T00:00:30Z") 30)
      [gracedObject none 60, gracedObject (some "2026-01-01T00:00:05Z") 5] := by
  refine ((deletion_marks_iff _ _ (by decide +kernel)).1).2 ⟨⟨rfl, ?_⟩, ⟨rfl, ?_⟩, trivial⟩ <;> decide +kernel

/-- A body that shortens the grace period and has no timestamp ends the deletion. -/
theorem deletion_mark_lost : isMarked (gracedObject (some "2026-01-01T00:00:30Z") 30) = true ∧
      isMarked (preserveServerMetadataFieldsFromExisting (gracedObject (some "2026-01-01T00:00:30Z") 30)
        (gracedObject none 5)) = false := by
  decide +kernel

end Klights.Store
