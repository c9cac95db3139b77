import Klights.Store.ResourceShape
import Mathlib.Data.List.Nodup
import Mathlib.Data.List.Perm.Subperm

/-!
# Comparing bodies without their resourceVersion

The decision that a write changes nothing compares two bodies field by field, without a copy:
`resource_bodies_equal_ignoring_metadata_field` (`klights-cluster-core/src/apply.rs`) and
`resource_data_equal_ignoring_rv` (`klights-cluster-datastore/src/sqlite/mutation_helpers.rs`). Both agree with
comparing what `clearMetadataResourceVersion` leaves (`body_comparison`).
-/

namespace Klights.Store

open Json List

/-- Two objects are compared by their fields, anything else as it is. -/
def onObjects (left right : Json) (fields : List (String × Json) → List (String × Json) → Bool) : Bool :=
  match left, right with
  | .obj left, .obj right => fields left right
  | left, right => left = right

def objectsEqualIgnoringKey (left right : Json) (key : String) : Bool :=
  onObjects left right fun left right =>
    (left.filter fun field => field.1 ≠ key).length = (right.filter fun field => field.1 ≠ key).length &&
      left.all fun field => field.1 = key || (Fields.get field.1 right).any (· = field.2)

def resourceBodiesEqualIgnoringMetadataField (left right : Json) (metadataField : String) : Bool :=
  onObjects left right fun left right =>
    left.length = right.length && left.all fun field => (Fields.get field.1 right).any fun value =>
      if field.1 = "metadata" then objectsEqualIgnoringKey field.2 value metadataField else field.2 = value

def metadataEqualIgnoringRv (a b : Json) : Bool :=
  onObjects a b fun am bm =>
    (am.filter fun field => field.1 ≠ "resourceVersion").length =
      (bm.filter fun field => field.1 ≠ "resourceVersion").length && am.all fun field =>
      if field.1 = "resourceVersion" then true
      else match Fields.get field.1 bm with
        | some bv => field.2 = bv
        | none => false

def resourceDataEqualIgnoringRv (a b : Json) : Bool :=
  onObjects a b fun am bm =>
    am.length = bm.length && am.all fun field =>
      match Fields.get field.1 bm with
      | none => false
      | some bv => if field.1 = "metadata" then metadataEqualIgnoringRv field.2 bv else field.2 = bv

/-- The fields of a body and of its metadata are in order, as in any map of the source. -/
def OrderedBody (data : Json) : Prop := data.Sorted ∧ ∀ metadata ∈ data.get "metadata", metadata.Sorted

/-! ## Maps -/

section Maps

variable {a b : List (String × Json)}

theorem eq_of_perm (ha : Fields.Sorted a) (hb : Fields.Sorted b) (h : a.Perm b) : a = b :=
  h.eq_of_pairwise (fun _ _ _ _ hf hg => absurd hf (String.lt_asymm hg)) ha hb

theorem fields_ext (ha : Fields.Sorted a) (hb : Fields.Sorted b) (h : ∀ key, Fields.get key a = Fields.get key b) :
    a = b := by
  refine eq_of_perm ha hb ((perm_ext_iff_of_nodup (.of_map _ ha.nodup) (.of_map _ hb.nodup)).2 fun f => ?_)
  rw [← Fields.get_eq_some_iff_mem ha, h, Fields.get_eq_some_iff_mem hb]

/-- Maps are equal when they have as many entries and each entry of the first is one of the second. -/
theorem fields_eq_iff (ha : Fields.Sorted a) (hb : Fields.Sorted b) :
    a = b ↔ a.length = b.length ∧ ∀ f ∈ a, Fields.get f.1 b = some f.2 := by
  constructor
  · rintro rfl
    exact ⟨rfl, fun f hf => (Fields.get_eq_some_iff_mem ha).2 hf⟩
  · rintro ⟨hl, h⟩
    have hs : a ⊆ b := fun f hf => (Fields.get_eq_some_iff_mem hb).1 (h f hf)
    exact eq_of_perm ha hb ((subperm_of_subset (.of_map _ ha.nodup) hs).perm_of_length_le hl.ge)

end Maps

/-! ## The comparisons -/

def mapObject (f : List (String × Json) → List (String × Json)) : Json → Json
  | .obj fields => .obj (f fields)
  | v => v

theorem onObjects_iff {f : List (String × Json) → List (String × Json)} {v w : Json}
    {c : List (String × Json) → List (String × Json) → Bool}
    (h : ∀ a b, v = .obj a → w = .obj b → (c a b ↔ f a = f b)) : onObjects v w c ↔ mapObject f v = mapObject f w := by
  cases v with
  | obj a =>
    cases w with
    | obj b => simpa [onObjects, mapObject] using h a b rfl rfl
    | _ => simp [onObjects, mapObject]
  | _ => cases w <;> simp [onObjects, mapObject]

theorem metadataEqual_eq (a b : Json) :
    metadataEqualIgnoringRv a b = objectsEqualIgnoringKey a b "resourceVersion" := by
  refine congrArg (onObjects a b) (funext₂ fun am bm => ?_)
  congr 2
  funext field
  by_cases hk : field.1 = "resourceVersion"
  · simp [hk]
  · cases Fields.get field.1 bm with
    | none => simp [hk]
    | some bv => simp [hk, eq_comm (a := bv)]

theorem resourceDataEqual_eq (a b : Json) :
    resourceBodiesEqualIgnoringMetadataField a b "resourceVersion" = resourceDataEqualIgnoringRv a b := by
  refine congrArg (onObjects a b) (funext₂ fun am bm => ?_)
  congr 2
  funext field
  simp only [metadataEqual_eq]
  cases Fields.get field.1 bm <;> rfl

theorem objectsEqual_iff {v w : Json} (hv : v.Sorted) (hw : w.Sorted) (key : String) :
    objectsEqualIgnoringKey v w key ↔ v.removeField key = w.removeField key := by
  refine onObjects_iff (f := Fields.remove key) fun a b ha hb => ?_
  subst ha hb
  have he (o : Option Json) (v : Json) : o.any (· = v) ↔ o = some v := by cases o <;> simp
  simp only [fields_eq_iff ((hv a rfl).remove key) ((hw b rfl).remove key), Bool.and_eq_true, decide_eq_true_eq,
    all_eq_true, Bool.or_eq_true, he]
  refine and_congr Iff.rfl ⟨fun h f hf => ?_, fun h f hf => or_iff_not_imp_left.2 fun hk => ?_⟩
  · obtain ⟨hf, hk⟩ := mem_filter.1 hf
    have hk : f.1 ≠ key := by simpa using hk
    exact (Fields.get_remove_ne hk b).trans ((h f hf).resolve_left hk)
  · rw [← Fields.get_remove_ne hk b]
    exact h f (mem_filter.2 ⟨hf, by simpa using hk⟩)

/-! ## Cleared bodies -/

def clearField (key : String) (value : Json) : Json :=
  if key = "metadata" then value.removeField "resourceVersion" else value

def clearFields (fields : List (String × Json)) : List (String × Json) := fields.map fun f => (f.1, clearField f.1 f.2)

section Clear

variable {a : List (String × Json)}

theorem sorted_clearFields (h : Fields.Sorted a) : Fields.Sorted (clearFields a) := pairwise_map.2 h

theorem get_clearFields (key : String) : Fields.get key (clearFields a) = (Fields.get key a).map (clearField key) := by
  induction a with
  | nil => rfl
  | cons f tl ih =>
    simp only [clearFields, map_cons, Fields.get]
    split
    · rename_i hk
      rw [hk, Option.map_some]
    · exact ih

theorem clear_eq {v : Json} (hv : v.Sorted) : clearMetadataResourceVersion v = mapObject clearFields v := by
  cases v with
  | obj a =>
    have ha := hv a rfl
    have hc {key : String} (hk : key ≠ "metadata") : clearField key = id := funext fun _ => if_neg hk
    unfold clearMetadataResourceVersion modifyField mapObject
    cases hm : Json.get (.obj a) "metadata" with
    | none =>
      refine congrArg obj (fields_ext ha (sorted_clearFields ha) fun key => ?_)
      rw [get_clearFields]
      by_cases hk : key = "metadata"
      · rw [hk, show Fields.get "metadata" a = none from hm]
        rfl
      · rw [hc hk, Option.map_id, id]
    | some metadata =>
      refine congrArg obj (fields_ext (ha.insert _ _) (sorted_clearFields ha) fun key => ?_)
      rw [get_clearFields]
      by_cases hk : key = "metadata"
      · rw [hk, Fields.get_insert_self, show Fields.get "metadata" a = some metadata from hm]
        rfl
      · rw [hc hk, Option.map_id, id, Fields.get_insert_ne _ hk]
  | _ => rfl

end Clear

/-- **Comparing bodies.** The two comparisons give the same answer, and that is whether the bodies are equal once
`metadata.resourceVersion` is deleted from each. -/
theorem body_comparison (left right : Json) (hleft : OrderedBody left) (hright : OrderedBody right) :
    resourceBodiesEqualIgnoringMetadataField left right "resourceVersion" = resourceDataEqualIgnoringRv left right ∧
      (resourceDataEqualIgnoringRv left right = true ↔
        clearMetadataResourceVersion left = clearMetadataResourceVersion right) := by
  refine ⟨resourceDataEqual_eq left right, ?_⟩
  rw [← resourceDataEqual_eq, clear_eq hleft.1, clear_eq hright.1]
  refine onObjects_iff fun a b hl hr => ?_
  subst hl hr
  have ha := hleft.1 a rfl
  have hb := hright.1 b rfl
  rw [fields_eq_iff (sorted_clearFields ha) (sorted_clearFields hb)]
  simp only [get_clearFields]
  simp only [clearFields, length_map, forall_mem_map, Bool.and_eq_true, decide_eq_true_eq, all_eq_true]
  refine and_congr Iff.rfl (forall₂_congr fun field hf => ?_)
  cases hg : Fields.get field.1 b with
  | none => simp
  | some value =>
    by_cases hk : field.1 = "metadata"
    · have hl := hleft.2 field.2 (hk ▸ (Fields.get_eq_some_iff_mem ha).2 hf)
      have hr := hright.2 value (hk ▸ hg)
      simp [clearField, hk, objectsEqual_iff hl hr, eq_comm]
    · simp [clearField, hk, eq_comm]

def sampleVersion (version : String) : Json := .obj [("metadata", .obj [("resourceVersion", .str version)])]

theorem body_comparison_versions :
    resourceBodiesEqualIgnoringMetadataField (sampleVersion "1") (sampleVersion "2") "resourceVersion" =
        resourceDataEqualIgnoringRv (sampleVersion "1") (sampleVersion "2") ∧
      (resourceDataEqualIgnoringRv (sampleVersion "1") (sampleVersion "2") = true ↔
        clearMetadataResourceVersion (sampleVersion "1") = clearMetadataResourceVersion (sampleVersion "2")) := by
  have h (version : String) : OrderedBody (sampleVersion version) := by
    refine ⟨fun _ hf => ?_, fun _ hm _ hf => ?_⟩
    · cases hf
      exact pairwise_singleton _ _
    · cases hm
      cases hf
      exact pairwise_singleton _ _
  exact body_comparison _ _ (h "1") (h "2")

end Klights.Store
