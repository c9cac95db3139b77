import Klights.Json

/-!
# The template patch of a DaemonSet revision

`daemonset_template_patch` of `klights-controllers/src/daemonset.rs`: the template without the fields that Go omits,
marked as a replacement. Revisions are compared by this patch, so a change of the template is rolled out when the patch
changes.

- `SameButZeros`: two values that differ in fields with zero values only, which is when they are pruned to the same
  value (`prune_eq_prune_iff`);
- `patch_changes`: a change is rolled out exactly if it is more than that. A field that is set to `false` or `0` is
  dropped (`false_field_lost`).
-/

namespace Klights.DaemonSet

open Json

/-! ## Pruning -/

def isGoJsonOmitemptyZeroValue : Json → Bool
  | .null => true
  | .bool b => !b
  | .num n => n = 0
  | .str s => s = ""
  | .arr items => items.isEmpty
  | _ => false

mutual

/-- The fields of every object without those that are zero once they are pruned. -/
def pruneGoJsonOmitemptyZeroValues : Json → Json
  | .obj fields => .obj (pruneFields fields)
  | .arr items => .arr (pruneItems items)
  | v => v

def pruneItems : List Json → List Json
  | [] => []
  | item :: rest => pruneGoJsonOmitemptyZeroValues item :: pruneItems rest

def pruneFields : List (String × Json) → List (String × Json)
  | [] => []
  | (k, v) :: rest =>
    if isGoJsonOmitemptyZeroValue (pruneGoJsonOmitemptyZeroValues v) then pruneFields rest
    else (k, pruneGoJsonOmitemptyZeroValues v) :: pruneFields rest

end

/-! ## The patch -/

/-- `get_mut(key)` and a change of what it gives. -/
def updateFields (key : String) (f : Json → Json) : List (String × Json) → List (String × Json)
  | [] => []
  | (k, v) :: rest => if k = key then (k, f v) :: rest else (k, v) :: updateFields key f rest

def updateField (v : Json) (key : String) (f : Json → Json) : Json :=
  match v with
  | .obj fields => .obj (updateFields key f fields)
  | v => v

def addResources (container : Json) : Json :=
  if (container.get "resources").isSome then container else container.insertField "resources" (.obj [])

def addAllResources : Json → Json
  | .arr containers => .arr (containers.map addResources)
  | v => v

def daemonsetTemplatePatch (template : Json) : Json :=
  let patchTemplate := (pruneGoJsonOmitemptyZeroValues template).insertField "$patch" (.str "replace")
  .obj [("spec", .obj [("template",
    updateField patchTemplate "spec" fun spec => updateField spec "containers" addAllResources)])]

/-! ## What pruning leaves -/

mutual

/-- Two values that differ in fields of objects whose values are zero, and in nothing else. -/
inductive SameButZeros : Json → Json → Prop
  | refl (v : Json) : SameButZeros v v
  | arr {items others : List Json} : SameItems items others → SameButZeros (.arr items) (.arr others)
  | obj {fields others : List (String × Json)} : SameFields fields others → SameButZeros (.obj fields) (.obj others)

inductive SameItems : List Json → List Json → Prop
  | nil : SameItems [] []
  | cons {v w : Json} {items others : List Json} : SameButZeros v w → SameItems items others →
      SameItems (v :: items) (w :: others)

inductive SameFields : List (String × Json) → List (String × Json) → Prop
  | nil : SameFields [] []
  | left (k : String) {v : Json} {fields others : List (String × Json)} : isGoJsonOmitemptyZeroValue v →
      SameFields fields others → SameFields ((k, v) :: fields) others
  | right (k : String) {v : Json} {fields others : List (String × Json)} : isGoJsonOmitemptyZeroValue v →
      SameFields fields others → SameFields fields ((k, v) :: others)
  | both (k : String) {v w : Json} {fields others : List (String × Json)} : SameButZeros v w →
      SameFields fields others → SameFields ((k, v) :: fields) ((k, w) :: others)

end

/-- A value is zero before it is pruned exactly if it is afterwards. -/
theorem isZero_prune (v : Json) : isGoJsonOmitemptyZeroValue (pruneGoJsonOmitemptyZeroValues v) =
    isGoJsonOmitemptyZeroValue v := by
  cases v with
  | arr items => cases items <;> rfl
  | _ => rfl

theorem pruneFields_cons (k : String) (v : Json) (fields : List (String × Json)) : pruneFields ((k, v) :: fields) =
    if isGoJsonOmitemptyZeroValue v then pruneFields fields
    else (k, pruneGoJsonOmitemptyZeroValues v) :: pruneFields fields := by
  rw [pruneFields, isZero_prune]

mutual

theorem SameButZeros.prune_eq : ∀ {v w : Json}, SameButZeros v w →
    pruneGoJsonOmitemptyZeroValues v = pruneGoJsonOmitemptyZeroValues w
  | _, _, .refl _ => rfl
  | _, _, .arr h => congrArg Json.arr h.prune_eq
  | _, _, .obj h => congrArg Json.obj h.prune_eq

theorem SameItems.prune_eq : ∀ {items others : List Json}, SameItems items others →
    pruneItems items = pruneItems others
  | _, _, .nil => rfl
  | _, _, .cons hv h => by rw [pruneItems, pruneItems, hv.prune_eq, h.prune_eq]

theorem SameFields.prune_eq : ∀ {fields others : List (String × Json)}, SameFields fields others →
    pruneFields fields = pruneFields others
  | _, _, .nil => rfl
  | _, _, .left k hz h => by rw [pruneFields_cons, if_pos hz, h.prune_eq]
  | _, _, .right k hz h => by rw [pruneFields_cons, if_pos hz, h.prune_eq]
  | _, _, .both k hv h => by rw [pruneFields, pruneFields, hv.prune_eq, h.prune_eq]

end

theorem sameFields_nil : ∀ {others : List (String × Json)}, pruneFields others = [] → SameFields [] others
  | [], _ => .nil
  | (k, w) :: others, h => by
    rw [pruneFields_cons] at h
    split at h
    · next hw => exact .right k hw (sameFields_nil h)
    · cases h

/-- The first field that is left comes from one behind fields with zero values. -/
theorem first_of_pruneFields {k : String} {x : Json} {rest : List (String × Json)} :
    ∀ {others : List (String × Json)}, pruneFields others = (k, x) :: rest →
      ∃ w tail, pruneGoJsonOmitemptyZeroValues w = x ∧ pruneFields tail = rest ∧
        ∀ fields, SameFields fields ((k, w) :: tail) → SameFields fields others
  | [], h => nomatch h
  | (k', w) :: others, h => by
    rw [pruneFields_cons] at h
    split at h
    · next hw =>
      obtain ⟨v, tail, hv, ht, hf⟩ := first_of_pruneFields h
      exact ⟨v, tail, hv, ht, fun fields hs => .right k' hw (hf fields hs)⟩
    · cases h
      exact ⟨w, others, rfl, rfl, fun _ hs => hs⟩

mutual

theorem sameButZeros_of_prune : ∀ {v w : Json},
    pruneGoJsonOmitemptyZeroValues v = pruneGoJsonOmitemptyZeroValues w → SameButZeros v w
  | .obj _, w, h => by
    cases w with
    | obj others => exact .obj (sameFields_of_prune (Json.obj.inj h))
    | _ => cases h
  | .arr _, w, h => by
    cases w with
    | arr others => exact .arr (sameItems_of_prune (Json.arr.inj h))
    | _ => cases h
  | .null, w, h | .bool _, w, h | .num _, w, h | .float _, w, h | .str _, w, h => by
    cases w <;> cases h
    exact .refl _

theorem sameItems_of_prune : ∀ {items others : List Json}, pruneItems items = pruneItems others →
    SameItems items others
  | [], [], _ => .nil
  | _ :: _, _ :: _, h => .cons (sameButZeros_of_prune (List.cons.inj h).1) (sameItems_of_prune (List.cons.inj h).2)
  | [], _ :: _, h => nomatch h
  | _ :: _, [], h => nomatch h

theorem sameFields_of_prune : ∀ {fields others : List (String × Json)}, pruneFields fields = pruneFields others →
    SameFields fields others
  | [], _, h => sameFields_nil h.symm
  | (k, v) :: fields, _, h => by
    rw [pruneFields_cons] at h
    split at h
    · next hz => exact .left k hz (sameFields_of_prune h)
    · obtain ⟨w, tail, hw, ht, hf⟩ := first_of_pruneFields h.symm
      exact hf _ (.both k (sameButZeros_of_prune hw.symm) (sameFields_of_prune ht.symm))

end

theorem prune_eq_prune_iff {v w : Json} :
    pruneGoJsonOmitemptyZeroValues v = pruneGoJsonOmitemptyZeroValues w ↔ SameButZeros v w :=
  ⟨sameButZeros_of_prune, SameButZeros.prune_eq⟩

/-! ## Fields of a pruned object -/

theorem updateFields_same {ky : String} {f : Json → Json} : ∀ {fs : List (String × Json)},
    (∀ x, Fields.get ky fs = some x → f x = x) → updateFields ky f fs = fs
  | [], _ => rfl
  | (k, v) :: rest, h => by
    unfold updateFields
    split
    · next hk => rw [h v (by simp [Fields.get, hk])]
    · next hk => rw [updateFields_same fun x hx => h x (by simpa [Fields.get, hk] using hx)]

variable {v : Json} {key : String}

theorem updateField_same {f : Json → Json} (h : ∀ x, v.get key = some x → f x = x) : updateField v key f = v := by
  cases v with
  | obj fields => exact congrArg Json.obj (updateFields_same h)
  | _ => rfl

theorem get_pruneFields : ∀ {fields : List (String × Json)}, Fields.Sorted fields →
    Fields.get key (pruneFields fields) =
      ((Fields.get key fields).filter (!isGoJsonOmitemptyZeroValue ·)).map pruneGoJsonOmitemptyZeroValues
  | [], _ => rfl
  | (k, v) :: fields, h => by
    obtain ⟨hlt, hrest⟩ := List.pairwise_cons.1 h
    have ih := get_pruneFields hrest
    rw [pruneFields_cons]
    by_cases hk : k = key
    · -- the key of the first field does not come again
      have hno : Fields.get key fields = none := by
        refine Option.eq_none_iff_forall_ne_some.2 fun x hx => ?_
        exact String.lt_irrefl k (by simpa [hk] using hlt _ ((Fields.get_eq_some_iff_mem hrest).1 hx))
      by_cases hz : isGoJsonOmitemptyZeroValue v <;> simp [Fields.get, hk, hz, ih, hno, Option.filter_some]
    · by_cases hz : isGoJsonOmitemptyZeroValue v <;> simp [Fields.get, hk, hz, ih]

theorem get_prune (h : v.Sorted) : (pruneGoJsonOmitemptyZeroValues v).get key =
    ((v.get key).filter (!isGoJsonOmitemptyZeroValue ·)).map pruneGoJsonOmitemptyZeroValues := by
  cases v with
  | obj fields => exact get_pruneFields (h fields rfl)
  | _ => rfl

theorem remove_pruneFields (key : String) : ∀ fields : List (String × Json),
    Fields.remove key (pruneFields fields) = pruneFields (Fields.remove key fields)
  | [] => rfl
  | (k, v) :: fields => by
    have ih := remove_pruneFields key fields
    simp only [Fields.remove] at ih ⊢
    by_cases hk : k = key <;> by_cases hz : isGoJsonOmitemptyZeroValue v <;> simp_all [pruneFields_cons]

theorem removeField_prune (v : Json) (key : String) : (pruneGoJsonOmitemptyZeroValues v).removeField key =
    pruneGoJsonOmitemptyZeroValues (v.removeField key) := by
  cases v with
  | obj fields => exact congrArg Json.obj (remove_pruneFields key fields)
  | _ => rfl

theorem sorted_pruneFields : ∀ {fields : List (String × Json)}, Fields.Sorted fields →
    Fields.Sorted (pruneFields fields) ∧ ∀ field ∈ pruneFields fields, ∃ old ∈ fields, old.1 = field.1
  | [], _ => ⟨.nil, nofun⟩
  | (k, v) :: fields, h => by
    obtain ⟨hlt, hrest⟩ := List.pairwise_cons.1 h
    obtain ⟨hsorted, hmem⟩ := sorted_pruneFields hrest
    rw [pruneFields_cons]
    split
    · refine ⟨hsorted, fun field hf => ?_⟩
      obtain ⟨old, ho, hk⟩ := hmem field hf
      exact ⟨old, .tail _ ho, hk⟩
    · refine ⟨List.pairwise_cons.2 ⟨fun field hf => ?_, hsorted⟩, fun field hf => ?_⟩
      · obtain ⟨old, ho, hk⟩ := hmem field hf
        exact hk ▸ hlt old ho
      · rcases List.mem_cons.1 hf with rfl | hf
        · exact ⟨_, .head _, rfl⟩
        · obtain ⟨old, ho, hk⟩ := hmem field hf
          exact ⟨old, .tail _ ho, hk⟩

theorem Sorted.prune (h : v.Sorted) : (pruneGoJsonOmitemptyZeroValues v).Sorted := by
  cases v with
  | obj fields =>
    rintro _ ⟨⟩
    exact (sorted_pruneFields (h fields rfl)).1
  | _ => exact nofun

/-- What is inserted takes the place of the field that was there. -/
theorem insert_remove (key : String) (value : Json) : ∀ {fields : List (String × Json)}, Fields.Sorted fields →
    Fields.insert key value (Fields.remove key fields) = Fields.insert key value fields
  | [], _ => rfl
  | (k, v) :: fields, h => by
    obtain ⟨hlt, hrest⟩ := List.pairwise_cons.1 h
    have hkeep : ¬k < key → Fields.remove key fields = fields := fun hn =>
      List.filter_eq_self.2 fun field hf => decide_eq_true fun he => hn (he ▸ hlt field hf)
    by_cases hk : k = key
    · subst hk
      rw [Fields.remove, List.filter_cons_of_neg (by simp), ← Fields.remove, hkeep (String.lt_irrefl k)]
      cases fields with
      | nil => simp [Fields.insert]
      | cons field fields =>
        have hf : k < field.1 := hlt field (.head _)
        simp [Fields.insert, hf, (String.ne_of_lt hf).symm]
    · rw [Fields.remove, List.filter_cons_of_pos (by simpa using hk), ← Fields.remove, Fields.insert, Fields.insert,
        if_neg hk, if_neg hk]
      by_cases hb : key < k
      · rw [if_pos hb, if_pos hb, hkeep (String.lt_asymm hb)]
      · rw [if_neg hb, if_neg hb, insert_remove key value hrest]

theorem insertField_eq_iff {w : Json} (hv : v.Sorted) (hw : w.Sorted) (value : Json) :
    v.insertField key value = w.insertField key value ↔ v.removeField key = w.removeField key := by
  constructor
  · intro h
    have hrem := congrArg (removeField · key) h
    simpa only [removeField_insertField] using hrem
  · have hback : ∀ {u : Json}, u.Sorted → (u.removeField key).insertField key value = u.insertField key value := by
      intro u hu
      cases u with
      | obj fields => exact congrArg Json.obj (insert_remove key value (hu fields rfl))
      | _ => rfl
    intro h
    rw [← hback hv, ← hback hw, h]

/-! ## Rollout -/

/-- A template as the API has it: objects are sorted maps, and every container has `resources` that are not zero. -/
structure PodTemplate (template : Json) : Prop where
  sorted : template.Sorted
  spec : ∀ spec, template.get "spec" = some spec → spec.Sorted
  containers : ∀ spec items, template.get "spec" = some spec → spec.get "containers" = some (.arr items) →
    ∀ container ∈ items, container.Sorted ∧
      ∃ resources, container.get "resources" = some resources ∧ isGoJsonOmitemptyZeroValue resources = false

theorem mem_pruneItems {v : Json} : ∀ {items : List Json}, v ∈ pruneItems items →
    ∃ item ∈ items, v = pruneGoJsonOmitemptyZeroValues item
  | [], h => nomatch h
  | item :: items, h => by
    rcases List.mem_cons.1 h with rfl | h
    · exact ⟨item, .head _, rfl⟩
    · obtain ⟨old, ho, he⟩ := mem_pruneItems h
      exact ⟨old, .tail _ ho, he⟩

theorem patch_eq {template : Json} (h : PodTemplate template) : daemonsetTemplatePatch template = .obj [("spec",
    .obj [("template", (pruneGoJsonOmitemptyZeroValues template).insertField "$patch" (.str "replace"))])] := by
  unfold daemonsetTemplatePatch
  dsimp only
  rw [updateField_same]
  intro spec hs
  rw [get_insertField_ne _ _ (by decide), get_prune h.sorted, Option.map_eq_some_iff] at hs
  obtain ⟨old, hold, rfl⟩ := hs
  have hold := (Option.filter_eq_some_iff.1 hold).1
  refine updateField_same fun cs hc => ?_
  rw [get_prune (h.spec old hold), Option.map_eq_some_iff] at hc
  obtain ⟨listed, hl, rfl⟩ := hc
  have hl := (Option.filter_eq_some_iff.1 hl).1
  cases listed with
  | arr items =>
    refine congrArg Json.arr ((List.map_congr_left fun c hm => ?_).trans (List.map_id _))
    obtain ⟨container, hmem, rfl⟩ := mem_pruneItems hm
    obtain ⟨hsorted, resources, hr, hz⟩ := h.containers old items hold hl container hmem
    have hget : ((pruneGoJsonOmitemptyZeroValues container).get "resources").isSome := by
      simp [get_prune hsorted, hr, hz, Option.filter_some]
    rw [addResources, if_pos hget, id]
  | _ => rfl

/-- **Rollout of changes.** Templates that differ have different patches exactly if they differ in more than fields with
zero values and a top-level `$patch`. -/
theorem patch_changes (a b : Json) (ha : PodTemplate a) (hb : PodTemplate b) :
    (a ≠ b → daemonsetTemplatePatch a ≠ daemonsetTemplatePatch b) ↔
      (a = b ∨ ¬SameButZeros (a.removeField "$patch") (b.removeField "$patch")) := by
  have hpatch : daemonsetTemplatePatch a = daemonsetTemplatePatch b ↔
      SameButZeros (a.removeField "$patch") (b.removeField "$patch") := by
    rw [patch_eq ha, patch_eq hb, ← prune_eq_prune_iff, ← removeField_prune, ← removeField_prune,
      ← insertField_eq_iff (Sorted.prune ha.sorted) (Sorted.prune hb.sorted) (.str "replace")]
    simp
  rw [ne_eq, ne_eq, hpatch]
  tauto

def templateOf (image : String) (more : List (String × Json)) : Json :=
  .obj [("spec", .obj (more ++ [("containers", .arr [.obj [("image", .str image), ("resources", .obj [])]])]))]

theorem podTemplate_templateOf (image : String) : PodTemplate (templateOf image []) := by
  refine ⟨?_, ?_, ?_⟩
  · rintro _ ⟨⟩
    exact List.pairwise_singleton _ _
  · rintro _ ⟨⟩ _ ⟨⟩
    exact List.pairwise_singleton _ _
  · rintro _ _ ⟨⟩ ⟨⟩ container hc
    cases List.mem_singleton.1 hc
    refine ⟨?_, _, rfl, rfl⟩
    rintro _ ⟨⟩
    refine List.pairwise_cons.2 ⟨fun field hf => ?_, List.pairwise_singleton _ _⟩
    cases List.mem_singleton.1 hf
    exact (by decide : "image" < "resources")

theorem patch_changes_image :
    daemonsetTemplatePatch (templateOf "a" []) ≠ daemonsetTemplatePatch (templateOf "b" []) := by
  refine (patch_changes _ _ (podTemplate_templateOf "a") (podTemplate_templateOf "b")).2 (.inr fun h => ?_) (by decide)
  exact absurd h.prune_eq (by decide)

/-- A template as it is, and one whose pods do not mount a token: their patches are the same. -/
theorem false_field_lost :
    let a := templateOf "a" []
    let b := templateOf "a" [("automountServiceAccountToken", .bool false)]
    a ≠ b ∧ (∀ t ∈ [a, b], (((t.pointer ["spec", "containers"]).bind asArray).getD []).all fun container =>
        container.get "resources" = some (.obj [])) ∧
      b.pointer ["spec", "automountServiceAccountToken"] = some (.bool false) ∧
      daemonsetTemplatePatch a = daemonsetTemplatePatch b := by
  decide

end Klights.DaemonSet
