import Klights.Status.NodeConditions

/-!
# Merging conditions by their transition times

`merge_conditions_by_newest_transition_time` (`klights-cluster-core/src/status.rs`): for each type the newer of the live
and the incoming condition, in the order of the incoming ones, and then the live conditions of other types. Conditions
without a type, or with an empty one, are taken from the incoming status alone.

- `firstConditionByType_merge`, `typesOf_merge`: the merge, type by type and in its order;
- `mergeConditions_again`: merging the same conditions again changes nothing.
-/

namespace Klights.Status

open Pod List

/-- The type of a condition, if it is not empty. -/
def namedType (condition : Json) : Option String := (conditionType condition).filter (· ≠ "")

def typesOf (conditions : List Json) : List String := conditions.filterMap namedType

def firstConditionByType (conditions : List Json) (type : String) : Option Json :=
  conditions.find? fun condition => namedType condition = some type

section

variable (parse : String → Option Int)

def conditionLastTransitionTime (condition : Json) : Option Int := (conditionTransitionTime (some condition)).bind parse

def liveConditionIsNewer (live incoming : Json) : Bool :=
  match conditionLastTransitionTime parse live, conditionLastTransitionTime parse incoming with
  | some live, some incoming => incoming < live
  | some _, none => true
  | _, _ => false

/-- The loop over the incoming conditions: a newer live one takes the place of its type. -/
def takeNewer (live : List Json) (incoming : Json) : Json :=
  match (namedType incoming).bind (firstConditionByType live) with
  | some condition => if liveConditionIsNewer parse condition incoming then condition else incoming
  | none => incoming

/-- The loop over the live conditions: the first of each type that was not seen. -/
def unseen (seenTypes : List String) : List Json → List Json
  | [] => []
  | condition :: rest =>
    match namedType condition with
    | none => unseen seenTypes rest
    | some type => if type ∈ seenTypes then unseen seenTypes rest else condition :: unseen (type :: seenTypes) rest

def mergeConditions (live incoming : List Json) : List Json :=
  incoming.map (takeNewer parse live) ++ unseen (typesOf incoming) live

def mergeConditionsByNewestTransitionTime (liveResource incomingStatus : Json) : Json :=
  match (liveResource.pointer ["status", "conditions"]).bind Json.asArray with
  | none | some [] => incomingStatus
  | some live => incomingStatus.entryOrInsert "conditions" (.arr []) fun conditions =>
    match conditions.asArray with
    | some incoming => .arr (mergeConditions parse live incoming)
    | none => conditions

end

variable {parse : String → Option Int} {live incoming cs : List Json} {c : Json} {t : String}

/-! ## Type by type -/

theorem namedType_of_first (h : firstConditionByType cs t = some c) : namedType c = some t := by
  simpa using find?_some h

theorem mem_typesOf : t ∈ typesOf cs ↔ (firstConditionByType cs t).isSome := by
  simp [typesOf, firstConditionByType]

theorem namedType_takeNewer : namedType (takeNewer parse live c) = namedType c := by
  unfold takeNewer
  split
  · rename_i l hl
    obtain ⟨t, ht, hf⟩ := Option.bind_eq_some_iff.1 hl
    split
    · rw [ht, namedType_of_first hf]
    · rfl
  · rfl

theorem first_unseen (seen : List String) (t : String) :
    firstConditionByType (unseen seen live) t = if t ∈ seen then none else firstConditionByType live t := by
  induction live generalizing seen with
  | nil => simp [unseen, firstConditionByType]
  | cons c tl ih =>
    unfold unseen
    cases hc : namedType c with
    | none => simpa [firstConditionByType, hc] using ih seen
    | some u =>
      have hcons (rest : List Json) : firstConditionByType (c :: rest) t =
          if u = t then some c else firstConditionByType rest t := by
        by_cases hu : u = t <;> simp [firstConditionByType, hc, hu]
      rw [hcons]
      by_cases hs : u ∈ seen
      · simp only [hs, if_true, ih]
        by_cases hu : u = t
        · simp [← hu, hs]
        · simp [hu]
      · simp only [hs, if_false, hcons, ih, mem_cons]
        by_cases hu : u = t
        · simp [← hu, hs]
        · simp [hu, Ne.symm hu]

theorem firstConditionByType_merge (t : String) : firstConditionByType (mergeConditions parse live incoming) t =
      match firstConditionByType incoming t, firstConditionByType live t with
      | some i, some l => some (if liveConditionIsNewer parse l i then l else i)
      | some i, none => some i
      | none, l => l := by
  have hm : firstConditionByType (incoming.map (takeNewer parse live)) t =
      (firstConditionByType incoming t).map (takeNewer parse live) := by
    rw [firstConditionByType, find?_map]
    refine congrArg _ (congrArg (find? · incoming) (funext fun c => ?_))
    rw [Function.comp_apply, namedType_takeNewer]
  have ha : firstConditionByType (mergeConditions parse live incoming) t =
      (firstConditionByType (incoming.map (takeNewer parse live)) t).or
        (firstConditionByType (unseen (typesOf incoming) live) t) := find?_append
  rw [ha, hm, first_unseen]
  cases hi : firstConditionByType incoming t with
  | none => simp [mem_typesOf, hi]
  | some i =>
    rw [Option.map_some, Option.some_or, takeNewer, namedType_of_first hi, Option.bind_some]
    cases firstConditionByType live t <;> rfl

/-! ## Order -/

theorem typesOf_unseen {seen : List String} (hn : (typesOf live).Nodup) :
    typesOf (unseen seen live) = (typesOf live).filter (· ∉ seen) := by
  induction live generalizing seen with
  | nil => rfl
  | cons c tl ih =>
    unfold unseen
    cases hc : namedType c with
    | none =>
      have ht : typesOf (c :: tl) = typesOf tl := filterMap_cons_none hc
      rw [ht] at hn ⊢
      exact ih hn
    | some u =>
      have ht (rest : List Json) : typesOf (c :: rest) = u :: typesOf rest := filterMap_cons_some hc
      rw [ht] at hn ⊢
      obtain ⟨hu, hn⟩ := nodup_cons.1 hn
      by_cases hs : u ∈ seen
      · simp [hs, ih hn]
      · simp only [hs, if_false, ht, ih hn]
        rw [filter_cons_of_pos (by simpa using hs)]
        congr 1
        refine filter_congr fun x hx => ?_
        have hne : x ≠ u := fun he => hu (he ▸ hx)
        simp [hne]

theorem typesOf_takeNewer : typesOf (incoming.map (takeNewer parse live)) = typesOf incoming := by
  simp [typesOf, filterMap_map, namedType_takeNewer]

theorem typesOf_merge (hn : (typesOf live).Nodup) : typesOf (mergeConditions parse live incoming) =
      typesOf incoming ++ (typesOf live).filter (· ∉ typesOf incoming) := by
  have ha : typesOf (mergeConditions parse live incoming) = _ ++ typesOf (unseen (typesOf incoming) live) :=
    filterMap_append
  rw [ha, typesOf_unseen hn]
  exact congrArg (· ++ _) typesOf_takeNewer

/-! ## A second merge -/

theorem unseen_append {seen : List String} {xs : List Json} (h : ∀ t ∈ typesOf xs, t ∈ seen) (rest : List Json) :
    unseen seen (xs ++ rest) = unseen seen rest := by
  induction xs with
  | nil => rfl
  | cons c tl ih =>
    rw [cons_append, unseen]
    cases hc : namedType c with
    | none => exact ih (by rwa [typesOf, filterMap_cons_none hc] at h)
    | some t =>
      rw [typesOf, filterMap_cons_some hc, forall_mem_cons] at h
      exact (if_pos h.1).trans (ih h.2)

theorem unseen_unseen (seen : List String) : unseen seen (unseen seen live) = unseen seen live := by
  induction live generalizing seen with
  | nil => rfl
  | cons c tl ih =>
    rw [unseen]
    cases hc : namedType c with
    | none => exact ih seen
    | some t =>
      by_cases hs : t ∈ seen
      · simpa [hs] using ih seen
      · simp [hs, unseen, hc, ih]

theorem first_of_mem (hn : (typesOf cs).Nodup) (hc : c ∈ cs) (ht : namedType c = some t) :
    firstConditionByType cs t = some c := by
  induction cs with
  | nil => cases hc
  | cons d tl ih =>
    by_cases hd : namedType d = some t
    · rw [typesOf, filterMap_cons_some hd, nodup_cons] at hn
      obtain rfl | hc := mem_cons.1 hc
      · simp [firstConditionByType, ht]
      · exact absurd (mem_filterMap.2 ⟨c, hc, ht⟩) hn.1
    · obtain rfl | hc := mem_cons.1 hc
      · exact absurd ht hd
      · have hf := ih (hn.sublist ((sublist_cons_self d tl).filterMap _)) hc
        simpa [firstConditionByType, hd] using hf

theorem mergeConditions_again (hn : (typesOf incoming).Nodup) :
    mergeConditions parse (mergeConditions parse live incoming) incoming = mergeConditions parse live incoming := by
  have hu : unseen (typesOf incoming) (mergeConditions parse live incoming) = unseen (typesOf incoming) live := by
    rw [mergeConditions, unseen_append (by rw [typesOf_takeNewer]; exact fun _ => id), unseen_unseen]
  rw [mergeConditions, hu]
  refine congrArg (· ++ _) (map_congr_left fun i hi => ?_)
  cases ht : namedType i with
  | none => simp [takeNewer, ht]
  | some t =>
    have hf : firstConditionByType (mergeConditions parse live incoming) t = _ := firstConditionByType_merge t
    rw [first_of_mem hn hi ht] at hf
    simp only [takeNewer, ht, Option.bind_some, hf]
    cases firstConditionByType live t with
    | none => simp
    | some l =>
      dsimp only
      by_cases hl : liveConditionIsNewer parse l i <;> simp [hl]

/-! ## Statuses -/

/-- The conditions of a live object; anything but an array counts as none. -/
def liveConditions (liveResource : Json) : List Json := conditionsOf ((liveResource.get "status").getD .null)

theorem mergeConditions_nil : mergeConditions parse [] incoming = incoming := by
  have ht : takeNewer parse [] = id := by
    funext c
    cases hc : namedType c <;> simp [takeNewer, hc, firstConditionByType]
  simp [mergeConditions, unseen, ht]

theorem conditionsOf_mergeNewest {liveResource incomingStatus : Json} (hobject : incomingStatus.asObject.isSome)
    (hconditions : ∀ conditions ∈ incomingStatus.get "conditions", conditions.asArray.isSome) :
    conditionsOf (mergeConditionsByNewestTransitionTime parse liveResource incomingStatus) =
      mergeConditions parse (liveConditions liveResource) (conditionsOf incomingStatus) := by
  have hl : liveConditions liveResource =
      ((liveResource.pointer ["status", "conditions"]).bind Json.asArray).getD [] := by
    rw [liveConditions, Json.pointer_pair]
    cases liveResource.get "status" <;> rfl
  unfold mergeConditionsByNewestTransitionTime
  rw [hl]
  split
  · rename_i hp
    rw [hp, Option.getD_none, mergeConditions_nil]
  · rename_i hp
    rw [hp, Option.getD_some, mergeConditions_nil]
  · rename_i live _ hp
    cases incomingStatus with
    | obj fs =>
      have hi : ((Json.Fields.get "conditions" fs).getD (.arr [])).asArray = some (conditionsOf (.obj fs)) := by
        cases hc : Json.Fields.get "conditions" fs with
        | none => simp [conditionsOf, Json.get, hc, Json.asArray]
        | some conditions =>
          obtain ⟨incoming, ha⟩ := Option.isSome_iff_exists.1 (hconditions conditions hc)
          simp [conditionsOf, Json.get, hc, ha]
      rw [hp, Json.entryOrInsert, hi]
      exact conditionsOf_insert fs _
    | _ => cases hobject

/-- **Newest transition.** Of every type, each occurring once, a live and an incoming status merge to the newer
condition, in the order of the incoming ones and then of the live ones; merging the same status again changes no
condition. -/
theorem newest_transition_merge (parse : String → Option Int) (liveResource incomingStatus : Json)
    (hobject : incomingStatus.asObject.isSome = true)
    (hconditions : ∀ conditions ∈ incomingStatus.get "conditions", conditions.asArray.isSome = true)
    (hlive : UniqueTypes (liveConditions liveResource)) (hincoming : UniqueTypes (conditionsOf incomingStatus)) :
    let merged := mergeConditionsByNewestTransitionTime parse liveResource incomingStatus
    let live := liveConditions liveResource
    let incoming := conditionsOf incomingStatus
    (typesOf (conditionsOf merged)).Nodup ∧
      typesOf (conditionsOf merged) = typesOf incoming ++ (typesOf live).filter (· ∉ typesOf incoming) ∧
      (∀ type, firstConditionByType (conditionsOf merged) type =
        match firstConditionByType incoming type, firstConditionByType live type with
        | some i, some l => some (if liveConditionIsNewer parse l i then l else i)
        | some i, none => some i
        | none, l => l) ∧
      ∀ next, next.get "status" = some merged →
        conditionsOf (mergeConditionsByNewestTransitionTime parse next incomingStatus) = conditionsOf merged := by
  intro merged live incoming
  have hn {conditions : List Json} (h : UniqueTypes conditions) : (typesOf conditions).Nodup := by
    have ht : typesOf conditions = (conditions.filterMap conditionType).filter (· ≠ "") := by
      rw [typesOf, filter_filterMap]
      rfl
    rw [ht]
    exact h.filter _
  have hm : conditionsOf merged = mergeConditions parse live incoming := conditionsOf_mergeNewest hobject hconditions
  have ht : typesOf (conditionsOf merged) = _ := hm ▸ typesOf_merge (hn hlive)
  refine ⟨?_, ht, fun type => hm ▸ firstConditionByType_merge type, fun next hs => ?_⟩
  · rw [ht, nodup_append]
    refine ⟨hn hincoming, (hn hlive).filter _, fun a ha b hb he => ?_⟩
    subst he
    simpa [ha] using (mem_filter.1 hb).2
  · have hl : liveConditions next = mergeConditions parse live incoming := by rw [liveConditions, hs, ← hm]; rfl
    rw [conditionsOf_mergeNewest hobject hconditions, hl, hm]
    exact mergeConditions_again (hn hincoming)

theorem newest_transition_merge_report :
    (typesOf (conditionsOf (mergeConditionsByNewestTransitionTime sampleInstant sampleNode
    (sampleReport "2026-07-14T11:38:21Z")))).Nodup :=
  (newest_transition_merge sampleInstant sampleNode (sampleReport "2026-07-14T11:38:21Z") rfl
    (fun _ h => by cases h; rfl) (by decide +kernel) (by decide +kernel)).1

/-- A live condition whose type is the empty text is lost. -/
theorem empty_type_lost :
    let live := Json.obj [("status", .obj [("conditions", .arr [.obj [("type", .str "")]])])]
    UniqueTypes (liveConditions live) ∧ (liveConditions live).filterMap conditionType = [""] ∧
      conditionsOf (mergeConditionsByNewestTransitionTime sampleInstant live (.obj [])) = [] := by
  decide +kernel

end Klights.Status
