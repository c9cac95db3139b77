import Klights.Lib.Runs
import Klights.Pod.StatusMerge
import Mathlib.Data.List.Nodup

/-!
# What a status write leaves alone

A writer owns condition types and rebuilds fields (`PodStatusOwner`). What it neither owns nor rebuilds should survive
its writes: `FrameKept` says so of one write, and `Respects` which incoming statuses make it true. The merge keeps the
conditions a writer carries as they are, whoever owns their types, so a writer that carries a condition of another
owner overwrites it.

- `ofType_merged`: the conditions of one type after a write;
- `get_merged`: an omitted field after a write;
- `frameKept_iff`: one write keeps the frame exactly when its incoming status respects it;
- `condition_type_run`: the conditions of a type after a run;
- `status_frame_iff`: the frame over runs.
-/

namespace Klights.Pod

open Lib PodStatusPatch Json List

/-! ## Runs of writes -/

structure StatusWrite where
  owner : PodStatusOwner
  incoming : Json

def liveStatus (pod : Json) : Json := (pod.get "status").getD .null

namespace StatusWrite

def merged (pod : Json) (write : StatusWrite) : Json :=
  mergePodStatusForUpdate "v1" "Pod" pod write.incoming write.owner

def apply (pod : Json) (write : StatusWrite) : Json := pod.insertField "status" (merged pod write)

def run (pod : Json) (writes : List StatusWrite) : Json := writes.foldl apply pod

end StatusWrite

@[simp] theorem liveStatus_insert (fields : List (String × Json)) (status : Json) :
    liveStatus (.insertField (.obj fields) "status" status) = status := by
  simp [liveStatus]

theorem pointer_status (pod : Json) (key : String) : pod.pointer ["status", key] = (liveStatus pod).get key := by
  unfold pointer liveStatus
  cases pod.get "status" with
  | none => rfl
  | some status => simp [pointer]

variable {fields fs : List (String × Json)}

theorem liveStatus_object {pod : Json} :
    (pod.get "status").bind asObject = some fields ↔ liveStatus pod = .obj fields := by
  unfold liveStatus
  cases pod.get "status" with
  | none => simp
  | some status => cases status <;> simp [asObject]

/-! ## Conditions of a type -/

def ofType (type : String) (conditions : List Json) : List Json :=
  conditions.filter fun condition => conditionType condition = some type

variable {type ty key k : String} {status : Json}

section Types

variable {conditions cs : List Json}

@[simp] theorem ofType_nil : ofType ty [] = [] := rfl

theorem ofType_cons (cd : Json) : ofType ty (cd :: conditions) =
      if conditionType cd = some ty then cd :: ofType ty conditions else ofType ty conditions := by
  simp [ofType, filter_cons]

@[simp] theorem ofType_append (more : List Json) :
    ofType ty (cs ++ more) = ofType ty cs ++ ofType ty more := filter_append ..

theorem any_type_iff : (cs.any fun e => conditionType e = some ty) ↔ ofType ty cs ≠ [] := by
  simp [ofType, filter_eq_nil_iff]

theorem ofType_backfill (merged : List Json) (cd : Json) : ofType ty (backfillCondition merged cd) =
      if conditionType cd = some ty ∧ ofType ty merged = [] then [cd] else ofType ty merged := by
  unfold backfillCondition
  cases hc : conditionType cd with
  | none => simp
  | some o =>
    dsimp only
    by_cases hp : ofType o merged = []
    · rw [if_neg fun ha => any_type_iff.1 ha hp, ofType_append, ofType_cons, hc]
      rcases eq_or_ne o ty with rfl | heq
      · simp [hp]
      · simp [heq]
    · rw [if_pos (any_type_iff.2 hp), if_neg]
      rintro ⟨heq, hn⟩
      cases heq
      exact hp hn

theorem ofType_backfills (merged l : List Json) : ofType ty (l.foldl backfillCondition merged) =
      if ofType ty merged = [] then (ofType ty l).take 1 else ofType ty merged := by
  induction l generalizing merged with
  | nil =>
    split
    · rename_i hn
      simpa using hn
    · rfl
  | cons co tl ih =>
    rw [foldl_cons, ih, ofType_backfill, ofType_cons]
    by_cases hc : conditionType co = some ty
    · by_cases hn : ofType ty merged = []
      · simp [hc, hn]
      · simp [hn]
    · simp [hc]

theorem preservable_typed {ow : PodStatusOwner} {pod cd : Json}
    (h : cd ∈ preservableConditions ow pod) : ∃ type, conditionType cd = some type := by
  have hk := (mem_filter.1 h).2
  cases ht : conditionType cd with
  | none => rw [ht] at hk; cases hk
  | some type => exact ⟨type, rfl⟩

theorem ofType_preservable (ow : PodStatusOwner) (pod : Json) : ofType ty (preservableConditions ow pod) =
      if ow.ownsConditionType ty then [] else ofType ty (conditionsOf (liveStatus pod)) := by
  unfold preservableConditions
  rw [pointer_status]
  unfold ofType
  rw [filter_filter]
  split
  · rename_i ho
    rw [filter_eq_nil_iff]
    intro co _ hk
    simp only [Bool.and_eq_true, decide_eq_true_eq] at hk
    simp [hk.1, ho] at hk
  · rename_i ho
    refine filter_congr fun co _ => ?_
    by_cases ht : conditionType co = some ty
    · simp [ht, ho]
    · simp [ht]

end Types

/-! ## Distinct types -/

/-- Conditions that each have a type of their own. -/
structure DistinctTypes (conditions : List Json) : Prop where
  typed : ∀ condition ∈ conditions, (conditionType condition).isSome = true
  nodup : (conditions.map conditionType).Nodup

theorem DistinctTypes.backfill {m : List Json} (h : DistinctTypes m) (cd : Json) :
    DistinctTypes (backfillCondition m cd) := by
  unfold backfillCondition
  split
  · exact h
  · rename_i ty ht
    split
    · exact h
    · rename_i hn
      refine ⟨fun exi hold => ?_, ?_⟩
      · rcases mem_append.1 hold with hold | hold
        · exact h.typed exi hold
        · rw [mem_singleton.1 hold, ht]
          rfl
      · rw [map_append]
        refine nodup_append.2 ⟨h.nodup, nodup_singleton _, fun o ho ad ha heq => ?_⟩
        obtain ⟨exi, hold, rfl⟩ := mem_map.1 ho
        rw [map_singleton, mem_singleton, ht] at ha
        exact hn (any_eq_true.2 ⟨exi, hold, decide_eq_true (heq.trans ha)⟩)

theorem DistinctTypes.backfills {m : List Json} (h : DistinctTypes m) (l : List Json) :
    DistinctTypes (l.foldl backfillCondition m) := by
  induction l generalizing m with
  | nil => exact h
  | cons co tl ih => exact ih (h.backfill co)

theorem DistinctTypes.backfills_eq {m live : List Json} (h : DistinctTypes (m ++ live)) :
    live.foldl backfillCondition m = m ++ live := by
  induction live generalizing m with
  | nil => simp
  | cons co tl ih =>
    have hs : backfillCondition m co = m ++ [co] := by
      obtain ⟨ty, ht⟩ := Option.isSome_iff_exists.1 (h.typed co (by simp))
      unfold backfillCondition
      rw [ht]
      refine if_neg fun ha => ?_
      obtain ⟨exi, ho, heq⟩ := any_eq_true.1 ha
      have hn := h.nodup
      rw [map_append, nodup_append] at hn
      refine hn.2.2 (conditionType exi) (mem_map_of_mem ho) (conditionType co) (by simp) ?_
      rw [ht]
      exact of_decide_eq_true heq
    rw [foldl_cons, hs, ih (by simpa using h)]
    simp

theorem DistinctTypes.backfills_nil {live : List Json} (h : DistinctTypes live) :
    live.foldl backfillCondition [] = live := by
  have ha : live.foldl backfillCondition [] = [] ++ live := DistinctTypes.backfills_eq (by simpa using h)
  simpa using ha

/-! ## One write -/

namespace StatusWrite

variable (pod p : Json) (write wr : StatusWrite)

/-- The incoming status with its phase and conditions settled. -/
def conditioned : Json :=
  (PodStatusPatch.extract write.owner write.incoming).applyConditions pod
    ((PodStatusPatch.extract write.owner write.incoming).applyPhase write.incoming)

/-- Before omitted fields are filled in. -/
def settled : Json :=
  if write.owner.preservesTerminalRuntimeState then preserveTerminalOrConfirmedRuntimeState pod (conditioned pod write)
  else conditioned pod write

theorem merged_eq : merged p wr = preserveUnmentionedLiveStatusFields wr.owner p (settled p wr) := by
  rfl

end StatusWrite

section Steps

variable {pod : Json} {ow : PodStatusOwner}

theorem applyConditions_agree (pt : PodStatusPatch) (pod status : Json) :
    Json.AgreeOff ["conditions"] (pt.applyConditions pod status) status := by
  unfold applyConditions
  dsimp only
  split
  · exact .refl _ _
  · exact agreeOff_insertField _ _ (by simp)

theorem applyConditions_conditions (pt : PodStatusPatch) (pod : Json) (fields : List (String × Json)) :
    (pt.applyConditions pod (.obj fields)).get "conditions" =
      if preservableConditions pt.owner pod = [] ∧ pt.conditions = [] ∧ get (.obj fields) "conditions" = none
      then none
      else some (.arr ((preservableConditions pt.owner pod).foldl backfillCondition pt.conditions)) := by
  unfold applyConditions
  dsimp only
  split
  · rename_i hn
    simp only [Bool.and_eq_true, List.isEmpty_iff, Option.isNone_iff_eq_none] at hn
    rw [if_pos ⟨hn.1.1, hn.1.2, hn.2⟩, hn.2]
  · rename_i hn
    simp only [Bool.and_eq_true, List.isEmpty_iff, Option.isNone_iff_eq_none] at hn
    rw [if_neg fun h => hn ⟨⟨h.1, h.2.1⟩, h.2.2⟩, get_insertField_self]

theorem preserveTerminal_agree (pod status : Json) :
    Json.AgreeOff ["phase", "containerStatuses"] (preserveTerminalOrConfirmedRuntimeState pod status) status := by
  have hc : ∀ (v : Json) (st : List Json),
      Json.AgreeOff ["phase", "containerStatuses"] (v.insertField "containerStatuses" (.arr st)) v :=
    fun v st => agreeOff_insertField v _ (by simp)
  unfold preserveTerminalOrConfirmedRuntimeState
  dsimp only
  split
  · exact .refl _ _
  · split
    · exact .refl _ _
    · split
      · exact .refl _ _
      · split
        · refine (hc _ _).trans ?_
          split
          · exact agreeOff_insertField _ _ (by simp)
          · exact .refl _ _
        · split
          · exact .refl _ _
          · exact hc _ _

theorem preserveField_get_ne {f : String × Json} (hn : key ≠ f.1) :
    (preserveUnmentionedField ow status f).get key = status.get key := by
  unfold preserveUnmentionedField
  dsimp only
  split
  · rfl
  · split <;> split <;> simp [hn]

theorem preserveField_skipped (hk : key = "conditions" ∨ ow.rebuildsStatusField key)
    (f : String × Json) : (preserveUnmentionedField ow status f).get key = status.get key := by
  by_cases hf : key = f.1
  · rw [preserveUnmentionedField, if_pos (by simpa [← hf] using hk)]
  · exact preserveField_get_ne hf

theorem preserveField_get_self {value : Json} (ho : status.asObject.isSome) (he : k ≠ "conditions")
    (hk : ow.rebuildsStatusField k = false) (hm : status.get k = none) :
    (preserveUnmentionedField ow status (k, value)).get k = some value := by
  unfold preserveUnmentionedField
  rw [if_neg (by simp [he, hk])]
  simp only [hm, Option.any_none, Bool.and_false, Bool.false_eq_true, if_false, Option.isNone_none, if_true]
  cases status with
  | obj fs => exact get_insertField_self fs k value
  | _ => cases ho

theorem preserveField_object (f : String × Json) :
    (preserveUnmentionedField ow status f).asObject.isSome = status.asObject.isSome := by
  have hr : ∀ (v : Json) (k : String), (v.removeField k).asObject.isSome = v.asObject.isSome := by
    intro v k
    cases v <;> rfl
  unfold preserveUnmentionedField
  dsimp only
  split
  · rfl
  · split <;> split <;> simp [hr]

theorem preserveFields_get_ne (hk : key ∉ fs.map Prod.fst) :
    (fs.foldl (preserveUnmentionedField ow) status).get key = status.get key := by
  induction fs generalizing status with
  | nil => rfl
  | cons fld tl ih =>
    obtain ⟨hf, hr⟩ := ne_and_not_mem_of_not_mem_cons (by simpa only [map_cons] using hk)
    rw [foldl_cons, ih hr, preserveField_get_ne hf]

theorem preserveFields_skipped (hk : key = "conditions" ∨ ow.rebuildsStatusField key) (fields : List (String × Json)) :
    (fields.foldl (preserveUnmentionedField ow) status).get key = status.get key := by
  induction fields generalizing status with
  | nil => rfl
  | cons fld tl ih => rw [foldl_cons, ih, preserveField_skipped hk]

/-- An omitted field is filled in with its live value when its turn comes, and stays. -/
theorem preserveFields_get (hd : (fields.map Prod.fst).Nodup) (ho : status.asObject.isSome)
    (he : k ≠ "conditions") (hk : ow.rebuildsStatusField k = false) (hm : status.get k = none) :
    (fields.foldl (preserveUnmentionedField ow) status).get k = Json.Fields.get k fields := by
  induction fields generalizing status with
  | nil => exact hm
  | cons fld tl ih =>
    obtain ⟨nm, vl⟩ := fld
    obtain ⟨hn, hr⟩ := nodup_cons.1 (by simpa only [map_cons] using hd)
    rw [foldl_cons, Json.Fields.get]
    split
    · rename_i heq
      subst heq
      rw [preserveFields_get_ne hn, preserveField_get_self ho he hk hm]
    · rename_i hne
      refine ih hr (by rw [preserveField_object, ho]) ?_
      rw [preserveField_get_ne (Ne.symm hne), hm]

end Steps

section Write

variable {pod p : Json} {write wr : StatusWrite}

open StatusWrite

theorem settled_agree (pod : Json) (write : StatusWrite) :
    Json.AgreeOff ["phase", "containerStatuses"] (settled pod write) (conditioned pod write) := by
  unfold settled
  split
  · exact preserveTerminal_agree _ _
  · exact .refl _ _

theorem conditioned_agree (pod : Json) (write : StatusWrite) :
    Json.AgreeOff ["conditions"] (conditioned pod write) write.incoming := by
  have hp := applyPhase_agree write.owner write.incoming
  exact (applyConditions_agree _ _ _).trans
    ⟨hp.scalar, hp.object, fun k _ => hp.field k not_mem_nil⟩

theorem merged_scalar (hsc : wr.incoming.asObject = none) : merged p wr = wr.incoming := by
  have hc := (conditioned_agree p wr).symm.scalar hsc
  have hs := (settled_agree p wr).symm.scalar (by rw [hc, hsc])
  rw [merged_eq, hs, hc, preserveUnmentionedLiveStatusFields, hsc]

theorem settled_object (ho : wr.incoming.asObject.isSome) : (settled p wr).asObject.isSome := by
  rw [(settled_agree p wr).object, (conditioned_agree p wr).object, ho]

theorem get_merged (ho : wr.incoming.asObject.isSome) (hl : (liveStatus p).Sorted)
    (he : key ≠ "conditions") (hk : wr.owner.rebuildsStatusField key = false)
    (hm : wr.incoming.get key = none) : (merged p wr).get key = (liveStatus p).get key := by
  have hs : (settled p wr).get key = none := by
    have hc := (conditioned_agree p wr).field key (by simpa using he)
    unfold settled
    split
    · rename_i hu
      have hw : wr.owner = .kubeletRuntime := of_decide_eq_true hu
      rw [hw] at hk
      simp only [PodStatusOwner.rebuildsStatusField, Bool.or_eq_false_iff, decide_eq_false_iff_not] at hk
      rw [(preserveTerminal_agree p _).field key (by simp [hk]), hc, hm]
    · rw [hc, hm]
  have hso : (settled p wr).asObject.isSome := settled_object ho
  obtain ⟨fs, hf⟩ := Option.isSome_iff_exists.1 hso
  rw [merged_eq, preserveUnmentionedLiveStatusFields, hf]
  cases ht : (p.get "status").bind asObject with
  | none =>
    rw [hs]
    cases hv : liveStatus p with
    | obj li => rw [liveStatus_object.2 hv] at ht; cases ht
    | _ => rfl
  | some li =>
    have hv := liveStatus_object.1 ht
    rw [hv]
    exact preserveFields_get (hl li (by rw [hv]; rfl)).nodup (by rw [hf]; rfl) he hk hs

theorem merged_skipped (hk : key = "conditions" ∨ wr.owner.rebuildsStatusField key) :
    (merged p wr).get key = (settled p wr).get key := by
  rw [merged_eq]
  unfold preserveUnmentionedLiveStatusFields
  split
  · exact preserveFields_skipped hk _
  · rfl

theorem merged_conditions (pod : Json) (write : StatusWrite) :
    (merged pod write).get "conditions" = (conditioned pod write).get "conditions" :=
  (merged_skipped (.inl rfl)).trans ((settled_agree pod write).field "conditions" (by simp))

/-- The `conditions` of the written status: what the writer carries, then what is kept of the live ones. -/
theorem conditioned_conditions (ho : wr.incoming.asObject.isSome) : (conditioned p wr).get "conditions" =
      if preservableConditions wr.owner p = [] ∧ wr.incoming.get "conditions" = none then none
      else some (.arr ((preservableConditions wr.owner p).foldl backfillCondition (conditionsOf wr.incoming))) := by
  have hp := applyPhase_agree wr.owner wr.incoming
  have hg := hp.field "conditions" not_mem_nil
  obtain ⟨fields, hf⟩ : ∃ fields, (extract wr.owner wr.incoming).applyPhase wr.incoming = .obj fields := by
    obtain ⟨fields, hf⟩ := Option.isSome_iff_exists.1 (hp.object.trans ho)
    revert hf
    cases (extract wr.owner wr.incoming).applyPhase wr.incoming with
    | obj fs' => exact fun _ => ⟨fs', rfl⟩
    | _ => exact nofun
  rw [hf] at hg
  rw [conditioned, hf, applyConditions_conditions, hg]
  by_cases hn : preservableConditions wr.owner p = [] ∧ wr.incoming.get "conditions" = none
  · have hc : conditionsOf wr.incoming = [] := by rw [conditionsOf, hn.2]; rfl
    rw [if_pos hn]
    exact if_pos ⟨hn.1, hc, hn.2⟩
  · rw [if_neg hn]
    exact if_neg fun h => hn ⟨h.1, h.2.2⟩

theorem ofType_merged (ho : wr.incoming.asObject.isSome) :
    ofType ty (conditionsOf (merged p wr)) = if ofType ty (conditionsOf wr.incoming) = [] then
        if wr.owner.ownsConditionType ty then [] else (ofType ty (conditionsOf (liveStatus p))).take 1
      else ofType ty (conditionsOf wr.incoming) := by
  have hl : conditionsOf (merged p wr) =
      (preservableConditions wr.owner p).foldl backfillCondition (conditionsOf wr.incoming) := by
    rw [conditionsOf_congr (merged_conditions p wr), conditionsOf, conditioned_conditions ho]
    split
    · rename_i hn
      rw [hn.1, conditionsOf, hn.2]
      rfl
    · rfl
  rw [hl, ofType_backfills, ofType_preservable]
  split
  · split <;> rfl
  · rfl

end Write

/-! ## The frame -/

open StatusWrite in
/-- A write leaves the conditions of the types its owner does not own, and what it omits and does not rebuild. -/
structure FrameKept (pod : Json) (write : StatusWrite) : Prop where
  conditions : ∀ type, write.owner.ownsConditionType type = false → ofType type (conditionsOf (liveStatus pod)) ≠ [] →
      ofType type (conditionsOf (merged pod write)) = ofType type (conditionsOf (liveStatus pod))
  fields : ∀ key value, (liveStatus pod).get key = some value → write.incoming.get key = none →
    write.owner.rebuildsStatusField key = false → (merged pod write).get key = some value

/-- An incoming status that keeps to what its writer owns: an object that carries a condition of another owner only as
it is live, and leaves one out only where it is live once. -/
structure Respects (pod : Json) (write : StatusWrite) : Prop where
  conditions : ∀ type, write.owner.ownsConditionType type = false → ofType type (conditionsOf (liveStatus pod)) ≠ [] →
      write.incoming.asObject.isSome = true ∧
        (ofType type (conditionsOf write.incoming) = ofType type (conditionsOf (liveStatus pod)) ∨
          ofType type (conditionsOf write.incoming) = [] ∧ (ofType type (conditionsOf (liveStatus pod))).length = 1)
  fields : ∀ key value, (liveStatus pod).get key = some value → write.incoming.get key = none →
    write.owner.rebuildsStatusField key = false → write.incoming.asObject.isSome = true ∧
        (key = "conditions" → ∃ conditions, value = .arr conditions ∧ conditions ≠ [] ∧ DistinctTypes conditions)

section Frame

variable {pod p : Json} {write wr : StatusWrite} {vl : Json}

open StatusWrite

theorem conditionsOf_scalar (h : status.asObject = none) : conditionsOf status = [] := by
  cases status with
  | obj fs => cases h
  | _ => rfl

theorem owner_of_keeps_conditions {ow : PodStatusOwner} (h : ow.rebuildsStatusField "conditions" = false) :
    ow = .replicatedApply := by
  cases ow with
  | replicatedApply => rfl
  | _ => cases h

theorem preservable_replicated {conditions : List Json}
    (hl : (liveStatus p).get "conditions" = some (.arr conditions)) :
    preservableConditions .replicatedApply p = conditions.filter fun cd => (conditionType cd).isSome := by
  unfold preservableConditions
  rw [pointer_status, hl]
  refine filter_congr fun cd _ => ?_
  cases conditionType cd <;> rfl

/-- The live `conditions` survive their omission exactly when they are a list of distinct types. -/
theorem get_merged_conditions (ho : wr.incoming.asObject.isSome)
    (hk : wr.owner.rebuildsStatusField "conditions" = false)
    (hl : (liveStatus pod).get "conditions" = some vl) (hom : wr.incoming.get "conditions" = none) :
    (merged pod wr).get "conditions" = some vl ↔
      ∃ conditions, vl = .arr conditions ∧ conditions ≠ [] ∧ DistinctTypes conditions := by
  have hw := owner_of_keeps_conditions hk
  have hno : conditionsOf wr.incoming = [] := by rw [conditionsOf, hom]; rfl
  have he : DistinctTypes [] := ⟨fun _ h => absurd h not_mem_nil, nodup_nil⟩
  rw [merged_conditions, conditioned_conditions ho, hno, hw]
  constructor
  · intro hv
    split at hv
    · cases hv
    · rename_i hs
      refine ⟨_, (Option.some.inj hv).symm, fun hn => hs ⟨?_, hom⟩, he.backfills _⟩
      cases hp : preservableConditions .replicatedApply pod with
      | nil => rfl
      | cons co tl =>
        have hm : co ∈ preservableConditions .replicatedApply pod := by rw [hp]; simp
        obtain ⟨ty, ht⟩ := preservable_typed hm
        have hf1 : ofType ty ((preservableConditions .replicatedApply pod).foldl backfillCondition []) = _ :=
          ofType_backfills [] _
        rw [hn, hp, ofType_cons, if_pos ht] at hf1
        cases hf1
  · rintro ⟨conditions, rfl, hne, hd⟩
    have ha : preservableConditions .replicatedApply pod = conditions := by
      rw [preservable_replicated hl, filter_eq_self]
      exact hd.typed
    rw [ha, if_neg fun h => hne h.1, hd.backfills_nil]

theorem frameKept_iff (hl : (liveStatus p).Sorted) : FrameKept p write ↔ Respects p write := by
  constructor
  · intro h
    refine ⟨fun ty hw hs => ?_, fun k vl hv hm hk => ?_⟩
    · have hf := h.conditions ty hw hs
      have ho : write.incoming.asObject.isSome := by
        by_contra hsc
        have hno : write.incoming.asObject = none := by simpa using hsc
        rw [merged_scalar hno, conditionsOf_scalar hno, ofType_nil] at hf
        exact hs hf.symm
      refine ⟨ho, ?_⟩
      rw [ofType_merged ho, hw] at hf
      split at hf
      · rename_i hno
        have hle : min 1 _ = _ := length_take ▸ congrArg List.length hf
        have hpos := length_pos_iff.2 hs
        exact .inr ⟨hno, by omega⟩
      · exact .inl hf
    · have hf := h.fields k vl hv hm hk
      have ho : write.incoming.asObject.isSome := by
        by_contra hsc
        rw [merged_scalar (by simpa using hsc), hm] at hf
        cases hf
      refine ⟨ho, fun he => ?_⟩
      subst he
      exact (get_merged_conditions ho hk hv hm).1 hf
  · intro h
    refine ⟨fun ty hw hs => ?_, fun k vl hv hm hk => ?_⟩
    · obtain ⟨ho, ha⟩ := h.conditions ty hw hs
      rw [ofType_merged ho, hw]
      rcases ha with heq | ⟨hno, hn⟩
      · rw [if_neg (by rw [heq]; exact hs), heq]
      · rw [if_pos hno]
        exact take_of_length_le (by omega)
    · obtain ⟨ho, hc⟩ := h.fields k vl hv hm hk
      by_cases he : k = "conditions"
      · subst he
        exact (get_merged_conditions ho hk hv hm).2 (hc rfl)
      · rw [get_merged ho hl he hk hm, hv]

end Frame

/-! ## Runs -/

section Runs

variable {pod p : Json} {write wr : StatusWrite}

open StatusWrite

section

variable (h : status.Sorted)
include h

theorem sorted_applyPhase (pt : PodStatusPatch) : (pt.applyPhase status).Sorted := by
  unfold applyPhase
  split
  · exact h
  · exact h.insertField _ _

theorem sorted_applyConditions (pt : PodStatusPatch) (pod : Json) : (pt.applyConditions pod status).Sorted := by
  unfold applyConditions
  dsimp only
  split
  · exact h
  · exact h.insertField _ _

theorem sorted_preserveTerminal (pod : Json) : (preserveTerminalOrConfirmedRuntimeState pod status).Sorted := by
  unfold preserveTerminalOrConfirmedRuntimeState
  dsimp only
  repeat' split
  all_goals first
    | exact h
    | exact h.insertField _ _
    | exact (h.insertField _ _).insertField _ _

theorem sorted_preserveField (ow : PodStatusOwner) (f : String × Json) :
    (preserveUnmentionedField ow status f).Sorted := by
  unfold preserveUnmentionedField
  dsimp only
  split
  · exact h
  · split <;> split
    · exact (h.removeField _).insertField _ _
    · exact h.removeField _
    · exact h.insertField _ _
    · exact h

theorem sorted_preserveFields (ow : PodStatusOwner) (fields : List (String × Json)) :
    (fields.foldl (preserveUnmentionedField ow) status).Sorted := by
  induction fields generalizing status with
  | nil => exact h
  | cons fld tl ih => exact ih (sorted_preserveField h ow fld)

end

theorem sorted_merged (h : wr.incoming.Sorted) : (merged p wr).Sorted := by
  have hc : (conditioned p wr).Sorted := sorted_applyConditions (sorted_applyPhase h _) _ _
  have hs : (settled p wr).Sorted := by
    unfold settled
    split
    · exact sorted_preserveTerminal hc p
    · exact hc
  rw [merged_eq]
  unfold preserveUnmentionedLiveStatusFields
  split
  · exact sorted_preserveFields hs _ _
  · exact hs

theorem sorted_apply (hl : (liveStatus p).Sorted) (h : wr.incoming.Sorted) :
    (liveStatus (StatusWrite.apply p wr)).Sorted := by
  cases p with
  | obj fs => exact (liveStatus_insert fs _).symm ▸ sorted_merged h
  | _ => exact hl

theorem liveStatus_apply (ho : p.asObject.isSome) : liveStatus (StatusWrite.apply p write) = merged p write := by
  cases p with
  | obj fs => exact liveStatus_insert fs _
  | _ => cases ho

def conditionsAfter (type : String) (current : List Json) (write : StatusWrite) : List Json :=
  if ofType type (conditionsOf write.incoming) = [] then
    if write.owner.ownsConditionType type then [] else current.take 1
  else ofType type (conditionsOf write.incoming)

/-- The conditions of a type go through a run on their own: a writer that carries the type sets it, an owner that leaves
it out removes it, and anyone else keeps the first. -/
theorem condition_type_run (type : String) (writes : List StatusWrite)
    (hwrites : ∀ write ∈ writes, write.incoming.asObject.isSome) {pod : Json} (hpod : pod.asObject.isSome) :
    ofType type (conditionsOf (liveStatus (run pod writes))) =
      writes.foldl (conditionsAfter type) (ofType type (conditionsOf (liveStatus pod))) := by
  induction writes generalizing pod with
  | nil => rfl
  | cons write writes ih =>
    have hs : (StatusWrite.apply pod write).asObject.isSome := by
      rw [StatusWrite.apply, asObject_insertField_isSome, hpod]
    rw [foldl_cons, conditionsAfter, ← ofType_merged (hwrites write mem_cons_self), ← liveStatus_apply hpod]
    exact ih (fun write hm => hwrites write (mem_cons_of_mem _ hm)) hs

/-- **The ownership frame.** Every write of a run leaves what its owner does not own, exactly when every incoming status
carries a condition of another owner as it is live or not at all. -/
theorem status_frame_iff (pod : Json) (writes : List StatusWrite) (hlive : (liveStatus pod).Sorted)
    (hwrites : ∀ write ∈ writes, write.incoming.Sorted) :
    Along StatusWrite.apply FrameKept pod writes ↔ Along StatusWrite.apply Respects pod writes := by
  apply along_congr (I := fun p' => (liveStatus p').Sorted)
  · intro p' write _ hs
    exact frameKept_iff hs
  · intro p' write hw _ hs
    exact sorted_apply hs (hwrites write hw)
  · exact hlive

end Runs

/-! ## A stale copy -/

def disruptionTarget (status : String) : Json := .obj [("status", .str status), ("type", .str "DisruptionTarget")]

def disruptedPod : Json :=
  .obj [("status", .obj [("conditions", .arr [disruptionTarget "True"]), ("podIP", .str "10.42.0.7")])]

def kubeletWrite (conditions : List Json) : StatusWrite :=
  ⟨.kubeletRuntime, .obj [("conditions", .arr conditions), ("phase", .str "Running")]⟩

theorem status_frame_kept : Along StatusWrite.apply FrameKept disruptedPod [kubeletWrite []] := by
  have hl : (liveStatus disruptedPod).Sorted := by
    intro fields hf
    cases hf
    decide +kernel
  have hw : ∀ write ∈ [kubeletWrite []], write.incoming.Sorted := by
    intro write hr fields hf
    obtain rfl := mem_singleton.1 hr
    cases hf
    decide +kernel
  refine (status_frame_iff disruptedPod _ hl hw).2
    ⟨⟨fun type _ hs => ?_, fun key value _ _ hk => ?_⟩, trivial⟩
  · refine ⟨rfl, .inr ⟨rfl, ?_⟩⟩
    change ofType type [disruptionTarget "True"] ≠ [] at hs
    change (ofType type [disruptionTarget "True"]).length = 1
    rw [ofType_cons] at hs ⊢
    split
    · rfl
    · rename_i ho
      exact absurd (if_neg ho) hs
  · refine ⟨rfl, fun he => ?_⟩
    subst he
    cases hk

theorem condition_type_run_sample : ofType "DisruptionTarget" (conditionsOf (liveStatus
    (StatusWrite.run disruptedPod [kubeletWrite [], kubeletWrite [disruptionTarget "False"], kubeletWrite []]))) =
      [disruptionTarget "False"] :=
  (condition_type_run "DisruptionTarget" _ (by decide +kernel) rfl).trans (by decide +kernel)

/-- A stale copy of the scheduler's condition overwrites it. -/
theorem kubelet_overwrites_condition :
    ofType "DisruptionTarget" (conditionsOf (liveStatus disruptedPod)) = [disruptionTarget "True"] ∧
      ofType "DisruptionTarget" (conditionsOf ((kubeletWrite [disruptionTarget "False"]).merged disruptedPod)) =
        [disruptionTarget "False"] ∧
      ¬Along StatusWrite.apply FrameKept disruptedPod [kubeletWrite [disruptionTarget "False"]] := by
  refine ⟨by decide +kernel, by decide +kernel, fun h => ?_⟩
  have hk := h.1.conditions "DisruptionTarget" (by decide +kernel) (by decide +kernel)
  revert hk
  decide +kernel

end Klights.Pod
