import Klights.Job.Status

/-!
# The conditions of a Job

What a derived status says of a Job, by its conditions of status `True`.

- `reports_complete`, `reports_failed`: when the status says that the Job is complete, and when that it has failed;
- `not_complete_and_failed`: when it is not both. Failures are not asked for when completions are counted, and
  `complete_and_failed` shows a Job that is both.
-/

namespace Klights.Job

open Controllers

def isTrueOf (type : String) (condition : Json) : Bool :=
  (condition.get "type").bind Json.asStr = some type && (condition.get "status").bind Json.asStr = some "True"

def reports (status : Json) (type : String) : Bool :=
  (((status.get "conditions").bind Json.asArray).getD []).any (isTrueOf type)

section Says

variable {j : Json} {ownedPods oe : List Json} {n : Now}

theorem isTrueOf_jobCondition (ty o re m : String) : isTrueOf ty (jobCondition j n o re m) = decide (o = ty) := by
  have hkp : ∀ (co : Json) (pr : Option Json) (tx key : String), key ≠ "lastTransitionTime" → key ≠ "lastUpdateTime" →
      (preserveConditionUpdateTimeIfPresent (preserveConditionTransitionTime co pr tx) pr tx).get key = co.get key := by
    intro co pr tx key ht hu
    unfold preserveConditionUpdateTimeIfPresent preserveConditionUpdateTime preserveConditionTransitionTime
    split
    · rw [Json.get_insertField_ne _ _ hu, Json.get_insertField_ne _ _ ht]
    · rw [Json.get_insertField_ne _ _ ht]
  have hty : (jobCondition j n o re m).get "type" = some (.str o) :=
    (hkp _ _ _ _ (by decide) (by decide)).trans rfl
  have htt : (jobCondition j n o re m).get "status" = some (.str "True") :=
    (hkp _ _ _ _ (by decide) (by decide)).trans rfl
  simp [isTrueOf, hty, htt, Json.asStr]

theorem get_insertIndexes_ne (st : Json) {k other : String} (i : Finset Int) (h : other ≠ k) :
    (insertIndexes st k i).get other = st.get other := by
  unfold insertIndexes
  split
  · exact Json.get_insertField_ne st _ h
  · rfl

theorem get_deriveJobStatus_conditions :
    (deriveJobStatus j oe n).get "conditions" = some (.arr (conditionsOf j oe n)) := by
  have hi : ∀ st : Json, (if isIndexed (specOf j) then
      insertIndexes (insertIndexes st "completedIndexes" (succeededIndexes j (activeOwnedPodsOf oe)))
        "failedIndexes" (failedIndexes (specOf j) (activeOwnedPodsOf oe))
      else st).get "conditions" = st.get "conditions" := by
    intro st
    split
    · rw [get_insertIndexes_ne _ _ (by decide), get_insertIndexes_ne _ _ (by decide)]
    · rfl
  unfold deriveJobStatus
  dsimp only
  split
  · rw [Json.get_insertField_ne _ _ (by decide), hi]
    rfl
  · rw [hi]
    rfl

/-- Conditions that are kept from before say nothing of what the controller decides. -/
theorem reports_derived {ty : String} (hw : isControllerOwnedType ty) :
    reports (deriveJobStatus j oe n) ty = (controllerConditions j oe n).any (isTrueOf ty) := by
  unfold reports
  rw [get_deriveJobStatus_conditions, Option.bind_some, Json.asArray, Option.getD_some, conditionsOf]
  generalize controllerConditions j oe n = conditions
  induction existingConditionsOf j generalizing conditions with
  | nil => rfl
  | cons exi tl ih =>
    rw [List.foldl_cons, ih]
    dsimp only
    split
    · rfl
    · rename_i hk
      have ho : isTrueOf ty exi = false := by
        by_contra hr
        simp only [isTrueOf, Bool.not_eq_false, Bool.and_eq_true, decide_eq_true_eq] at hr
        rw [hr.1] at hk
        exact hk (.inr (.inl hw))
      simp [ho]

theorem any_controllerConditions (ty : String) : (controllerConditions j oe n).any (isTrueOf ty) =
      ((shouldSetComplete j oe && decide ("Complete" = ty)) ||
        ((failureOf j (activeOwnedPodsOf oe)).isSome && decide ("Failed" = ty)) ||
        (isSuccessCriteriaMet j (activeOwnedPodsOf oe) && decide ("SuccessCriteriaMet" = ty)) ||
        (isSuspended (specOf j) && decide ("Suspended" = ty))) := by
  simp only [controllerConditions, List.any_append]
  congr 1
  · congr 1
    · congr 1
      · cases shouldSetComplete j oe with
        | false => rfl
        | true => cases isSuccessCriteriaMet j (activeOwnedPodsOf oe) <;> simp [isTrueOf_jobCondition]
      · cases failureOf j (activeOwnedPodsOf oe) <;> simp [isTrueOf_jobCondition]
    · split <;> simp_all [isTrueOf_jobCondition]
  · split <;> simp_all [isTrueOf_jobCondition]

theorem reports_complete : reports (deriveJobStatus j ownedPods n) "Complete" = shouldSetComplete j ownedPods := by
  rw [reports_derived (by decide), any_controllerConditions]
  simp

theorem reports_failed : reports (deriveJobStatus j oe n) "Failed" = (failureOf j (activeOwnedPodsOf oe)).isSome := by
  rw [reports_derived (by decide), any_controllerConditions]
  simp

/-- An Indexed Job has not completed while some of its indexes have failed for good. -/
theorem isComplete_of_allIndexesTerminal {ps : List Json} (h : (allIndexesTerminal j ps).isSome) :
    isComplete j ps = false := by
  unfold allIndexesTerminal at h
  dsimp only at h
  split at h
  · rename_i ht
    obtain ⟨hi, -, -, hlt⟩ := ht
    simp only [isComplete, hi, if_true, decide_eq_false_iff_not]
    omega
  · cases h

/-- The failed pods exceed the backoff limit or match a rule that fails the Job, or too many indexes have failed. -/
def exceedsLimits (job : Json) (activeOwnedPods : List Json) : Bool :=
  (earlyFailureOf (specOf job) activeOwnedPods).isSome || (maxFailedIndexesExceeded (specOf job) activeOwnedPods).isSome

/-- The success policy is met and no pod is left that is active or terminating. -/
def finishesByPolicy (job : Json) (ownedPods : List Json) : Bool :=
  isSuccessCriteriaMet job (activeOwnedPodsOf ownedPods) &&
    (tally (specOf job) (activeOwnedPodsOf ownedPods)).active = 0 && (ownedPods.filter podIsTerminating).isEmpty

theorem shouldSetComplete_eq : shouldSetComplete j ownedPods =
    (isComplete j (activeOwnedPodsOf ownedPods) || finishesByPolicy j ownedPods) := rfl

theorem failureOf_isSome {ps : List Json} :
    (failureOf j ps).isSome = (exceedsLimits j ps || (allIndexesTerminal j ps).isSome) := by
  simp [failureOf, exceedsLimits, Option.isSome_or, Bool.or_assoc]

end Says

/-- **Complete or failed.** A Job is not said to be complete and failed at once exactly if it does not exceed its limits
while its completions are reached or it finishes by its success policy, and does not finish by the policy when every
index is terminal. -/
theorem not_complete_and_failed (job : Json) (ownedPods : List Json) (now : Now) :
    ¬(reports (deriveJobStatus job ownedPods now) "Complete" = true ∧
      reports (deriveJobStatus job ownedPods now) "Failed" = true) ↔
    (exceedsLimits job (activeOwnedPodsOf ownedPods) = true →
      isComplete job (activeOwnedPodsOf ownedPods) = false ∧ finishesByPolicy job ownedPods = false) ∧
    (finishesByPolicy job ownedPods = true → allIndexesTerminal job (activeOwnedPodsOf ownedPods) = none) := by
  rw [reports_complete, reports_failed, shouldSetComplete_eq, failureOf_isSome]
  cases hindexes : allIndexesTerminal job (activeOwnedPodsOf ownedPods) with
  | none => cases exceedsLimits job (activeOwnedPodsOf ownedPods) <;> simp
  | some failure =>
    -- with every index terminal the completions are not reached
    rw [isComplete_of_allIndexesTerminal (by rw [hindexes]; rfl)]
    cases exceedsLimits job (activeOwnedPodsOf ownedPods) <;> simp

/-! ### One completion, no retry -/

def sampleOnce : Json := .obj [("spec", .obj [("backoffLimit", .num 0), ("completions", .num 1)])]

def samplePhasePod (phase : String) : Json := .obj [("status", .obj [("phase", .str phase)])]

def sampleNow : Now := ⟨0, "t", "t"⟩

theorem not_complete_and_failed_once :
    reports (deriveJobStatus sampleOnce [samplePhasePod "Succeeded"] sampleNow) "Complete" = true ∧
      ¬(reports (deriveJobStatus sampleOnce [samplePhasePod "Succeeded"] sampleNow) "Complete" = true ∧
        reports (deriveJobStatus sampleOnce [samplePhasePod "Succeeded"] sampleNow) "Failed" = true) :=
  ⟨by decide +kernel, (not_complete_and_failed sampleOnce [samplePhasePod "Succeeded"] sampleNow).2 (by decide +kernel)⟩

/-- One pod has failed and its successor has succeeded: the backoff limit is exceeded and the completions are reached.
-/
theorem complete_and_failed :
    let status := deriveJobStatus sampleOnce [samplePhasePod "Failed", samplePhasePod "Succeeded"] sampleNow
    reports status "Complete" = true ∧ reports status "Failed" = true := by
  decide +kernel

end Klights.Job
