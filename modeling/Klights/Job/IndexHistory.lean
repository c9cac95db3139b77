import Klights.Job.Finished
import Mathlib.Data.Int.Interval

/-!
# The completed indexes over a history

An Indexed Job is complete once as many indexes have completed as it has completions. The completed indexes are taken
over from one status to the next, while its spec may change in between.

- `recorded_seen`: every index that the status records is one that a pod has completed before;
- `complete_covers_indexes`: if all of them are below the completions, a complete Job has completed each of its indexes.
  An index at or above the completions counts as well, and `lowered_completions_complete` shows one that stands for
  another.
-/

namespace Klights.Job

open Json List

/-- A change of the spec, or a status derived from the pods of the Job and written. -/
inductive StatusStep
  | edit (spec : Json)
  | derive (ownedPods : List Json) (now : Now)

open StatusStep

def StatusStep.apply (job : Json) : StatusStep → Json
  | .edit spec => job.insertField "spec" spec
  | .derive ownedPods now => job.insertField "status" (deriveJobStatus job ownedPods now)

/-- Some status was derived while a pod of this index had succeeded. -/
def Completed (steps : List StatusStep) (index : Int) : Prop :=
  ∃ ownedPods now, .derive ownedPods now ∈ steps ∧
    ∃ pod ∈ ownedPods, isSucceededPod pod = true ∧ podCompletionIndex pod = some index

def recordedIndexes (job : Json) : Finset Int :=
  ((job.strAt ["status", "completedIndexes"]).map parseSucceededIndexes).getD ∅

variable {ownedPods o : List Json} {now n : Now}

section History

variable {job j : Json} {st : List StatusStep} {index : Int}

theorem Completed.later (h : Completed st index) (s : StatusStep) : Completed (st ++ [s]) index := by
  obtain ⟨o, n, hm, hp⟩ := h
  exact ⟨o, n, by simp [hm], hp⟩

theorem completed_of_succeeded (h : index ∈ succeededPodIndexes (activeOwnedPodsOf o)) :
    Completed (st ++ [.derive o n]) index := by
  simp only [succeededPodIndexes, activeOwnedPodsOf, mem_toFinset, mem_filterMap, mem_filter] at h
  obtain ⟨p, ⟨⟨hp, -⟩, hs⟩, hi⟩ := h
  exact ⟨o, n, by simp, p, hp, hs, hi⟩

/-- The indexes that a derived status counts were completed before or are completed now. -/
theorem succeededIndexes_seen (hs : ∀ index ∈ recordedIndexes j, Completed st index)
    (h : index ∈ succeededIndexes j (activeOwnedPodsOf o)) :
    Completed (st ++ [.derive o n]) index := by
  unfold succeededIndexes at h
  split at h
  · rename_i hi
    rcases Finset.mem_union.1 h with ho | hnew
    · rw [previousCompletedIndexes, if_pos hi] at ho
      exact (hs index ho).later _
    · exact completed_of_succeeded hnew
  · exact absurd h (Finset.notMem_empty index)

theorem recordedIndexes_edit (job sp : Json) : recordedIndexes (job.insertField "spec" sp) = recordedIndexes job := by
  simp [recordedIndexes, strAt, pointer_pair, get_insertField_ne job sp (show "status" ≠ "spec" by decide)]

theorem recordedIndexes_plain (hi : isIndexed (specOf j) = false) :
    recordedIndexes (j.insertField "status" (deriveJobStatus j o n)) = ∅ := by
  cases j with
  | obj fs =>
    simp only [recordedIndexes, strAt, pointer_pair, get_insertField_self, Option.bind_some]
    have hn : (deriveJobStatus (.obj fs) o n).get "completedIndexes" = none := by
      unfold deriveJobStatus
      simp only [hi, Bool.false_eq_true, if_false]
      split
      · rw [get_insertField_ne _ _ (by decide)]
        rfl
      · rfl
    rw [hn]
    rfl
  | _ => rfl

theorem recorded_step (s : StatusStep)
    (hg : ∀ ownedPods now, s = .derive ownedPods now → ∀ p ∈ ownedPods, IndexNonneg p)
    (hs : ∀ index ∈ recordedIndexes j, Completed st index) :
    ∀ index ∈ recordedIndexes (s.apply j), Completed (st ++ [s]) index := by
  intro index hx
  cases s with
  | edit sp =>
    rw [apply, recordedIndexes_edit] at hx
    exact (hs index hx).later _
  | derive ownedPods now =>
    by_cases hi : isIndexed (specOf j)
    · cases j with
      | obj fs =>
        rw [apply, recordedIndexes, recordedIndexes_written rfl hi (hg ownedPods now rfl)] at hx
        exact succeededIndexes_seen hs hx
      | _ => exact absurd hx (Finset.notMem_empty index)
    · rw [apply, recordedIndexes_plain (Bool.not_eq_true _ ▸ hi)] at hx
      exact absurd hx (Finset.notMem_empty index)

theorem recorded_seen (l : List StatusStep) (he : ∀ index ∈ recordedIndexes j, Completed st index)
    (hg : ∀ ownedPods now, .derive ownedPods now ∈ l → ∀ p ∈ ownedPods, IndexNonneg p) :
    ∀ index ∈ recordedIndexes (l.foldl apply j), Completed (st ++ l) index := by
  induction l generalizing j st with
  | nil => simpa using he
  | cons ste tl ih =>
    have hn := recorded_step ste (fun ownedPods now hs => hg ownedPods now (by simp [hs])) he
    have hl := ih hn fun ownedPods now hm => hg ownedPods now (by simp [hm])
    rwa [append_assoc] at hl

theorem reports_complete_card (hi : isIndexed (specOf j)) (hp : (specOf j).get "successPolicy" = none)
    (h : reports (deriveJobStatus j o n) "Complete") :
    completionsOf (specOf j) ≤ (succeededIndexes j (activeOwnedPodsOf o)).card := by
  have hu : isSuccessCriteriaMet j (activeOwnedPodsOf o) = false := by
    simp [isSuccessCriteriaMet, checkSuccessPolicy, pointer_pair, hp]
  rw [reports_complete, shouldSetComplete] at h
  simpa [hu, isComplete, hi] using h

end History

/-- An Indexed Job without a success policy, and with no completed index outside its completions, is complete only when
each index has been completed. -/
theorem complete_covers_indexes (job : Json) (steps : List StatusStep) (ownedPods : List Json) (now : Now)
    (hfresh : job.strAt ["status", "completedIndexes"] = none)
    (hindexed : isIndexed (specOf (steps.foldl apply job)) = true)
    (hpolicy : (specOf (steps.foldl apply job)).get "successPolicy" = none)
    (hrange : ∀ index, Completed (steps ++ [.derive ownedPods now]) index →
      0 ≤ index ∧ index < completionsOf (specOf (steps.foldl apply job)))
    (hcomplete : reports (deriveJobStatus (steps.foldl apply job) ownedPods now) "Complete" = true) :
    ∀ index, 0 ≤ index → index < completionsOf (specOf (steps.foldl apply job)) →
      Completed (steps ++ [.derive ownedPods now]) index := by
  set last := steps.foldl apply job with hl
  have hp : ∀ ps ti, .derive ps ti ∈ steps → ∀ pod ∈ ps, IndexNonneg pod := by
    intro ps ti hm pod ho hs index hi
    exact (hrange index ⟨ps, ti, by simp [hm], pod, ho, hs, hi⟩).1
  have ht : ∀ index ∈ recordedIndexes job, Completed [] index := by
    simp [recordedIndexes, hfresh]
  have he := recorded_seen steps ht hp
  have hc : ∀ index ∈ succeededIndexes last (activeOwnedPodsOf ownedPods),
      Completed (steps ++ [.derive ownedPods now]) index := fun index hi => succeededIndexes_seen he hi
  -- as many indexes as completions, and none outside: they are all of them
  have hu : succeededIndexes last (activeOwnedPodsOf ownedPods) ⊆ Finset.Ico 0 (completionsOf (specOf last)) :=
    fun index hi => Finset.mem_Ico.2 (hrange index (hc index hi))
  have hr := reports_complete_card hindexed hpolicy hcomplete
  have ha := Finset.eq_of_subset_of_card_le hu (by rw [Int.card_Ico]; omega)
  intro index hf hto
  exact hc index (ha ▸ Finset.mem_Ico.2 ⟨hf, hto⟩)

/-! ### Two of three indexes -/

def indexedSpec (completions : Int) : Json :=
  .obj [("completionMode", .str "Indexed"), ("completions", .num completions)]

def indexPod (index : String) : Json :=
  .obj [("metadata", .obj [("annotations", .obj [("batch.kubernetes.io/job-completion-index", .str index)])]),
    ("status", .obj [("phase", .str "Succeeded")])]

theorem completed_once {ps : List Json} {sp : Json} {index : Int}
    (h : Completed [.edit sp, .derive ps sampleNow] index) : some index ∈ ps.map podCompletionIndex := by
  obtain ⟨o, n, hm, p, hp, -, hi⟩ := h
  simp only [mem_cons, derive.injEq, not_mem_nil, or_false, reduceCtorEq, false_or] at hm
  obtain ⟨rfl, -⟩ := hm
  exact hi ▸ mem_map_of_mem hp

theorem complete_covers_indexes_two :
    Completed [.edit (indexedSpec 2), .derive [indexPod "0", indexPod "1"] sampleNow] 1 := by
  refine complete_covers_indexes (.obj [("spec", indexedSpec 3)]) [.edit (indexedSpec 2)] [indexPod "0", indexPod "1"]
    sampleNow (by decide) (by decide +kernel) (by decide +kernel) ?_ ?_ 1 (by decide) (by decide +kernel)
  · intro index h
    have hi : [indexPod "0", indexPod "1"].map podCompletionIndex = [some 0, some 1] := by decide +kernel
    have hc : completionsOf (specOf (.obj [("spec", indexedSpec 2)])) = 2 := by decide +kernel
    have hm := completed_once h
    simp only [hi, mem_cons, Option.some.injEq, not_mem_nil, or_false] at hm
    exact ⟨by omega, hc.symm ▸ by omega⟩
  · rw [reports_complete]
    decide +kernel

/-- The indexes 1 and 2 of three have completed. The completions are lowered to two, and the Job is complete without its
index 0. -/
theorem lowered_completions_complete :
    reports (deriveJobStatus (apply (.obj [("spec", indexedSpec 3)]) (.edit (indexedSpec 2)))
        [indexPod "1", indexPod "2"] sampleNow) "Complete" = true ∧
      ¬Completed [.edit (indexedSpec 2), .derive [indexPod "1", indexPod "2"] sampleNow] 0 := by
  constructor
  · rw [reports_complete]
    decide +kernel
  · intro h
    exact absurd (completed_once h) (by decide +kernel)

end Klights.Job
