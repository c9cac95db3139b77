import Klights.Job.Conditions
import Klights.Job.Reconcile

/-!
# Finished Jobs

Which Jobs stay finished, over any run of `Klights.Job.step`. A status is derived from the pods that are there, so a Job
stays finished by what its last status records: the completed indexes of an Indexed Job.

- `Recorded`: the status records as many completed indexes as the Job has completions;
- `isComplete_of_recorded`, `recorded_written`: such a Job is complete whatever its pods, and every status written for
  it records them again;
- `finished_stays`: it keeps its `Complete` condition, and no pod is created for it. The pods of other Jobs are all that
  shows them finished, and `finished_reopens` shows one start again.
-/

namespace Klights.Job

open Controllers Lib Json Option Finset

/-! ## What is recorded -/

def hasCondition (job : Json) (type : String) : Bool :=
  (existingConditionsOf job).any fun condition =>
    (condition.get "type").bind Json.asStr = some type && (condition.get "status").bind Json.asStr = some "True"

def Recorded (job : Json) : Prop := completionsOf (specOf job) ≤ (previousCompletedIndexes job).card

/-- The index of a pod that has succeeded is not negative. -/
def IndexNonneg (pod : Json) : Prop :=
  isSucceededPod pod = true → ∀ index, podCompletionIndex pod = some index → 0 ≤ index

section Recorded

variable {j : Json} {pods : List Json}

theorem isComplete_of_recorded (h : Recorded j) (pods : List Json) : isComplete j pods := by
  unfold Recorded at h
  unfold isComplete
  by_cases hi : isIndexed (specOf j)
  · have hs : previousCompletedIndexes j ⊆ succeededIndexes j pods := by
      rw [succeededIndexes, if_pos hi]
      exact subset_union_left
    have hc := card_le_card hs
    simp only [hi, if_true, decide_eq_true_eq]
    omega
  · have hn : previousCompletedIndexes j = ∅ := by
      rw [previousCompletedIndexes, if_neg hi]
    rw [hn, card_empty] at h
    have ht : 0 ≤ (tally (specOf j) pods).succeeded := Int.natCast_nonneg _
    simp only [hi, Bool.false_eq_true, if_false, decide_eq_true_eq]
    omega

theorem decideJob_of_recorded (h : Recorded j) (pods : List Json) : (decideJob j pods).2 = none := by
  unfold decideJob
  simp [isComplete_of_recorded h]

theorem succeededIndexes_range (hpo : ∀ p ∈ pods, IndexNonneg p) {ix : Int}
    (h : ix ∈ succeededIndexes j pods) : 0 ≤ ix ∧ ix < 2 ^ 63 := by
  unfold succeededIndexes at h
  split at h
  · rename_i hi
    rcases mem_union.1 h with ho | hnew
    · rw [previousCompletedIndexes, if_pos hi] at ho
      cases ht : j.strAt ["status", "completedIndexes"] with
      | none =>
        rw [ht] at ho
        exact absurd ho (notMem_empty ix)
      | some tx =>
        rw [ht] at ho
        exact parseSucceededIndexes_range ho
    · simp only [succeededPodIndexes, List.mem_toFinset, List.mem_filterMap, List.mem_filter] at hnew
      obtain ⟨p, ⟨hp, hs⟩, hx⟩ := hnew
      obtain ⟨tx, -, ha⟩ := bind_eq_some_iff.1 hx
      exact ⟨hpo p hp hs ix hx, parseI64_lt ha⟩
  · exact absurd h (notMem_empty ix)

end Recorded

/-! ## What is written -/

section Written

variable {job j : Json} {oe : List Json} {n : Now}

theorem get_deriveJobStatus_completedIndexes (hi : isIndexed (specOf j)) :
    ((deriveJobStatus j oe n).get "completedIndexes").bind asStr =
      formatIndexes (succeededIndexes j (activeOwnedPodsOf oe)) := by
  have hw : ((insertIndexes (countsStatus j oe n) "completedIndexes"
      (succeededIndexes j (activeOwnedPodsOf oe))).get "completedIndexes").bind asStr =
      formatIndexes (succeededIndexes j (activeOwnedPodsOf oe)) := by
    unfold insertIndexes
    split
    · rename_i tx ht
      rw [countsStatus, get_insertField_self, ht]
      rfl
    · rename_i hn
      rw [hn]
      rfl
  unfold deriveJobStatus
  simp only [hi, if_true]
  split
  · rw [get_insertField_ne _ _ (by decide), get_insertIndexes_ne _ _ (by decide), hw]
  · rw [get_insertIndexes_ne _ _ (by decide), hw]

theorem get_insertField_of_isSome (h : j.asObject.isSome) (k : String) (value : Json) :
    (j.insertField k value).get k = some value := by
  cases j with
  | obj fs => exact get_insertField_self fs k value
  | _ => cases h

theorem recordedIndexes_written (ho : j.asObject.isSome) (hi : isIndexed (specOf j))
    (hpo : ∀ pod ∈ oe, IndexNonneg pod) :
    (((j.insertField "status" (deriveJobStatus j oe n)).strAt ["status", "completedIndexes"]).map
      parseSucceededIndexes).getD ∅ = succeededIndexes j (activeOwnedPodsOf oe) := by
  have ha : ∀ pod ∈ activeOwnedPodsOf oe, IndexNonneg pod := fun pod hp =>
    hpo pod (List.mem_filter.1 hp).1
  rw [strAt, pointer_pair, get_insertField_of_isSome ho, bind_some, get_deriveJobStatus_completedIndexes hi]
  cases htx : formatIndexes (succeededIndexes j (activeOwnedPodsOf oe)) with
  | none =>
    unfold formatIndexes at htx
    split at htx
    · rename_i he
      rw [he]
      rfl
    · cases htx
  | some tx => exact parse_formatIndexes htx fun i hx => succeededIndexes_range ha hx

theorem recorded_written (h : Recorded job) (ho : job.asObject.isSome) (hp : ∀ p ∈ oe, IndexNonneg p) :
    Recorded (job.insertField "status" (deriveJobStatus job oe n)) ∧
      hasCondition (job.insertField "status" (deriveJobStatus job oe n)) "Complete" := by
  set written := job.insertField "status" (deriveJobStatus job oe n) with hw
  have hsp : specOf written = specOf job := by
    rw [specOf, hw, get_insertField_ne _ _ (by decide), specOf]
  constructor
  · unfold Recorded at h ⊢
    rw [hsp]
    by_cases hi : isIndexed (specOf job)
    · have hd : previousCompletedIndexes written = succeededIndexes job (activeOwnedPodsOf oe) := by
        rw [previousCompletedIndexes, hsp, if_pos hi]
        exact recordedIndexes_written ho hi hp
      have hs : previousCompletedIndexes job ⊆ succeededIndexes job (activeOwnedPodsOf oe) := by
        rw [succeededIndexes, if_pos hi]
        exact subset_union_left
      have hc := card_le_card hs
      rw [hd]
      omega
    · rw [previousCompletedIndexes, if_neg hi] at h
      rwa [previousCompletedIndexes, hsp, if_neg hi]
  · have hr : hasCondition written "Complete" = reports (deriveJobStatus job oe n) "Complete" := by
      rw [hasCondition, existingConditionsOf, pointer_pair, get_insertField_of_isSome ho, bind_some]
      rfl
    rw [hr, reports_complete]
    simp [shouldSetComplete, isComplete_of_recorded h]

theorem recorded_congr {other : Json} (hp : other.get "spec" = job.get "spec")
    (ht : other.get "status" = job.get "status") (h : Recorded job) : Recorded other := by
  have heq : specOf other = specOf job := by rw [specOf, hp, specOf]
  have hi : previousCompletedIndexes other = previousCompletedIndexes job := by
    simp [previousCompletedIndexes, heq, strAt, pointer_pair, ht]
  unfold Recorded
  rwa [heq, hi]

theorem hasCondition_congr {o : Json} (ht : o.get "status" = j.get "status") (type : String) :
    hasCondition o type = hasCondition j type := by
  simp [hasCondition, existingConditionsOf, pointer_pair, ht]

end Written

/-! ## Runs -/

def Settled (job : Json) : Prop := Recorded job ∧ hasCondition job "Complete" = true

theorem Settled.isObject {job : Json} (h : Settled job) : job.asObject.isSome := by
  cases job with
  | obj fs => rfl
  | _ => cases h.2

theorem Settled.mark {job : Json} (h : Settled job) (n : Now) : Settled (markJobForegroundDeleting job n) := by
  have hs : (markJobForegroundDeleting job n).get "status" = job.get "status" := get_modifyField_ne job (by decide) _
  exact ⟨recorded_congr (get_modifyField_ne job (by decide) _) hs h.1, (hasCondition_congr hs "Complete").trans h.2⟩

/-- A reconcile of such a Job creates nothing. -/
def Stage.Sound : Stage → Prop
  | .listing run => Recorded run.job
  | .releasing run _ _ _ => Recorded run.job
  | .listingAll run _ _ => Recorded run.job
  | .adopting run _ _ _ => Recorded run.job
  | .creating _ _ _ _ => False
  | .listingFinal _ => True
  | .writing _ ownedPods => ∀ pod ∈ ownedPods, IndexNonneg pod

structure Inv (created : List Json) (world : World) : Prop where
  job : ∀ job, world.job = some job → Settled job
  pods : ∀ pod ∈ world.pods.rows, IndexNonneg pod
  stage : ∀ stage, world.stage = some stage → stage.Sound
  created : world.created = created

/-- Pods with negative indexes do not succeed. -/
def IndexesNonneg : Action → Prop
  | .putPod pod => IndexNonneg pod
  | _ => True

section Steps

variable {ctx : Context} {world : World} {c : List Json}

theorem Inv.setStage (h : Inv c world) {nt : Option Stage} (hx : ∀ st, nt = some st → st.Sound) :
    Inv c (world.setStage nt) := ⟨h.job, h.pods, hx, h.created⟩

theorem Inv.stop (h : Inv c world) : Inv c (world.setStage none) := h.setStage (fun _ => nofun)

theorem Inv.goOn (h : Inv c world) {st : Stage} (hs : st.Sound) : Inv c (world.setStage (some st)) := by
  refine h.setStage fun st' hg => ?_
  cases hg
  exact hs

theorem Inv.put (h : Inv c world) {pod : Json} (hp : IndexNonneg pod) :
    Inv c { world with pods := world.pods.put pod } := by
  refine ⟨h.job, fun o ho => ?_, h.stage, h.created⟩
  rcases Table.mem_put.1 ho with rfl | ⟨hl, -⟩
  · exact hp
  · exact h.pods o hl

theorem IndexNonneg.replaceOwnerReferences {pod : Json} (h : IndexNonneg pod) (r : Json) :
    IndexNonneg (pod.modifyField "metadata" (·.insertField "ownerReferences" r)) := by
  set replaced := pod.modifyField "metadata" (·.insertField "ownerReferences" r) with hr
  have hh : isSucceededPod replaced = isSucceededPod pod := by
    have hs := get_modifyField_ne pod (show "status" ≠ "metadata" by decide) (·.insertField "ownerReferences" r)
    simp [isSucceededPod, phaseOf, strAt, pointer_pair, hr, hs]
  have hi : podCompletionIndex replaced = podCompletionIndex pod := by
    have ha : (replaced.get "metadata").bind (·.get "annotations") =
        (pod.get "metadata").bind (·.get "annotations") := by
      rw [hr, modifyField]
      cases hm : pod.get "metadata" with
      | none => rw [hm]
      | some metadata =>
        cases pod with
        | obj fs =>
          rw [get_insertField_self, bind_some, bind_some, get_insertField_ne metadata _ (by decide)]
        | _ => cases hm
    have hp : ∀ (ob : Json) (k : String), ob.pointer ["metadata", "annotations", k] =
        ((ob.get "metadata").bind (·.get "annotations")).bind (·.get k) := by
      intro ob k
      simp [pointer, bind_assoc, bind_fun_some]
    simp only [podCompletionIndex, strAt, hp, ha]
  intro hs i hd
  exact h (hh ▸ hs) i (hi ▸ hd)

section

variable (h : Inv c world)
include h

theorem Inv.start (n : Now) : Inv c (world.start ctx n) := by
  unfold World.start
  split
  · exact h
  · rename_i j hj
    have hs := h.job j hj
    split
    · exact h
    · split
      · exact h
      · split
        · exact h
        · refine ⟨fun jo' hj' => ?_, h.pods, h.stage, h.created⟩
          cases hj'
          exact hs.mark n
        · split
          · exact h.goOn hs.1
          · exact h

theorem Inv.decideNext {r : Reconcile} (he : Recorded r.job) (pods : List Json) : Inv c (world.decideNext r pods) := by
  unfold World.decideNext
  simp only [decideJob_of_recorded he]
  have hr : Inv c { world with deleteRequests := world.deleteRequests ++ (decideJob r.job pods).1 } :=
    ⟨h.job, h.pods, h.stage, h.created⟩
  exact hr.goOn trivial

theorem Inv.writeStatus {r : Reconcile} {ownedPods : List Json} (ho : ∀ p ∈ ownedPods, IndexNonneg p) :
    Inv c (world.writeStatus ctx r ownedPods) := by
  unfold World.writeStatus
  split
  · exact h.stop
  · rename_i j hj
    split
    · exact h.stop
    · have hs := h.job j hj
      have hw : Settled (j.insertField "status" (deriveJobStatus j ownedPods r.now)) :=
        recorded_written hs.1 hs.isObject ho
      refine ⟨fun jo' hj' => ?_, h.pods, (fun _ => nofun), h.created⟩
      cases hj'
      split
      · exact hw.mark r.now
      · exact hw

theorem Inv.replaceOwnerReferences {nm : String} {ref : List Json} {world' : World}
    (hr : world.replaceOwnerReferences nm ref = some world') : Inv c world' := by
  obtain ⟨p, hf, rfl⟩ := map_eq_some_iff.1 hr
  exact h.put ((h.pods p (Table.find_mem hf)).replaceOwnerReferences (.arr ref))

theorem Inv.advance (u : String) {st : Stage} (hs : st.Sound) : Inv c (world.advance ctx u st) := by
  cases st with
  | listing ru =>
    rw [World.advance]
    split
    · exact h.goOn hs
    · exact h.decideNext hs _
  | releasing ru se tl re =>
    cases tl with
    | nil => exact h.goOn hs
    | cons p tl =>
      rw [World.advance]
      split
      · exact h.goOn hs
      · split
        · exact h.goOn hs
        · split
          · exact h.stop
          · rename_i w' hr
            exact (h.replaceOwnerReferences hr).goOn hs
  | listingAll ru se re => exact h.goOn hs
  | adopting ru se tl re =>
    cases tl with
    | nil => exact h.decideNext hs _
    | cons p tl =>
      rw [World.advance]
      split
      · exact h.goOn hs
      · split
        · exact h.stop
        · rename_i w' hr
          exact (h.replaceOwnerReferences hr).goOn hs
  | creating ru pl i ma => exact absurd hs id
  | listingFinal ru => exact h.goOn fun p hp => h.pods p (List.mem_filter.1 hp).1
  | writing ru oe => exact h.writeStatus hs

end

theorem inv_step {act : Action} (hi : IndexesNonneg act) (h : Inv c world) : Inv c (step ctx world act) := by
  cases act with
  | reconcile n =>
    rw [step]
    split
    · exact h.start n
    · exact h
  | advance ui =>
    rw [step]
    cases hs : world.stage with
    | none => exact h
    | some st => exact h.advance ui (h.stage st hs)
  | abort => exact h.stop
  | putPod p => exact h.put hi
  | removePod nm =>
    exact ⟨h.job, fun p hp => h.pods p (Table.mem_deleteWhere.1 hp).1, h.stage, h.created⟩
  | removeJob => exact ⟨nofun, h.pods, h.stage, h.created⟩

/-- A Job whose status says `Complete` and records as many completed indexes as it has completions stays complete, and
no pod is created for it, whatever becomes of its pods. -/
theorem finished_stays {job : Json} {actions : List Action} (hidle : world.stage = none) (hjob : world.job = some job)
    (hcomplete : hasCondition job "Complete" = true) (hrecorded : Recorded job)
    (hpods : ∀ pod ∈ world.pods.rows, IndexNonneg pod) (hindexes : ∀ action ∈ actions, IndexesNonneg action) :
    (actions.foldl (step ctx) world).created = world.created ∧
      ∀ later, (actions.foldl (step ctx) world).job = some later → hasCondition later "Complete" = true := by
  have ht : Inv world.created world := by
    refine ⟨fun jo' hj' => ?_, hpods, fun stage hs => ?_, rfl⟩
    · cases hjob.symm.trans hj'
      exact ⟨hrecorded, hcomplete⟩
    · rw [hidle] at hs
      cases hs
  have he : Inv world.created (actions.foldl (step ctx) world) :=
    (along_of_forall (P := fun _ _ => True) fun _ _ => trivial).invariant
      (fun _ action ha _ h => inv_step (hindexes action ha) h) ht
  exact ⟨he.created, fun later hl => (he.job later hl).2⟩

end Steps

def sampleContext : Context := ⟨fun _ => none, "node"⟩

def sampleJob (spec status : List (String × Json)) : Json :=
  .obj [("metadata", .obj [("name", .str "job"), ("namespace", .str "default"), ("uid", .str "u")]),
    ("spec", .obj spec), ("status", .obj status)]

def sampleJobPod (phase : String) : Json :=
  .obj [("metadata", .obj [("name", .str "job-a"),
    ("ownerReferences", .arr [buildOwnerRef "batch/v1" "Job" "job" "u"])]), ("status", .obj [("phase", .str phase)])]

def indexedJob : Json :=
  sampleJob [("completionMode", .str "Indexed"), ("completions", .num 2), ("template", .obj [])]
    [("completedIndexes", .str "0-1"), ("conditions", .arr [buildCondition "Complete" "True" "CompletionsReached" ""])]

/-- One whole reconcile, without pods to create. -/
def reconcileOnce : List Action := [.reconcile sampleNow, .advance "", .advance "", .advance ""]

def reconcileAndCreate : List Action := reconcileOnce ++ [.advance "", .advance ""]

/-- An Indexed Job without any pods left stays complete. -/
theorem finished_stays_indexed :
    (reconcileOnce.foldl (step sampleContext) ⟨some indexedJob, .empty, none, [], []⟩).created = [] ∧
      ∀ later, (reconcileOnce.foldl (step sampleContext) ⟨some indexedJob, .empty, none, [], []⟩).job = some later →
        hasCondition later "Complete" = true :=
  @finished_stays _ ⟨some indexedJob, .empty, none, [], []⟩ _ _ rfl rfl (by decide +kernel)
    (by unfold Recorded; decide +kernel) (by simp) (by simp [reconcileOnce, IndexesNonneg])

def countedWorld : World :=
  ⟨some (sampleJob [("completions", .num 1), ("template", .obj [])] []), ⟨[sampleJobPod "Succeeded"], by simp⟩, none,
    [], []⟩

/-- A Job that counts its pods is complete while its pod is there. Once the pod is deleted, the next reconcile creates
another and takes the condition back. -/
theorem finished_reopens : ∃ (ctx : Context) (world : World) (before after : List Action),
    (before.foldl (step ctx) world).stage.isNone = true ∧
      (before.foldl (step ctx) world).job.map (hasCondition · "Complete") = some true ∧
      ((before ++ after).foldl (step ctx) world).created ≠ (before.foldl (step ctx) world).created ∧
      ((before ++ after).foldl (step ctx) world).job.map (hasCondition · "Complete") = some false := by
  refine ⟨sampleContext, countedWorld, reconcileOnce, .removePod "job-a" :: reconcileAndCreate, ?_⟩
  decide +kernel

end Klights.Job
