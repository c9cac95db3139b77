import Klights.Api.ListQuery
import Klights.Lib.Machine

/-!
# One step of a rolling update

`plan_rolling_update_once` (`klights-controllers/src/deployment/logic.rs`): from the ReplicaSets of a Deployment, one of
them new, to the replica counts they should be scaled to. The counts are `i64` and the sums wrap, as they do in a build
without overflow checks.

- `proportionalScale`: where the annotations say that the Deployment was scaled, the active ReplicaSets are scaled in
  proportion first;
- `targetNewReplicas`: the new ReplicaSet grows by `maxSurge` at most, inside the limit;
- `scaleDownOld`: the old ReplicaSets give what is not needed for the availability floor, those with the fewest
  available replicas first;
- `applyTargets`: the ReplicaSets after the targets of a plan.
-/

namespace Klights.Deployment

open Api Lib

/-! ## ReplicaSets -/

structure ReplicaSetRolloutSnapshot where
  name : String
  replicas : Int64
  availableReplicas : Int64
  maxReplicasAnnotation : Option Int64
  revision : Int64
  isNew : Bool

structure ReplicaSetScaleTarget where
  name : String
  replicas : Int64

structure DeploymentRolloutPlan where
  targets : List ReplicaSetScaleTarget

variable (snapshots : List ReplicaSetRolloutSnapshot)

def setReplicas (idx : Nat) (replicas : Int64) : List ReplicaSetRolloutSnapshot :=
  snapshots.modify idx fun rs => { rs with replicas := replicas }

def totalReplicas : Int64 := (snapshots.map (·.replicas)).sum

def totalOldReplicas : Int64 :=
  ((snapshots.filter fun rs => !rs.isNew).map (·.replicas)).sum

/-! ## Proportional scaling -/

variable (roundedQuotient : Int64 → Int64 → Int64)

/-- The quotient `(a as f64 / b as f64).round() as i64` is left open: `roundedQuotient`. -/
def replicaSetProportionFromSnapshot (snapshot : ReplicaSetRolloutSnapshot)
    (desiredReplicas maxSurge fallbackMaxReplicas replicasToAdd replicasAdded : Int64) : Int64 :=
  if snapshot.replicas = 0 ∨ replicasToAdd = 0 ∨ replicasToAdd = replicasAdded then 0
  else if desiredReplicas = 0 then -snapshot.replicas
  else
    let deploymentMaxReplicas := desiredReplicas + maxSurge
    let maxBeforeScale := snapshot.maxReplicasAnnotation.getD fallbackMaxReplicas
    if maxBeforeScale = 0 then 0
    else
      let scaled := roundedQuotient (snapshot.replicas * deploymentMaxReplicas) maxBeforeScale
      let fraction := scaled - snapshot.replicas
      let allowed := replicasToAdd - replicasAdded
      if 0 < replicasToAdd then min fraction allowed else max fraction allowed

def targetTotalReplicas (desiredReplicas maxSurge : Int64) : Int64 :=
  if desiredReplicas ≤ 0 then 0 else desiredReplicas + maxSurge

def scalesProportionally (desiredReplicas maxSurge : Int64) : Bool :=
  let activeOldReplicas := snapshots.any fun rs => !rs.isNew && 0 < rs.replicas
  let currentTotalReplicas := totalReplicas snapshots
  let targetTotalReplicas := targetTotalReplicas desiredReplicas maxSurge
  let replicasToAdd := targetTotalReplicas - currentTotalReplicas
  let deploymentScaleChanged :=
    ((snapshots.filter fun rs => 0 < rs.replicas).filterMap fun rs => rs.maxReplicasAnnotation).any
      (· ≠ targetTotalReplicas)
  let availableNewRsCanTakeScaleUp :=
    0 < replicasToAdd && snapshots.any fun rs => rs.isNew && 0 < rs.replicas && rs.replicas ≤ rs.availableReplicas
  activeOldReplicas && deploymentScaleChanged && 0 < currentTotalReplicas &&
    currentTotalReplicas ≠ targetTotalReplicas && !availableNewRsCanTakeScaleUp

variable (left right : ReplicaSetRolloutSnapshot × Nat)

/-- More replicas first, then the later revision. -/
def scaleUpOrder : Prop :=
  right.1.replicas < left.1.replicas ∨ right.1.replicas = left.1.replicas ∧ right.1.revision ≤ left.1.revision

/-- The new one first, then the one with more available replicas. -/
def scaleDownOrder : Prop :=
  right.1.isNew < left.1.isNew ∨ right.1.isNew = left.1.isNew ∧ right.1.availableReplicas ≤ left.1.availableReplicas

instance : DecidableRel scaleUpOrder := fun _ _ => inferInstanceAs (Decidable (_ ∨ _))

instance : DecidableRel scaleDownOrder := fun _ _ => inferInstanceAs (Decidable (_ ∨ _))

def activeIndices (replicasToAdd : Int64) : List (ReplicaSetRolloutSnapshot × Nat) :=
  let active := snapshots.zipIdx.filter fun rs => 0 < rs.1.replicas
  if 0 < replicasToAdd then active.insertionSort scaleUpOrder else active.insertionSort scaleDownOrder

/-- What the loop has added, and the counts it has collected. -/
def proportionLoop
    (desiredReplicas maxSurge currentTotalReplicas replicasToAdd : Int64) (state : Int64 × List (Nat × Int64))
    (rs : ReplicaSetRolloutSnapshot × Nat) : Int64 × List (Nat × Int64) :=
  let proportion := replicaSetProportionFromSnapshot roundedQuotient rs.1 desiredReplicas maxSurge currentTotalReplicas
    replicasToAdd state.1
  (state.1 + proportion, state.2 ++ [(rs.2, rs.1.replicas + proportion)])

section

variable (snapshots : List ReplicaSetRolloutSnapshot)

def proportionalScale (desiredReplicas maxSurge : Int64) : List ReplicaSetRolloutSnapshot :=
  let currentTotalReplicas := totalReplicas snapshots
  let replicasToAdd := targetTotalReplicas desiredReplicas maxSurge - currentTotalReplicas
  let (replicasAdded, targetPairs) := (activeIndices snapshots replicasToAdd).foldl
    (proportionLoop roundedQuotient desiredReplicas maxSurge currentTotalReplicas replicasToAdd) (0, [])
  let targetPairs := match targetPairs with
    | [] => []
    | (idx, first) :: rest => (idx, max (first + (replicasToAdd - replicasAdded)) 0) :: rest
  targetPairs.foldl (fun snapshots target => setReplicas snapshots target.1 (max target.2 0)) snapshots

/-- The ReplicaSets as the second half of the step sees them. -/
def workingSnapshots (desiredReplicas maxSurge : Int64) : List ReplicaSetRolloutSnapshot :=
  if scalesProportionally snapshots desiredReplicas maxSurge then
    proportionalScale roundedQuotient snapshots desiredReplicas maxSurge
  else snapshots

/-! ## The step -/

def targetNewReplicas (newRs : ReplicaSetRolloutSnapshot) (totalOldReplicas desiredReplicas maxSurge : Int64) : Int64 :=
  max (if totalOldReplicas = 0 then desiredReplicas
    else
      let maxTotalPods := desiredReplicas + maxSurge
      let maxNewAllowedBySurge := max 0 (maxTotalPods - totalOldReplicas)
      min (min (newRs.replicas + maxSurge) desiredReplicas) maxNewAllowedBySurge) 0

def oldScaleDown (newRs : ReplicaSetRolloutSnapshot)
    (targetNewReplicas totalOldReplicas desiredReplicas maxUnavailable : Int64) : Int64 :=
  let minAvailable := desiredReplicas - maxUnavailable
  let allPodsCount := targetNewReplicas + totalOldReplicas
  let newRsUnavailable := max 0 (targetNewReplicas - max newRs.availableReplicas 0)
  let maxScaledDown := allPodsCount - minAvailable - newRsUnavailable
  max 0 (min totalOldReplicas maxScaledDown)

def fewerAvailable : Prop :=
  left.1.availableReplicas ≤ right.1.availableReplicas

instance : DecidableRel fewerAvailable := fun _ _ => inferInstanceAs (Decidable (_ ≤ _))

/-- The indices of the old ReplicaSets, those with the fewest available replicas first. -/
def oldIndices : List Nat :=
  ((snapshots.zipIdx.filter fun rs => !rs.1.isNew).insertionSort fewerAvailable).map Prod.snd

def scaleDownOld (state : Int64 × List ReplicaSetRolloutSnapshot) (oldIdx : Nat) :
    Int64 × List ReplicaSetRolloutSnapshot :=
  match state.2[oldIdx]? with
  | none => state
  | some old =>
    if state.1 ≤ 0 ∨ old.replicas ≤ 0 then state
    else
      let scaleDown := min state.1 old.replicas
      (state.1 - scaleDown, setReplicas state.2 oldIdx (old.replicas - scaleDown))

/-- The ReplicaSets with the counts they should have. -/
def finalSnapshots (working : List ReplicaSetRolloutSnapshot) (newRs : ReplicaSetRolloutSnapshot) (newRsIdx : Nat)
    (desiredReplicas maxSurge maxUnavailable : Int64) : List ReplicaSetRolloutSnapshot :=
  let targetNew := targetNewReplicas newRs (totalOldReplicas working) desiredReplicas maxSurge
  let remaining := oldScaleDown newRs targetNew (totalOldReplicas working) desiredReplicas maxUnavailable
  let finals := setReplicas working newRsIdx targetNew
  ((oldIndices finals).foldl scaleDownOld (remaining, finals)).2

def scaleTarget (finalRs : ReplicaSetRolloutSnapshot) : Option ReplicaSetScaleTarget :=
  (snapshots.find? fun snapshot => snapshot.name = finalRs.name).bind fun original =>
    if original.replicas = finalRs.replicas then none else some ⟨finalRs.name, max finalRs.replicas 0⟩

def planRollingUpdateOnce (desiredReplicas maxSurge maxUnavailable : Int64) : DeploymentRolloutPlan :=
  if snapshots.any (·.isNew) then
    let working := workingSnapshots roundedQuotient snapshots desiredReplicas maxSurge
    match working.zipIdx.find? fun rs => rs.1.isNew with
    | none => ⟨[]⟩
    | some (newRs, newRsIdx) =>
      ⟨(finalSnapshots working newRs newRsIdx desiredReplicas maxSurge maxUnavailable).filterMap
        (scaleTarget snapshots)⟩
  else ⟨[]⟩

end

def applyTargets (plan : DeploymentRolloutPlan) : List ReplicaSetRolloutSnapshot :=
  snapshots.map fun rs =>
    match plan.targets.find? fun target => target.name = rs.name with
    | some target => { rs with replicas := target.replicas }
    | none => rs

end Klights.Deployment
