import Klights.Controllers.Common
import Klights.Job.Indexes
import Klights.Lib.Machine

/-!
# The status of a Job

`derive_job_status_from_owned_pods_at` (`klights-controllers/src/job.rs`): the status of a Job from its spec, its last
status and the pods it has now. Only the completed indexes of an Indexed Job are taken over from the last status; all
else is counted afresh.

- `tally`: the pods by phase;
- `checkSuccessPolicy`, `podFailurePolicyActionForPod`: the policies;
- `failureOf`: why the Job has failed, if it has;
- `deriveJobStatus`: the status.
-/

namespace Klights.Job

open Api Controllers Lib Status Json

/-! ## Pods -/

def phaseOf (pod : Json) : Option String := pod.strAt ["status", "phase"]

def podCompletionIndex (pod : Json) : Option Int :=
  (pod.strAt ["metadata", "annotations", "batch.kubernetes.io/job-completion-index"]).bind parseI64

def isDeleting (data : Json) : Bool := (data.pointer ["metadata", "deletionTimestamp"]).isSome

def podIsTerminating (pod : Json) : Bool :=
  isDeleting pod && !(phaseOf pod = some "Succeeded" || phaseOf pod = some "Failed")

/-- A pod without a phase is taken for a pending one. -/
def isActive (pod : Json) : Bool :=
  match phaseOf pod with
  | none => true
  | some phase => phase = "Pending" || phase = "Running"

def podIsReady (pod : Json) : Bool :=
  (((pod.pointer ["status", "conditions"]).bind asArray).getD []).any fun condition =>
    (condition.get "type").bind asStr = some "Ready" && (condition.get "status").bind asStr = some "True"

def podRestartCountSum (pod : Json) : Int :=
  wrappingSum ((((pod.pointer ["status", "containerStatuses"]).bind asArray).getD []).filterMap fun status =>
    (status.get "restartCount").bind asI64)

/-! ## Policies -/

def podMatchesExitCodes (pod onExitCodes : Json) : Bool :=
  let operator := ((onExitCodes.get "operator").bind asStr).getD "In"
  let values := (((onExitCodes.get "values").bind asArray).getD []).filterMap asI64
  let containerName := (onExitCodes.get "containerName").bind asStr
  (((pod.pointer ["status", "containerStatuses"]).bind asArray).getD []).any fun status =>
    (containerName.map fun name => decide (((status.get "name").bind asStr).getD "" = name)).getD true &&
      match (status.pointer ["state", "terminated", "exitCode"]).bind asI64 with
      | none => false
      | some code =>
        if operator = "In" then values.contains code else if operator = "NotIn" then !values.contains code else false

def podMatchesConditions (pod onPodConditions : Json) : Bool :=
  let conditions := ((pod.pointer ["status", "conditions"]).bind asArray).getD []
  (onPodConditions.asArray.getD []).any fun pattern =>
    match (pattern.get "type").bind asStr with
    | none => false
    | some type =>
      let status := ((pattern.get "status").bind asStr).getD "True"
      conditions.any fun condition =>
        (condition.get "type").bind asStr = some type && (condition.get "status").bind asStr = some status

/-- A rule without a matcher matches every pod. -/
def podMatchesFailurePolicyRule (pod rule : Json) : Bool :=
  match rule.get "onExitCodes", rule.get "onPodConditions" with
  | none, none => true
  | onExitCodes, onPodConditions =>
    (onExitCodes.map (podMatchesExitCodes pod)).getD false ||
      (onPodConditions.map (podMatchesConditions pod)).getD false

def podFailurePolicyActionForPod (spec pod : Json) : Option String :=
  ((((spec.pointer ["podFailurePolicy", "rules"]).bind asArray).getD []).find?
    (podMatchesFailurePolicyRule pod)).map fun rule => ((rule.get "action").bind asStr).getD "Count"

def podFailureIgnoredByPolicy (spec pod : Json) : Bool := podFailurePolicyActionForPod spec pod = some "Ignore"

def isFailedPod (pod : Json) : Bool := phaseOf pod = some "Failed"

def isSucceededPod (pod : Json) : Bool := phaseOf pod = some "Succeeded"

def checkPodFailurePolicy (spec : Json) (activeOwnedPods : List Json) : Bool :=
  activeOwnedPods.any fun pod => isFailedPod pod && podFailurePolicyActionForPod spec pod = some "FailJob"

def failIndexPolicyMatches (spec : Json) (activeOwnedPods : List Json) : Finset Int :=
  ((activeOwnedPods.filter fun pod =>
    isFailedPod pod && podFailurePolicyActionForPod spec pod = some "FailIndex").filterMap podCompletionIndex).toFinset

def succeededPodIndexes (activeOwnedPods : List Json) : Finset Int :=
  ((activeOwnedPods.filter isSucceededPod).filterMap podCompletionIndex).toFinset

/-- Some rule of the success policy is satisfied, by the pods or by the indexes recorded before. -/
def checkSuccessPolicy (spec : Json) (activeOwnedPods : List Json) (succeededCount : Int)
    (historicalSucceededIndexes : Finset Int) : Bool :=
  (((spec.pointer ["successPolicy", "rules"]).bind asArray).getD []).any fun rule =>
    (((rule.get "succeededCount").bind asI64).map fun required =>
      decide (max succeededCount historicalSucceededIndexes.card ≥ required)).getD false ||
    (((rule.get "succeededIndexes").bind asStr).map fun text =>
      let required := parseSucceededIndexes text
      decide (required ≠ ∅ ∧ required ⊆ historicalSucceededIndexes ∪ succeededPodIndexes activeOwnedPods)).getD false

/-! ## Counts -/

def specOf (job : Json) : Json := (job.get "spec").getD .null

def i64Field (spec : Json) (key : String) (default : Int) : Int := ((spec.get key).bind asI64).getD default

def completionsOf (spec : Json) : Int := i64Field spec "completions" 1

def parallelismOf (spec : Json) : Int := i64Field spec "parallelism" 1

def backoffLimitOf (spec : Json) : Int := i64Field spec "backoffLimit" 6

def isSuspended (spec : Json) : Bool := ((spec.get "suspend").bind asBool).getD false

def isIndexed (spec : Json) : Bool := ((spec.get "completionMode").bind asStr).getD "NonIndexed" = "Indexed"

/-- The pods that are not being deleted. -/
def activeOwnedPodsOf (ownedPods : List Json) : List Json := ownedPods.filter fun pod => !isDeleting pod

structure Tally where
  succeeded : Int
  failed : Int
  restartFailures : Int
  active : Int
  ready : Int

/-- The pods by phase. Restarts count as failures while a pod of restart policy `OnFailure` is active. -/
def tally (spec : Json) (activeOwnedPods : List Json) : Tally :=
  let onFailure := (spec.strAt ["template", "spec", "restartPolicy"]).getD "Never" = "OnFailure"
  let active := activeOwnedPods.filter isActive
  { succeeded := (activeOwnedPods.filter isSucceededPod).length
    failed := (activeOwnedPods.filter fun pod => isFailedPod pod && !podFailureIgnoredByPolicy spec pod).length
    restartFailures := if onFailure then wrappingSum (active.map podRestartCountSum) else 0
    active := active.length
    ready := (active.filter podIsReady).length }

def previousCompletedIndexes (job : Json) : Finset Int :=
  if isIndexed (specOf job) then ((job.strAt ["status", "completedIndexes"]).map parseSucceededIndexes).getD ∅ else ∅

def succeededIndexes (job : Json) (activeOwnedPods : List Json) : Finset Int :=
  if isIndexed (specOf job) then previousCompletedIndexes job ∪ succeededPodIndexes activeOwnedPods else ∅

def failedIndexes (spec : Json) (activeOwnedPods : List Json) : Finset Int :=
  if isIndexed spec then
    let failures := (activeOwnedPods.filter fun pod =>
      isFailedPod pod && !podFailureIgnoredByPolicy spec pod).filterMap podCompletionIndex
    failIndexPolicyMatches spec activeOwnedPods ∪
      match (spec.get "backoffLimitPerIndex").bind asI64 with
      | none => ∅
      | some limit => failures.toFinset.filter fun index => (failures.count index : Int) > limit
  else ∅

/-! ## Finished Jobs -/

def isComplete (job : Json) (activeOwnedPods : List Json) : Bool :=
  let spec := specOf job
  if isIndexed spec then decide (((succeededIndexes job activeOwnedPods).card : Int) ≥ completionsOf spec)
  else decide ((tally spec activeOwnedPods).succeeded ≥ completionsOf spec)

def earlyFailureOf (spec : Json) (activeOwnedPods : List Json) : Option (String × String) :=
  let counts := tally spec activeOwnedPods
  if wrapI64 (counts.failed + counts.restartFailures) > backoffLimitOf spec then
    some ("BackoffLimitExceeded",
      "Job has reached the specified backoff limit (" ++ toString (backoffLimitOf spec) ++ ")")
  else if checkPodFailurePolicy spec activeOwnedPods then
    some ("PodFailurePolicy", "Job failed due to pod failure policy")
  else none

/-- More indexes have failed than may. -/
def maxFailedIndexesExceeded (spec : Json) (activeOwnedPods : List Json) : Option (String × String) :=
  ((spec.get "maxFailedIndexes").bind asI64).bind fun maxFailed =>
    let indexed : Int := (failedIndexes spec activeOwnedPods).card
    let failedIndexCount := if isIndexed spec ∧ indexed > 0 then indexed else (tally spec activeOwnedPods).failed
    if failedIndexCount > maxFailed then
      some ("MaxFailedIndexesExceeded",
        "Job has exceeded the maximum number of failed indexes (" ++ toString maxFailed ++ ")")
    else none

/-- Every index has succeeded or failed, and not all have succeeded. -/
def allIndexesTerminal (job : Json) (activeOwnedPods : List Json) : Option (String × String) :=
  let spec := specOf job
  let succeeded : Int := (succeededIndexes job activeOwnedPods).card
  if isIndexed spec ∧ completionsOf spec > 0 ∧
      succeeded + (failedIndexes spec activeOwnedPods).card ≥ completionsOf spec ∧ succeeded < completionsOf spec then
    some ("FailedIndexes", "Job has failed indexes for all completions")
  else none

def failureOf (job : Json) (activeOwnedPods : List Json) : Option (String × String) :=
  (earlyFailureOf (specOf job) activeOwnedPods).or
    ((maxFailedIndexesExceeded (specOf job) activeOwnedPods).or (allIndexesTerminal job activeOwnedPods))

def isSuccessCriteriaMet (job : Json) (activeOwnedPods : List Json) : Bool :=
  checkSuccessPolicy (specOf job) activeOwnedPods (tally (specOf job) activeOwnedPods).succeeded
    (previousCompletedIndexes job)

/-! ## The status -/

/-- An instant and the texts that are written for it. -/
structure Now where
  instant : Int
  legacy : String
  time : String

def existingConditionsOf (job : Json) : List Json := ((job.pointer ["status", "conditions"]).bind asArray).getD []

/-- A condition of the controller, with the times of the one before it. -/
def jobCondition (job : Json) (now : Now) (type reason message : String) : Json :=
  let previous := conditionByType (existingConditionsOf job) type
  let condition := (buildCondition type "True" reason message).insertField "lastProbeTime" .null
  preserveConditionUpdateTimeIfPresent (preserveConditionTransitionTime condition previous now.legacy)
    previous now.legacy

def shouldSetComplete (job : Json) (ownedPods : List Json) : Bool :=
  let pods := activeOwnedPodsOf ownedPods
  isComplete job pods || (isSuccessCriteriaMet job pods && (tally (specOf job) pods).active = 0 &&
    (ownedPods.filter podIsTerminating).isEmpty)

def controllerConditions (job : Json) (ownedPods : List Json) (now : Now) : List Json :=
  let pods := activeOwnedPodsOf ownedPods
  let met := isSuccessCriteriaMet job pods
  (if shouldSetComplete job ownedPods then
    [if met then jobCondition job now "Complete" "SuccessPolicy" "Matched success policy rule"
      else jobCondition job now "Complete" "CompletionsReached" "Reached expected number of succeeded pods"]
    else []) ++
  ((failureOf job pods).map fun failure => jobCondition job now "Failed" failure.1 failure.2).toList ++
  (if met then [jobCondition job now "SuccessCriteriaMet" "SuccessPolicy" "Matched success policy rule"] else []) ++
  (if isSuspended (specOf job) then [jobCondition job now "Suspended" "JobSuspended" "Job is suspended"] else [])

def isControllerOwnedType (type : String) : Bool :=
  type = "Complete" || type = "Failed" || type = "SuccessCriteriaMet" || type = "Suspended"

/-- Conditions of others are kept, the first of each type. -/
def conditionsOf (job : Json) (ownedPods : List Json) (now : Now) : List Json :=
  (existingConditionsOf job).foldl (fun conditions existing =>
      let type := ((existing.get "type").bind asStr).getD ""
      if type = "" ∨ isControllerOwnedType type ∨
          conditions.any (fun condition => (condition.get "type").bind asStr = some type) then conditions
      else conditions ++ [existing])
    (controllerConditions job ownedPods now)

/-- The status but for its indexes and its completion time. -/
def countsStatus (job : Json) (ownedPods : List Json) (now : Now) : Json :=
  let pods := activeOwnedPodsOf ownedPods
  let counts := tally (specOf job) pods
  let succeeded : Int := if isIndexed (specOf job) then (succeededIndexes job pods).card else counts.succeeded
  let startTime := ((job.pointer ["metadata", "creationTimestamp"]).bind asStr).getD now.time
  .obj [("active", .num counts.active), ("conditions", .arr (conditionsOf job ownedPods now)),
    ("failed", .num counts.failed), ("ready", .num counts.ready), ("startTime", .str startTime),
    ("succeeded", .num succeeded), ("terminating", .num (ownedPods.filter podIsTerminating).length)]

/-- A set of indexes is written if there are any. -/
def insertIndexes (status : Json) (key : String) (indexes : Finset Int) : Json :=
  match formatIndexes indexes with
  | some text => status.insertField key (.str text)
  | none => status

def deriveJobStatus (job : Json) (ownedPods : List Json) (now : Now) : Json :=
  let pods := activeOwnedPodsOf ownedPods
  let spec := specOf job
  let status := countsStatus job ownedPods now
  let status := if isIndexed spec then
      insertIndexes (insertIndexes status "completedIndexes" (succeededIndexes job pods)) "failedIndexes"
        (failedIndexes spec pods)
    else status
  if shouldSetComplete job ownedPods || (failureOf job pods).isSome then
    status.insertField "completionTime" ((job.pointer ["status", "completionTime"]).getD (.str now.time))
  else status

end Klights.Job
