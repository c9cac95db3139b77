import Klights.Api.ListQuery
import Klights.Controllers.Common
import Klights.Lib.Machine

/-!
# The status of a disruption budget

`klights-controllers/src/pdb.rs`: how many pods a PodDisruptionBudget expects, has and wants, and how many disruptions
it allows. All numbers are `i64` and wrap; the length of a list of pods always fits.

- `computeDesiredHealthy`: `minAvailable`, or what `maxUnavailable` leaves of the expected pods;
- `reconciledStatus`: the status a reconcile computes from the budget it has read and the pods it has listed;
- `decideEviction`: what an attempt to admit an eviction does with the budget it has read.
-/

namespace Klights.Disruption

open Api Controllers Lib Selector Status Json

/-! ## Pods -/

/-- `pod_readiness::is_ready`: a `Ready` condition, or a running pod with containers that are all ready. -/
def isReady (pod : Json) : Bool :=
  match pod.get "status" with
  | none => false
  | some status =>
    let conditions := ((status.get "conditions").bind asArray).getD []
    let containers := ((status.get "containerStatuses").bind asArray).getD []
    conditions.any (fun condition => (condition.get "type").bind asStr = some "Ready" &&
        (condition.get "status").bind asStr = some "True") ||
      ((status.get "phase").bind asStr = some "Running" && !containers.isEmpty &&
        containers.all fun container => ((container.get "ready").bind asBool).getD false)

def isPodHealthy (pod : Json) : Bool :=
  let phase := (pod.strAt ["status", "phase"]).getD ""
  if phase = "Succeeded" then true else if phase ≠ "Running" then false else isReady pod

def isTerminating (pod : Json) : Bool := (pod.pointer ["metadata", "deletionTimestamp"]).isSome

def canIgnorePdbForEviction (pod : Json) : Bool :=
  (match pod.strAt ["status", "phase"] with
    | some "Succeeded" | some "Failed" | some "Pending" => true
    | _ => false) || isTerminating pod

def podMatchesSelector (pod pdb : Json) : Bool :=
  match fromK8sSelector ((pdb.pointer ["spec", "selector"]).getD .null) with
  | .ok selector => matchesLabelRequirements pod selector
  | .error _ => false

/-! ## The numbers of a budget -/

/-- An integer, or a percentage of the total, rounded up; anything else is zero. -/
def parseIntOrPercent (value : Json) (total : Int) : Int :=
  match value.asI64 with
  | some n => n
  | none =>
    match value.asStr.map String.toList with
    | none => 0
    | some text =>
      if text.getLast? = some '%' then
        match parseI64 (String.ofList text.dropLast) with
        | some percent => (wrapI64 (wrapI64 (total * percent) + 99)).tdiv 100
        | none => 0
      else 0

/-- `minAvailable` takes precedence, and one pod is protected without either field. -/
def computeDesiredHealthy (spec : Json) (expectedPods : Int) : Int :=
  match spec.get "minAvailable", spec.get "maxUnavailable" with
  | some minAvailable, _ => parseIntOrPercent minAvailable expectedPods
  | none, some maxUnavailable => max (wrapI64 (expectedPods - parseIntOrPercent maxUnavailable expectedPods)) 0
  | none, none => 1

/-! ## The status -/

def sufficientPodsCondition (currentHealthy desiredHealthy : Int) : Json :=
  if currentHealthy ≥ desiredHealthy then
    buildCondition "SufficientPods" "True" "SufficientPods"
      (toString currentHealthy ++ " pods are available, " ++ toString desiredHealthy ++ " required")
  else
    buildCondition "SufficientPods" "False" "InsufficientPods"
      ("Have " ++ toString currentHealthy ++ " healthy pods, need " ++ toString desiredHealthy)

def disruptionsAllowedFor (currentHealthy desiredHealthy : Int) (disruptedPods : List (String × Json)) : Int :=
  max (wrapI64 (wrapI64 (currentHealthy - desiredHealthy) - disruptedPods.length)) 0

def pdbStatusFields (currentPdb metadata : Json) (expectedPods currentHealthy desiredHealthy disruptionsAllowed : Int)
    (now : String) : List (String × Json) :=
  let previous := ((currentPdb.pointer ["status", "conditions"]).bind asArray).bind (conditionByType · "SufficientPods")
  let condition := preserveConditionTransitionTime (sufficientPodsCondition currentHealthy desiredHealthy) previous now
  [("conditions", .arr [condition]), ("currentHealthy", .num currentHealthy), ("desiredHealthy", .num desiredHealthy),
    ("disruptionsAllowed", .num disruptionsAllowed), ("expectedPods", .num expectedPods),
    ("observedGeneration", .num (((metadata.get "generation").bind asI64).getD 1))]

def buildPdbStatus (currentPdb metadata : Json) (expectedPods currentHealthy desiredHealthy : Int)
    (disruptedPods : List (String × Json)) (now : String) : Json :=
  let disruptionsAllowed := disruptionsAllowedFor currentHealthy desiredHealthy disruptedPods
  let status :=
    obj (pdbStatusFields currentPdb metadata expectedPods currentHealthy desiredHealthy disruptionsAllowed now)
  if disruptedPods.isEmpty then status else status.insertField "disruptedPods" (.obj disruptedPods)

def disruptedPodsOf (pdb : Json) : List (String × Json) :=
  ((pdb.pointer ["status", "disruptedPods"]).bind asObject).getD []

def disruptedPodsForLiveMatchingPods (currentPdb : Json) (liveMatchingPodNames : List String) : List (String × Json) :=
  (disruptedPodsOf currentPdb).filter fun field => liveMatchingPodNames.contains field.1

def selectorMatchingPods (selector : List LabelRequirement) (pods : List Json) : List Json :=
  pods.filter (matchesLabelRequirements · selector)

def matchingPods (selector : List LabelRequirement) (pods : List Json) : List Json :=
  (selectorMatchingPods selector pods).filter fun pod => !isTerminating pod

/-- The status that a reconcile computes. There is none for a budget without metadata or spec, and for one whose
selector cannot be read. -/
def reconciledStatus (current : Json) (pods : List Json) (now : String) : Option Json :=
  (current.get "metadata").bind fun metadata => (current.get "spec").bind fun spec =>
      match fromK8sSelector ((spec.get "selector").getD .null) with
      | .error _ => none
      | .ok selector =>
        let matching := matchingPods selector pods
        some (buildPdbStatus current metadata matching.length (matching.filter isPodHealthy).length
          (computeDesiredHealthy spec matching.length)
          (disruptedPodsForLiveMatchingPods current ((selectorMatchingPods selector pods).filterMap objectName)) now)

/-! ## Admission -/

inductive PodEvictionAdmissionOutcome where
  | allowed
  | multipleDisruptionBudgets (pdbNames : List String)
  | disruptionBudgetDenied (pdbName : String) (desiredHealthy currentHealthy : Int)
  | invalidDisruptionBudget (pdbName message : String)

def i64At (pdb : Json) (path : List String) (default : Int) : Int := ((pdb.pointer path).bind asI64).getD default

def reservedStatus (podName : String) (disruptionsAllowed : Int) (now : String) (fields : List (String × Json)) :
    Json :=
  let status := obj (Json.Fields.insert "disruptionsAllowed" (.num (disruptionsAllowed - 1)) fields)
  let disrupted := ((status.get "disruptedPods").bind asObject).getD []
  status.insertField "disruptedPods" (.obj (Json.Fields.insert podName (.str now) disrupted))

/-- A status that is neither an object nor null cannot be indexed. -/
def reserveDisruption (pdb : Json) (podName : String) (disruptionsAllowed : Int) (now : String) : Option Json :=
  match pdb.get "status" with
  | none | some .null => some (reservedStatus podName disruptionsAllowed now [])
  | some (.obj fields) => some (reservedStatus podName disruptionsAllowed now fields)
  | some _ => none

/-- What an attempt to admit an eviction comes to: an answer, or a status to be written first. -/
inductive Decision where
  | answer (outcome : PodEvictionAdmissionOutcome)
  | reserve (status : Json)

/-- One turn of the loop of `admit_pod_eviction_at`, up to the write. -/
def decideEviction (pod : Json) (podName : String) (dryRun : Bool) (now : String) (pdb : Json) : Option Decision :=
  (objectName pdb).bind fun pdbName =>
    let currentHealthy := i64At pdb ["status", "currentHealthy"] 0
    let desiredHealthy := i64At pdb ["status", "desiredHealthy"] 0
    let disruptionsAllowed := i64At pdb ["status", "disruptionsAllowed"] 0
    if i64At pdb ["status", "observedGeneration"] 0 < i64At pdb ["metadata", "generation"] 1 then
      some (.answer (.disruptionBudgetDenied pdbName desiredHealthy currentHealthy))
    else if !isPodHealthy pod && (pdb.strAt ["spec", "unhealthyPodEvictionPolicy"] = some "AlwaysAllow" ||
        (currentHealthy ≥ desiredHealthy && desiredHealthy > 0)) then
      some (.answer .allowed)
    else if disruptionsAllowed < 0 then
      some (.answer (.invalidDisruptionBudget pdbName "disruptionsAllowed is negative"))
    else if (disruptedPodsOf pdb).length > 2000 then
      some (.answer (.invalidDisruptionBudget pdbName "disruptedPods map is too large"))
    else if disruptionsAllowed = 0 then
      some (.answer (.disruptionBudgetDenied pdbName desiredHealthy currentHealthy))
    else if dryRun then some (.answer .allowed)
    else (reserveDisruption pdb podName disruptionsAllowed now).map .reserve

end Klights.Disruption
