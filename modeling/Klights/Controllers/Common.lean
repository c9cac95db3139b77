import Klights.Status.NodeConditions

/-!
# What the controllers share

`klights-controllers/src/common.rs`: owner references, conditions and their times, and the pod a workload controller
makes from its template.

- `removeOwnerReferenceByUid`, `appendOwnerReference`: owner references as a typed list, from which a malformed entry is
  dropped;
- `preserveConditionTransitionTime`, `preserveConditionUpdateTimeIfPresent`: a condition keeps the time of a state it
  had;
- `buildChildPod`.
-/

namespace Klights.Controllers

open Status Json

def objectName (data : Json) : Option String := data.strAt ["metadata", "name"]

/-! ## Owner references -/

structure OwnerReference where
  apiVersion : String
  kind : String
  name : String
  uid : String
  controller : Bool
  blockOwnerDeletion : Bool

def ownerReferencesOf (data : Json) : List Json := ((data.pointer ["metadata", "ownerReferences"]).bind asArray).getD []

def isOwnedBy (data : Json) (ownerUid : String) : Bool :=
  (ownerReferencesOf data).any fun reference => (reference.get "uid").bind asStr = some ownerUid

def OwnerReference.tryFrom (value : Json) : Option OwnerReference :=
  match (value.get "kind").bind asStr, (value.get "uid").bind asStr with
  | some kind, some uid =>
    some ⟨((value.get "apiVersion").bind asStr).getD "", kind, ((value.get "name").bind asStr).getD "", uid,
      ((value.get "controller").bind asBool).getD false,
      ((value.get "blockOwnerDeletion").bind asBool).getD false⟩
  | _, _ => none

/-- Only fields with a value of their own are written. -/
def OwnerReference.toJson (owner : OwnerReference) : Json :=
  .obj ((if owner.apiVersion = "" then [] else [("apiVersion", .str owner.apiVersion)]) ++
    (if owner.blockOwnerDeletion then [("blockOwnerDeletion", .bool true)] else []) ++
    (if owner.controller then [("controller", .bool true)] else []) ++ [("kind", .str owner.kind)] ++
    (if owner.name = "" then [] else [("name", .str owner.name)]) ++ [("uid", .str owner.uid)])

def buildOwnerRef (apiVersion kind name uid : String) : Json :=
  .obj [("apiVersion", .str apiVersion), ("blockOwnerDeletion", .bool true), ("controller", .bool true),
    ("kind", .str kind), ("name", .str name), ("uid", .str uid)]

def ownerReferenceList (data : Json) : List OwnerReference := (ownerReferencesOf data).filterMap OwnerReference.tryFrom

/-- The references that are left without those of a kind and UID, if there were any of those. -/
def removeOwnerReferenceByUid (data : Json) (kind uid : String) : Option (List Json) :=
  let references := ownerReferenceList data
  let kept := references.filter fun owner => !(owner.kind = kind && owner.uid = uid)
  if kept.length ≠ references.length then some (kept.map OwnerReference.toJson) else none

def appendOwnerReference (data : Json) (owner : OwnerReference) : List Json :=
  (ownerReferenceList data ++ [owner]).map OwnerReference.toJson

/-! ## Conditions -/

def buildCondition (type status reason message : String) : Json :=
  .obj [("message", .str message), ("reason", .str reason), ("status", .str status), ("type", .str type)]

def preserveConditionTransitionTime (condition : Json) (previous : Option Json) (now : String) : Json :=
  let previousStatus := conditionStatus previous
  let sameStatus := previousStatus.isSome && previousStatus = conditionStatus (some condition)
  condition.insertField "lastTransitionTime"
    (if sameStatus then (previous.bind (·.get "lastTransitionTime")).getD (.str now) else .str now)

def isConditionTimestampField (field : String) : Bool := field = "lastTransitionTime" || field = "lastUpdateTime"

def sameConditionStateWithoutTimestamps (next previous : Json) : Bool :=
  match next.asObject, previous.asObject with
  | some nextFields, some previousFields =>
    let nextState := nextFields.filter fun field => !isConditionTimestampField field.1
    let previousState := previousFields.filter fun field => !isConditionTimestampField field.1
    nextState.length = previousState.length &&
      nextState.all fun field => Json.Fields.get field.1 previousFields = some field.2
  | _, _ => next = previous

def preserveConditionUpdateTime (condition : Json) (previous : Option Json) (now : String) : Json :=
  let sameState := (previous.map fun old => sameConditionStateWithoutTimestamps condition old).getD false
  condition.insertField "lastUpdateTime"
    (if sameState then (previous.bind (·.get "lastUpdateTime")).getD (.str now) else .str now)

def preserveConditionUpdateTimeIfPresent (condition : Json) (previous : Option Json) (now : String) : Json :=
  if (condition.get "lastUpdateTime").isSome || (previous.bind (·.get "lastUpdateTime")).isSome then
    preserveConditionUpdateTime condition previous now
  else condition

/-- `build_child_pod`: the template with metadata of its own, a pending status and, unless the template has one, a node.
The error goes on with the template as it is printed for debugging. -/
def buildChildPod (template : Json) (podName namespaceName nodeName : String) (owner : Json)
    (extraLabels extraAnnotations : List (String × String)) : Except String Json :=
  match template with
  | .obj fields =>
    let labels := extraLabels.foldl (fun labels label => Json.Fields.insert label.1 (.str label.2) labels)
      (((template.pointer ["metadata", "labels"]).bind asObject).getD [])
    let metadata := obj [("labels", .obj labels), ("name", .str podName), ("namespace", .str namespaceName),
      ("ownerReferences", .arr [owner])]
    let annotations := extraAnnotations.foldl
      (fun annotations entry => Json.Fields.insert entry.1 (.str entry.2) annotations) []
    let metadata := if extraAnnotations.isEmpty then metadata else metadata.insertField "annotations" (.obj annotations)
    let pod := ((((obj fields).insertField "metadata" metadata).insertField "apiVersion" (.str "v1")).insertField
      "kind" (.str "Pod")).insertField "status" (.obj [("phase", .str "Pending")])
    .ok (pod.entryOrInsert "spec" (.obj []) fun spec =>
      if ((spec.get "nodeName").bind asStr).getD "" = "" ∧ nodeName ≠ "" then
        spec.insertField "nodeName" (.str nodeName)
      else spec)
  | _ => .error "child pod template is not a JSON object: "

end Klights.Controllers
