import Klights.Json

/-!
# Merging Pod statuses

`klights-types/src/pod_status_merge.rs`: an incoming `.status` before it replaces the live one. Who writes decides which
conditions are kept from the live status, whether terminal container state survives a stale snapshot, and which omitted
fields are filled in.

- `PodStatusOwner` with the condition types and the fields each writer owns;
- `mergePodStatusForUpdate` in the order of the source: phase, conditions, terminal state, omitted fields.
-/

namespace Klights.Pod

open Json

/-! ## Writers -/

inductive PodStatusOwner where
  | kubeletRuntime
  | scheduler
  | apiStatusSubresource
  | replicatedApply
  deriving DecidableEq

def isKubeletLifecycleCondition (conditionType : String) : Bool :=
  conditionType = "PodScheduled" || conditionType = "Initialized" || conditionType = "ContainersReady" ||
    conditionType = "Ready"

def isSchedulerOwnedCondition (conditionType : String) : Bool :=
  conditionType = "DisruptionTarget" || conditionType = "PodScheduled"

namespace PodStatusOwner

def ownsConditionType (owner : PodStatusOwner) (conditionType : String) : Bool :=
  match owner with
  | kubeletRuntime => isKubeletLifecycleCondition conditionType
  | scheduler => isSchedulerOwnedCondition conditionType
  | apiStatusSubresource => !isSchedulerOwnedCondition conditionType
  | replicatedApply => false

def preservesTerminalRuntimeState (owner : PodStatusOwner) : Bool := owner = kubeletRuntime

def preservesOmittedNetworkStatus (owner : PodStatusOwner) : Bool := owner = kubeletRuntime || owner = replicatedApply

/-- The fields whose omission means that they are empty. -/
def rebuildsStatusField (owner : PodStatusOwner) (field : String) : Bool :=
  match owner with
  | kubeletRuntime => field = "phase" || field = "conditions" || field = "containerStatuses"
  | apiStatusSubresource => true
  | scheduler => field = "phase" || field = "conditions"
  | replicatedApply => false

end PodStatusOwner

/-! ## Conditions -/

def conditionType (condition : Json) : Option String := (condition.get "type").bind asStr

/-- The conditions of a status; anything but an array counts as none. -/
def conditionsOf (status : Json) : List Json := ((status.get "conditions").bind asArray).getD []

@[simp] theorem conditionsOf_insert (fs : List (String × Json)) (conditions : List Json) :
    conditionsOf (.insertField (.obj fs) "conditions" (.arr conditions)) = conditions := by
  simp [conditionsOf, asArray]

theorem conditionsOf_congr {status st' : Json} (h : st'.get "conditions" = status.get "conditions") :
    conditionsOf st' = conditionsOf status := by
  rw [conditionsOf, conditionsOf, h]

structure PodStatusPatch where
  owner : PodStatusOwner
  phase : Option String
  conditions : List Json

def PodStatusPatch.extract (owner : PodStatusOwner) (incomingStatus : Json) : PodStatusPatch :=
  ⟨owner, (incomingStatus.get "phase").bind asStr, conditionsOf incomingStatus⟩

def PodStatusPatch.applyPhase (patch : PodStatusPatch) (incomingStatus : Json) : Json :=
  match patch.phase with
  | none => incomingStatus
  | some phase => incomingStatus.insertField "phase" (.str phase)

theorem applyPhase_agree (ow : PodStatusOwner) (status : Json) :
    Json.AgreeOff [] ((PodStatusPatch.extract ow status).applyPhase status) status := by
  unfold PodStatusPatch.applyPhase
  split
  case h_1 => exact .refl _ _
  case h_2 phase hph =>
    obtain ⟨value, hv, hstr⟩ := Option.bind_eq_some_iff.1 hph
    cases value with
    | str text =>
      cases hstr
      exact agreeOff_insertField_same hv
    | _ => cases hstr

theorem applyPhase_get (ow : PodStatusOwner) (st : Json) (key : String) :
    ((PodStatusPatch.extract ow st).applyPhase st).get key = st.get key :=
  (applyPhase_agree ow st).field key List.not_mem_nil

/-- The live conditions of types the writer does not own. -/
def preservableConditions (owner : PodStatusOwner) (current : Json) : List Json :=
  (((current.pointer ["status", "conditions"]).bind asArray).getD []).filter fun condition =>
    (conditionType condition).any fun type => !owner.ownsConditionType type

/-- Append a condition unless one of its type is there. -/
def backfillCondition (merged : List Json) (condition : Json) : List Json :=
  match conditionType condition with
  | none => merged
  | some type => if merged.any fun existing => conditionType existing = some type then merged else merged ++ [condition]

def PodStatusPatch.applyConditions (patch : PodStatusPatch) (current incomingStatus : Json) : Json :=
  let preservable := preservableConditions patch.owner current
  if preservable.isEmpty && patch.conditions.isEmpty && (incomingStatus.get "conditions").isNone then incomingStatus
  else incomingStatus.insertField "conditions" (.arr (preservable.foldl backfillCondition patch.conditions))

/-! ## Terminal state -/

def containerName (status : Json) : Option String := (status.get "name").bind asStr

def containerByName (statuses : List Json) (name : String) : Option Json :=
  (statuses.filter fun status => containerName status = some name).getLast?

def isTerminalPhase (phase : Option String) : Bool := phase = some "Succeeded" || phase = some "Failed"

/-- The same `containerID`, or none on both sides. -/
def sameContainerIncarnation (current incoming : Json) : Bool :=
  let currentId := ((current.get "containerID").bind asStr).getD ""
  let incomingId := ((incoming.get "containerID").bind asStr).getD ""
  if currentId = "" && incomingId = "" then true else currentId ≠ "" && currentId = incomingId

def sharesAnyContainer (incomingStatus : Json) (currentStatuses : List Json) : Bool :=
  (((incomingStatus.pointer ["containerStatuses"]).bind asArray).getD []).any fun status =>
    (containerName status).any fun name => (containerByName currentStatuses name).isSome

/-- Keep a running or terminated state over a stale `ContainerCreating` of the same container. -/
def preserveContainerState (currentStatuses : List Json) (incoming : Json) : Json :=
  match (containerName incoming).bind (containerByName currentStatuses) with
  | none => incoming
  | some current =>
    let restarted := match (current.get "restartCount").bind asI64, (incoming.get "restartCount").bind asI64 with
      | some currentCount, some incomingCount => decide (currentCount ≠ incomingCount)
      | _, _ => false
    let waiting := (incoming.pointer ["state", "waiting"]).bind asObject
    let containerCreating :=
      (waiting.bind fun fields => (Json.Fields.get "reason" fields).bind asStr) = some "ContainerCreating"
    if !sameContainerIncarnation current incoming || restarted || !containerCreating then incoming
    else if (current.pointer ["state", "terminated"]).isSome || (current.pointer ["state", "running"]).isSome then
      match current.get "state" with
      | some state => incoming.insertField "state" state
      | none => incoming
    else incoming

def preserveTerminalOrConfirmedRuntimeState (current incomingStatus : Json) : Json :=
  let currentPhase := (current.pointer ["status", "phase"]).bind asStr
  match (current.pointer ["status", "containerStatuses"]).bind asArray with
  | none => incomingStatus
  | some currentStatuses =>
    let named := currentStatuses.filter fun status => (containerName status).isSome
    if named.isEmpty then incomingStatus
    else
      match incomingStatus.get "phase" with
      | none => incomingStatus
      | some incomingPhase =>
        if isTerminalPhase currentPhase && !isTerminalPhase incomingPhase.asStr &&
            sharesAnyContainer incomingStatus currentStatuses then
          let incomingStatus := match currentPhase with
            | some phase => incomingStatus.insertField "phase" (.str phase)
            | none => incomingStatus
          incomingStatus.insertField "containerStatuses" (.arr named)
        else
          match (incomingStatus.get "containerStatuses").bind asArray with
          | none => incomingStatus
          | some incomingStatuses =>
            incomingStatus.insertField "containerStatuses"
              (.arr (incomingStatuses.map (preserveContainerState currentStatuses)))

/-! ## Omitted fields -/

def isEmptyValue : Json → Bool
  | .str s => s = ""
  | .arr items => items.isEmpty
  | _ => false

/-- Keep one live field the writer neither mentions nor rebuilds. -/
def preserveUnmentionedField (owner : PodStatusOwner) (incomingStatus : Json) (field : String × Json) : Json :=
  if field.1 = "conditions" || owner.rebuildsStatusField field.1 then incomingStatus
  else
    let incomingStatus :=
      if owner.preservesOmittedNetworkStatus && (incomingStatus.get field.1).any isEmptyValue then
        incomingStatus.removeField field.1
      else incomingStatus
    if (incomingStatus.get field.1).isNone then incomingStatus.insertField field.1 field.2 else incomingStatus

def preserveUnmentionedLiveStatusFields (owner : PodStatusOwner) (current incomingStatus : Json) : Json :=
  match incomingStatus.asObject, (current.get "status").bind asObject with
  | some _, some currentFields => currentFields.foldl (preserveUnmentionedField owner) incomingStatus
  | _, _ => incomingStatus

def mergePodStatusForUpdate (apiVersion kind : String) (current incomingStatus : Json) (owner : PodStatusOwner) :
    Json :=
  if apiVersion ≠ "v1" ∨ kind ≠ "Pod" then incomingStatus
  else
    let patch := PodStatusPatch.extract owner incomingStatus
    let incomingStatus := patch.applyPhase incomingStatus
    let incomingStatus := patch.applyConditions current incomingStatus
    let incomingStatus :=
      if owner.preservesTerminalRuntimeState then preserveTerminalOrConfirmedRuntimeState current incomingStatus
      else incomingStatus
    preserveUnmentionedLiveStatusFields owner current incomingStatus

end Klights.Pod
