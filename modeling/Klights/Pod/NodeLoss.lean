import Klights.Controllers.Common
import Klights.Lib.Table

/-!
# Pods of lost nodes

The node lifecycle controller writes the status of the pods of a node (`klights-controllers/src/node_lifecycle.rs`): as
unknown while the node is stale, as lost when it stays so or is deleted, and restored when it is back. Which nodes are
stale or ready is left open: a run may pass over any node for any cause at any time.

- `Pass.statusWrite`: the status that a pass writes for a pod it has listed;
- `node_loss_keeps_succeeded`: a pod that succeeded is not failed, as long as no pass takes it for lost.
-/

namespace Klights.Pod.NodeLoss

open Lib Status Controllers List Function Json

def ensureObjectField (value : Json) (field : String) (f : Json → Json) : Json :=
  (obj (value.asObject.getD [])).insertField field (f (.obj (((value.get field).bind asObject).getD [])))

def conditionsOf (status : Json) : List Json := ((status.get "conditions").bind asArray).getD []

def upsertCondition (type : String) (f : Json → Json) (status : Json) : Json :=
  let conditions := conditionsOf status
  status.insertField "conditions" (.arr (match conditionByType conditions type with
    | some condition => setCondition conditions type (f condition)
    | none => conditions ++ [f (.obj [("type", .str type)])]))

def phaseOf (status : Json) : Option String := (status.get "phase").bind asStr

def podPhase (pod : Json) : Option String := (pod.get "status").bind phaseOf

def isTerminal (pod : Json) : Bool := podPhase pod = some "Succeeded" || podPhase pod = some "Failed"

def isNodeUnknown (condition : Json) : Bool :=
  condition.strAt ["status"] = some "Unknown" && condition.strAt ["reason"] = some "NodeStatusUnknown"

def markPodConditionUnknown (now type : String) : Json → Json :=
  upsertCondition type fun condition =>
    if isNodeUnknown condition then condition
    else preserveConditionTransitionTime (((condition.insertField "status" (.str "Unknown")).insertField
      "reason" (.str "NodeStatusUnknown")).insertField "message" (.str "Kubelet stopped posting node status."))
      (some condition) now

/-- The flag that this and `restorePodStatusAfterNodeReady` return is whether the pod is another one afterwards. -/
def markPodStatusUnknown (now : String) (pod : Json) : Json :=
  if isTerminal pod then pod
  else ensureObjectField pod "status" fun status =>
    markPodConditionUnknown now "Ready" (markPodConditionUnknown now "ContainersReady"
      (status.insertField "phase" (.str "Unknown")))

def markPodStatusNodeLost (now : String) (pod : Json) : Json :=
  ensureObjectField (markPodStatusUnknown now pod) "status" fun status =>
    ((status.insertField "phase" (.str "Failed")).insertField "reason" (.str "NodeLost")).insertField "message"
      (.str "Pod was terminated because its Node was lost.")

/-! ## Restoring a pod -/

def isRunning (status : Json) : Bool := (status.pointer ["state", "running"]).isSome

def inferPodPhaseFromClusterStatus (pod : Json) : Option String :=
  match (pod.pointer ["status", "containerStatuses"]).bind asArray with
  | none | some [] => none
  | some statuses =>
    let codes := statuses.map fun status => (status.pointer ["state", "terminated", "exitCode"]).bind asI64
    let restartPolicy := ((pod.strAt ["spec", "restartPolicy"]).filter (· ≠ "")).getD "Always"
    let anyNonzero := codes.any fun code => code.any (· ≠ 0)
    if statuses.any isRunning then some "Running"
    else if !codes.all Option.isSome then some "Pending"
    else if restartPolicy = "Always" || restartPolicy = "OnFailure" && anyNonzero then some "Running"
    else if codes.all (· = some 0) && (restartPolicy = "Never" || restartPolicy = "OnFailure") then some "Succeeded"
    else if anyNonzero && restartPolicy = "Never" then some "Failed"
    else some "Pending"

def containerNamesWithProbe (pod : Json) (probeField : String) : List String :=
  ((((pod.pointer ["spec", "containers"]).bind asArray).getD []).filter fun container =>
    (container.get probeField).isSome).filterMap (strAt · ["name"])

def restoreRunningContainerReadiness (readiness startup : List String) (item : Json) : Json :=
  match isRunning item, item.strAt ["name"] with
  | true, some name =>
    let set field (item : Json) := if (item.get field).bind asBool = some true then item
      else item.insertField field (.bool true)
    let item := if readiness.contains name then item else set "ready" item
    if startup.contains name || (item.get "started").isNone then item else set "started" item
  | _, _ => item

def appContainerStatusesAllReady (status : Json) : Bool :=
  match (status.get "containerStatuses").bind asArray with
  | none | some [] => false
  | some statuses => statuses.all fun status => (status.get "ready").bind asBool = some true

def upsertReconciledPodCondition (existing : List Json) (type : String) (value : Bool) (now : String) : Json → Json :=
  upsertCondition type fun condition =>
    preserveConditionTransitionTime (((condition.insertField "status" (.str (if value then "True" else "False"))
      ).removeField "reason").removeField "message") (conditionByType existing type) now

def podStatusHasNodeUnknownProjection (pod : Json) : Bool :=
  podPhase pod = some "Unknown" || (conditionsOf ((pod.get "status").getD .null)).any fun condition =>
    (conditionType condition = some "ContainersReady" || conditionType condition = some "Ready") &&
      isNodeUnknown condition

def restorePodStatusAfterNodeReady (now : String) (pod : Json) : Json :=
  if isTerminal pod || !podStatusHasNodeUnknownProjection pod then pod
  else match inferPodPhaseFromClusterStatus pod with
    | none => pod
    | some phase => ensureObjectField pod "status" fun status =>
      let existing := conditionsOf status
      let restore := restoreRunningContainerReadiness (containerNamesWithProbe pod "readinessProbe")
        (containerNamesWithProbe pod "startupProbe")
      let status := (status.insertField "phase" (.str phase)).modifyField "containerStatuses" fun statuses =>
        .arr ((statuses.asArray.getD []).map restore)
      let ready := appContainerStatusesAllReady status
      upsertReconciledPodCondition existing "Ready" (phase = "Running" && ready) now
        (upsertReconciledPodCondition existing "ContainersReady" ready now status)

/-! ## Passes over the pods of a node -/

/-- The controller passes over the pods of a node that is stale (with the grace in seconds), ready again or deleted. -/
inductive Cause where
  | stale (podEvictionGrace : Nat)
  | ready
  | deleted

structure Pass where
  nodeName : String
  cause : Cause
  now : Int

section Runs

/- `k8s_time_format` and `parse_from_rfc3339`, with times in nanoseconds. -/
variable (format : Int → String) (parse : String → Option Int)

def nodeUnknownTransitionTime (pod : Json) : Option Int :=
  (conditionsOf ((pod.get "status").getD .null)).findSome? fun condition =>
    if conditionType condition = some "Ready" && isNodeUnknown condition then
      (condition.strAt ["lastTransitionTime"]).bind parse
    else none

/-- The pass takes the pod for lost: its node is deleted, or has been unknown for the grace. -/
def Pass.lost (pass : Pass) (pod : Json) : Bool :=
  match pass.cause with
  | .stale grace => (pod.pointer ["metadata", "deletionTimestamp"]).isNone &&
    (nodeUnknownTransitionTime parse (markPodStatusUnknown (format pass.now) pod)).any fun time =>
      time + min (grace : Int) i64Max * 10 ^ 9 ≤ pass.now
  | .ready => false
  | .deleted => true

/-- `mark_pods_unknown_on_node`, `reconcile_unknown_pods_after_node_ready` and `cleanup_pods_bound_to_deleted_node`, for
one pod that is listed. -/
def Pass.statusWrite (pass : Pass) (pod : Json) : Option Json :=
  let now := format pass.now
  let lost := pass.lost format parse pod
  let data := if lost then markPodStatusNodeLost now pod else
    match pass.cause with
    | .ready => restorePodStatusAfterNodeReady now pod
    | .stale _ | .deleted => markPodStatusUnknown now pod
  if lost || data ≠ pod then some ((data.get "status").getD (.obj [])) else none

/-- The pods by their UID (null once deleted), what the passes have listed, and the pods and statuses of the writes. -/
structure World where
  pods : String → Versioned Json
  listed : List (String × Pass × Versioned Json)
  written : List (Json × Json)

/-- Another writer changes a pod; a pass lists a pod; the write for the pod listed at an index is sent. -/
inductive Step where
  | change (uid : String) (data : Json)
  | list (uid : String) (pass : Pass)
  | write (index : Nat)

/-- A write names the UID and the resource version of the pod that was listed. -/
def World.step (w : World) : Step → World
  | .change uid data => { w with pods := update w.pods uid ((w.pods uid).write data) }
  | .list uid pass =>
    if (w.pods uid).value.strAt ["spec", "nodeName"] = some pass.nodeName then
      { w with listed := w.listed ++ [(uid, pass, w.pods uid)] }
    else w
  | .write index =>
    match w.listed[index]? with
    | none => w
    | some (uid, pass, copy) =>
      match pass.statusWrite format parse copy.value with
      | none => w
      | some status =>
        let pod := w.pods uid
        if copy.version = pod.version then
          ⟨update w.pods uid (pod.write (pod.value.insertField "status" status)), w.listed,
            (pod.value, status) :: w.written⟩
        else w

/-- No pass of the run takes a pod for lost that has succeeded when it is listed. -/
def World.SparesSucceeded (w : World) : List Step → Prop
  | [] => True
  | step :: rest => (match step with
      | .list uid pass => podPhase (w.pods uid).value = some "Succeeded" →
        pass.lost format parse (w.pods uid).value = false
      | _ => True) ∧ (w.step format parse step).SparesSucceeded rest

variable {format parse} {w : World} {pass : Pass} {pod : Json}

theorem statusWrite_succeeded (hh : podPhase pod = some "Succeeded") (hl : pass.lost format parse pod = false) :
    pass.statusWrite format parse pod = none := by
  have ht : isTerminal pod := by simp [isTerminal, hh]
  unfold Pass.statusWrite
  cases hc : pass.cause with
  | stale gr => simp [hl, markPodStatusUnknown, ht]
  | ready => simp [hl, restorePodStatusAfterNodeReady, ht]
  | deleted => simp [Pass.lost, hc] at hl

/-- What is listed was in the store, and no write is due or was made for a pod that succeeded. -/
structure World.Kept (format : Int → String) (parse : String → Option Int) (w : World) : Prop where
  seen : ∀ entry ∈ w.listed, (w.pods entry.1).Seen entry.2.2
  spared : ∀ entry ∈ w.listed, podPhase entry.2.2.value = some "Succeeded" →
    entry.2.1.statusWrite format parse entry.2.2.value = none
  kept : ∀ write ∈ w.written, podPhase write.1 ≠ some "Succeeded"

theorem World.Kept.seen_update (h : w.Kept format parse) (u : String) (d : Json) :
    ∀ e ∈ w.listed, (update w.pods u ((w.pods u).write d) e.1).Seen e.2.2 := by
  intro e he
  have hs := h.seen e he
  by_cases hu : e.1 = u
  · subst hu
    simpa using hs.write d
  · simpa [hu] using hs

theorem World.Kept.run (s : List Step) (h : w.Kept format parse) (hp : w.SparesSucceeded format parse s) :
    (s.foldl (World.step format parse) w).Kept format parse := by
  induction s generalizing w with
  | nil => exact h
  | cons step tl ih =>
    refine ih ?_ hp.2
    cases step with
    | change uid da => exact ⟨h.seen_update uid da, h.spared, h.kept⟩
    | list uid pass =>
      simp only [World.step]
      split
      · refine ⟨forall_mem_append.2 ⟨h.seen, ?_⟩, forall_mem_append.2 ⟨h.spared, ?_⟩, h.kept⟩
        · simpa using Versioned.Seen.refl _
        · simpa using fun hph => statusWrite_succeeded hph (hp.1 hph)
      · exact h
    | write i =>
      simp only [World.step]
      split
      · exact h
      rename_i uid pass co hg
      have hm := mem_of_getElem? hg
      split
      · exact h
      rename_i st hst
      split
      · rename_i hv
        -- the pod is as it was listed, so it had a write due
        have hc : co = w.pods uid := (h.seen _ hm).eq hv
        refine ⟨h.seen_update uid _, h.spared, forall_mem_cons.2 ⟨fun hph => ?_, h.kept⟩⟩
        have hn := h.spared _ hm (hc ▸ hph)
        exact absurd (hst.symm.trans hn) (by simp)
      · exact h

/-- **Node loss keeps what succeeded.** In every run of changes, listings and writes, no status is written with another
phase for a pod that has succeeded, if no pass takes such a pod for lost. -/
theorem node_loss_keeps_succeeded (pods : String → Versioned Json) (steps : List Step)
    (hspared : World.SparesSucceeded format parse ⟨pods, [], []⟩ steps) :
    ∀ write ∈ (steps.foldl (World.step format parse) ⟨pods, [], []⟩).written,
      podPhase write.1 = some "Succeeded" → phaseOf write.2 = some "Succeeded" := by
  have hk := World.Kept.run steps ⟨by simp, by simp, by simp⟩ hspared
  intro write hw hph
  exact absurd hph (hk.kept write hw)

end Runs

def samplePods (phase : String) (_ : String) : Versioned Json :=
  ⟨.obj [("spec", .obj [("nodeName", .str "n")]), ("status", .obj [("phase", .str phase)])], 0⟩

/-- A pod succeeds between the listing and the write. -/
theorem node_loss_keeps_succeeded_late :
    let steps := [Step.list "u" ⟨"n", .stale 300, 5⟩, .change "u" (samplePods "Succeeded" "u").value, .write 0,
      .list "u" ⟨"n", .stale 300, 9⟩, .write 1]
    let w : World := steps.foldl (World.step (fun _ => "t") fun _ => none) ⟨samplePods "Running", [], []⟩
    w.listed.length = 2 ∧ ∀ write ∈ w.written, podPhase write.1 = some "Succeeded" →
      phaseOf write.2 = some "Succeeded" :=
  ⟨by decide +kernel, node_loss_keeps_succeeded (samplePods "Running") _
    ⟨fun _ => by decide +kernel, trivial, trivial, fun _ => by decide +kernel, trivial, trivial⟩⟩

/-- A pod that succeeded becomes `Failed` when its node is deleted. -/
theorem deleted_node_fails_succeeded :
    ((([Step.list "u" ⟨"n", .deleted, 5⟩, .write 0].foldl (World.step (fun _ => "t") fun _ => none)
      ⟨samplePods "Succeeded", [], []⟩).written).map fun write => (podPhase write.1, phaseOf write.2)) =
      [(some "Succeeded", some "Failed")] := by
  decide +kernel

end Klights.Pod.NodeLoss
