import Klights.Job.Status
import Klights.Lib.Runs

/-!
# Reconciling a Job

`reconcile_job` (`klights-controllers/src/job.rs`), one call of the store after the other, among changes of the pods of
the namespace. A lock lets one reconcile of the Job run at a time. Pods whose deletion is requested go by changes of
their own. Reading RFC 3339 times belongs to a library; `parse` stands for it and gives the instant of a time it can
read.

- `decideJob`: the pods to be deleted and the pods to be created;
- `Stage`, `World.advance`: what a reconcile under way does next;
- `step`: one step of the reconcile, the start of one, or a change of a pod.
-/

namespace Klights.Job

open Controllers Lib Selector Json

/-! ## Pods of the Job -/

def jobPodSelector (spec template : Json) : Option Json :=
  match spec.get "selector" with
  | some selector => some selector
  | none =>
    match (template.pointer ["metadata", "labels"]).bind asObject with
    | some (label :: labels) => some (.obj [("matchLabels", .obj (label :: labels))])
    | _ => none

def podMatchesJobSelector (pod selector : Json) : Bool :=
  match fromK8sSelector selector with
  | .ok parsed => matchesLabelRequirements pod parsed
  | .error _ => false

def podOwnedByJob (pod : Json) (jobUid : String) : Bool :=
  (ownerReferencesOf pod).any fun owner =>
    (owner.get "kind").bind asStr = some "Job" && (owner.get "uid").bind asStr = some jobUid

def podHasControllerOwner (pod : Json) : Bool :=
  (ownerReferencesOf pod).any fun owner => (owner.get "controller").bind asBool = some true

/-! ## Time to live -/

section TimeToLive

variable (parse : String → Option Int)

def finishedJobTransitionTime (job : Json) : Except String (Option Int) :=
  match (existingConditionsOf job).find? fun condition => ((condition.get "type").bind asStr = some "Complete" ||
        (condition.get "type").bind asStr = some "Failed") &&
        (condition.get "status").bind asStr = some "True" with
  | none => .ok none
  | some condition =>
    match (condition.get "lastTransitionTime").bind asStr with
    | none | some "" => .error "finished Job condition missing lastTransitionTime"
    | some text =>
      match parse text with
      | some instant => .ok (some instant)
      | none => .error ("invalid Job finish time " ++ text)

/-- The delay of `job_ttl_cleanup_delay_at` is there and is zero. -/
def ttlExpired (job : Json) (now : Now) : Except String Bool :=
  match (job.pointer ["spec", "ttlSecondsAfterFinished"]).bind asI64 with
  | none => .ok false
  | some ttl =>
    if ttl < 0 then .error "ttlSecondsAfterFinished must be non-negative"
    else (finishedJobTransitionTime parse job).map fun finished =>
        (finished.map fun instant => decide (instant + ttl ≤ now.instant)).getD false

end TimeToLive

def markJobForegroundDeleting (job : Json) (now : Now) : Json :=
  job.modifyField "metadata" fun metadata =>
    let metadata := if ((metadata.get "deletionTimestamp").map isNull).getD true then
        metadata.insertField "deletionTimestamp" (.str now.legacy)
      else metadata
    metadata.entryOrInsert "finalizers" (.arr []) fun finalizers =>
      match finalizers with
      | .arr items =>
        if items.any fun item => item.asStr = some "foregroundDeletion" then finalizers
        else .arr (items ++ [.str "foregroundDeletion"])
      | _ => finalizers

/-! ## What a reconcile decides -/

/-- What the loop that creates pods needs of the counts before it. -/
structure CreatePlan where
  indexed : Bool
  completions : Int
  activeCount : Int
  succeededCount : Int
  /-- Indexes that have succeeded, failed or are under way. -/
  taken : Finset Int
  /-- How many pods may be created. -/
  slots : Int

def nameOf (pod : Json) : String := (objectName pod).getD ""

def surplusPods (activePods : List Json) (parallelism : Int) : List Json :=
  ((activePods.insertionSort fun a b => nameOf a ≤ nameOf b).reverse).take
    ((activePods.length : Int) - max parallelism 0).toNat

/-- The indexes of the pods under way, also those with an empty phase. -/
def activeIndexes (activeOwnedPods deleted : List Json) : Finset Int :=
  ((activeOwnedPods.filter fun pod =>
    !(deleted.map nameOf).contains (nameOf pod) &&
      (let phase := (phaseOf pod).getD ""; phase = "Pending" || phase = "Running" || phase = "")).filterMap
    podCompletionIndex).toFinset

def decideJob (job : Json) (ownedPods : List Json) : List Json × Option CreatePlan :=
  let spec := specOf job
  let pods := activeOwnedPodsOf ownedPods
  let counts := tally spec pods
  let early := (earlyFailureOf spec pods).isSome
  let met := isSuccessCriteriaMet job pods
  let finishing := met && !early
  let active := pods.filter isActive
  -- a complete Indexed Job is seen only after the surplus is deleted
  let completeBefore := (!isIndexed spec && isComplete job pods) || finishing
  let surplus := if !completeBefore && !early then surplusPods active (parallelismOf spec) else []
  let activeCount := if finishing then 0 else counts.active - surplus.length
  let succeeded : Int := if isIndexed spec then (succeededIndexes job pods).card else counts.succeeded
  let plan : CreatePlan :=
    { indexed := isIndexed spec
      completions := completionsOf spec
      activeCount := activeCount
      succeededCount := succeeded
      taken := succeededIndexes job pods ∪ activeIndexes pods surplus ∪ failedIndexes spec pods
      slots := if isIndexed spec then max (wrapI64 (parallelismOf spec - activeCount)) 0
        else max (max (min (parallelismOf spec) (wrapI64 (completionsOf spec - succeeded))) 0 - activeCount) 0 }
  (if finishing then active else surplus,
    if isComplete job pods || finishing || (failureOf job pods).isSome || isSuspended spec || met then none
    else some plan)

/-! ## Stages -/

/-- What a reconcile knows of its Job from the start. -/
structure Reconcile where
  job : Json
  spec : Json
  template : Json
  name : String
  namespaceName : String
  uid : String
  now : Now

inductive Stage where
  /-- The pods of the Job are to be listed. -/
  | listing (run : Reconcile)
  /-- Pods that the selector does not match are released, one by one. -/
  | releasing (run : Reconcile) (selector : Json) (rest retained : List Json)
  /-- The pods of the namespace are to be listed. -/
  | listingAll (run : Reconcile) (selector : Json) (retained : List Json)
  /-- Pods without a controller that the selector matches are adopted, one by one. -/
  | adopting (run : Reconcile) (selector : Json) (rest retained : List Json)
  /-- Pods are created, one by one, for the indexes from `index` on. -/
  | creating (run : Reconcile) (plan : CreatePlan) (index created : Int)
  /-- The pods of the Job are to be listed again. -/
  | listingFinal (run : Reconcile)
  /-- The Job is to be read again and its status written. -/
  | writing (run : Reconcile) (ownedPods : List Json)

abbrev StoredPods := Table objectName

/-- The Job, the pods of its namespace, the reconcile that has the lock, the pods that were created for the Job, and
those whose deletion was requested. -/
structure World where
  job : Option Json
  pods : StoredPods
  stage : Option Stage
  created : List Json
  deleteRequests : List Json

/-- How times are read, and the node that new pods are bound to. -/
structure Context where
  parse : String → Option Int
  nodeName : String

namespace World

def setStage (world : World) (stage : Option Stage) : World := { world with stage := stage }

def ownedPods (world : World) (uid : String) : List Json := world.pods.rows.filter (isOwnedBy · uid)

def replaceOwnerReferences (world : World) (name : String) (references : List Json) : Option World :=
  (world.pods.find (some name)).map fun pod =>
    { world with
      pods := world.pods.put (pod.modifyField "metadata" (·.insertField "ownerReferences" (.arr references))) }

/-- The first part of a reconcile, up to the first listing. An error ends it. -/
def start (ctx : Context) (world : World) (now : Now) : World :=
  match world.job with
  | none => world
  | some job =>
    match job.get "metadata" with
    | none => world
    | some metadata =>
      if (metadata.get "deletionTimestamp").isSome then world
      else
        match ttlExpired ctx.parse job now with
        | .error _ => world
        | .ok true => { world with job := some (markJobForegroundDeleting job now) }
        | .ok false =>
          match job.get "spec", (metadata.get "name").bind asStr, (metadata.get "namespace").bind asStr,
              (metadata.get "uid").bind asStr, (specOf job).get "template" with
          | some spec, some name, some namespaceName, some uid, some template =>
            world.setStage (some (.listing ⟨job, spec, template, name, namespaceName, uid, now⟩))
          | _, _, _, _, _ => world

/-- The counts are taken, deletions are requested, and pods are created next if any are needed. -/
def decideNext (world : World) (run : Reconcile) (ownedPods : List Json) : World :=
  let decision := decideJob run.job ownedPods
  { world with deleteRequests := world.deleteRequests ++ decision.1 }.setStage
    (some (match decision.2 with
      | some plan => .creating run plan 0 0
      | none => .listingFinal run))

/-- The pod for an index, or one without. -/
def jobPod (ctx : Context) (run : Reconcile) (indexed : Bool) (index : Int) (uid : String) : Except String Json :=
  let suffix := String.ofList (uid.toList.take 5)
  let owner := buildOwnerRef "batch/v1" "Job" run.name run.uid
  if indexed then
    let text := toString index
    let label := [("batch.kubernetes.io/job-completion-index", text)]
    (buildChildPod run.template (run.name ++ "-" ++ text ++ "-" ++ suffix) run.namespaceName ctx.nodeName owner label
      label).map fun pod =>
        pod.modifyField "spec" fun spec =>
          (spec.insertField "hostname" (.str (run.name ++ "-" ++ text))).modifyField "containers" fun containers =>
            match containers with
            | .arr items => .arr (items.map fun container =>
                container.entryOrInsert "env" (.arr []) fun env =>
                  match env with
                  | .arr entries =>
                    .arr (entries ++ [.obj [("name", .str "JOB_COMPLETION_INDEX"), ("value", .str text)]])
                  | _ => env)
            | _ => containers
  else
    buildChildPod run.template (run.name ++ "-" ++ suffix) run.namespaceName ctx.nodeName owner [] []

/-- `create_job_pod` refuses a name that is taken. -/
def createPod (ctx : Context) (world : World) (run : Reconcile) (indexed : Bool) (index : Int) (uid : String) :
    Option World :=
  match jobPod ctx run indexed index uid with
  | .error _ => none
  | .ok pod =>
    if (world.pods.find (objectName pod)).isSome then none
    else some { world with pods := world.pods.put pod, created := world.created ++ [pod] }

/-- One turn of the loop that creates pods. The Job is read again; a reconcile whose Job is gone ends. -/
def createNext (ctx : Context) (world : World) (run : Reconcile) (plan : CreatePlan) (index created : Int)
    (uid : String) : World :=
  if created ≥ plan.slots ∨ (plan.indexed ∧ index ≥ plan.completions) then world.setStage (some (.listingFinal run))
  else
    match world.job.filter fun job => !isDeleting job with
    | none => world.setStage none
    | some job =>
      let live := specOf job
      let room := if plan.indexed then decide (index < completionsOf live ∧
            plan.activeCount + created < max (parallelismOf live) 0)
        else decide (plan.activeCount + created <
          max (min (parallelismOf live) (max (wrapI64 (completionsOf live - plan.succeededCount)) 0)) 0)
      if isSuspended live ∨ !room then world.setStage (some (.listingFinal run))
      else if plan.indexed ∧ index ∈ plan.taken then world.setStage (some (.creating run plan (index + 1) created))
      else
        match createPod ctx world run plan.indexed index uid with
        | none => world.setStage none
        | some world => world.setStage (some (.creating run plan (index + 1) (created + 1)))

/-- The status is derived and written, and a Job whose time is over is marked. -/
def writeStatus (ctx : Context) (world : World) (run : Reconcile) (ownedPods : List Json) : World :=
  match world.job with
  | none => world.setStage none
  | some job =>
    if isDeleting job then world.setStage none
    else
      let written := job.insertField "status" (deriveJobStatus job ownedPods run.now)
      { world with
        job := some (match ttlExpired ctx.parse written run.now with
          | .ok true => markJobForegroundDeleting written run.now
          | _ => written) }.setStage none

/-- The reconcile goes on, and the store answers it; `uid` is the next new UID. -/
def advance (ctx : Context) (world : World) (uid : String) : Stage → World
  | .listing run =>
    let owned := world.ownedPods run.uid
    match jobPodSelector run.spec run.template with
    | some selector => world.setStage (some (.releasing run selector owned []))
    | none => world.decideNext run owned
  | .releasing run selector [] retained => world.setStage (some (.listingAll run selector retained))
  | .releasing run selector (pod :: rest) retained =>
    if podMatchesJobSelector pod selector then
      world.setStage (some (.releasing run selector rest (retained ++ [pod])))
    else
      match removeOwnerReferenceByUid pod "Job" run.uid with
      | none => world.setStage (some (.releasing run selector rest retained))
      | some references =>
        match world.replaceOwnerReferences (nameOf pod) references with
        | none => world.setStage none
        | some world => world.setStage (some (.releasing run selector rest retained))
  | .listingAll run selector retained => world.setStage (some (.adopting run selector world.pods.rows retained))
  | .adopting run _ [] retained => world.decideNext run retained
  | .adopting run selector (pod :: rest) retained =>
    if podOwnedByJob pod run.uid || !podMatchesJobSelector pod selector || podHasControllerOwner pod then
      world.setStage (some (.adopting run selector rest retained))
    else
      match world.replaceOwnerReferences (nameOf pod)
          (appendOwnerReference pod ⟨"batch/v1", "Job", run.name, run.uid, true, true⟩) with
      | none => world.setStage none
      | some world => world.setStage (some (.adopting run selector rest (retained ++ [pod])))
  | .creating run plan index created => world.createNext ctx run plan index created uid
  | .listingFinal run => world.setStage (some (.writing run (world.ownedPods run.uid)))
  | .writing run ownedPods => world.writeStatus ctx run ownedPods

end World

/-! ## Steps -/

inductive Action where
  /-- `reconcile_job` is called, and takes the lock if it is free. -/
  | reconcile (now : Now)
  /-- The reconcile goes on. -/
  | advance (uid : String)
  /-- A call of the reconcile fails. -/
  | abort
  /-- A pod is created or changed. -/
  | putPod (pod : Json)
  /-- A pod is gone. -/
  | removePod (name : String)
  /-- The Job is gone. -/
  | removeJob

def step (ctx : Context) (world : World) : Action → World
  | .reconcile now => if world.stage.isNone then world.start ctx now else world
  | .advance uid =>
    match world.stage with
    | none => world
    | some stage => world.advance ctx uid stage
  | .abort => world.setStage none
  | .putPod pod => { world with pods := world.pods.put pod }
  | .removePod name => { world with pods := world.pods.deleteWhere fun pod => objectName pod = some name }
  | .removeJob => { world with job := none }

end Klights.Job
