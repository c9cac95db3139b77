import Klights.Disruption.Budget
import Klights.Lib.Runs
import Klights.Lib.Table

/-!
# Reconciles and evictions of one namespace

The PodDisruptionBudgets and the pods of a namespace, over any interleaving of `reconcile_pdb_at`,
`admit_pod_eviction_at` and changes of pods. Each call of the store is a step of its own. A status is written only if
the budget still has the version it was read at, and five attempts are made. A budget keeps its UID, so only the version
of the precondition can fail.

- `Task`, `World.advance`: what a reconcile or an admission under way does next;
- `step`: one step of one task, the start of one, or a change of a pod.
-/

namespace Klights.Disruption

open Controllers Lib Json

/-! ## Stored objects -/

abbrev StoredPdb := Versioned Json

def StoredPdb.name (pdb : StoredPdb) : Option String := objectName pdb.value

abbrev StoredPdbs := Table StoredPdb.name

abbrev StoredPods := Table objectName

def withStatus (pdb status : Json) : Json := pdb.insertField "status" status

/-! ## Tasks -/

inductive Task where
  /-- A reconcile, the budget to be read. -/
  | reconciling (name now : String) (attempts : Nat)
  /-- The budget is read, and the pods are to be listed. -/
  | listing (name now : String) (current : StoredPdb) (attempts : Nat)
  /-- The status is to be written. -/
  | writing (name now : String) (current : StoredPdb) (status : Json) (attempts : Nat)
  /-- An eviction of a pod that was read, the budgets to be listed. -/
  | admitting (pod : Json) (podName now : String) (dryRun : Bool)
  /-- A disruption is to be reserved in the budget that was read. -/
  | reserving (pod : Json) (podName now : String) (dryRun : Bool) (pdb : StoredPdb) (attempts : Nat)
  /-- The budget was written by another, and is to be read again. -/
  | rereading (pod : Json) (podName now : String) (dryRun : Bool) (pdbName : String) (attempts : Nat)

/-- The stored budgets and pods, the tasks under way, and the pods whose eviction was admitted, dry runs apart. -/
structure World where
  pdbs : StoredPdbs
  pods : StoredPods
  tasks : Nat → Option Task
  admitted : List Json

namespace World

def setTask (world : World) (i : Nat) (task : Option Task) : World :=
  { world with tasks := Function.update world.tasks i task }

def allow (world : World) (pod : Json) (dryRun : Bool) : World :=
  if dryRun then world else { world with admitted := pod :: world.admitted }

inductive WriteResult where
  | written (world : World)
  | conflict
  | notFound

def updateStatus (world : World) (name : String) (version : Nat) (status : Json) : WriteResult :=
  match world.pdbs.find (some name) with
  | none => .notFound
  | some pdb =>
    if pdb.version = version then
      .written { world with pdbs := world.pdbs.put (pdb.write (withStatus pdb.value status)) }
    else .conflict

/-- The admission after the budgets are listed: a pod of several budgets is refused, and one of none is allowed. -/
def selectPdb (world : World) (i : Nat) (pod : Json) (podName now : String) (dryRun : Bool) : World :=
  match world.pdbs.rows.filter fun pdb => podMatchesSelector pod pdb.value with
  | [] => (world.allow pod dryRun).setTask i none
  | [pdb] => world.setTask i (some (.reserving pod podName now dryRun pdb 4))
  | _ => world.setTask i none

/-- One turn of the loop of an admission; a conflict is retried while there are attempts. -/
def reserve (world : World) (i : Nat) (pod : Json) (podName now : String) (dryRun : Bool) (pdb : StoredPdb)
    (attempts : Nat) : World :=
  match decideEviction pod podName dryRun now pdb.value, pdb.name with
  | some (.answer .allowed), _ => (world.allow pod dryRun).setTask i none
  | some (.reserve status), some pdbName =>
    match world.updateStatus pdbName pdb.version status with
    | .written world => (world.allow pod false).setTask i none
    | .conflict =>
      match attempts with
      | 0 => world.setTask i none
      | attempts + 1 => world.setTask i (some (.rereading pod podName now dryRun pdbName attempts))
    | .notFound => world.setTask i none
  | _, _ => world.setTask i none

/-- A reconcile after the pods are listed: a status that is there already is not written. -/
def computeStatus (world : World) (i : Nat) (name now : String) (current : StoredPdb) (attempts : Nat) : World :=
  match reconciledStatus current.value world.pods.rows now with
  | none => world.setTask i none
  | some status =>
    if current.value.get "status" = some status then world.setTask i none
    else world.setTask i (some (.writing name now current status attempts))

def advance (world : World) (i : Nat) : Task → World
  | .reconciling _ _ 0 => world.setTask i none
  | .reconciling name now (attempts + 1) =>
    world.setTask i ((world.pdbs.find (some name)).map fun current => .listing name now current attempts)
  | .listing name now current attempts => world.computeStatus i name now current attempts
  | .writing name now current status attempts =>
    match world.updateStatus name current.version status with
    | .written world => world.setTask i none
    | .conflict => world.setTask i (some (.reconciling name now attempts))
    | .notFound => world.setTask i none
  | .admitting pod podName now dryRun => world.selectPdb i pod podName now dryRun
  | .reserving pod podName now dryRun pdb attempts => world.reserve i pod podName now dryRun pdb attempts
  | .rereading pod podName now dryRun pdbName attempts =>
    world.setTask i ((world.pdbs.find (some pdbName)).map fun pdb => .reserving pod podName now dryRun pdb attempts)

end World

/-! ## Steps -/

inductive Action where
  /-- `reconcile_pdb_at` starts as task `i`. -/
  | reconcile (i : Nat) (name now : String)
  /-- The pod is read, and `admit_pod_eviction_at` starts as task `i`. -/
  | evict (i : Nat) (podName now : String) (dryRun : Bool)
  /-- Task `i` goes on. -/
  | advance (i : Nat)
  /-- A call of the store fails for task `i`, or its caller gives up. -/
  | abort (i : Nat)
  /-- A pod is marked for deletion. -/
  | terminate (podName timestamp : String)
  /-- The status of a pod is written. -/
  | setPodStatus (podName : String) (status : Json)
  /-- A pod is gone. -/
  | disappear (podName : String)

def World.startEviction (world : World) (i : Nat) (podName now : String) (dryRun : Bool) : World :=
  match world.tasks i, world.pods.find (some podName) with
  | none, some pod =>
    if canIgnorePdbForEviction pod then world.allow pod dryRun
    else world.setTask i (some (.admitting pod podName now dryRun))
  | _, _ => world

def markTerminating (timestamp : String) (pod : Json) : Json :=
  pod.modifyField "metadata" (·.insertField "deletionTimestamp" (.str timestamp))

theorem objectName_insertField {pod v : Json} {k : String} (hy : k ≠ "metadata") :
    objectName (pod.insertField k v) = objectName pod := by
  have hme : (pod.insertField k v).get "metadata" = pod.get "metadata" :=
    get_insertField_ne pod v hy.symm
  simp [objectName, strAt, pointer_pair, hme]

theorem pointer_markTerminating (ts : String) (p : Json) {k : String} (hy : k ≠ "deletionTimestamp") :
    (markTerminating ts p).pointer ["metadata", k] = p.pointer ["metadata", k] := by
  unfold markTerminating modifyField
  cases hme : p.get "metadata" with
  | none => rfl
  | some metadata =>
    cases p with
    | obj fs =>
      have heq := get_insertField_ne metadata (.str ts) hy
      simp [pointer_pair, get_insertField_self, hme, heq]
    | _ => cases hme

theorem objectName_markTerminating (ts : String) (pod : Json) :
    objectName (markTerminating ts pod) = objectName pod := by
  simp [objectName, strAt, pointer_markTerminating ts pod (by decide : "name" ≠ "deletionTimestamp")]

def step (world : World) : Action → World
  | .reconcile i name now =>
    if (world.tasks i).isNone then world.setTask i (some (.reconciling name now 5)) else world
  | .evict i podName now dryRun => world.startEviction i podName now dryRun
  | .advance i =>
    match world.tasks i with
    | none => world
    | some task => world.advance i task
  | .abort i => world.setTask i none
  | .terminate podName timestamp =>
    { world with
      pods := world.pods.updateWhere (fun pod => objectName pod = some podName) (markTerminating timestamp)
        (objectName_markTerminating timestamp) }
  | .setPodStatus podName status =>
    { world with
      pods := world.pods.updateWhere (fun pod => objectName pod = some podName) (·.insertField "status" status)
        fun _ => objectName_insertField (by decide) }
  | .disappear podName => { world with pods := world.pods.deleteWhere fun pod => objectName pod = some podName }

end Klights.Disruption
