import Klights.Job.Finished
import Klights.Lib.Runs

/-!
# The concurrency policy of a CronJob

`reconcile_cronjob_inner_at` (`klights-controllers/src/cronjob.rs`) reads the CronJob, lists its active Jobs, deletes
them under `Replace` and creates the Job that is due. Each of these store calls is a step of its own, and Jobs start,
finish and go away between two of them. Its status write and the removal of old finished Jobs are among the edits and
removals that may come at any time.

- `World.step`: runs of reconciles, one after the other;
- `Inv.call`, `Inv.step`: no Job is active but those the reconcile still has to delete before it creates the next one;
- `concurrency_policy_kept`: so `Replace` is kept. `Forbid`, which is how the API spells it, is not a policy the code
  knows: it is kept as long as no time falls due while a Job is active, and `forbid_overlaps` is a run where one does.
-/

namespace Klights.CronJob

open Controllers Lib Job

/-! ## Jobs -/

structure JobRow where
  name : String
  uid : String
  resourceVersion : Int
  data : Json

def uidOf (cj : Json) : String := (cj.strAt ["metadata", "uid"]).getD ""

def concurrencyPolicy (cj : Json) : String := (cj.strAt ["spec", "concurrencyPolicy"]).getD "Allow"

/-- A Job of the CronJob that is neither complete nor failed. -/
def isActive (cjUid : String) (job : JobRow) : Bool :=
  isOwnedBy job.data cjUid && !(existingConditionsOf job.data).any fun condition =>
    let type := (condition.get "type").bind Json.asStr
    (type = some "Complete" || type = some "Failed") && (condition.get "status").bind Json.asStr = some "True"

def listActiveJobs (jobs : Table JobRow.name) (cjUid : String) : List JobRow := jobs.rows.filter (isActive cjUid)

/-- What a reconcile gets from elsewhere: the instant that is due, if any, by the schedule and the status of the CronJob
(`parse_cron_schedule`, `most_recent_cronjob_schedule_time`), as a Unix time in seconds, and its printed form. -/
structure Clock where
  due : Json → Int → Option Int
  toRfc3339 : Int → String

variable (clock : Clock) (ns cjName : String)

def jobFromTemplate (template : Json) (cjUid : String) (scheduled : Int) : String × Json :=
  let name := cjName ++ "-" ++ toString (scheduled.tmod 1000000000)
  let metadata := ((((Json.obj (((template.get "metadata").bind Json.asObject).getD [])).insertField
    "name" (.str name)).insertField "namespace" (.str ns)).insertField "annotations"
    (.obj [("batch.kubernetes.io/cronjob-scheduled-timestamp", .str (clock.toRfc3339 scheduled))])).insertField
    "ownerReferences" (.arr [buildOwnerRef "batch/v1" "CronJob" cjName cjUid])
  (name, ((template.insertField "apiVersion" (.str "batch/v1")).insertField "kind" (.str "Job")).insertField
    "metadata" metadata)

/-! ## Runs -/

/-- The store call a reconcile is about to make, with the CronJob it has read. -/
inductive Phase where
  | idle
  | listing (cj : Json) (scheduled : Int)
  /-- The Jobs still to delete, then the new one. -/
  | creating (cj : Json) (scheduled : Int) (replaced : List JobRow)

structure World where
  cronJob : Option Json
  jobs : Table JobRow.name
  phase : Phase

inductive Action where
  | begin (now : Int)
  /-- The next call of the reconcile, with the uid and version of a Job it creates; a call that fails ends it. -/
  | call (fails : Bool) (uid : String) (resourceVersion : Int)
  | edit (cronJob : Option Json)
  /-- Jobs start, finish and are deleted, and those of others come and go. -/
  | change (jobs : Table JobRow.name)

/-- A reconcile up to its first call after reading the CronJob. -/
def beginReconcile (cj : Json) (now : Int) : Phase :=
  match cj.get "metadata" with
  | none => .idle
  | some metadata =>
    if (metadata.get "deletionTimestamp").isSome then .idle
    else if ((cj.pointer ["spec", "suspend"]).bind Json.asBool).getD false then .idle
    else
      match clock.due cj now with
      | none => .idle
      | some scheduled => .listing cj scheduled

/-- A delete with the uid and the resourceVersion that were read; a conflict ends the reconcile. -/
def World.deleteJob (w : World) (job : JobRow) (next : Phase) : World :=
  match w.jobs.find job.name with
  | none => { w with phase := next }
  | some row =>
    if row.uid = job.uid ∧ row.resourceVersion = job.resourceVersion then
      { w with jobs := w.jobs.deleteWhere fun row => row.name = job.name, phase := next }
    else { w with phase := .idle }

def World.createJob (w : World) (cj : Json) (scheduled : Int) (uid : String) (resourceVersion : Int) : World :=
  match cj.pointer ["spec", "jobTemplate"] with
  | none => { w with phase := .idle }
  | some template =>
    let job := jobFromTemplate clock ns cjName template (uidOf cj) scheduled
    if (w.jobs.find job.1).isSome then { w with phase := .idle }
    else { w with jobs := w.jobs.put ⟨job.1, uid, resourceVersion, job.2⟩, phase := .idle }

def World.call (w : World) (uid : String) (resourceVersion : Int) : World :=
  match w.phase with
  | .idle => w
  | .listing cj scheduled =>
    let active := listActiveJobs w.jobs (uidOf cj)
    if concurrencyPolicy cj = "ForbidConcurrent" ∧ active ≠ [] then { w with phase := .idle }
    else { w with phase := .creating cj scheduled (if concurrencyPolicy cj = "Replace" then active else []) }
  | .creating cj scheduled (job :: replaced) => w.deleteJob job (.creating cj scheduled replaced)
  | .creating cj scheduled [] => w.createJob clock ns cjName cj scheduled uid resourceVersion

def World.step (w : World) : Action → World
  | .begin now =>
    match w.phase, w.cronJob with
    | .idle, some cj => { w with phase := beginReconcile clock cj now }
    | _, _ => w
  | .call fails uid resourceVersion =>
    if fails then { w with phase := .idle } else w.call clock ns cjName uid resourceVersion
  | .edit cronJob => { w with cronJob }
  | .change jobs => { w with jobs }

def World.run (w : World) (actions : List Action) : World := actions.foldl (World.step clock ns cjName) w

def NoneAdded (cjUid : String) (before after : Table JobRow.name) : Prop :=
  ∀ job ∈ after.rows, isActive cjUid job = true → ∃ old ∈ before.rows, isActive cjUid old = true ∧ old.name = job.name

/-- The CronJob keeps its uid and its policy, and only reconciles create Jobs of it. -/
def World.Allows (policy cjUid : String) (w : World) : Action → Prop
  | .edit cronJob => ∀ cj ∈ cronJob, concurrencyPolicy cj = policy ∧ uidOf cj = cjUid
  | .change jobs => NoneAdded cjUid w.jobs jobs
  | _ => True

def NoneActive (cjUid : String) (jobs : Table JobRow.name) : Prop := ∀ job ∈ jobs.rows, isActive cjUid job = false

/-- A reconcile that begins when a time is due finds no active Job of the CronJob. -/
def World.DueWhenFree (cjUid : String) (w : World) : Action → Prop
  | .begin now => w.phase = .idle → ∀ cj ∈ w.cronJob, (clock.due cj now).isSome → NoneActive cjUid w.jobs
  | _ => True

/-! ## What a step leaves -/

/-- No two Jobs of the CronJob are active. -/
def OneActive (cjUid : String) (jobs : Table JobRow.name) : Prop :=
  ∀ a ∈ jobs.rows, ∀ b ∈ jobs.rows, isActive cjUid a = true → isActive cjUid b = true → a.name = b.name

/-- What a reconcile relies on: the CronJob it read, and that no Job is active but those it still has to delete. Under
`Forbid` nothing is deleted, so none may be active from the start. -/
def Phase.Ok (policy cjUid : String) (jobs : Table JobRow.name) : Phase → Prop
  | .idle => True
  | .listing cj _ => (concurrencyPolicy cj = policy ∧ uidOf cj = cjUid) ∧ (policy = "Forbid" → NoneActive cjUid jobs)
  | .creating _ _ replaced => ∀ job ∈ jobs.rows, isActive cjUid job = true → ∃ old ∈ replaced, old.name = job.name

structure Inv (policy cjUid : String) (w : World) : Prop where
  cronJob : ∀ cj ∈ w.cronJob, concurrencyPolicy cj = policy ∧ uidOf cj = cjUid
  phase : w.phase.Ok policy cjUid w.jobs
  one : policy = "Forbid" → OneActive cjUid w.jobs

variable {cj : Json} {scheduled : Int}

section Step

variable {clock ns cjName} {policy cjUid uid : String} {resourceVersion : Int} {w : World} {action : Action}
  {phase : Phase} {jobs : Table JobRow.name} {job : JobRow}

theorem NoneActive.mono (h : NoneActive cjUid w.jobs) (hle : NoneAdded cjUid w.jobs jobs) : NoneActive cjUid jobs := by
  intro job hj
  refine Bool.eq_false_iff.2 fun ha => ?_
  obtain ⟨old, ho, hold, -⟩ := hle job hj ha
  rw [h old ho] at hold
  cases hold

/-- Where no Job is added, the invariant is a matter of what the reconcile does next. -/
theorem Inv.proceed (h : Inv policy cjUid w) (hle : NoneAdded cjUid w.jobs jobs) (hok : phase.Ok policy cjUid jobs) :
    Inv policy cjUid { w with jobs, phase } := by
  refine ⟨h.cronJob, hok, fun hf a ha b hb hc ha' => ?_⟩
  obtain ⟨old, ho, hw, hn⟩ := hle a ha hc
  obtain ⟨old', ho', hw', hn'⟩ := hle b hb ha'
  rw [← hn, ← hn']
  exact h.one hf old ho old' ho' hw hw'

theorem Inv.rephase (h : Inv policy cjUid w) (hok : phase.Ok policy cjUid w.jobs) :
    Inv policy cjUid { w with phase } := ⟨h.cronJob, hok, h.one⟩

theorem Phase.Ok.mono (h : phase.Ok policy cjUid w.jobs) (hle : NoneAdded cjUid w.jobs jobs) :
    phase.Ok policy cjUid jobs := by
  cases phase with
  | idle => trivial
  | listing cj scheduled => exact ⟨h.1, fun hf => (h.2 hf).mono hle⟩
  | creating cj scheduled replaced =>
    intro job hj ha
    obtain ⟨old, ho, ha, hn⟩ := hle job hj ha
    obtain ⟨listed, hl, heq⟩ := h old ho ha
    exact ⟨listed, hl, heq.trans hn⟩

theorem beginReconcile_ok {now : Int} (h : concurrencyPolicy cj = policy ∧ uidOf cj = cjUid)
    (hfree : policy = "Forbid" → (clock.due cj now).isSome → NoneActive cjUid jobs) :
    (beginReconcile clock cj now).Ok policy cjUid jobs := by
  unfold beginReconcile
  repeat' split
  all_goals first | trivial | skip
  rename_i hdue
  exact ⟨h, fun hf => hfree hf (by rw [hdue]; rfl)⟩

theorem Inv.none_active (h : Inv policy cjUid w) (hphase : w.phase = .creating cj scheduled []) :
    NoneActive cjUid w.jobs := by
  intro job hj
  have hok := h.phase
  rw [hphase] at hok
  refine Bool.eq_false_iff.2 fun ha => ?_
  obtain ⟨old, hn, -⟩ := hok job hj ha
  cases hn

theorem Inv.createJob (h : Inv policy cjUid w) (hphase : w.phase = .creating cj scheduled []) :
    Inv policy cjUid (w.createJob clock ns cjName cj scheduled uid resourceVersion) := by
  unfold World.createJob
  split
  · exact h.rephase trivial
  simp only
  split
  · exact h.rephase trivial
  · refine ⟨h.cronJob, trivial, fun _ a ha b hb hc ha' => ?_⟩
    -- only the new Job can be active
    rcases Table.old_or_new ha with ho | rfl
    · simp [h.none_active hphase a ho] at hc
    · rcases Table.old_or_new hb with ho | rfl
      · simp [h.none_active hphase b ho] at ha'
      · rfl

theorem Inv.deleteJob {replaced : List JobRow} (h : Inv policy cjUid w)
    (hphase : w.phase = .creating cj scheduled (job :: replaced)) :
    Inv policy cjUid (w.deleteJob job (.creating cj scheduled replaced)) := by
  have hok := h.phase
  rw [hphase] at hok
  have hrest : ∀ jobs : Table JobRow.name, (∀ row ∈ jobs.rows, row ∈ w.jobs.rows ∧ row.name ≠ job.name) →
      Phase.Ok policy cjUid jobs (.creating cj scheduled replaced) := by
    intro jobs hf row hr ha
    obtain ⟨hl, hne⟩ := hf row hr
    obtain ⟨old, hm, hn⟩ := hok row hl ha
    exact ⟨old, (List.mem_cons.1 hm).resolve_left fun heq => hne (heq ▸ hn).symm, hn⟩
  unfold World.deleteJob
  split
  · rename_i hno
    exact h.rephase (hrest _ fun row hr => ⟨hr, Table.find_eq_none_iff.1 hno row hr⟩)
  · split
    · refine h.proceed (fun row hr ha => ?_) (hrest _ fun row hr => by simpa using hr)
      exact ⟨row, (Table.mem_deleteWhere.1 hr).1, ha, rfl⟩
    · exact h.rephase trivial

section

variable (hpolicy : policy = "Forbid" ∨ policy = "Replace") (h : Inv policy cjUid w)
include hpolicy h

theorem Inv.call : Inv policy cjUid (w.call clock ns cjName uid resourceVersion) := by
  unfold World.call
  split
  · exact h
  · rename_i cj scheduled hphase
    have hok := h.phase
    rw [hphase] at hok
    obtain ⟨⟨hp, hu⟩, hfree⟩ := hok
    simp only
    split
    · exact h.rephase trivial
    · refine h.rephase fun job hj ha => ?_
      rcases hpolicy with rfl | rfl
      · rw [hfree rfl job hj] at ha
        cases ha
      · have hm : job ∈ listActiveJobs w.jobs (uidOf cj) := List.mem_filter.2 ⟨hj, hu ▸ ha⟩
        exact ⟨job, by rwa [if_pos hp], rfl⟩
  · rename_i hphase
    exact h.deleteJob hphase
  · rename_i hphase
    exact h.createJob hphase

theorem Inv.step (hallows : w.Allows policy cjUid action)
    (hfree : policy = "Forbid" → w.DueWhenFree clock cjUid action) :
    Inv policy cjUid (w.step clock ns cjName action) := by
  cases action with
  | «begin» now =>
    simp only [World.step]
    split
    · rename_i cj hidle hc
      exact h.rephase (beginReconcile_ok (h.cronJob cj hc) fun hf hdue => hfree hf hidle cj hc hdue)
    · exact h
  | call fails uid resourceVersion =>
    cases fails with
    | true => exact h.rephase trivial
    | false => exact h.call hpolicy
  | edit cronJob => exact ⟨hallows, h.phase, h.one⟩
  | change jobs => exact h.proceed hallows (h.phase.mono hallows)

theorem run_inv {actions : List Action}
    (hallows : Along (World.step clock ns cjName) (World.Allows policy cjUid) w actions)
    (hfree : policy = "Forbid" → Along (World.step clock ns cjName) (World.DueWhenFree clock cjUid) w actions) :
    Inv policy cjUid (w.run clock ns cjName actions) := by
  induction actions generalizing w with
  | nil => exact h
  | cons action actions ih =>
    exact ih (h.step hpolicy hallows.1 fun hf => (hfree hf).1) hallows.2 fun hf => (hfree hf).2

end

end Step

variable {clock ns cjName}

/-- **The concurrency policy.** Under `Forbid` no two Jobs of the CronJob are ever active, in runs in which no time is
due at a reconcile while one is; under `Replace` every Job of the CronJob is finished or gone when a reconcile creates
the next one. -/
theorem concurrency_policy_kept {policy cjUid : String} {w : World} (hidle : w.phase = .idle)
    (hcronJob : ∀ cj ∈ w.cronJob, concurrencyPolicy cj = policy ∧ uidOf cj = cjUid) {actions : List Action}
    (hallows : Along (World.step clock ns cjName) (World.Allows policy cjUid) w actions) :
    (policy = "Forbid" → OneActive cjUid w.jobs →
        Along (World.step clock ns cjName) (World.DueWhenFree clock cjUid) w actions →
        OneActive cjUid (w.run clock ns cjName actions).jobs) ∧
      (policy = "Replace" → ∀ cj scheduled, (w.run clock ns cjName actions).phase = .creating cj scheduled [] →
        NoneActive cjUid (w.run clock ns cjName actions).jobs) := by
  constructor
  · intro hf hone hfree
    have hinv : Inv policy cjUid w := ⟨hcronJob, by rw [hidle]; trivial, fun _ => hone⟩
    exact (run_inv (.inl hf) hinv hallows fun _ => hfree).one hf
  · rintro rfl cj scheduled hphase
    have hinv : Inv "Replace" cjUid w := ⟨hcronJob, by rw [hidle]; trivial, fun hf => absurd hf (by decide)⟩
    exact (run_inv (.inr rfl) hinv hallows fun hf => absurd hf (by decide)).none_active hphase

/-! ## Two reconciles -/

/-- A CronJob of every minute, without Jobs. -/
def reportCronJob (policy : String) : World :=
  ⟨some (.obj [("metadata", .obj [("uid", .str "u1")]),
    ("spec", .obj [("concurrencyPolicy", .str policy), ("jobTemplate", .obj [])])]), .empty, .idle⟩

def everyMinute : Clock := ⟨fun _ now => some (now / 60 * 60), toString⟩

/-- A reconcile creates a Job, the `between` actions happen, and a minute later the next reconcile runs. -/
def twoReconciles (between : List Action) : List Action :=
  [.begin 125, .call false "j1" 1, .call false "j1" 1] ++ between ++
    [.begin 185, .call false "j2" 2, .call false "j2" 2]

/-- The first Job is complete. -/
def finishedJobs : Table JobRow.name :=
  Table.empty.put ⟨"report-120", "j1", 2, .obj [("metadata", .obj [("ownerReferences",
    .arr [buildOwnerRef "batch/v1" "CronJob" "report" "u1"])]), ("status", .obj [("conditions",
    .arr [.obj [("status", .str "True"), ("type", .str "Complete")]])])]⟩

theorem finishedJobs_free : NoneActive "u1" finishedJobs := by
  unfold NoneActive
  decide +kernel

/-- The Job of the first reconcile is complete when the second one begins. -/
theorem concurrency_policy_kept_waits :
    let final := (reportCronJob "Forbid").run everyMinute "default" "report" (twoReconciles [.change finishedJobs])
    OneActive "u1" final.jobs ∧ final.jobs.rows.map JobRow.name = ["report-120", "report-180"] := by
  refine ⟨(concurrency_policy_kept rfl ?_ ?_).1 rfl (by simp [OneActive, reportCronJob]) ?_, by decide +kernel⟩
  · simp [reportCronJob, concurrencyPolicy, uidOf]
    decide
  · refine ⟨trivial, trivial, trivial, fun job hj ha => ?_, trivial, trivial, trivial, trivial⟩
    exact absurd ((finishedJobs_free job hj).symm.trans ha) (by decide)
  · refine ⟨fun _ _ _ _ job hj => (nomatch hj), trivial, trivial, trivial, fun _ _ _ _ => finishedJobs_free,
      trivial, trivial, trivial⟩

/-- Under `Forbid` the second reconcile creates a Job while the first one's is active. -/
theorem forbid_overlaps :
    Along (World.step everyMinute "default" "report") (World.Allows "Forbid" "u1") (reportCronJob "Forbid")
        (twoReconciles []) ∧
      (((reportCronJob "Forbid").run everyMinute "default" "report" (twoReconciles [])).jobs.rows.filter
        (isActive "u1")).map JobRow.name = ["report-120", "report-180"] :=
  ⟨by simp [twoReconciles, Along, World.Allows], by decide +kernel⟩

end Klights.CronJob
