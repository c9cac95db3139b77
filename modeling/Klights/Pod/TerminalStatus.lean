import Klights.Pod.StatusFrame

/-!
# Terminal Pods stay terminal

Reports of the kubelet about a Pod whose phase is `Succeeded` or `Failed`. A report with another phase is stale, and the
live phase and container statuses stand. A report with a terminal phase is taken, apart from `ContainerCreating`
snapshots of a container that has run.

- `merged_stale`, `merged_fresh`: what the two kinds of report leave;
- `preserveContainerState_terminated`: the status of a terminated container in a report that is taken;
- `terminal_stays`: over runs of reports the phase stays terminal, and which statuses replace a terminated one.
-/

namespace Klights.Pod

open Lib Json List

variable {s : List Json} {incoming : Json} {key : String}

/-! ## Reports -/

def phaseOf (status : Json) : Option String := (status.get "phase").bind Json.asStr

def containerStatusesOf (status : Json) : List Json := ((status.get "containerStatuses").bind Json.asArray).getD []

/-- The phase is `Succeeded` or `Failed`. -/
def Terminal (status : Json) : Prop := isTerminalPhase (phaseOf status) = true

def isTerminated (status : Json) : Bool := (status.pointer ["state", "terminated"]).isSome

structure Reports (pod : Json) (write : StatusWrite) : Prop where
  kubelet : write.owner = .kubeletRuntime
  phase : (write.incoming.get "phase").isSome = true
  shared : sharesAnyContainer write.incoming (containerStatusesOf (liveStatus pod)) = true

/-- A snapshot from before the container ran: `ContainerCreating`, of the same container and restart. -/
def isStaleSnapshot (current incoming : Json) : Bool :=
  let restarted := match (current.get "restartCount").bind Json.asI64,
    (incoming.get "restartCount").bind Json.asI64 with
    | some currentCount, some incomingCount => decide (currentCount ≠ incomingCount)
    | _, _ => false
  let waiting := (incoming.pointer ["state", "waiting"]).bind Json.asObject
  sameContainerIncarnation current incoming && !restarted &&
    (waiting.bind fun fields => (Json.Fields.get "reason" fields).bind Json.asStr) = some "ContainerCreating"

/-! ## Container statuses -/

section

variable {c : Json} {name : String} (hn : containerName incoming = some name)
  (hu : containerByName s name = some c)
include hn hu

theorem preserveContainerState_eq : preserveContainerState s incoming = if isStaleSnapshot c incoming &&
          ((c.pointer ["state", "terminated"]).isSome || (c.pointer ["state", "running"]).isSome) then
        match c.get "state" with
        | some state => incoming.insertField "state" state
        | none => incoming
      else incoming := by
  have hg : ∀ (sa restarted cr ra : Bool) (ke : Json),
      (if !sa || restarted || !cr then incoming else if ra then ke else incoming) =
        if sa && !restarted && cr && ra then ke else incoming := by
    intro sa restarted cr ra ke
    cases sa <;> cases restarted <;> cases cr <;> cases ra <;> rfl
  unfold preserveContainerState
  rw [hn, Option.bind_some, hu]
  exact hg _ _ _ _ _

theorem preserveContainerState_terminated (ht : isTerminated c) :
    (preserveContainerState s incoming).get "state" = c.get "state" ∨
      preserveContainerState s incoming = incoming ∧ isStaleSnapshot c incoming = false := by
  have hr : (c.pointer ["state", "terminated"]).isSome := ht
  rw [preserveContainerState_eq hn hu, hr, Bool.true_or, Bool.and_true]
  cases hl : isStaleSnapshot c incoming with
  | false => exact .inr ⟨rfl, rfl⟩
  | true =>
    refine .inl ?_
    cases hs : c.get "state" with
    | none => simp [pointer, hs] at hr
    | some state =>
      cases incoming with
      | obj fs => exact get_insertField_self fs "state" state
      | _ => cases hn

end

theorem containerName_preserve (s : List Json) (incoming : Json) :
    containerName (preserveContainerState s incoming) = containerName incoming := by
  unfold preserveContainerState
  split
  · rfl
  · dsimp only
    repeat' split
    all_goals simp [containerName]

variable {p : Json} {write : StatusWrite}

/-! ## One report -/

section Report

open StatusWrite

theorem Reports.settled_eq (h : Reports p write) :
    settled p write = preserveTerminalOrConfirmedRuntimeState p (conditioned p write) := by
  unfold settled
  rw [h.kubelet]
  rfl

theorem Reports.rebuilt (h : Reports p write) (hk : key = "phase" ∨ key = "containerStatuses") :
    (merged p write).get key = (preserveTerminalOrConfirmedRuntimeState p (conditioned p write)).get key := by
  rw [merged_skipped (.inr ?_), h.settled_eq]
  rw [h.kubelet]
  rcases hk with rfl | rfl <;> rfl

theorem conditioned_get (hk : key ≠ "conditions") : (conditioned p write).get key = write.incoming.get key :=
  (conditioned_agree p write).field key (by simpa using hk)

theorem containerStatuses_shared (h : sharesAnyContainer incoming s) :
    (incoming.get "containerStatuses").bind asArray = some (containerStatusesOf incoming) ∧
      (s.filter fun st => (containerName st).isSome) ≠ [] := by
  obtain ⟨st, ht, hs⟩ := any_eq_true.1 h
  constructor
  · unfold containerStatusesOf
    have hp : incoming.pointer ["containerStatuses"] = incoming.get "containerStatuses" := by
      simp [pointer]
    rw [hp] at ht
    cases hg : (incoming.get "containerStatuses").bind asArray with
    | none => rw [hg] at ht; cases ht
    | some fo => rfl
  · obtain ⟨name, hn, hf⟩ : ∃ name, containerName st = some name ∧ (containerByName s name).isSome := by
      cases hn : containerName st with
      | none => rw [hn] at hs; cases hs
      | some name => rw [hn] at hs; exact ⟨name, rfl, hs⟩
    obtain ⟨c, hu⟩ := Option.isSome_iff_exists.1 hf
    obtain ⟨hm, hc⟩ := mem_filter.1 (mem_of_getLast? hu)
    refine ne_nil_of_mem (mem_filter.2 ⟨hm, ?_⟩)
    rw [of_decide_eq_true hc]
    rfl

section

variable (h : Reports p write)
include h

theorem Reports.live :
    (p.pointer ["status", "containerStatuses"]).bind asArray = some (containerStatusesOf (liveStatus p)) := by
  have hnm := (containerStatuses_shared h.shared).2
  rw [pointer_status]
  unfold containerStatusesOf at hnm ⊢
  cases hl : ((liveStatus p).get "containerStatuses").bind asArray with
  | none => rw [hl] at hnm; exact absurd rfl hnm
  | some s => rfl

theorem Reports.object : ∃ fields, conditioned p write = .obj fields := by
  have heq : (conditioned p write).get "phase" = write.incoming.get "phase" := conditioned_get (by decide)
  have hp := h.phase
  rw [← heq] at hp
  cases hc : conditioned p write with
  | obj fields => exact ⟨fields, rfl⟩
  | _ => rw [hc] at hp; cases hp

theorem Reports.preserved : preserveTerminalOrConfirmedRuntimeState p (conditioned p write) =
      if isTerminalPhase (phaseOf (liveStatus p)) && !isTerminalPhase (phaseOf write.incoming) then
        (match phaseOf (liveStatus p) with
          | some phase => (conditioned p write).insertField "phase" (.str phase)
          | none => conditioned p write).insertField "containerStatuses"
          (.arr ((containerStatusesOf (liveStatus p)).filter fun st => (containerName st).isSome))
      else (conditioned p write).insertField "containerStatuses" (.arr ((containerStatusesOf write.incoming).map
          (preserveContainerState (containerStatusesOf (liveStatus p))))) := by
  obtain ⟨hi, hm⟩ := containerStatuses_shared h.shared
  obtain ⟨phase, hp⟩ := Option.isSome_iff_exists.1 h.phase
  have hg : (conditioned p write).get "phase" = some phase := by rw [conditioned_get (by decide), hp]
  have hc : (conditioned p write).get "containerStatuses" = write.incoming.get "containerStatuses" :=
    conditioned_get (by decide)
  have hsh : sharesAnyContainer (conditioned p write) (containerStatusesOf (liveStatus p)) := by
    have hsh := h.shared
    unfold sharesAnyContainer pointer at hsh ⊢
    rwa [hc]
  unfold preserveTerminalOrConfirmedRuntimeState
  rw [h.live, pointer_status]
  dsimp only
  rw [if_neg (by simpa using hm), hg]
  dsimp only
  have ha : phaseOf write.incoming = phase.asStr := by rw [phaseOf, hp, Option.bind_some]
  rw [hsh, Bool.and_true, hc, hi, ha]
  unfold phaseOf
  cases ((liveStatus p).get "phase").bind asStr <;> rfl

theorem merged_stale (ht : Terminal (liveStatus p)) (hi : ¬Terminal write.incoming) :
    phaseOf (merged p write) = phaseOf (liveStatus p) ∧ containerStatusesOf (merged p write) =
        (containerStatusesOf (liveStatus p)).filter fun st => (containerName st).isSome := by
  obtain ⟨fs, hf⟩ := h.object
  have ho : isTerminalPhase (phaseOf write.incoming) = false := Bool.eq_false_iff.2 hi
  have hp := h.preserved
  rw [ht, ho, hf] at hp
  obtain ⟨phase, hh⟩ : ∃ phase, phaseOf (liveStatus p) = some phase := by
    cases hh : phaseOf (liveStatus p) with
    | none => rw [Terminal, hh] at ht; cases ht
    | some phase => exact ⟨phase, rfl⟩
  rw [hh] at hp ⊢
  unfold phaseOf containerStatusesOf
  rw [h.rebuilt (.inl rfl), h.rebuilt (.inr rfl), hf, hp]
  simp [Json.insertField, Json.get, Json.asStr, Json.asArray, containerStatusesOf]

theorem merged_fresh (hi : Terminal write.incoming) :
    phaseOf (merged p write) = phaseOf write.incoming ∧ containerStatusesOf (merged p write) =
        (containerStatusesOf write.incoming).map (preserveContainerState (containerStatusesOf (liveStatus p))) := by
  obtain ⟨fs, hf⟩ := h.object
  have hh : (conditioned p write).get "phase" = write.incoming.get "phase" := conditioned_get (by decide)
  have hp := h.preserved
  rw [hi, Bool.not_true, Bool.and_false] at hp
  unfold phaseOf
  rw [containerStatusesOf, h.rebuilt (.inl rfl), h.rebuilt (.inr rfl), hp]
  simp only [Bool.false_eq_true, if_false]
  rw [get_insertField_ne _ _ (by decide), hh, hf, get_insertField_self]
  exact ⟨rfl, rfl⟩

theorem Reports.terminal (ht : Terminal (liveStatus p)) : Terminal (merged p write) := by
  by_cases hi : Terminal write.incoming
  · rwa [Terminal, (merged_fresh h hi).1]
  · rwa [Terminal, (merged_stale h ht hi).1]

end

end Report

/-! ## Runs of reports -/

open StatusWrite in
/-- The container statuses a report leaves on a terminal Pod. A report with another phase changes none of the named
ones; one with a terminal phase replaces that of a terminated container unless it is a stale snapshot. -/
structure TerminatedKept (pod : Json) (write : StatusWrite) : Prop where
  stale : ¬Terminal write.incoming → containerStatusesOf (merged pod write) =
      (containerStatusesOf (liveStatus pod)).filter fun status => (containerName status).isSome
  fresh : Terminal write.incoming → ∀ status ∈ containerStatusesOf (merged pod write), ∀ name current,
    containerName status = some name → containerByName (containerStatusesOf (liveStatus pod)) name = some current →
      isTerminated current = true → status.get "state" = current.get "state" ∨
          status ∈ containerStatusesOf write.incoming ∧ isStaleSnapshot current status = false

section Runs

variable {w : List StatusWrite}

open StatusWrite

theorem Reports.terminated (h : Reports p write) (he : Terminal (liveStatus p)) :
    TerminatedKept p write := by
  refine ⟨fun hi => (merged_stale h he hi).2, fun hi st hst name c hn hu ht => ?_⟩
  rw [(merged_fresh h hi).2] at hst
  obtain ⟨incoming, hm, rfl⟩ := mem_map.1 hst
  rw [containerName_preserve] at hn
  rcases preserveContainerState_terminated hn hu ht with hs | ⟨heq, hf⟩
  · exact .inl hs
  · rw [heq]
    exact .inr ⟨hm, hf⟩

theorem terminal_apply (h : Reports p write) (ht : Terminal (liveStatus p)) :
    Terminal (liveStatus (StatusWrite.apply p write)) := by
  cases p with
  | obj fs => exact (liveStatus_insert fs _).symm ▸ h.terminal ht
  | _ => cases ht

theorem terminal_run (h : Along StatusWrite.apply Reports p w) (ht : Terminal (liveStatus p)) :
    Terminal (liveStatus (run p w)) :=
  h.invariant (I := fun p' => Terminal (liveStatus p')) (fun _ _ _ => terminal_apply) ht

/-- **Terminal Pods.** Once the phase is terminal no report changes that, and a terminated container of such a Pod gets
another state only from a report with a terminal phase that is no stale snapshot of it. -/
theorem terminal_stays (pod : Json) (writes : List StatusWrite) (h : Along StatusWrite.apply Reports pod writes) :
    (∀ before after, writes = before ++ after → Terminal (liveStatus (run pod before)) →
        Terminal (liveStatus (run pod writes))) ∧
      Along StatusWrite.apply (fun pod write => Terminal (liveStatus pod) → TerminatedKept pod write) pod writes := by
  constructor
  · rintro before after rfl ht
    have he := terminal_run h.rest ht
    rwa [run, foldl_append]
  · exact h.imp fun _ _ hr ht => hr.terminated ht

end Runs

/-! ## A terminated container that runs again -/

def appStatus (phase state : String) : Json :=
  .obj [("containerStatuses", .arr [.obj [("name", .str "app"), ("state", .obj [(state, .obj [])])]]),
    ("phase", .str phase)]

def succeededPod : Json := .obj [("status", appStatus "Succeeded" "terminated")]

def appReport (phase state : String) : StatusWrite := ⟨.kubeletRuntime, appStatus phase state⟩

theorem terminal_stays_app :
    Along StatusWrite.apply Reports succeededPod [appReport "Running" "running", appReport "Failed" "terminated"] ∧
      Terminal (liveStatus (StatusWrite.run succeededPod
        [appReport "Running" "running", appReport "Failed" "terminated"])) := by
  have hr : Along StatusWrite.apply Reports succeededPod
      [appReport "Running" "running", appReport "Failed" "terminated"] :=
    ⟨⟨rfl, rfl, by decide +kernel⟩, ⟨rfl, rfl, by decide +kernel⟩, trivial⟩
  exact ⟨hr, (terminal_stays succeededPod _ hr).1 [] _ rfl (by unfold Terminal; decide +kernel)⟩

/-- A report with a terminal phase puts a running container in the place of a terminated one. -/
theorem terminated_container_runs : Along StatusWrite.apply Reports succeededPod [appReport "Succeeded" "running"] ∧
      (containerStatusesOf (liveStatus succeededPod)).map isTerminated = [true] ∧
      (containerStatusesOf ((appReport "Succeeded" "running").merged succeededPod)).map
        (fun status => (isTerminated status, (status.pointer ["state", "running"]).isSome)) = [(false, true)] :=
  ⟨⟨⟨rfl, rfl, by decide +kernel⟩, trivial⟩, by decide +kernel, by decide +kernel⟩

end Klights.Pod
