import Mathlib

/-!
# The workqueue

`WorkQueue` (`klights-controllers/src/workqueue.rs`) and the dispatch of its keys (`dispatcher_runtime.rs`), one section
under a lock after the other. A task is a call under way, named by the section it comes to next; other tasks go on in
between. The log of takes and of reconciles that begin is kept for the statements alone.

- `step_cases`: a step is a batch or one section of one task;
- `retry_not_lost`: a timer makes its key ready, unless the key was taken since. This needs that no `add` of the key
  stands between its two sections when the retry is registered: `add_cancels_retry` shows it cancel a retry that came
  after it;
- `dispatch_serialized`: one worker at a time reconciles a key, and a key that is ready is reconciled after that.
-/

namespace Klights.Controllers

open List Function

variable {κ : Type} [DecidableEq κ]

inductive Task (κ : Type)
  /-- `add`: the key is inserted into the ready set. -/
  | enqueueing (key : κ)
  /-- `add`: the key gets a new generation. -/
  | adding (key : κ)
  /-- `add_after`: a generation is taken. -/
  | retrying (key : κ)
  /-- `add_after`: the generation is registered. -/
  | allocated (key : κ) (generation : Nat)
  /-- The timer of `add_after` fires. -/
  | waiting (key : κ) (generation : Nat)
  /-- `take`: the key is removed from the ready set. -/
  | taking (key : κ)
  /-- A worker has the key: `begin_key_dispatch`. -/
  | taken (key : κ)
  /-- The key is being reconciled: `finish_key_dispatch`. -/
  | reconciling (key : κ)
  deriving DecidableEq

inductive Event (κ : Type)
  | took (key : κ)
  | began (key : κ)
  deriving DecidableEq

structure Sys (κ : Type) where
  ready : Finset κ
  delayedGenerations : κ → Option Nat
  nextGen : Nat
  inFlight : Finset κ
  pendingFollowup : Finset κ
  tasks : Nat → Option (Task κ)
  log : List (Event κ)

open Sys

def Sys.empty : Sys κ := ⟨∅, fun _ => none, 1, ∅, ∅, fun _ => none, []⟩

inductive Call (κ : Type)
  | add (key : κ)
  | addAfter (key : κ)
  | take (key : κ)

def Call.task : Call κ → Task κ
  | .add key => .enqueueing key
  | .addAfter key => .retrying key
  | .take key => .taking key

inductive Action (κ : Type)
  | call (i : Nat) (call : Call κ)
  | addBatch (keys : List κ)
  | resume (i : Nat)

def Sys.bump (s : Sys κ) (key : κ) : Sys κ :=
  { s with
    delayedGenerations := Function.update s.delayedGenerations key (some s.nextGen)
    nextGen := (s.nextGen + 1) % 2 ^ 64 }

def Sys.addBatch (s : Sys κ) (keys : List κ) : Sys κ :=
  keys.foldl (fun s key => { s with ready := insert key s.ready }.bump key) s

def Sys.write (s : Sys κ) : Task κ → Sys κ
  | .enqueueing key => { s with ready := insert key s.ready }
  | .adding key => s.bump key
  | .retrying _ => { s with nextGen := (s.nextGen + 1) % 2 ^ 64 }
  | .allocated key generation =>
    { s with delayedGenerations := Function.update s.delayedGenerations key (some generation) }
  | .waiting key generation =>
    if s.delayedGenerations key = some generation then
      { s with delayedGenerations := Function.update s.delayedGenerations key none }
    else s
  | .taking key => if key ∈ s.ready then { s with ready := s.ready.erase key, log := .took key :: s.log } else s
  | .taken key =>
    if key ∈ s.inFlight then { s with pendingFollowup := insert key s.pendingFollowup }
    else { s with inFlight := insert key s.inFlight, log := .began key :: s.log }
  | .reconciling key =>
    { s with inFlight := s.inFlight.erase key, pendingFollowup := s.pendingFollowup.erase key }

def Sys.next (s : Sys κ) : Task κ → Option (Task κ)
  | .enqueueing key => some (.adding key)
  | .adding _ => none
  | .retrying key => some (.allocated key s.nextGen)
  | .allocated key generation => some (.waiting key generation)
  | .waiting key generation => if s.delayedGenerations key = some generation then some (.enqueueing key) else none
  | .taking key => if key ∈ s.ready then some (.taken key) else none
  | .taken key => if key ∈ s.inFlight then none else some (.reconciling key)
  | .reconciling key => if key ∈ s.pendingFollowup then some (.enqueueing key) else none

def Sys.resume (s : Sys κ) (i : Nat) (task : Task κ) : Sys κ :=
  { s.write task with tasks := Function.update s.tasks i (s.next task) }

/-- A call on a task that is under way, or a task that is over, changes nothing. -/
def Sys.step (s : Sys κ) : Action κ → Sys κ
  | .call i call => if s.tasks i = none then s.resume i call.task else s
  | .addBatch keys => s.addBatch keys
  | .resume i => (s.tasks i).elim s (s.resume i)

section Steps

variable {s : Sys κ} {i j : Nat} {key : κ} {task : Task κ} {a : Action κ}

theorem addBatch_spec (ks : List κ) (s : Sys κ) : (s.addBatch ks).tasks = s.tasks ∧ (s.addBatch ks).log = s.log ∧
    (s.addBatch ks).inFlight = s.inFlight ∧ (s.addBatch ks).pendingFollowup = s.pendingFollowup ∧
    ∀ key, (key ∈ (s.addBatch ks).ready ↔ key ∈ ks ∨ key ∈ s.ready) ∧
      (key ∉ ks → (s.addBatch ks).delayedGenerations key = s.delayedGenerations key) := by
  induction ks generalizing s with
  | nil => simp [addBatch]
  | cons fst ks ih =>
    obtain ⟨hts, hl, hf, hp, hks⟩ := ih ({ s with ready := insert fst s.ready }.bump fst)
    refine ⟨hts, hl, hf, hp, fun key => ⟨?_, fun hm => ?_⟩⟩
    · rw [addBatch, foldl_cons, ← addBatch, (hks key).1]
      simp only [bump, Finset.mem_insert, mem_cons]
      tauto
    · simp only [mem_cons, not_or] at hm
      rw [addBatch, foldl_cons, ← addBatch, (hks key).2 hm.2]
      simp [bump, update_of_ne hm.1]

theorem step_cases (s : Sys κ) (a : Action κ) :
    s.step a = s ∨ (∃ ks, s.step a = s.addBatch ks) ∨ ∃ i task, s.step a = s.resume i task ∧
      (s.tasks i = some task ∨ s.tasks i = none ∧ ∃ call, a = .call i call ∧ task = call.task) := by
  cases a with
  | call i call =>
    by_cases hf : s.tasks i = none
    · exact .inr (.inr ⟨i, call.task, by simp [step, hf], .inr ⟨hf, call, rfl, rfl⟩⟩)
    · exact .inl (by simp [step, hf])
  | addBatch ks => exact .inr (.inl ⟨ks, rfl⟩)
  | resume i =>
    cases ht : s.tasks i with
    | none => exact .inl (by simp [step, ht])
    | some task => exact .inr (.inr ⟨i, task, by simp [step, ht], .inl ht⟩)

theorem log_step (s : Sys κ) (a : Action κ) : s.log <:+ (s.step a).log := by
  rcases step_cases s a with h | ⟨ks, h⟩ | ⟨i, task, h, -⟩
  · rw [h]
  · rw [h, (addBatch_spec ks s).2.1]
  · rw [h]
    cases task <;> simp only [resume, write, bump] <;> (try split) <;> simp

theorem count_step (s : Sys κ) (a : Action κ) (event : Event κ) : s.log.count event ≤ (s.step a).log.count event :=
  (log_step s a).sublist.count_le event

theorem count_run (s : Sys κ) (ac : List (Action κ)) (event : Event κ) :
    s.log.count event ≤ (ac.foldl step s).log.count event := by
  induction ac generalizing s with
  | nil => exact le_rfl
  | cons a tl ih => exact (count_step s a event).trans (ih (s.step a))

theorem ready_step (h : key ∈ s.ready) (a : Action κ) : key ∈ (s.step a).ready ∨
    ((∃ i, (s.step a).tasks i = some (.taken key)) ∧ (s.step a).log = .took key :: s.log) := by
  rcases step_cases s a with heq | ⟨ks, heq⟩ | ⟨i, task, heq, -⟩ <;> rw [heq]
  · exact .inl h
  · exact .inl (((addBatch_spec ks s).2.2.2.2 key).1.2 (.inr h))
  · cases task with
    | taking o =>
      rcases eq_or_ne o key with rfl | ho
      · exact .inr ⟨⟨i, by simp [Sys.resume, Sys.next, h]⟩, by simp [Sys.resume, Sys.write, h]⟩
      · refine .inl ?_
        simp only [resume, write]
        split <;> simp [h, Ne.symm ho]
    | _ =>
      refine .inl ?_
      simp only [resume, write, bump]
      (try split) <;> simp [h]

theorem tasks_kept (h : s.tasks i = some task) (a : Action κ) :
    (s.step a).tasks i = some task ∨ s.step a = s.resume i task := by
  rcases step_cases s a with heq | ⟨ks, heq⟩ | ⟨j, o, heq, ho⟩ <;> rw [heq]
  · exact .inl h
  · exact .inl (by rw [(addBatch_spec ks s).1, h])
  · rcases eq_or_ne i j with rfl | hij
    · simp only [h, Option.some.injEq, reduceCtorEq, false_and, or_false] at ho
      exact .inr (by rw [ho])
    · exact .inl (by simp [resume, hij, h])

end Steps

/-! ## Retries -/

section Retries

variable {s : Sys κ} {i b : Nat} {key : κ} {generation : Nat}

def Sys.Due (s : Sys κ) (base : Nat) (key : κ) : Prop := key ∈ s.ready ∨ base < s.log.count (.took key)

theorem due_step (hb : b ≤ s.log.count (.took key)) (h : s.Due b key) (a : Action κ) : (s.step a).Due b key := by
  rcases h with hr | htook
  · refine (ready_step hr a).imp_right fun htk => ?_
    rw [htk.2, count_cons_self]
    omega
  · exact .inr (Nat.lt_of_lt_of_le htook (count_step s a _))

/-- A task that is not about to raise or fire the generation of the key. -/
def Task.Harmless (key : κ) (generation : Nat) (task : Task κ) : Prop :=
  task ≠ .adding key ∧ task ≠ .retrying key ∧ (∀ other, task ≠ .allocated key other) ∧ task ≠ .waiting key generation

/-- The retry is registered, or its timer has fired, or the key is due. -/
def RetryKept (i base : Nat) (key : κ) (generation : Nat) (s : Sys κ) : Prop :=
  s.Due base key ∨ s.tasks i = some (.enqueueing key) ∨
    (s.tasks i = some (.waiting key generation) ∧ s.delayedGenerations key = some generation ∧
      ∀ j ≠ i, ∀ task, s.tasks j = some task → task.Harmless key generation)

/-- A harmless section makes the key ready, or leaves its generation and stays harmless. -/
theorem Task.Harmless.resume {task : Task κ} (h : task.Harmless key generation)
    (hg : s.delayedGenerations key = some generation) : key ∈ (s.write task).ready ∨
      ((s.write task).delayedGenerations key = some generation ∧
        ∀ t', s.next task = some t' → t'.Harmless key generation) := by
  obtain ⟨hd, hr, ha, hw⟩ := h
  cases task <;> simp only [Sys.write, Sys.next, Sys.bump] <;> (try split) <;>
    simp only [Task.Harmless, update_apply] <;> grind

section

variable (hb : b ≤ s.log.count (.took key)) (h : RetryKept i b key generation s)
include hb h

theorem RetryKept.step {a : Action κ} (ha : ∀ j, a ≠ .call j (.addAfter key)) :
    RetryKept i b key generation (s.step a) := by
  rcases h with hd | hfir | ⟨hw, hg, ho⟩
  · exact .inl (due_step hb hd a)
  · rcases tasks_kept hfir a with hk | hown
    · exact .inr (.inl hk)
    · exact .inl (.inl (by simp [hown, Sys.resume, Sys.write]))
  rcases tasks_kept hw a with hk | hown
  · rcases step_cases s a with heq | ⟨keys, heq⟩ | ⟨j, task, heq, ht⟩ <;> rw [heq] at hk ⊢
    · exact .inr (.inr ⟨hk, hg, ho⟩)
    · obtain ⟨hts, -, -, -, hks⟩ := addBatch_spec keys s
      by_cases hm : key ∈ keys
      · exact .inl (.inl ((hks key).1.2 (.inl hm)))
      · exact .inr (.inr ⟨hk, ((hks key).2 hm).trans hg, by rwa [hts]⟩)
    · have hj : j ≠ i := by
        rintro rfl
        simp only [hw, Option.some.injEq, reduceCtorEq, false_and, or_false] at ht
        simp [← ht, Sys.resume, Sys.next, hg] at hk
      have hh : task.Harmless key generation := by
        rcases ht with ht | ⟨-, call, rfl, rfl⟩
        · exact ho j hj task ht
        · cases call <;> grind [Task.Harmless, Call.task]
      rcases hh.resume hg with hr | ⟨hs, hnx⟩
      · exact .inl (.inl hr)
      · refine .inr (.inr ⟨hk, hs, fun j' hj' t' ht' => ?_⟩)
        simp only [Sys.resume, update_apply] at ht'
        split at ht'
        · exact hnx t' ht'
        · exact ho j' hj' t' ht'
  · exact .inr (.inl (by simp [hown, Sys.resume, Sys.next, hg]))

theorem RetryKept.run {ac : List (Action κ)} (hc : ∀ j, .call j (.addAfter key) ∉ ac) :
    RetryKept i b key generation (ac.foldl Sys.step s) := by
  induction ac generalizing s with
  | nil => exact h
  | cons a tl ih =>
    have hnx : RetryKept i b key generation (s.step a) := h.step hb fun j hj => hc j (by simp [hj])
    exact ih (hb.trans (count_step s a _)) hnx fun j hj => hc j (by simp [hj])

end

end Retries

/-- A retry of a key registers its generation. If nothing else is about to raise or fire that generation, and no other
retry of the key starts, the key is ready once the timer has fired, or was taken since. -/
theorem retry_not_lost (s : Sys κ) (i : Nat) (key : κ) (generation : Nat) (actions : List (Action κ))
    (hallocated : s.tasks i = some (.allocated key generation))
    (hothers : ∀ j ≠ i, ∀ task, s.tasks j = some task → task.Harmless key generation)
    (hactions : ∀ j, .call j (.addAfter key) ∉ actions)
    (hdone : ((.resume i :: actions).foldl Sys.step s).tasks i = none) :
    key ∈ ((.resume i :: actions).foldl Sys.step s).ready ∨
      s.log.count (.took key) < ((.resume i :: actions).foldl Sys.step s).log.count (.took key) := by
  have hs : RetryKept i (s.log.count (.took key)) key generation (s.step (.resume i)) := by
    refine .inr (.inr ?_)
    simp only [Sys.step, hallocated, Option.elim, Sys.resume, Sys.write, Sys.next, update_self, true_and]
    intro j hj task ht
    rw [update_of_ne hj] at ht
    exact hothers j hj task ht
  have he := hs.run (count_step s _ _) hactions
  simpa [RetryKept, Sys.Due, ← foldl_cons, hdone] using he

theorem retry_not_lost_fired :
    7 ∈ ([.resume 0, .resume 0, .resume 0, .resume 0].foldl step (empty.step (.call 0 (.addAfter 7)))).ready ∨
      (0 : Nat) < ([.resume 0, .resume 0, .resume 0, .resume 0].foldl step
        (empty.step (.call 0 (.addAfter 7)))).log.count (.took 7) := by
  refine retry_not_lost _ 0 7 1 [.resume 0, .resume 0, .resume 0] rfl ?_ (by simp) rfl
  intro j hj
  simp [step, resume, empty, hj]

/-- An `add` makes the key ready and is held up. The key is taken, its reconcile fails, and a retry is registered. Then
the `add` raises the generation, and the timer of the retry does nothing: the key is not ready and was not taken again.
-/
theorem add_cancels_retry :
    let before : List (Action Nat) := [.call 0 (.add 7), .call 1 (.take 7), .call 2 (.addAfter 7)]
    let s := [.resume 2, .resume 0, .resume 2].foldl step (before.foldl step empty)
    s.tasks 2 = none ∧ 7 ∉ s.ready ∧ s.log.count (.took 7) = (before.foldl step empty).log.count (.took 7) := by
  decide

/-! ## Dispatch -/

/-- A key in flight is being reconciled by one worker, and only such keys are marked for a follow-up. -/
structure Serialized (s : Sys κ) : Prop where
  flight : ∀ key, key ∈ s.inFlight ↔ ∃ i, s.tasks i = some (.reconciling key)
  one : ∀ i j key, s.tasks i = some (.reconciling key) → s.tasks j = some (.reconciling key) → i = j
  followup : s.pendingFollowup ⊆ s.inFlight

section Dispatch

variable {s : Sys κ} {i : Nat} {key : κ} {task : Task κ}

theorem reconciling_resume (j : Nat) : (s.resume i task).tasks j = some (.reconciling key) ↔
    (j = i ∧ s.next task = some (.reconciling key)) ∨ (j ≠ i ∧ s.tasks j = some (.reconciling key)) := by
  rcases eq_or_ne j i with rfl | hj
  · simp [resume]
  · simp [resume, hj]

theorem Serialized.resume (h : Serialized s) (ho : ∀ key, s.tasks i ≠ some (.reconciling key))
    (hx : ∀ key, s.next task ≠ some (.reconciling key)) (hf : (s.write task).inFlight = s.inFlight)
    (hfo : (s.write task).pendingFollowup ⊆ s.inFlight) : Serialized (s.resume i task) := by
  have heq : ∀ j key, (s.resume i task).tasks j = some (.reconciling key) ↔ s.tasks j = some (.reconciling key) := by
    intro j key
    rw [reconciling_resume]
    grind
  refine ⟨fun key => ?_, fun j j' key hj hj' => ?_, by simpa [Sys.resume, hf] using hfo⟩
  · change key ∈ (s.write task).inFlight ↔ _
    simp [heq, hf, h.flight]
  · exact h.one j j' key ((heq j key).1 hj) ((heq j' key).1 hj')

theorem Serialized.start (h : Serialized s) (hk : key ∉ s.inFlight) (ht : s.tasks i = some (.taken key)) :
    Serialized (s.resume i (.taken key)) := by
  have hno := fun j => mt (fun hj => (h.flight key).2 ⟨j, hj⟩) hk
  refine ⟨fun o => ?_, fun j j' o hj hj' => ?_, fun o ho => ?_⟩
  · simp only [reconciling_resume]
    simp only [Sys.next, Sys.resume, Sys.write, hk, if_false, Finset.mem_insert, h.flight, exists_or, exists_eq_left]
    grind
  · have hn := h.one j j' o
    simp only [reconciling_resume, Sys.next, hk, if_false] at hj hj'
    grind
  · simp only [Sys.resume, Sys.write, hk, if_false] at ho ⊢
    exact Finset.mem_insert_of_mem (h.followup ho)

theorem Serialized.finish (h : Serialized s) (ht : s.tasks i = some (.reconciling key)) :
    Serialized (s.resume i (.reconciling key)) := by
  have ho := h.one i
  refine ⟨fun o => ?_, fun j j' o hj hj' => ?_, Finset.erase_subset_erase key h.followup⟩
  · simp only [reconciling_resume]
    simp only [Sys.next, Sys.resume, Sys.write, Finset.mem_erase, h.flight]
    grind
  · have ha := h.one j j' o
    simp only [reconciling_resume, Sys.next] at hj hj'
    grind

theorem Serialized.step (h : Serialized s) (a : Action κ) : Serialized (s.step a) := by
  rcases step_cases s a with heq | ⟨ks, heq⟩ | ⟨i, task, heq, ht⟩ <;> rw [heq]
  · exact h
  · obtain ⟨hts, -, hf, hp, -⟩ := addBatch_spec ks s
    exact ⟨by rw [hts, hf]; exact h.flight, by rw [hts]; exact h.one, by rw [hp, hf]; exact h.followup⟩
  rcases ht with ht | ⟨hr, ca, -, rfl⟩
  · cases task with
    | reconciling key => exact h.finish ht
    | taken key =>
      by_cases hk : key ∈ s.inFlight
      · exact h.resume (by simp [ht]) (by simp [Sys.next, hk]) (by simp [Sys.write, hk])
          (by simp [Sys.write, hk, Finset.insert_subset_iff, h.followup])
      · exact h.start hk ht
    | _ =>
      refine h.resume (by simp [ht]) ?_ ?_ ?_ <;> simp only [Sys.next, Sys.write, Sys.bump] <;> (try split) <;>
        simp [h.followup]
  · -- no call starts with a reconcile
    refine h.resume (by simp [hr]) ?_ ?_ ?_ <;> cases ca <;> simp only [Call.task, Sys.next, Sys.write] <;>
      (try split) <;> simp [h.followup]

theorem serialized_run (ac : List (Action κ)) (h : Serialized s) : Serialized (ac.foldl step s) := by
  induction ac generalizing s with
  | nil => exact h
  | cons a tl ih => exact ih (h.step a)

/-- The key is on its way to a worker: ready, taken, about to be added again, or marked for a follow-up. -/
def Sys.Queued (s : Sys κ) (key : κ) : Prop :=
  key ∈ s.ready ∨ key ∈ s.pendingFollowup ∨ ∃ i, s.tasks i = some (.taken key) ∨ s.tasks i = some (.enqueueing key)

/-- A key marked for a follow-up is added again by the worker that clears the mark. -/
theorem pending_step (h : key ∈ s.pendingFollowup) (a : Action κ) : (s.step a).Queued key := by
  rcases step_cases s a with heq | ⟨ks, heq⟩ | ⟨i, task, heq, -⟩ <;> rw [heq]
  · exact .inr (.inl h)
  · exact .inr (.inl (by rwa [(addBatch_spec ks s).2.2.2.1]))
  · by_cases ho : task = .reconciling key
    · exact .inr (.inr ⟨i, .inr (by simp [ho, Sys.resume, Sys.next, h])⟩)
    · refine .inr (.inl ?_)
      cases task <;> simp only [resume, write, bump] <;> (try split) <;> grind

theorem Sys.Queued.step (h : s.Queued key) (a : Action κ) :
    (s.step a).Queued key ∨ s.log.count (.began key) < (s.step a).log.count (.began key) := by
  rcases h with hr | hpend | ⟨i, ht⟩
  · exact .inl ((ready_step hr a).imp_right fun htk => .inr (htk.1.imp fun _ => .inl))
  · exact .inl (pending_step hpend a)
  rcases ht with htk | hadd
  · rcases tasks_kept htk a with hk | hown
    · exact .inl (.inr (.inr ⟨i, .inl hk⟩))
    · -- the worker begins, or leaves a mark
      rw [hown]
      by_cases he : key ∈ s.inFlight <;> simp [Sys.Queued, resume, write, he]
  · rcases tasks_kept hadd a with hk | hown
    · exact .inl (.inr (.inr ⟨i, .inr hk⟩))
    · exact .inl (.inl (by simp [hown, resume, write]))

theorem Sys.Queued.run (h : s.Queued key) (ac : List (Action κ)) : (ac.foldl Sys.step s).Queued key ∨
    s.log.count (.began key) < (ac.foldl Sys.step s).log.count (.began key) := by
  induction ac using List.reverseRecOn with
  | nil => exact .inl h
  | append_singleton tl a ih =>
    rw [foldl_append, foldl_cons, foldl_nil]
    rcases ih with hq | hbeg
    · exact (hq.step a).imp_right (Nat.lt_of_le_of_lt (count_run s tl _))
    · exact .inr (Nat.lt_of_lt_of_le hbeg (count_step _ a _))

end Dispatch

end Klights.Controllers
