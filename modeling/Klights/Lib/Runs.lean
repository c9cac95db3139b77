import Mathlib.Tactic.Common

/-!
# Runs of a step function

A run folds `step` over a list of inputs. `Along step P s inputs` says that `P` holds at every step, of the state the
input finds.

- `Along.invariant`: what every step keeps holds at the end;
- `Along.of_invariant`: what every step gives under an invariant holds along the run;
- `along_congr`: two properties that agree under an invariant agree along a run;
- `Along.rest`: the later part of a run.
-/

namespace Klights.Lib

variable {σ α : Type*} {step : σ → α → σ} {P Q : σ → α → Prop} {I : σ → Prop} {s : σ} {inputs : List α}

def Along (step : σ → α → σ) (P : σ → α → Prop) : σ → List α → Prop
  | _, [] => True
  | s, input :: inputs => P s input ∧ Along step P (step s input) inputs

instance Along.decidable [∀ s input, Decidable (P s input)] : ∀ s inputs, Decidable (Along step P s inputs)
  | _, [] => isTrue trivial
  | s, input :: inputs =>
    have := Along.decidable (step s input) inputs
    inferInstanceAs (Decidable (P s input ∧ Along step P (step s input) inputs))

theorem Along.imp (hi : ∀ s i, P s i → Q s i) (h : Along step P s inputs) : Along step Q s inputs := by
  induction inputs generalizing s with
  | nil => trivial
  | cons i inputs ih => exact ⟨hi s i h.1, ih h.2⟩

theorem along_of_forall (h : ∀ s i, P s i) : Along step P s inputs := by
  induction inputs generalizing s with
  | nil => trivial
  | cons i inputs ih => exact ⟨h s i, ih⟩

theorem Along.rest {b after : List α} (h : Along step P s (b ++ after)) : Along step P (b.foldl step s) after := by
  induction b generalizing s with
  | nil => exact h
  | cons input b ih => exact ih h.2

theorem Along.invariant (h : Along step P s inputs) (hs : ∀ s, ∀ i ∈ inputs, P s i → I s → I (step s i))
    (hi : I s) : I (inputs.foldl step s) := by
  induction inputs generalizing s with
  | nil => exact hi
  | cons i inputs ih =>
    have hk := hs s i List.mem_cons_self h.1 hi
    exact ih h.2 (fun s' input' hi' => hs s' input' (List.mem_cons_of_mem _ hi')) hk

theorem Along.of_invariant (h : Along step P s inputs)
    (hs : ∀ s i, P s i → I s → I (step s i) ∧ Q s i) (hi : I s) : Along step Q s inputs := by
  induction inputs generalizing s with
  | nil => trivial
  | cons i inputs ih =>
    obtain ⟨hk, hq⟩ := hs s i h.1 hi
    exact ⟨hq, ih h.2 hk⟩

theorem along_congr (hg : ∀ s, ∀ i ∈ inputs, I s → (P s i ↔ Q s i))
    (hs : ∀ s, ∀ i ∈ inputs, P s i → I s → I (step s i)) (hi : I s) :
    Along step P s inputs ↔ Along step Q s inputs := by
  induction inputs generalizing s with
  | nil => exact Iff.rfl
  | cons i inputs ih =>
    have hr := fun hf1 : P s i =>
      ih (fun s' input' hi' => hg s' input' (List.mem_cons_of_mem _ hi'))
        (fun s' input' hi' => hs s' input' (List.mem_cons_of_mem _ hi'))
        (hs s i List.mem_cons_self hf1 hi)
    have hf1 := hg s i List.mem_cons_self hi
    constructor
    · rintro ⟨hp, h⟩
      exact ⟨hf1.1 hp, (hr hp).1 h⟩
    · rintro ⟨hq, h⟩
      exact ⟨hf1.2 hq, (hr (hf1.2 hq)).2 h⟩

/-! ## Change logs

A log of events, each of which says what becomes of one key: a value, or nothing. It covers the way from one state to
another if every event says what the key is in the end, and every key without an event is what it was. -/

section ChangeLog

variable {κ τ α : Type} [DecidableEq κ] (key : τ → κ) (outcome : τ → Option α)

def replay (state : κ → Option α) (events : List τ) : κ → Option α :=
  events.foldl (fun state event => Function.update state (key event) (outcome event)) state

structure Covers (before after : κ → Option α) (events : List τ) : Prop where
  outcome : ∀ event ∈ events, outcome event = after (key event)
  untouched : ∀ k, (∀ event ∈ events, key event ≠ k) → after k = before k

variable {key outcome} {b after : κ → Option α} {e : List τ}

theorem replay_append (s : κ → Option α) (e later : List τ) :
    replay key outcome s (e ++ later) = replay key outcome (replay key outcome s e) later := by
  simp [replay]

theorem Covers.replay (h : Covers key outcome b after e) : replay key outcome b e = after := by
  induction e generalizing b with
  | nil => exact funext fun k => (h.untouched k (by simp)).symm
  | cons ev tl ih =>
    refine ih ⟨fun lat hlat => h.outcome lat (by simp [hlat]), fun k hk => ?_⟩
    show after k = Function.update b (key ev) (outcome ev) k
    by_cases hkey : k = key ev
    · subst hkey
      rw [Function.update_self, h.outcome ev (by simp)]
    · rw [Function.update_of_ne hkey]
      exact h.untouched k (List.forall_mem_cons.2 ⟨fun heq => hkey heq.symm, hk⟩)

end ChangeLog

end Klights.Lib
