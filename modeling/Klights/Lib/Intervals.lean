import Mathlib.Algebra.Order.Group.Int
import Mathlib.Tactic.Common

/-!
# Runs of consecutive integers

A list of integers as the first and last members of its runs of consecutive members, which is how sets of numbers are
written as text.

- `consecutiveRuns`, `mem_consecutiveRuns`: the runs hold the members of the list and no others;
- `ends_mem`: a run starts and ends at a member;
- `pairwise_consecutiveRuns`: the runs of an ascending list ascend and do not touch.
-/

namespace Klights.Lib

open List

def runsFrom (first last : Int) : List Int → List (Int × Int)
  | [] => [(first, last)]
  | value :: rest =>
    if value = last + 1 then runsFrom first value rest else (first, last) :: runsFrom value value rest

def consecutiveRuns : List Int → List (Int × Int)
  | [] => []
  | value :: rest => runsFrom value value rest

theorem mem_runsFrom {x : Int} : ∀ {first l : Int} (tl : List Int), first ≤ l →
    ((∃ r ∈ runsFrom first l tl, r.1 ≤ x ∧ x ≤ r.2) ↔ (first ≤ x ∧ x ≤ l) ∨ x ∈ tl)
  | first, l, [], _ => by simp [runsFrom]
  | first, l, value :: tl, hle => by
    unfold runsFrom
    split
    · rename_i hnx
      subst hnx
      -- the run grows by its next member
      rw [mem_runsFrom tl (by omega), mem_cons]
      constructor
      · rintro (hrun | hmem)
        · by_cases hx : x = l + 1
          · exact .inr (.inl hx)
          · exact .inl ⟨hrun.1, by omega⟩
        · exact .inr (.inr hmem)
      · rintro (hrun | rfl | hmem)
        · exact .inl ⟨hrun.1, by omega⟩
        · exact .inl ⟨by omega, le_rfl⟩
        · exact .inr hmem
    · have ih := mem_runsFrom (x := x) tl (Int.le_refl value)
      simp only [mem_cons, exists_eq_or_imp, ih]
      constructor
      · rintro (hrun | hrun | hmem)
        · exact .inl hrun
        · exact .inr (.inl (by omega))
        · exact .inr (.inr hmem)
      · rintro (hrun | rfl | hmem)
        · exact .inl hrun
        · exact .inr (.inl ⟨le_rfl, le_rfl⟩)
        · exact .inr (.inr hmem)

theorem mem_consecutiveRuns {x : Int} (values : List Int) :
    (∃ r ∈ consecutiveRuns values, r.1 ≤ x ∧ x ≤ r.2) ↔ x ∈ values := by
  cases values with
  | nil => simp [consecutiveRuns]
  | cons v tl =>
    rw [consecutiveRuns, mem_runsFrom tl (Int.le_refl v), mem_cons]
    constructor
    · rintro (hr | hmem)
      · exact .inl (by omega)
      · exact .inr hmem
    · rintro (rfl | hmem)
      · exact .inl ⟨le_rfl, le_rfl⟩
      · exact .inr hmem

theorem ends_mem_runsFrom {r : Int × Int} : ∀ {first l : Int} (tl : List Int), first ≤ l → r ∈ runsFrom first l tl →
    r.1 ≤ r.2 ∧ (r.1 = first ∨ r.1 ∈ tl) ∧ (r.2 = l ∨ r.2 ∈ tl)
  | first, l, [], hle, hrun => by
    obtain rfl := mem_singleton.1 hrun
    exact ⟨hle, .inl rfl, .inl rfl⟩
  | first, l, value :: tl, hle, hrun => by
    unfold runsFrom at hrun
    split at hrun
    · rename_i hnx
      obtain ⟨ho, hf1, hla⟩ := ends_mem_runsFrom tl (by omega) hrun
      exact ⟨ho, hf1.imp id (mem_cons_of_mem _), .inr (mem_cons.2 hla)⟩
    · rcases mem_cons.1 hrun with rfl | hrun
      · exact ⟨hle, .inl rfl, .inl rfl⟩
      · obtain ⟨ho, hf1, hla⟩ := ends_mem_runsFrom tl (Int.le_refl value) hrun
        exact ⟨ho, .inr (mem_cons.2 hf1), .inr (mem_cons.2 hla)⟩

theorem ends_mem {r : Int × Int} {values : List Int} (h : r ∈ consecutiveRuns values) :
    r.1 ≤ r.2 ∧ r.1 ∈ values ∧ r.2 ∈ values := by
  cases values with
  | nil => cases h
  | cons v tl =>
    obtain ⟨ho, hf1, hla⟩ := ends_mem_runsFrom tl (Int.le_refl v) h
    exact ⟨ho, mem_cons.2 hf1, mem_cons.2 hla⟩

theorem pairwise_runsFrom : ∀ {first l : Int} (tl : List Int), first ≤ l → (l :: tl).Pairwise (· < ·) →
    (runsFrom first l tl).Pairwise (fun a b => a.2 + 1 < b.1) ∧ ∀ r ∈ runsFrom first l tl, first ≤ r.1
  | first, l, [], _, _ => by simp [runsFrom]
  | first, l, value :: tl, hle, hs => by
    obtain ⟨hlt, hr⟩ := pairwise_cons.1 hs
    have hn := hlt value mem_cons_self
    unfold runsFrom
    split
    · exact pairwise_runsFrom tl (by omega) hr
    · obtain ⟨hpw, hf⟩ := pairwise_runsFrom tl (Int.le_refl value) hr
      refine ⟨pairwise_cons.2 ⟨fun r hu => ?_, hpw⟩, forall_mem_cons.2 ⟨le_rfl, fun r hu => ?_⟩⟩
      · have hv := hf r hu
        show l + 1 < r.1
        omega
      · have hv := hf r hu
        omega

theorem pairwise_consecutiveRuns {vs : List Int} (h : vs.Pairwise (· < ·)) :
    (consecutiveRuns vs).Pairwise fun a b => a.2 + 1 < b.1 := by
  cases vs with
  | nil => exact .nil
  | cons v tl => exact (pairwise_runsFrom tl (Int.le_refl v) h).1

end Klights.Lib
