import Mathlib

/-!
# Taking a budget from counts

A budget is taken from the counts of a list of places, in the order of the list: each place gives what it has, until the
budget is used up.

- `drain_of_notMem`, `drain_le`, `drain_nonneg`: places that are not listed keep their counts, and no place gives more
  than it has;
- `sum_drain`: what is left in total.
-/

namespace Klights.Lib

open Finset List Function

variable {ι : Type} [DecidableEq ι]

/-- What is left of the counts after a budget was taken from the places of a list. -/
def drain (counts : ι → Int) (budget : Int) : List ι → ι → Int
  | [] => counts
  | place :: rest =>
    drain (Function.update counts place (counts place - min budget (counts place))) (budget - min budget (counts place))
      rest

variable {counts co : ι → Int} {bu : Int} {p : List ι} {i : ι}

theorem drain_of_notMem (h : i ∉ p) : drain co bu p i = co i := by
  induction p generalizing co bu with
  | nil => rfl
  | cons pl tl ih =>
    obtain ⟨hne, hr⟩ := not_or.1 (mt List.mem_cons.2 h)
    rw [drain, ih hr, update_of_ne hne]

theorem given_nonneg (hc : ∀ j, 0 ≤ co j) (pl : ι) : ∀ j, 0 ≤ Function.update co pl (co pl - min bu (co pl)) j := by
  intro j
  by_cases hj : j = pl
  · subst hj
    rw [update_self]
    omega
  · rw [update_of_ne hj]
    exact hc j

theorem drain_le (hb : 0 ≤ bu) (hc : ∀ j, 0 ≤ co j) : drain co bu p i ≤ co i := by
  induction p generalizing co bu with
  | nil => exact le_rfl
  | cons pl tl ih =>
    have htk : 0 ≤ min bu (co pl) := le_min hb (hc pl)
    refine (ih (by omega) (given_nonneg hc pl)).trans ?_
    by_cases hi : i = pl
    · subst hi
      rw [update_self]
      omega
    · rw [update_of_ne hi]

theorem drain_nonneg (hc : ∀ j, 0 ≤ co j) : 0 ≤ drain co bu p i := by
  induction p generalizing co bu with
  | nil => exact hc i
  | cons pl tl ih => exact ih (given_nonneg hc pl)

theorem sum_drain {all : Finset ι} (hp : ∀ pl ∈ p, pl ∈ all) (hnd : p.Nodup) (hb : 0 ≤ bu) (hc : ∀ j, 0 ≤ counts j) :
    ∑ j ∈ all, drain counts bu p j = ∑ j ∈ all, counts j - min bu (p.map counts).sum := by
  induction p generalizing counts bu with
  | nil => simp [drain, hb]
  | cons pl tl ih =>
    obtain ⟨ho, hr⟩ := nodup_cons.1 hnd
    set taken := min bu (counts pl) with htk
    -- the rest has not been touched yet
    have heq : tl.map (Function.update counts pl (counts pl - taken)) = tl.map counts := by
      refine map_congr_left fun j hj => update_of_ne ?_ _ _
      rintro rfl
      exact ho hj
    have hm : pl ∈ all := hp pl mem_cons_self
    have hs : ∑ j ∈ all, Function.update counts pl (counts pl - taken) j = ∑ j ∈ all, counts j - taken := by
      rw [sum_update_of_mem hm, ← add_sum_erase all counts hm, Finset.sdiff_singleton_eq_erase]
      omega
    have hlf : 0 ≤ (tl.map counts).sum := sum_nonneg fun n hn => by
      obtain ⟨j, -, rfl⟩ := mem_map.1 hn
      exact hc j
    rw [drain, ih (fun j hj => hp j (mem_cons_of_mem _ hj)) hr (by omega) (given_nonneg hc pl), hs, heq,
      List.map_cons, List.sum_cons]
    omega

end Klights.Lib
