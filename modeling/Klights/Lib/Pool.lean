import Mathlib.Data.Finset.Basic

/-!
# Pools and their holders

A pool of numbers between two bounds, some of them taken, of which the first free one is handed out (`Pool.next`).

What keeps the holders of a pool apart is `Owned taken holds`: no two holders have an element in common, and all that
they have is taken. A holder may have other elements that are taken and that no one else has (`Owned.assign`). So it is
kept when a holder has less (`Owned.shrink`), when it is given a free element (`Owned.give`) and when it passes what it
has to another (`Owned.move`); and when an element that no one has is freed (`Owned.free`) or the taken elements are
counted anew with all that is held (`Owned.recount`).
-/

namespace Klights.Lib

open Function Finset

/-! ## Pools -/

/-- The numbers from `first` to `last`, and those of them that are taken. -/
structure Pool where
  first : Nat
  last : Nat
  taken : Finset Nat

namespace Pool

variable {p : Pool} {n : Nat}

/-- The first number that is not taken. -/
def next (pool : Pool) : Option Nat :=
  (List.range' pool.first (pool.last + 1 - pool.first)).find? fun n => n ∉ pool.taken

theorem next_free (h : p.next = some n) : n ∉ p.taken := by
  have hf := List.find?_some h
  exact of_decide_eq_true hf

theorem next_le_last (h : p.next = some n) : n ≤ p.last := by
  have hm := List.mem_of_find?_eq_some h
  rw [List.mem_range'_1] at hm
  omega

end Pool

/-! ## Holders -/

/-- The holders of taken elements: no two have one in common, and all that they have is taken. -/
structure Owned {ι α : Type} (taken : Finset α) (holds : ι → Finset α) : Prop where
  exclusive : ∀ i j, i ≠ j → Disjoint (holds i) (holds j)
  covered : ∀ i, holds i ⊆ taken

namespace Owned

variable {ι α : Type} {ta m hs : Finset α} {holds : ι → Finset α} {a : α}

/-- The taken elements are counted anew, with all that is held. -/
theorem recount (h : Owned ta holds) (ho : ∀ i, holds i ⊆ m) : Owned m holds := ⟨h.exclusive, ho⟩

theorem free [DecidableEq α] (h : Owned ta holds) (ha : ∀ i, a ∉ holds i) : Owned (ta.erase a) holds where
  exclusive := h.exclusive
  covered i := subset_erase.2 ⟨h.covered i, ha i⟩

variable [DecidableEq ι]

/-- A holder has taken elements that no one else has. -/
theorem assign (h : Owned ta holds) {i : ι} (hc : hs ⊆ ta) (ha : ∀ k, k ≠ i → Disjoint hs (holds k)) :
    Owned ta (Function.update holds i hs) where
  exclusive := by
    intro j k hjk
    rcases eq_or_ne j i with rfl | hj
    · rw [update_self, update_of_ne hjk.symm]
      exact ha k hjk.symm
    · rw [update_of_ne hj]
      rcases eq_or_ne k i with rfl | hk
      · rw [update_self]
        exact (ha j hj).symm
      · rw [update_of_ne hk]
        exact h.exclusive j k hjk
  covered := by
    intro k
    rcases eq_or_ne k i with rfl | hk
    · rwa [update_self]
    · rw [update_of_ne hk]
      exact h.covered k

theorem shrink (h : Owned ta holds) {i : ι} (ht : hs ⊆ holds i) : Owned ta (Function.update holds i hs) :=
  h.assign (ht.trans (h.covered i)) fun k hk => (h.exclusive i k hk.symm).mono_left ht

theorem give [DecidableEq α] (h : Owned ta holds) (ha : a ∉ ta) {i : ι} (ho : hs ⊆ insert a (holds i)) :
    Owned (insert a ta) (Function.update holds i hs) := by
  have hc : Owned (insert a ta) holds := h.recount fun k => (h.covered k).trans (subset_insert a ta)
  refine hc.assign (ho.trans (insert_subset_insert a (h.covered i))) fun k hk => ?_
  -- nobody has what is not taken
  have hn : a ∉ holds k := fun hm => ha (h.covered k hm)
  exact (disjoint_insert_left.2 ⟨hn, h.exclusive i k hk.symm⟩).mono_left ho

theorem move (h : Owned ta holds) {i j : ι} (ht : hs ⊆ holds i) :
    Owned ta (Function.update (Function.update holds i ∅) j hs) := by
  refine (h.shrink (empty_subset (holds i))).assign (ht.trans (h.covered i)) fun k _ => ?_
  rcases eq_or_ne k i with rfl | hk
  · rw [update_self]
    exact disjoint_empty_right hs
  · rw [update_of_ne hk]
    exact (h.exclusive i k (Ne.symm hk)).mono_left ht

end Owned

end Klights.Lib
