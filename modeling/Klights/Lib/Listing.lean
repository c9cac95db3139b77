import Klights.Lib.Paging
import Mathlib.Data.List.Dedup
import Mathlib.Order.WithBot

/-!
# Listing a sorted collection window by window

The entries of a collection are found through windows of candidate keys. A window may hold keys without an entry and
it may miss entries, but only behind a full window (`Window`).

- `window_take`, `window_merge`: the first keys of a sorted list are a window, and so is the merge of two windows;
- `Frontier.step`, `Frontier.done`: walking the candidates of a window, no entry lies between two of them, and none
  lies behind a window that was not full;
- `Lists.skip`, `Lists.snoc`, `Lists.take`, `Lists.append`: what a walk has collected, as ascending lists of entries.
-/

namespace Klights.Lib

open List

variable {κ β : Type} [LinearOrder κ] {k : κ} {xs ys : List κ}

/-! ## Windows -/

def Window (cap : Nat) (wanted : κ → Prop) (keys : List κ) : Prop :=
  ∀ k, wanted k → k ∈ keys ∨ (cap ≤ keys.length ∧ ∀ w ∈ keys, w < k)

/-- A row of a sorted list is among the first ones, or beyond them. -/
theorem mem_take_or_beyond {ρ : Type} {ky : ρ → κ} {rs : List ρ} (h : Ascending ky rs) (n : Nat) {ro : ρ}
    (ho : ro ∈ rs) : ro ∈ rs.take n ∨ (n ≤ (rs.take n).length ∧ ∀ r ∈ rs.take n, ky r < ky ro) := by
  rw [← take_append_drop n rs] at ho
  rcases mem_append.1 ho with hi | hout
  · exact .inl hi
  · refine .inr ⟨?_, ?_⟩
    · have hl : 0 < (rs.drop n).length := length_pos_of_mem hout
      rw [length_drop] at hl
      rw [length_take]
      omega
    · unfold Ascending at h
      rw [← take_append_drop n rs, pairwise_append] at h
      exact fun r hr => h.2.2 r hr ro hout

theorem window_take {ks : List κ} (h : Ascending id ks) (c : Nat) : Window c (· ∈ ks) (ks.take c) :=
  fun _ hk => mem_take_or_beyond h c hk

/-- With enough keys below a bound, the first keys are all below it. -/
theorem take_below : ∀ {ks : List κ} {c : Nat}, Ascending id ks →
    c ≤ (ks.filter fun w => w < k).length → ∀ w ∈ ks.take c, w < k
  | [], _, _, _, w, hw => by simp at hw
  | key :: ks, 0, _, _, w, hw => by simp at hw
  | key :: ks, c + 1, h, hc, w, hw => by
    obtain ⟨hk, he⟩ := pairwise_cons.1 h
    by_cases hlt : key < k
    · rw [filter_cons_of_pos (by simpa using hlt), length_cons] at hc
      rcases mem_cons.1 hw with rfl | hw
      · exact hlt
      · exact take_below he (by omega) w hw
    · -- the head is not below the bound, so nothing is
      have hn : ((key :: ks).filter fun w => w < k) = [] := by
        refine filter_eq_nil_iff.2 fun r hr => ?_
        rcases mem_cons.1 hr with rfl | hr
        · simpa using hlt
        · simpa using le_trans (not_lt.1 hlt) (le_of_lt (hk r hr))
      rw [hn] at hc
      simp at hc

/-- The keys of two windows in order, without repetition. -/
def mergeKeys (xs ys : List κ) : List κ := (xs ++ ys).dedup.insertionSort (· ≤ ·)

theorem mem_mergeKeys : k ∈ mergeKeys xs ys ↔ k ∈ xs ∨ k ∈ ys := by
  simp [mergeKeys, mem_insertionSort]

theorem mergeKeys_ascending (xs ys : List κ) : Ascending id (mergeKeys xs ys) := by
  refine insertionSort_strict ?_
  simpa using nodup_dedup (xs ++ ys)

/-- Keys of one part that are all below a bound leave a full merge below it. -/
theorem mergeKeys_take_below {p : List κ} (hd : p.Nodup) (ht : ∀ w ∈ p, w ∈ xs ∨ w ∈ ys) {c : Nat}
    (hc : c ≤ p.length) (hb : ∀ w ∈ p, w < k) :
    c ≤ ((mergeKeys xs ys).take c).length ∧ ∀ w ∈ (mergeKeys xs ys).take c, w < k := by
  have hs : p ⊆ (mergeKeys xs ys).filter fun w => w < k := fun w hw =>
    mem_filter.2 ⟨mem_mergeKeys.2 (ht w hw), by simpa using hb w hw⟩
  have hl : c ≤ ((mergeKeys xs ys).filter fun w => w < k).length :=
    le_trans hc ((subperm_of_subset hd hs).length_le)
  refine ⟨?_, take_below (mergeKeys_ascending xs ys) hl⟩
  have ha := length_filter_le (fun w => decide (w < k)) (mergeKeys xs ys)
  rw [length_take]
  omega

theorem window_merge {c : Nat} {wa os : κ → Prop} (hxs : Window c wa xs) (hs : Window c os ys)
    (hx : xs.Nodup) (hy : ys.Nodup) : Window c (fun k => wa k ∨ os k) ((mergeKeys xs ys).take c) := by
  intro k hk
  have ha : (k ∈ xs ∨ k ∈ ys) ∨ (c ≤ ((mergeKeys xs ys).take c).length ∧ ∀ w ∈ (mergeKeys xs ys).take c, w < k) := by
    rcases hk with hk | hk
    · rcases hxs k hk with hi | ⟨hc, hb⟩
      · exact .inl (.inl hi)
      · exact .inr (mergeKeys_take_below hx (fun w hw => .inl hw) hc hb)
    · rcases hs k hk with hi | ⟨hc, hb⟩
      · exact .inl (.inr hi)
      · exact .inr (mergeKeys_take_below hy (fun w hw => .inr hw) hc hb)
  rcases ha with hi | hbey
  · exact mem_take_or_beyond (mergeKeys_ascending xs ys) c (mem_mergeKeys.2 hi)
  · exact .inr hbey

/-! ## Walking a window -/

/-- The candidates still to walk: ascending, beyond the last one walked, and no wanted key beyond that is missed unless
it lies behind a full window. -/
structure Frontier (full : Prop) (wanted : κ → Prop) (upto : WithBot κ) (candidates : List κ) : Prop where
  ascending : Ascending id candidates
  beyond : ∀ c ∈ candidates, upto < c
  complete : ∀ k, wanted k → upto < k → k ∈ candidates ∨ (full ∧ ∀ w ∈ candidates, w < k)

variable {f : Prop} {wa : κ → Prop} {u : WithBot κ} {candidate : κ} {candidates : List κ}

theorem Frontier.step (h : Frontier f wa u (candidate :: candidates)) :
    (∀ k, wa k → u < k → candidate ≤ k) ∧ Frontier f wa (candidate : WithBot κ) candidates := by
  obtain ⟨hh, hr⟩ := pairwise_cons.1 h.ascending
  have hn : u < candidate := h.beyond candidate (by simp)
  refine ⟨fun k hk hb => ?_, hr, fun c hc => WithBot.coe_lt_coe.2 (hh c hc), fun k hk hb => ?_⟩
  · rcases h.complete k hk hb with hin | ⟨-, ha⟩
    · rcases mem_cons.1 hin with rfl | hin
      · exact le_rfl
      · exact le_of_lt (hh k hin)
    · exact le_of_lt (ha candidate (by simp))
  · rcases h.complete k hk (lt_trans hn hb) with hin | ⟨hf, ha⟩
    · rcases mem_cons.1 hin with rfl | hin
      · exact absurd hb (lt_irrefl _)
      · exact .inl hin
    · exact .inr ⟨hf, fun w hw => ha w (.tail _ hw)⟩

theorem Frontier.done (h : Frontier f wa u []) (hu : ¬f) (hk : wa k) : ¬u < k := by
  intro hb
  rcases h.complete k hk hb with hi | ⟨hy, -⟩
  · simp at hi
  · exact hu hy

/-! ## Lists of entries -/

/-- The entries, in ascending order of their keys, each once. -/
structure Lists (entry : κ → β → Prop) (entries : List (κ × β)) : Prop where
  ascending : Ascending Prod.fst entries
  mem_iff : ∀ k b, (k, b) ∈ entries ↔ entry k b

variable {e o : κ → β → Prop} {entries es os : List (κ × β)}

theorem Lists.congr (h : Lists e entries) (hi : ∀ k b, e k b ↔ o k b) : Lists o entries :=
  ⟨h.ascending, fun k b => (h.mem_iff k b).trans (hi k b)⟩

theorem Lists.append (h : Lists e es) (h' : Lists o os) (hb : ∀ k b k' b', e k b → o k' b' → k < k') :
    Lists (fun k b => e k b ∨ o k b) (es ++ os) := by
  refine ⟨pairwise_append.2 ⟨h.ascending, h'.ascending, ?_⟩, fun k b => ?_⟩
  · rintro ⟨k, b⟩ hx ⟨k', b'⟩ hy
    exact hb k b k' b' ((h.mem_iff k b).1 hx) ((h'.mem_iff k' b').1 hy)
  · rw [mem_append, h.mem_iff, h'.mem_iff]

def Between (entry : κ → β → Prop) (start upto : WithBot κ) (k : κ) (b : β) : Prop :=
  entry k b ∧ start < k ∧ k ≤ upto

variable {st : WithBot κ} {b : β}

theorem Lists.skip (h : Lists (Between e st u) entries) (ht : u < candidate)
    (hx : ∀ k b, e k b → u < k → candidate < k) : Lists (Between e st candidate) entries := by
  refine h.congr fun k b => and_congr_right fun he => and_congr_right fun _ => ?_
  refine ⟨fun hle => le_trans hle (le_of_lt ht), fun hle => not_lt.1 fun hb => ?_⟩
  exact absurd (hx k b he hb) (not_lt.2 (WithBot.coe_le_coe.1 hle))

theorem Lists.snoc (h : Lists (Between e st u) es) (ht : st ≤ u) (hl : u < candidate)
    (hn : ∀ b', e candidate b' ↔ b' = b) (hx : ∀ k b, e k b → u < k → candidate ≤ k) :
    Lists (Between e st candidate) (es ++ [(candidate, b)]) := by
  have ha : Lists (fun k b' => k = candidate ∧ b' = b) [(candidate, b)] :=
    ⟨pairwise_singleton _ _, fun k b' => by simp⟩
  refine (h.append ha ?_).congr fun k b' => ?_
  · rintro k b' k' - ⟨-, -, hle⟩ ⟨rfl, -⟩
    exact WithBot.coe_lt_coe.1 (lt_of_le_of_lt hle hl)
  · constructor
    · rintro (⟨he, hs, hle⟩ | ⟨rfl, rfl⟩)
      · exact ⟨he, hs, le_trans hle (le_of_lt hl)⟩
      · exact ⟨(hn b').2 rfl, lt_of_le_of_lt ht hl, le_rfl⟩
    · rintro ⟨he, hs, hle⟩
      rcases le_or_gt (k : WithBot κ) u with hi | hbey
      · exact .inl ⟨he, hs, hi⟩
      · have heq : k = candidate := le_antisymm (WithBot.coe_le_coe.1 hle) (hx k b' he hbey)
        subst heq
        exact .inr ⟨rfl, (hn b').1 he⟩

theorem Lists.take (h : Lists e es) {n : Nat} {l : κ × β} (ha : (es.take n).getLast? = some l) :
    Lists (fun k b => e k b ∧ k ≤ l.1) (es.take n) := by
  have hl := rows_after_take h.ascending ha
  refine ⟨List.Pairwise.sublist (take_sublist n es) h.ascending, fun k b => ?_⟩
  constructor
  · intro hi
    refine ⟨(h.mem_iff k b).1 (mem_of_mem_take hi), not_lt.1 fun hlt => ?_⟩
    -- an entry beyond the last one would be among those left over
    have hdro : (k, b) ∈ es.drop n := by
      rw [← hl]
      exact mem_filter.2 ⟨mem_of_mem_take hi, by simpa using hlt⟩
    have hasc := h.ascending
    unfold Ascending at hasc
    rw [← take_append_drop n es, pairwise_append] at hasc
    exact lt_irrefl _ (hasc.2.2 _ hi _ hdro)
  · rintro ⟨he, hle⟩
    have hi := (h.mem_iff k b).2 he
    rw [← take_append_drop n es] at hi
    rcases mem_append.1 hi with hi | hdro
    · exact hi
    · rw [← hl] at hdro
      have hlt := (mem_filter.1 hdro).2
      exact absurd hle (not_le.2 (by simpa using hlt))

end Klights.Lib
