import Mathlib.Tactic.Common

/-!
# Patterns with a trailing star

A pattern is a word that matches itself, or a stem followed by a star that matches every word starting with the stem.

- `starMatches`;
- `starMatches_self`: a pattern matches its own text;
- `starMatches_trans_iff`: a pattern that matches another one's text matches all its words, but for one star more.
-/

namespace Klights.Lib

open List

variable {α : Type} [DecidableEq α]

def starMatches (star : α) (pattern word : List α) : Bool :=
  if pattern.getLast? = some star then pattern.dropLast.isPrefixOf word else pattern = word

theorem starMatches_stem {sr : α} {s word : List α} : starMatches sr (s ++ [sr]) word ↔ s <+: word := by
  simp [starMatches]

theorem starMatches_word {s : α} {p word : List α} (h : p.getLast? ≠ some s) : starMatches s p word ↔ p = word := by
  simp [starMatches, h]

theorem starMatches_self (s : α) (pat : List α) : starMatches s pat pat := by
  by_cases h : pat.getLast? = some s
  · obtain ⟨st, rfl⟩ := getLast?_eq_some_iff.1 h
    exact starMatches_stem.2 (prefix_append st [s])
  · exact (starMatches_word h).2 rfl

theorem starMatches_trans_iff {s : α} {ow r : List α} (h : starMatches s ow r) :
    (∀ w, starMatches s r w → starMatches s ow w) ↔ ¬(r.getLast? = some s ∧ ow = r ++ [s]) := by
  constructor
  · rintro ha ⟨hr, rfl⟩
    obtain ⟨st, rfl⟩ := getLast?_eq_some_iff.1 hr
    -- the stem itself is too short for the longer pattern
    have hl := (starMatches_stem.1 (ha st (starMatches_stem.2 (prefix_refl st)))).length_le
    simp only [length_append, length_cons, length_nil] at hl
    omega
  · intro ho w hw
    by_cases hr : r.getLast? = some s
    · obtain ⟨st, rfl⟩ := getLast?_eq_some_iff.1 hr
      have hs := starMatches_stem.1 hw
      by_cases how : ow.getLast? = some s
      · obtain ⟨om, rfl⟩ := getLast?_eq_some_iff.1 how
        rw [starMatches_stem, prefix_concat_iff] at h
        cases h with
        | inl hn => exact absurd ⟨hr, by rw [hn]⟩ ho
        | inr hsh => exact starMatches_stem.2 (hsh.trans hs)
      · rw [starMatches_word how] at h
        exact absurd (h ▸ hr) how
    · rwa [← (starMatches_word hr).1 hw]

end Klights.Lib
