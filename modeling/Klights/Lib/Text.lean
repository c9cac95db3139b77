import Mathlib.Tactic.Common

/-!
# Text as a list of characters

Cutting text at a separator and off its blanks, as string libraries do.

- `splitOnce`: before and after the first occurrence of a separator (`splitOnce_char`, for one character);
- `trim`: without the blanks at both ends (`trim_of_forall`);
- `cut_unique`: there is one way to cut a text at the first occurrence of a character.
-/

namespace Klights.Lib

open List

/-- The text before and after the first occurrence of a separator. -/
def splitOnce (sep : List Char) : List Char → Option (List Char × List Char)
  | [] => if sep.isEmpty then some ([], []) else none
  | c :: rest =>
    if sep.isPrefixOf (c :: rest) then some ([], (c :: rest).drop sep.length)
    else (splitOnce sep rest).map fun parts => (c :: parts.1, parts.2)

/-- The text without the blanks at both ends. -/
def trim (isBlank : Char → Bool) (text : List Char) : List Char :=
  ((text.dropWhile isBlank).reverse.dropWhile isBlank).reverse

theorem trim_of_forall {i : Char → Bool} {text : List Char} (h : ∀ c ∈ text, i c = false) : trim i text = text := by
  have hk : ∀ rest : List Char, (∀ c ∈ rest, i c = false) → rest.dropWhile i = rest := by
    intro rest hr
    cases rest with
    | nil => rfl
    | cons c rest => rw [dropWhile_cons_of_neg (by rw [hr c mem_cons_self]; decide)]
  rw [trim, hk text h, hk text.reverse fun c hc => h c (mem_reverse.1 hc), reverse_reverse]

theorem cut_unique {α : Type} {x : α} : ∀ {a a' b b' : List α}, a ++ x :: b = a' ++ x :: b' → x ∉ a → x ∉ a' →
    a = a' ∧ b = b'
  | [], [], _, _, h, _, _ => ⟨rfl, (List.cons.inj h).2⟩
  | [], y :: a', _, _, h, _, ha' => absurd (mem_cons.2 (.inl (List.cons.inj h).1)) ha'
  | y :: a, [], _, _, h, ha, _ => absurd (mem_cons.2 (.inl (List.cons.inj h).1.symm)) ha
  | y :: a, y' :: a', b, b', h, ha, ha' => by
    obtain ⟨rfl, htl⟩ := List.cons.inj h
    have hr : a = a' ∧ b = b' := cut_unique htl (fun hm => ha (mem_cons_of_mem y hm))
      fun hm => ha' (mem_cons_of_mem y hm)
    exact ⟨by rw [hr.1], hr.2⟩

theorem splitOnce_char {c : Char} : ∀ {tx b af : List Char}, splitOnce [c] tx = some (b, af) ↔ tx = b ++ c :: af ∧ c ∉ b
  | [], b, af => by simp [splitOnce]
  | d :: rest, b, af => by
    rcases eq_or_ne c d with rfl | hd
    · have hc : splitOnce [c] (c :: rest) = some ([], rest) := by simp [splitOnce, List.isPrefixOf]
      rw [hc, Option.some.injEq, Prod.mk.injEq]
      constructor
      · rintro ⟨rfl, rfl⟩
        exact ⟨rfl, not_mem_nil⟩
      · rintro ⟨htx, hb⟩
        exact cut_unique (a := []) htx not_mem_nil hb
    · have hc : splitOnce [c] (d :: rest) = (splitOnce [c] rest).map fun parts => (d :: parts.1, parts.2) := by
        simp [splitOnce, List.isPrefixOf, hd]
      rw [hc, Option.map_eq_some_iff]
      constructor
      · rintro ⟨⟨head, tail⟩, hr, hp⟩
        cases hp
        obtain ⟨rfl, hhd⟩ := splitOnce_char.1 hr
        exact ⟨rfl, by simp [hd, hhd]⟩
      · rintro ⟨htx, hb⟩
        cases b with
        | nil => exact absurd (List.cons.inj htx).1.symm hd
        | cons e head =>
          obtain ⟨rfl, rfl⟩ := List.cons.inj htx
          exact ⟨(head, af), splitOnce_char.2 ⟨rfl, fun hm => hb (mem_cons_of_mem d hm)⟩, rfl⟩

end Klights.Lib
