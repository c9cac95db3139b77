import Mathlib.Tactic.Common

/-!
# Inversion of fallible computations

A computation in `Except` is peeled apart one bind at a time, whether it succeeded (`bind_eq_ok`, `map_eq_ok`,
`mapError_eq_ok`, `isOk_iff`) or failed (`bind_eq_error`, `mapError_eq_error`). A traversal whose steps all succeed is a
map (`mapM_eq_ok_map`), and the steps of a loop that succeeds do (`forM_eq_ok`). A loop over a state goes through if its
steps do (`foldlM_ok_iff`) and holds what they add (`foldlM_adds`, `foldl_adds`, `foldlM_invariant`).
-/

namespace Klights.Lib

open List

variable {ε α β : Type} {x : Except ε α} {f : α → Except ε β} {b : β} {a : α} {Q : β → Prop}

theorem bind_eq_ok : x >>= f = .ok b ↔ ∃ a, x = .ok a ∧ f a = .ok b := by
  cases x with
  | error e => simp [bind, Except.bind]
  | ok a => simp [bind, Except.bind]

theorem map_eq_ok {f : α → β} : x.map f = .ok b ↔ ∃ a, x = .ok a ∧ f a = b := by
  cases x with
  | error e => simp [Except.map]
  | ok a => simp [Except.map]

theorem bind_eq_error {e : ε} : x >>= f = .error e ↔ x = .error e ∨ ∃ a, x = .ok a ∧ f a = .error e := by
  cases x with
  | error e' => simp [bind, Except.bind]
  | ok a => simp [bind, Except.bind]

theorem mapError_eq_ok {ε' : Type} {f : ε → ε'} : x.mapError f = .ok a ↔ x = .ok a := by
  cases x with
  | error e => simp [Except.mapError]
  | ok a => simp [Except.mapError]

theorem mapError_eq_error {ε' : Type} {f : ε → ε'} {e : ε'} :
    x.mapError f = .error e ↔ ∃ e', x = .error e' ∧ f e' = e := by
  cases x with
  | error e => simp [Except.mapError]
  | ok a => simp [Except.mapError]

theorem ok_pair_inj {a' : α} {b' : β} (h : (.ok (a, b) : Except ε (α × β)) = .ok (a', b')) : a = a' ∧ b = b' :=
  Prod.mk.inj (Except.ok.inj h)

theorem ite_eq_ok {c : Prop} [Decidable c] {b r : α} (h : (if c then .ok a else .ok b : Except ε α) = .ok r) :
    r = a ∨ r = b := by
  split at h
  · exact .inl (Except.ok.inj h).symm
  · exact .inr (Except.ok.inj h).symm

theorem ite_ok_cases {c : Prop} [Decidable c] {y : Except ε α} {r : α} (h : (if c then x else y) = .ok r) :
    (c ∧ x = .ok r) ∨ (¬c ∧ y = .ok r) := by
  by_cases hc : c
  · exact .inl ⟨hc, (if_pos hc).symm.trans h⟩
  · exact .inr ⟨hc, (if_neg hc).symm.trans h⟩

theorem ite_error_eq_ok {c : Prop} [Decidable c] {e : ε} : (if c then .error e else x) = .ok a ↔ ¬c ∧ x = .ok a := by
  by_cases hc : c <;> simp [hc]

theorem ite_else_error_eq_ok {c : Prop} [Decidable c] {e : ε} :
    (if c then x else .error e) = .ok a ↔ c ∧ x = .ok a := by
  by_cases hc : c <;> simp [hc]

theorem isOk_iff : x.isOk ↔ ∃ a, x = .ok a := by
  cases x with
  | error e => simp [Except.isOk, Except.toBool]
  | ok a => simp [Except.isOk, Except.toBool]

theorem mem_of_mapM_ok : ∀ {l : List α} {r : List β}, l.mapM f = .ok r → ∀ a ∈ l, ∃ b ∈ r, f a = .ok b
  | [], _, _, _, ha => nomatch ha
  | b :: l, r, h, a, ha => by
    rw [mapM_cons] at h
    obtain ⟨c, hc, h⟩ := bind_eq_ok.1 h
    obtain ⟨tl, hr, h⟩ := bind_eq_ok.1 h
    cases h
    rcases mem_cons.1 ha with rfl | ha
    · exact ⟨c, .head _, hc⟩
    · obtain ⟨d, hd, heq⟩ := mem_of_mapM_ok hr a ha
      exact ⟨d, mem_cons_of_mem c hd, heq⟩

theorem mapM_eq_ok_map {g : α → β} : ∀ {l : List α}, (∀ a ∈ l, f a = .ok (g a)) → l.mapM f = .ok (l.map g)
  | [], _ => rfl
  | a :: l, h => by
    rw [mapM_cons, h a (by simp), mapM_eq_ok_map fun b hb => h b (by simp [hb])]
    rfl

/-- A traversal succeeds exactly if each of its steps does. -/
theorem mapM_ok_iff : ∀ {l : List α}, (∃ r, l.mapM f = .ok r) ↔ ∀ a ∈ l, ∃ b, f a = .ok b
  | [] => ⟨fun _ _ ha => absurd ha not_mem_nil, fun _ => ⟨[], rfl⟩⟩
  | a :: l => by
    rw [forall_mem_cons, mapM_cons]
    constructor
    · rintro ⟨r, h⟩
      obtain ⟨b, hb, h⟩ := bind_eq_ok.1 h
      obtain ⟨tl, hr, -⟩ := bind_eq_ok.1 h
      exact ⟨⟨b, hb⟩, mapM_ok_iff.1 ⟨tl, hr⟩⟩
    · rintro ⟨⟨b, hb⟩, hl⟩
      obtain ⟨tl, hr⟩ := mapM_ok_iff.2 hl
      exact ⟨b :: tl, bind_eq_ok.2 ⟨b, hb, bind_eq_ok.2 ⟨tl, hr, rfl⟩⟩⟩

theorem of_mem_mapM_ok : ∀ {l : List α} {r : List β}, l.mapM f = .ok r → ∀ b ∈ r, ∃ a ∈ l, f a = .ok b
  | [], _, rfl, _, hb => nomatch hb
  | a :: l, r, h, b, hb => by
    rw [mapM_cons] at h
    obtain ⟨c, hc, h⟩ := bind_eq_ok.1 h
    obtain ⟨tl, hr, h⟩ := bind_eq_ok.1 h
    cases h
    rcases mem_cons.1 hb with rfl | hb
    · exact ⟨a, .head _, hc⟩
    · obtain ⟨d, hd, heq⟩ := of_mem_mapM_ok hr b hb
      exact ⟨d, mem_cons_of_mem a hd, heq⟩

theorem forM_eq_ok {f : α → Except ε Unit} {l : List α} (h : l.forM f = .ok ()) : ∀ a ∈ l, f a = .ok () := by
  induction l with
  | nil => simp
  | cons b l ih =>
    obtain ⟨⟨⟩, hhd, htl⟩ := bind_eq_ok.1 h
    exact forall_mem_cons.2 ⟨hhd, ih htl⟩

theorem foldlM_ok_iff {f : β → α → Except ε β} {P : α → Prop} (hs : ∀ b a, (∃ b', f b a = .ok b') ↔ P a) :
    ∀ {l : List α} {b : β}, (∃ b', l.foldlM f b = .ok b') ↔ ∀ a ∈ l, P a
  | [], b => by simp [List.foldlM, pure, Except.pure]
  | a :: l, b => by
    rw [forall_mem_cons, foldlM_cons]
    constructor
    · rintro ⟨b', h⟩
      obtain ⟨mi, hm, h⟩ := bind_eq_ok.1 h
      exact ⟨(hs b a).1 ⟨mi, hm⟩, (foldlM_ok_iff hs).1 ⟨b', h⟩⟩
    · rintro ⟨ha, hl⟩
      obtain ⟨mi, hm⟩ := (hs b a).2 ha
      obtain ⟨b', h⟩ := (foldlM_ok_iff hs (b := mi)).2 hl
      exact ⟨b', bind_eq_ok.2 ⟨mi, hm, h⟩⟩

theorem foldlM_adds {f : β → α → Except ε β} {R : α → Prop} (hs : ∀ b a b', f b a = .ok b' → (Q b' ↔ Q b ∨ R a)) :
    ∀ {l : List α} {b b' : β}, l.foldlM f b = .ok b' → (Q b' ↔ Q b ∨ ∃ a ∈ l, R a)
  | [], b, b', h => by
    cases h
    simp
  | a :: l, b, b', h => by
    obtain ⟨mi, hm, h⟩ := bind_eq_ok.1 h
    rw [foldlM_adds hs h, hs b a mi hm, or_assoc]
    simp

theorem foldl_adds {f : β → α → β} {R : α → Prop} (hs : ∀ b a, Q (f b a) ↔ Q b ∨ R a) :
    ∀ {l : List α} {b : β}, Q (l.foldl f b) ↔ Q b ∨ ∃ a ∈ l, R a
  | [], b => by simp
  | a :: l, b => by
    rw [foldl_cons, foldl_adds hs, hs, or_assoc]
    simp

theorem foldlM_invariant {f : β → α → Except ε β} :
    ∀ {l : List α} {b b' : β}, (∀ a ∈ l, ∀ b b', f b a = .ok b' → Q b → Q b') → l.foldlM f b = .ok b' → Q b → Q b'
  | [], _, _, _, h, hb => by
    cases h
    exact hb
  | a :: l, b, b', hs, h, hb => by
    obtain ⟨mi, hm, h⟩ := bind_eq_ok.1 h
    have hm' := hs a mem_cons_self b mi hm hb
    exact foldlM_invariant (fun c hc => hs c (mem_cons_of_mem a hc)) h hm'

end Klights.Lib
