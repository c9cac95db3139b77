import Mathlib.Data.List.Sort

/-!
# Keyset paging of a sorted list

Reading a sorted list in pages: each page holds the first rows after a key, and the next page starts after the key of
the last row read.

- `rows_after_take`: the rows after the last row of a page are the rows the page left over;
- `insertionSort_strict`: sorting rows with distinct keys gives a strictly ascending list;
- `ext_of_strict`: a strictly ascending list is determined by its elements;
- `newest_page`: a page read from the end of a list that lost its oldest rows;
- `remaining_lt`: a cursor that moves on leaves fewer rows.
-/

namespace Klights.Lib

open List

variable {ρ κ : Type} [LinearOrder κ] {k : ρ → κ} {rs : List ρ} {row : ρ}

/-- Ascending by key, no two rows with one key. -/
def Ascending (key : ρ → κ) (rows : List ρ) : Prop := rows.Pairwise fun a b => key a < key b

theorem Ascending.filter (h : Ascending k rs) (p : ρ → Bool) : Ascending k (rs.filter p) :=
  List.Pairwise.sublist filter_sublist h

theorem rows_after_take : ∀ {rs : List ρ}, Ascending k rs → ∀ {n : Nat} {last : ρ}, (rs.take n).getLast? = some last →
      (rs.filter fun row => k last < k row) = rs.drop n
  | [], _, n, last, h => by simp at h
  | row :: rest, hs, 0, last, h => by simp at h
  | row :: rest, hs, n + 1, last, h => by
    obtain ⟨ho, he⟩ := pairwise_cons.1 hs
    cases n with
    | zero =>
      -- the page is the head alone: everything else is after it
      have hl : row = last := by simpa using h
      subst hl
      have ha : (rest.filter fun r => k row < k r) = rest :=
        filter_eq_self.2 fun r hr => by simpa using ho r hr
      simp [ha]
    | succ n =>
      cases rest with
      | nil =>
        have hl : row = last := by simpa using h
        subst hl
        simp
      | cons next rest =>
        have hl : ((next :: rest).take (n + 1)).getLast? = some last := by
          simpa [take_succ_cons, getLast?_cons_cons] using h
        have hm : last ∈ next :: rest := mem_of_mem_take (mem_of_getLast? hl)
        have hn : ¬k last < k row := not_lt.2 (le_of_lt (ho last hm))
        rw [filter_cons_of_neg (by simpa using hn), rows_after_take he hl]
        rfl

/-- The last row of a sorted list is the greatest. -/
theorem le_last (h : Ascending k rs) {last : ρ} (ha : rs.getLast? = some last) (hrow : row ∈ rs) : k row ≤ k last := by
  obtain ⟨init, rfl⟩ := getLast?_eq_some_iff.1 ha
  rcases mem_append.1 hrow with hrow | hrow
  · exact le_of_lt ((pairwise_append.1 h).2.2 row hrow last (by simp))
  · rw [mem_singleton.1 hrow]

theorem insertionSort_strict (h : (rs.map k).Nodup) : Ascending k (rs.insertionSort fun a b => k a ≤ k b) := by
  have hs := pairwise_insertionSort (fun a b : ρ => k a ≤ k b) rs
  have hn : ((rs.insertionSort fun a b => k a ≤ k b).map k).Nodup :=
    ((perm_insertionSort _ rs).map k).nodup_iff.2 h
  have hne := pairwise_map.1 hn
  exact (hs.and hne).imp fun h => lt_of_le_of_ne h.1 h.2

theorem ext_of_strict {others : List ρ} (h : Ascending k rs) (h' : Ascending k others)
    (hm : ∀ row, row ∈ rs ↔ row ∈ others) : rs = others := by
  have hn : rs.Nodup := h.imp fun hlt e => absurd hlt (by rw [e]; exact lt_irrefl _)
  have hn' : others.Nodup := h'.imp fun hlt e => absurd hlt (by rw [e]; exact lt_irrefl _)
  have hp : rs.Perm others := (perm_ext_iff_of_nodup hn hn').2 hm
  refine hp.eq_of_pairwise ?_ h h'
  intro a b _ _ ha hb
  exact absurd ha (lt_asymm hb)

/-! ## Newest first -/

/-- What is kept of a sorted list is its end, once it holds with a row every later one. -/
theorem filter_not_append_filter {kt : ρ → Bool} : ∀ {rs : List ρ}, Ascending k rs →
    (∀ row ∈ rs, kt row → ∀ o ∈ rs, k row ≤ k o → kt o) → rs.filter (fun row => !kt row) ++ rs.filter kt = rs
  | [], _, _ => rfl
  | row :: rest, h, he => by
    obtain ⟨hw, hs⟩ := pairwise_cons.1 h
    cases hh : kt row with
    | true =>
      -- the first row is kept, so all are
      have ha : ∀ r ∈ row :: rest, kt r := by
        intro r hr
        refine he row (by simp) hh r hr ?_
        rcases mem_cons.1 hr with rfl | hr
        · exact le_rfl
        · exact le_of_lt (hw r hr)
      rw [filter_eq_self.2 ha, filter_eq_nil_iff.2 fun r hr => by simp [ha r hr], nil_append]
    | false =>
      have hp := filter_not_append_filter hs fun r hr hk o ho =>
        he r (.tail _ hr) hk o (.tail _ ho)
      rw [filter_cons_of_pos (by simp [hh]), filter_cons_of_neg (by simp [hh]), cons_append, hp]

theorem newest_page (kt : ρ → Bool) (h : Ascending k rs)
    (hk : ∀ row ∈ rs, kt row → ∀ o ∈ rs, k row ≤ k o → kt o) (c : Nat) :
    ∃ ol, rs = ol ++ ((rs.filter kt).reverse.take c).reverse ∧
      (((rs.filter kt).reverse.take c).length < c → ∀ row ∈ ol, kt row = false) := by
  have hs := filter_not_append_filter h hk
  set newest := rs.filter kt with hn
  have hp : (newest.reverse.take c).reverse = newest.drop (newest.length - c) := by
    rw [take_reverse, reverse_reverse]
  refine ⟨rs.filter (fun row => !kt row) ++ newest.take (newest.length - c), ?_, fun hh row hr => ?_⟩
  · rw [hp, append_assoc, take_append_drop, hs]
  · have ho : newest.length - c = 0 := by
      rw [length_take, length_reverse] at hh
      omega
    rw [ho, take_zero, append_nil] at hr
    simpa using (mem_filter.1 hr).2

theorem filter_before {older ne : List ρ} (h : Ascending k (older ++ row :: ne)) :
    ((older ++ row :: ne).filter fun r => k r < k row) = older := by
  obtain ⟨-, hn, hb⟩ := pairwise_append.1 h
  rw [filter_append, filter_eq_self.2 fun r hr => by simpa using hb r hr row (by simp), filter_eq_nil_iff.2, append_nil]
  intro r hr
  rcases mem_cons.1 hr with rfl | hr
  · simp
  · simpa using le_of_lt ((pairwise_cons.1 hn).1 r hr)

theorem remaining_lt (ah beyond : ρ → Bool) (ho : row ∈ rs) (hh : ah row)
    (hp : beyond row = false) (hl : ∀ r ∈ rs, beyond r → ah r) :
    (rs.filter beyond).length < (rs.filter ah).length := by
  have heq : rs.filter beyond = (rs.filter ah).filter beyond := by
    rw [filter_filter]
    refine filter_congr fun r hr => ?_
    cases hb : beyond r with
    | false => rfl
    | true => simp [hl r hr hb]
  rw [heq, length_filter_lt_length_iff_exists]
  exact ⟨row, mem_filter.2 ⟨ho, hh⟩, by simp [hp]⟩

end Klights.Lib
