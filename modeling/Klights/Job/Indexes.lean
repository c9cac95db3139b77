import Klights.Api.ListQuery
import Klights.Lib.Intervals
import Mathlib.Data.Finset.Sort
import Mathlib.Data.Int.Range

/-!
# Completion indexes as text

The status of an Indexed Job keeps its completed indexes as text, such as `0,2,4-6`
(`parse_succeeded_indexes` and `format_indexes` in `klights-controllers/src/job.rs`).

- `parseSucceededIndexes`, `formatIndexes`;
- `indexes_round_trip`: a set of indexes that are not negative is read back as it was written. A negative index is not:
  its minus sign is taken for the dash of a range, and the run of indexes that starts with it is lost.
-/

namespace Klights.Job

open Api Lib Store Option

variable {c : Char} {text : String}

/-! ## Reading and writing -/

def parseIndexPart (part : List Char) : Finset Int :=
  match splitOnce ['-'] part with
  | some (first, last) =>
    match parseI64 (String.ofList (trim isWhitespace first)), parseI64 (String.ofList (trim isWhitespace last)) with
    | some first, some last => (Int.range first (last + 1)).toFinset
    | _, _ => ∅
  | none =>
    match parseI64 (String.ofList part) with
    | some n => {n}
    | none => ∅

def parseSucceededIndexes (indexes : String) : Finset Int :=
  ((indexes.toList.splitOn ',').map fun part => parseIndexPart (trim isWhitespace part)).foldr (· ∪ ·) ∅

def indexRunText (run : Int × Int) : List Char :=
  if run.1 = run.2 then (toString run.1).toList else (toString run.1).toList ++ '-' :: (toString run.2).toList

def formatIndexes (indexes : Finset Int) : Option String :=
  if indexes = ∅ then none
  else some (String.ofList ([','].intercalate ((consecutiveRuns (indexes.sort (· ≤ ·))).map indexRunText)))

/-! ## Numbers -/

section Numbers

variable {n : Int}

theorem digits_of_nonneg (h : 0 ≤ n) : (toString n).toList = Nat.toDigits 10 n.toNat := by
  obtain ⟨k, rfl⟩ := Int.eq_ofNat_of_zero_le h
  exact Nat.toList_repr

theorem isDigit_of_mem (h : 0 ≤ n) (hc : c ∈ (toString n).toList) : c.isDigit := by
  rw [digits_of_nonneg h] at hc
  exact Nat.isDigit_of_mem_toDigits (by decide) (by decide) hc

theorem parseDigits_toDigits (k : Nat) : parseDigits (Nat.toDigits 10 k) = some k := by
  have hd : (Nat.toDigits 10 k).all isAsciiDigit :=
    List.all_eq_true.2 fun c hc => Nat.isDigit_of_mem_toDigits (by decide) (by decide) hc
  have hs : (Nat.toDigits 10 k).isEmpty = false := by simp [List.isEmpty_eq_false_iff]
  have hv : (Nat.toDigits 10 k).foldl (fun n c => n * 10 + (c.toNat - '0'.toNat)) 0 = k := by
    simpa [Nat.ofDigitChars, Nat.mul_comm] using Nat.ofDigitChars_ten_toDigits (n := k)
  rw [parseDigits, hd, hs, hv]
  rfl

theorem parseI64_toString (h : 0 ≤ n) (hf : n < 2 ^ 63) : parseI64 (toString n) = some n := by
  have hr := parseDigits_toDigits n.toNat
  rw [← digits_of_nonneg h] at hr
  have hs : ∀ c tl, (toString n).toList = c :: tl → c.isDigit := fun c tl ht =>
    isDigit_of_mem h (ht ▸ .head _)
  unfold parseI64
  split
  · rename_i ds ht
    exact absurd (hs '-' ds ht) (by decide)
  · rename_i ds ht
    exact absurd (hs '+' ds ht) (by decide)
  · have hb : (n.toNat : Int) = n := Int.toNat_of_nonneg h
    rw [hr]
    simpa [hb] using hf

theorem isWhitespace_of_isDigit (h : c.isDigit) : isWhitespace c = false := by
  simp only [Char.isDigit, Bool.and_eq_true, decide_eq_true_eq, UInt32.le_iff_toNat_le] at h
  have hl : 48 ≤ c.toNat := h.1
  have hh : c.toNat ≤ 57 := h.2
  simp only [isWhitespace, Bool.or_eq_false_iff, Bool.and_eq_false_iff, decide_eq_false_iff_not, beq_eq_false_iff_ne]
  omega

theorem mem_indexRunText {r : Int × Int} (hf1 : 0 ≤ r.1) (ha : 0 ≤ r.2) (hc : c ∈ indexRunText r) :
    c.isDigit ∨ c = '-' := by
  unfold indexRunText at hc
  split at hc
  · exact .inl (isDigit_of_mem hf1 hc)
  · rcases List.mem_append.1 hc with hc | hc
    · exact .inl (isDigit_of_mem hf1 hc)
    · rcases List.mem_cons.1 hc with hc | hc
      · exact .inr hc
      · exact .inl (isDigit_of_mem ha hc)

end Numbers

/-! ## Round trip -/

theorem parse_indexRunText {r : Int × Int} (hr : r.1 ≤ r.2) (hf1 : 0 ≤ r.1) (hf : r.2 < 2 ^ 63) :
    parseIndexPart (indexRunText r) = (Int.range r.1 (r.2 + 1)).toFinset := by
  have hl : 0 ≤ r.2 := Int.le_trans hf1 hr
  have ho : '-' ∉ (toString r.1).toList := fun hm => absurd (isDigit_of_mem hf1 hm) (by decide)
  unfold parseIndexPart indexRunText
  by_cases he : r.1 = r.2
  · have hw : splitOnce ['-'] (toString r.1).toList = none := by
      cases hs : splitOnce ['-'] (toString r.1).toList with
      | none => rfl
      | some pa =>
        obtain ⟨hx, -⟩ := splitOnce_char.1 hs
        exact absurd (hx ▸ List.mem_append_right _ List.mem_cons_self) ho
    have hg : Int.range r.1 (r.1 + 1) = [r.1] := by simp [Int.range]
    rw [if_pos he, hw, ← he, hg]
    simp only [String.ofList_toList, parseI64_toString hf1 (by omega), List.toFinset_cons, List.toFinset_nil,
      insert_empty_eq]
  · have ht : ∀ n : Int, 0 ≤ n → trim isWhitespace (toString n).toList = (toString n).toList := fun n hn =>
      trim_of_forall fun c hc => isWhitespace_of_isDigit (isDigit_of_mem hn hc)
    rw [if_neg he, splitOnce_char.2 ⟨rfl, ho⟩]
    simp only [ht r.1 hf1, ht r.2 hl, String.ofList_toList, parseI64_toString hf1 (by omega), parseI64_toString hl hf]

theorem mem_foldr_union {x : Int} : ∀ s : List (Finset Int), x ∈ s.foldr (· ∪ ·) ∅ ↔ ∃ set ∈ s, x ∈ set
  | [] => by simp
  | set :: rest => by simp [mem_foldr_union rest]

theorem parse_formatIndexes {indexes : Finset Int} (htx : formatIndexes indexes = some text)
    (hg : ∀ ix ∈ indexes, 0 ≤ ix ∧ ix < 2 ^ 63) : parseSucceededIndexes text = indexes := by
  unfold formatIndexes at htx
  split at htx
  · cases htx
  · rename_i hs
    set runs := consecutiveRuns (indexes.sort (· ≤ ·)) with hu
    have he : ∀ run ∈ runs, run.1 ≤ run.2 ∧ 0 ≤ run.1 ∧ run.2 < 2 ^ 63 := by
      intro run hr
      obtain ⟨ho, hf1, hl⟩ := ends_mem hr
      exact ⟨ho, (hg _ ((Finset.mem_sort _).1 hf1)).1, (hg _ ((Finset.mem_sort _).1 hl)).2⟩
    have hh : ∀ run ∈ runs, ∀ c ∈ indexRunText run, c.isDigit ∨ c = '-' := fun run hr c hc =>
      mem_indexRunText (he run hr).2.1 (Int.le_trans (he run hr).2.1 (he run hr).1) hc
    have hp : text.toList.splitOn ',' = runs.map indexRunText := by
      rw [← Option.some.inj htx, String.toList_ofList]
      refine List.splitOn_intercalate ',' (fun pa ht => ?_) ?_
      · obtain ⟨run, hr, rfl⟩ := List.mem_map.1 ht
        intro hm
        rcases hh run hr ',' hm with hd | hdash
        · exact absurd hd (by decide)
        · exact absurd hdash (by decide)
      · intro hn
        obtain ⟨ix, hi⟩ := Finset.nonempty_iff_ne_empty.2 hs
        obtain ⟨run, hr, -⟩ := (mem_consecutiveRuns _).2 ((Finset.mem_sort (· ≤ ·)).2 hi)
        rw [← hu, List.map_eq_nil_iff.1 hn] at hr
        cases hr
    ext ix
    rw [parseSucceededIndexes, hp, mem_foldr_union, ← Finset.mem_sort (· ≤ ·), ← mem_consecutiveRuns]
    simp only [List.mem_map, exists_exists_and_eq_and]
    refine exists_congr fun run => and_congr_right fun hr => ?_
    have htr : trim isWhitespace (indexRunText run) = indexRunText run := trim_of_forall fun c hc => by
      rcases hh run hr c hc with hd | rfl
      · exact isWhitespace_of_isDigit hd
      · decide
    obtain ⟨ho, hf1, hl⟩ := he run hr
    rw [htr, parse_indexRunText ho hf1 hl, List.mem_toFinset, Int.mem_range_iff, Int.lt_add_one_iff]

/-- **Round trip.** A set of indexes is read back as it was written, and its text lists the maximal runs in ascending
order. -/
theorem indexes_round_trip (ixs : Finset Int) (hrange : ∀ ix ∈ ixs, 0 ≤ ix ∧ ix < 2 ^ 63) :
    ((formatIndexes ixs).map parseSucceededIndexes).getD ∅ = ixs ∧ ∃ runs : List (Int × Int),
        (formatIndexes ixs).getD "" = String.ofList ([','].intercalate (runs.map indexRunText)) ∧
        (∀ run ∈ runs, run.1 ≤ run.2) ∧ runs.Pairwise (fun run lat => run.2 + 1 < lat.1) ∧
        ∀ ix, ix ∈ ixs ↔ ∃ run ∈ runs, run.1 ≤ ix ∧ ix ≤ run.2 := by
  refine ⟨?_, consecutiveRuns (ixs.sort (· ≤ ·)), ?_, fun run hr => (ends_mem hr).1,
    pairwise_consecutiveRuns (Finset.sortedLT_sort ixs).pairwise, fun ix => ?_⟩
  · cases htx : formatIndexes ixs with
    | none =>
      unfold formatIndexes at htx
      split at htx
      · rename_i hs
        exact hs.symm
      · cases htx
    | some text => exact parse_formatIndexes htx hrange
  · unfold formatIndexes
    split
    · rename_i hs
      simp [hs, consecutiveRuns]
    · rfl
  · rw [mem_consecutiveRuns, Finset.mem_sort]

theorem indexes_round_trip_runs : (∀ ix ∈ ({0, 4, 5, 2, 6} : Finset Int), 0 ≤ ix ∧ ix < 2 ^ 63) ∧
      ((formatIndexes {0, 4, 5, 2, 6}).map parseSucceededIndexes).getD ∅ = {0, 4, 5, 2, 6} :=
  ⟨by decide, (indexes_round_trip _ (by decide)).1⟩

/-! ## What is read -/

theorem mem_trim {i : Char → Bool} {text : List Char} (h : c ∈ trim i text) : c ∈ text := by
  have hb := (List.dropWhile_suffix i).subset (List.mem_reverse.1 h)
  exact (List.dropWhile_suffix i).subset (List.mem_reverse.1 hb)

theorem parseI64_lt {n : Int} (h : parseI64 text = some n) : n < 2 ^ 63 := by
  unfold parseI64 at h
  split at h
  · obtain ⟨hr, -⟩ := filter_eq_some_iff.1 h
    simp only [bind_eq_bind, pure_def, map_bind, bind_eq_some_iff, Function.comp_apply,
      map_some, Option.some.injEq] at hr
    obtain ⟨k, -, rfl⟩ := hr
    omega
  · exact of_decide_eq_true (filter_eq_some_iff.1 h).2
  · exact of_decide_eq_true (filter_eq_some_iff.1 h).2

theorem parseI64_nonneg {n : Int} (h : parseI64 text = some n) (hs : '-' ∉ text.toList) : 0 ≤ n := by
  have hd : ∀ ds : List Char, (do let k ← parseDigits ds; pure (k : Int)) = some n → 0 ≤ n := by
    intro ds hr
    simp only [bind_eq_bind, pure_def, bind_eq_some_iff, Option.some.injEq] at hr
    obtain ⟨k, -, rfl⟩ := hr
    exact Int.natCast_nonneg k
  unfold parseI64 at h
  simp only [map_id_fun', id_eq] at h
  split at h
  · rename_i ds ht
    exact absurd (ht ▸ .head _) hs
  · exact hd _ (filter_eq_some_iff.1 h).1
  · exact hd _ (filter_eq_some_iff.1 h).1

theorem parseIndexPart_range {p : List Char} {ix : Int} (h : ix ∈ parseIndexPart p) : 0 ≤ ix ∧ ix < 2 ^ 63 := by
  unfold parseIndexPart at h
  split at h
  · rename_i fst la hp
    split at h
    · rename_i lo hi hl hh
      obtain ⟨hf, ho⟩ := Int.mem_range_iff.1 (List.mem_toFinset.1 h)
      have hs : '-' ∉ (String.ofList (trim isWhitespace fst)).toList := by
        rw [String.toList_ofList]
        exact fun hm => (splitOnce_char.1 hp).2 (mem_trim hm)
      have hpos := parseI64_nonneg hl hs
      have he := parseI64_lt hh
      omega
    · exact absurd h (Finset.notMem_empty ix)
  · rename_i hp
    split at h
    · rename_i n hn
      obtain rfl := Finset.mem_singleton.1 h
      have hs : '-' ∉ (String.ofList p).toList := by
        rw [String.toList_ofList]
        intro hm
        obtain ⟨bef, aft, ht, hb⟩ := List.eq_append_cons_of_mem hm
        rw [splitOnce_char.2 ⟨ht, hb⟩] at hp
        cases hp
      exact ⟨parseI64_nonneg hn hs, parseI64_lt hn⟩
    · exact absurd h (Finset.notMem_empty ix)

theorem parseSucceededIndexes_range {ix : Int} (h : ix ∈ parseSucceededIndexes text) : 0 ≤ ix ∧ ix < 2 ^ 63 := by
  obtain ⟨se, hs, hi⟩ := (mem_foldr_union _).1 h
  obtain ⟨pa, -, rfl⟩ := List.mem_map.1 hs
  exact parseIndexPart_range hi

end Klights.Job
