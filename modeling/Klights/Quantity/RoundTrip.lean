import Klights.Quantity.Parse
import Mathlib.Data.List.TakeWhile
import Mathlib.Data.Nat.Digits.Lemmas
import Mathlib.Tactic.Positivity

/-!
# Quantities that are read, and formatting

A decimal with an exponent is read whatever its magnitude, unless the exponent is the least `i32`
(`exponent_accepted`). What `format_resource_quantity` writes is read back (`format_round_trip`).
-/

namespace Klights.Quantity

open Lib Option

variable {l t : List Char} {c m : Char} {e : Int}

/-! ## Digits -/

theorem isWhitespace_of_plain (h : isAsciiDigit c ∨ c = '.') : isWhitespace c = false := by
  rcases h with h | rfl
  · simp only [isAsciiDigit, Bool.and_eq_true, decide_eq_true_eq] at h
    simp only [isWhitespace, Bool.or_eq_false_iff, Bool.and_eq_false_iff, decide_eq_false_iff_not, beq_eq_false_iff_ne]
    omega
  · decide

theorem not_exponentMarker (h : isAsciiDigit c ∨ c = '.') : isExponentMarker c = false := by
  by_contra hm
  simp only [isExponentMarker, Bool.not_eq_false, Bool.or_eq_true, decide_eq_true_eq] at hm
  rcases hm with rfl | rfl <;> revert h <;> decide

theorem parseDecimalDigits_eq : parseDecimalDigits l =
    if l.all isAsciiDigit then some (Nat.ofDigitChars 10 l 0 : Int) else none := by
  have hr : ∀ (l : List Char) (v : Nat), l.foldlM (fun (vl : Int) c => if isAsciiDigit c then
      some (vl * 10 + (c.toNat - 48 : Nat)) else none) v =
        if l.all isAsciiDigit then some (Nat.ofDigitChars 10 l v : Int) else none := by
    intro l
    induction l with
    | nil => simp
    | cons d l ih =>
      intro v
      have hv : (v : Int) * 10 + (d.toNat - 48 : Nat) = ((10 * v + (d.toNat - 48) : Nat) : Int) := by
        push_cast
        ring
      rw [List.foldlM_cons, List.all_cons]
      by_cases hd : isAsciiDigit d
      · rw [if_pos hd, hv, hd, Bool.true_and]
        exact ih _
      · simp [hd]
  exact hr l 0

theorem ofDigitChars_lt (hl : ∀ c ∈ l, isAsciiDigit c) : Nat.ofDigitChars 10 l 0 < 10 ^ l.length := by
  induction l with
  | nil => simp
  | cons d l ih =>
    have hd := hl d (.head _)
    simp only [isAsciiDigit, Bool.and_eq_true, decide_eq_true_eq] at hd
    have ih := ih fun x hx => hl x (.tail _ hx)
    rw [Nat.ofDigitChars_cons, Nat.mul_zero, Nat.zero_add, Nat.ofDigitChars_eq_ofDigitChars_zero, List.length_cons,
      pow_succ]
    have h9 : d.toNat - '0'.toNat ≤ 9 := by
      have : '0'.toNat = 48 := rfl
      omega
    have := Nat.mul_le_mul_left (10 ^ l.length) h9
    omega

theorem parseI32_reads (h : parseI32 t = some e) : -2 ^ 31 ≤ e ∧
    ∃ sn ds, t = sn ++ ds ∧ ds ≠ [] ∧ (∀ c ∈ sn, c = '-' ∨ c = '+') ∧ ∀ c ∈ ds, isAsciiDigit c := by
  unfold parseI32 at h
  split at h
  next ng ds hm =>
  have hi : ∃ sn, t = sn ++ ds ∧ ∀ c ∈ sn, c = '-' ∨ c = '+' := by
    split at hm
    · cases hm
      exact ⟨['-'], rfl, by simp⟩
    · cases hm
      exact ⟨['+'], rfl, by simp⟩
    · cases hm
      exact ⟨[], rfl, by simp⟩
  obtain ⟨sn, ht, hs⟩ := hi
  split at h
  · cases h
  · next hne =>
    obtain ⟨v, hv, h⟩ := bind_eq_some_iff.1 h
    have hd : ds.all isAsciiDigit := by
      by_contra hn
      simp [parseDecimalDigits_eq, hn] at hv
    generalize (if ng = true then -v else v) = x at h
    unfold checkedI32 at h
    split at h
    · next hr =>
      cases h
      exact ⟨hr.1, sn, ds, ht, by simpa using hne, hs, List.all_eq_true.1 hd⟩
    · cases h

/-! ## Numbers -/

def decimal (int : List Char) (frac : Option (List Char)) : List Char := int ++ frac.elim [] ('.' :: ·)

theorem trimEndZeros_initial (l : List Char) : trimEndZeros l <+: l := by
  have h := List.reverse_prefix.2 (List.dropWhile_suffix (l := l.reverse) (· = '0'))
  rwa [List.reverse_reverse] at h

theorem span_stop {p : Char → Bool} {a b : List Char} (ha : ∀ c ∈ a, p c) (hb : ∀ c tl, b = c :: tl → p c = false) :
    (a ++ b).takeWhile p = a ∧ (a ++ b).dropWhile p = b := by
  rw [List.takeWhile_append_of_pos ha, List.dropWhile_append_of_pos ha]
  cases b with
  | nil => simp
  | cons c tl => simp [hb c tl rfl]

variable {i : List Char} {fc : Option (List Char)}

theorem decimal_chars (hi : ∀ c ∈ i, isAsciiDigit c) (hf : ∀ c ∈ fc.getD [], isAsciiDigit c) :
    ∀ c ∈ decimal i fc, isAsciiDigit c ∨ c = '.' := by
  intro c hc
  rcases List.mem_append.1 hc with hc | hc
  · exact .inl (hi c hc)
  · cases fc with
    | none => cases hc
    | some f => exact (List.mem_cons.1 hc).elim .inr fun hc => .inl (hf c hc)

/-- A number that fits is read as its digits, without the zeros at the end of the fraction. -/
theorem noExponent_decimal (hi : ∀ c ∈ i, isAsciiDigit c) (hf : ∀ c ∈ fc.getD [], isAsciiDigit c) (h0 : i ≠ [])
    (hl : (fc.getD []).length < 2 ^ 32) : parseDecimalRationalNoExponent (decimal i fc) =
      some ((Nat.ofDigitChars 10 (i ++ trimEndZeros (fc.getD [])) 0 : Int), (trimEndZeros (fc.getD [])).length) := by
  have hp : ∀ c ∈ i, decide (c ≠ '.') := fun c hc => decide_eq_true fun heq => by
    subst heq
    exact absurd (hi _ hc) (by decide)
  obtain ⟨h1, h2⟩ := span_stop (b := fc.elim [] ('.' :: ·)) hp (by cases fc <;> simp)
  have hpt : splitPoint (decimal i fc) = (i, fc.getD []) := by
    rw [splitPoint, decimal, h1, h2]
    cases fc <;> rfl
  have ht : ∀ c ∈ trimEndZeros (fc.getD []), isAsciiDigit c := fun c hc => hf c ((trimEndZeros_initial _).subset hc)
  have hlt := (trimEndZeros_initial (fc.getD [])).length_le
  have hv := @Nat.ofDigitChars_eq_ofDigitChars_zero (trimEndZeros (fc.getD [])) (Nat.ofDigitChars 10 i 0)
  unfold parseDecimalRationalNoExponent
  rw [hpt]
  dsimp only
  rw [if_neg (by simp [h0]), if_neg (by simpa using hi), if_neg (by simpa using ht), parseDecimalDigits_eq,
    if_pos (List.all_eq_true.2 hi), parseDecimalDigits_eq, if_pos (List.all_eq_true.2 ht), checkedU32,
    if_pos (by omega), Nat.ofDigitChars_append, hv]
  simp [mul_comm]

theorem splitExponent_plain (hl : ∀ c ∈ l, isAsciiDigit c ∨ c = '.') : splitExponent l = some (l, 0) := by
  have hn : ∀ c ∈ l, !isExponentMarker c := fun c hc => by simp [not_exponentMarker (hl c hc)]
  rw [splitExponent, List.dropWhile_eq_nil_iff.2 hn]

theorem splitExponent_marker (hl : ∀ c ∈ l, isAsciiDigit c ∨ c = '.') (h0 : l ≠ []) (hm : isExponentMarker m)
    (ht : parseI32 t = some e) : splitExponent (l ++ m :: t) = some (l, e) := by
  have hn : ∀ c ∈ l, !isExponentMarker c := fun c hc => by simp [not_exponentMarker (hl c hc)]
  obtain ⟨-, sign, ds, rfl, hds, hs, hd⟩ := parseI32_reads ht
  have ha : (sign ++ ds).any isExponentMarker = false := by
    rw [List.any_eq_false]
    intro c hc
    rcases List.mem_append.1 hc with hc | hc
    · rcases hs c hc with rfl | rfl <;> decide
    · simp [not_exponentMarker (.inl (hd c hc))]
  obtain ⟨h1, h2⟩ := span_stop (b := m :: (sign ++ ds)) hn (by simpa using hm)
  rw [splitExponent, h1, h2]
  dsimp only
  rw [ha, if_neg (by decide), if_neg (by simp [h0, hds]), ht]
  rfl

theorem rational_digits {raw nr : List Char} {al : Bool} {N : Int} {s : Nat} (hc : raw.head? = some c)
    (hd : isAsciiDigit c) (ha : al = true ∨ ∀ c ∈ raw, isExponentMarker c = false)
    (he : splitExponent raw = some (nr, e)) (hN : parseDecimalRationalNoExponent nr = some (N, s)) :
    parseDecimalRational raw al = some ⟨N, s, e⟩ := by
  have hm : c ≠ '-' ∧ c ≠ '+' := by constructor <;> rintro rfl <;> revert hd <;> decide
  have hn : ¬(!al && raw.any isExponentMarker) = true := by
    rcases ha with rfl | ha
    · simp
    · simpa using fun _ => ha
  have hne : raw ≠ [] := by
    rintro rfl
    cases hc
  have hp : (if raw.head? = some '+' then raw.drop 1 else raw) = raw := if_neg (by simp [hc, hm])
  unfold parseDecimalRational
  rw [hp, if_neg (by simp [hc, hne, hm])]
  dsimp only
  rw [if_neg (by simp [hne]), if_neg hn, he]
  simp [hN]

/-! ## Suffixes -/

variable {ky : String} {s : Suffix} {ss : List Suffix}

def suffixesOf (resourceKey : String) : List Suffix :=
  if resourceKey = "cpu" then cpuSuffixes
  else if isBinaryQuantityResource resourceKey then binarySuffixes ++ decimalSuffixes
  else decimalSuffixes

def finalDivOf (resourceKey : String) : Int := if resourceKey = "cpu" then 1 else 1000

theorem splitSuffix_append (r : List Char) : ∀ a b : List Suffix,
    splitSuffix r (a ++ b) = (splitSuffix r a).or (splitSuffix r b)
  | [], b => rfl
  | s :: a, b => by
    simp only [List.cons_append, splitSuffix]
    split
    · split
      · exact splitSuffix_append r a b
      · rfl
    · exact splitSuffix_append r a b

theorem parse_eq (ky r : String) : parseResourceQuantity ky r =
    parseQuantityWithSuffixes r.toList (suffixesOf ky) (finalDivOf ky) := by
  unfold parseResourceQuantity suffixesOf finalDivOf
  split
  · rfl
  split
  · unfold parseMemoryBytes parseQuantityWithSuffixes
    rw [splitSuffix_append]
    split
    · rfl
    cases splitSuffix r.toList binarySuffixes with
    | some p => rfl
    | none =>
      cases splitSuffix r.toList decimalSuffixes with
      | some p => rfl
      | none => simp_all [splitSuffix]
  · rfl

def allSuffixes : List Suffix := cpuSuffixes ++ (binarySuffixes ++ decimalSuffixes)

theorem mem_allSuffixes (h : s ∈ suffixesOf ky) : s ∈ allSuffixes := by
  unfold suffixesOf at h
  unfold allSuffixes
  split at h
  · exact List.mem_append_left _ h
  · split at h
    · exact List.mem_append_right _ h
    · exact List.mem_append_right _ (List.mem_append_right _ h)

theorem allSuffixes_end (h : s ∈ allSuffixes) :
    ∃ d ∈ s.text.toList.getLast?, isAsciiDigit d = false ∧ d ≠ '.' ∧ isWhitespace d = false := by
  have hall : ∀ s ∈ allSuffixes,
      s.text.toList.getLast?.any fun d => !isAsciiDigit d && d != '.' && !isWhitespace d := by decide
  have hs := hall s h
  cases hd : s.text.toList.getLast? with
  | none => simp [hd] at hs
  | some d => exact ⟨d, rfl, by simpa [hd, and_assoc] using hs⟩

theorem splitSuffix_none {raw : List Char} (hl : raw.getLast? = some c) (hc : isAsciiDigit c ∨ c = '.') :
    ∀ {ss : List Suffix}, (∀ s ∈ ss, s ∈ allSuffixes) → splitSuffix raw ss = none
  | [], _ => rfl
  | s :: ss, hs => by
    have hn : ¬s.text.toList.isSuffixOf raw := by
      intro hu
      obtain ⟨t, rfl⟩ := List.isSuffixOf_iff_suffix.1 hu
      obtain ⟨d, hd, h1, h2, -⟩ := allSuffixes_end (hs s (.head _))
      rw [List.getLast?_append, hd, Option.some_or] at hl
      cases hl
      simp [h1, h2] at hc
    rw [splitSuffix, stripSuffix, if_neg hn]
    exact splitSuffix_none hl hc fun s' h => hs s' (.tail _ h)

theorem parseQuantity_of {r : List Char} {d : Char} {fd : Int} (hc : r.head? = some c) (hd : r.getLast? = some d)
    (h1 : isWhitespace c = false) (h2 : isWhitespace d = false) :
    parseQuantityWithSuffixes r ss fd = match splitSuffix r ss with
      | some (number, suffix) => (parseDecimalRational number false).bind fun q => applyQuantity q (some suffix) fd
      | none => (parseDecimalRational r true).bind fun q => applyQuantity q none fd := by
  have hne : r ≠ [] := by
    rintro rfl
    cases hc
  exact if_neg (by simp [isTrimmed, hc, hd, h1, h2, hne])

/-! ## Exponents -/

theorem roundUp_isSome {A : Int} (hA : 0 ≤ A) (k : Nat) : (roundUp A k).isSome := by
  have hk : (0 : Int) < 10 ^ k := by positivity
  have hd : 0 ≤ A / 10 ^ k := Int.ediv_nonneg hA hk.le
  rw [roundUp, ceilDivBigint, if_neg (by omega)]
  split
  · simp [boundedBigI64, hd]
  · rw [Option.bind_some, boundedBigI64, if_neg (by omega)]
    rfl

theorem scaleQuantity_isSome {A : Int} {D : Nat} (hA : 0 ≤ A) (he : -2 ^ 31 < e) (hd : decimalLength A < 2 ^ 31)
    (hD : D < 2 ^ 31) : (scaleQuantity A D e).isSome := by
  unfold scaleQuantity
  split
  · split
    · rfl
    · exact roundUp_isSome (by positivity) _
  · split
    · rw [checkedI32, if_pos (by omega), checkedU32, if_pos (by omega)]
      simp only [Option.bind_eq_bind, Option.bind_some]
      split
      · rfl
      · rw [checkedU32, if_pos (by omega)]
        exact roundUp_isSome hA _
    · exact roundUp_isSome hA _

theorem applyQuantity_isSome {N : Int} {sc k : Nat} (h0 : 0 ≤ N) (hN : N < 10 ^ k) (hk : k + 100 < 2 ^ 31) (hs : sc ≤ k)
    (he : -2 ^ 31 < e) : (applyQuantity ⟨N, sc, e⟩ none (finalDivOf ky)).isSome := by
  obtain ⟨f, hf, hfd⟩ : ∃ f ≤ 3, decimalPowerScale (finalDivOf ky) = some f := by
    unfold finalDivOf
    split <;> decide
  have hn : decimalPowerScale (((none : Option Suffix).map Suffix.den).getD 1) = some 0 := by decide
  have hA : N * 1000 * ((none : Option Suffix).map Suffix.num).getD 1 = N * 1000 := by simp
  have hd : decimalLength (N * 1000) ≤ k + 3 := by
    have hlt : N * 1000 < 10 ^ (k + 3) := by
      rw [pow_add]
      omega
    refine (Nat.digits_length_le_iff (by decide) _).2 ((Int.toNat_lt' (by positivity)).2 ?_)
    exact_mod_cast hlt
  unfold applyQuantity
  dsimp only
  rw [hA]
  split
  · rfl
  · rw [hfd, hn]
    simp only [Option.bind_eq_bind, Option.bind_some]
    rw [checkedU32, if_pos (by omega), Option.bind_some, checkedU32, if_pos (by omega), Option.bind_some]
    refine scaleQuantity_isSome (by omega) ?_ (by omega) ?_
    · unfold normalizeDecimalExponent
      split <;> dsimp only <;> omega
    · unfold normalizeDecimalExponent
      split <;> dsimp only <;> omega

/-- A coefficient other than zero with the least exponent is refused. -/
theorem applyQuantity_least {N : Int} {sc : Nat} (hN : N ≠ 0) :
    applyQuantity ⟨N, sc, -2 ^ 31⟩ none (finalDivOf ky) = none := by
  have hA : N * 1000 * ((none : Option Suffix).map Suffix.num).getD 1 ≠ 0 := by simpa using hN
  have hscale : ∀ n scale, scaleQuantity n scale (-2 ^ 31) = none := fun n scale => by
    rw [scaleQuantity, if_neg (by decide), if_pos (by decide)]
    rfl
  unfold applyQuantity
  dsimp only
  rw [if_neg hA]
  simp only [Option.bind_eq_bind, Option.bind_eq_none_iff]
  intro _ _ _ _ _ _ _ _
  exact hscale _ _

theorem ofDigitChars_eq_zero_iff : ∀ {l : List Char}, (∀ c ∈ l, isAsciiDigit c) →
    (Nat.ofDigitChars 10 l 0 = 0 ↔ ∀ c ∈ l, c = '0')
  | [], _ => by simp
  | c :: l, h => by
    have hd := h c (.head _)
    simp only [isAsciiDigit, Bool.and_eq_true, decide_eq_true_eq] at hd
    have hc : c.toNat - '0'.toNat = 0 ↔ c = '0' := by
      have h0 : '0'.toNat = 48 := rfl
      rw [← Char.toNat_inj]
      omega
    rw [Nat.ofDigitChars_cons, Nat.mul_zero, Nat.zero_add, Nat.ofDigitChars_eq_ofDigitChars_zero, List.forall_mem_cons,
      Nat.add_eq_zero_iff, ofDigitChars_eq_zero_iff fun x hx => h x (.tail _ hx), Nat.mul_eq_zero, hc]
    simp

theorem trimEndZeros_zero {l : List Char} : (∀ c ∈ trimEndZeros l, c = '0') ↔ ∀ c ∈ l, c = '0' := by
  refine ⟨fun h c hc => ?_, fun h c hc => h c ((trimEndZeros_initial l).subset hc)⟩
  rw [← List.mem_reverse, ← List.takeWhile_append_dropWhile (p := (· = '0')) (l := l.reverse), List.mem_append] at hc
  rcases hc with hc | hc
  · simpa using List.mem_takeWhile_imp hc
  · exact h c (List.mem_reverse.2 hc)

/-- **Acceptance.** A decimal with an exponent is accepted whatever its magnitude exactly if the exponent is not the
least `i32` or all digits are zero. -/
theorem exponent_accepted (key : String) (int : List Char) (frac : Option (List Char)) (marker : Char)
    (text : List Char) (exponent : Int) (hint : int ≠ [] ∧ ∀ c ∈ int, isAsciiDigit c)
    (hfrac : ∀ c ∈ frac.getD [], isAsciiDigit c) (hmarker : isExponentMarker marker)
    (htext : parseI32 text = some exponent) (hlen : int.length + (frac.getD []).length + 100 < 2 ^ 31) :
    (parseResourceQuantity key (String.ofList (decimal int frac ++ marker :: text))).isSome = true ↔
      exponent ≠ -2 ^ 31 ∨ ∀ c ∈ int ++ frac.getD [], c = '0' := by
  obtain ⟨hne, hint⟩ := hint
  obtain ⟨c, tl, rfl⟩ := List.exists_cons_of_ne_nil hne
  have hc : isAsciiDigit c := hint c (.head _)
  have hch := decimal_chars hint hfrac
  obtain ⟨hg, si, ds, hsp, hds, -, hi⟩ := parseI32_reads htext
  have hl : (decimal (c :: tl) frac ++ marker :: text).getLast? = some (ds.getLast hds) := by
    have hs : decimal (c :: tl) frac ++ marker :: text = (decimal (c :: tl) frac ++ marker :: si) ++ ds := by
      simp [hsp]
    rw [hs, List.getLast?_append, List.getLast?_eq_some_getLast hds, Option.some_or]
  have hd := hi _ (List.getLast_mem hds)
  have hh : (decimal (c :: tl) frac ++ marker :: text).head? = some c := rfl
  have hp := trimEndZeros_initial (frac.getD [])
  have hdigits : ∀ x ∈ c :: tl ++ trimEndZeros (frac.getD []), isAsciiDigit x := fun x hx =>
    (List.mem_append.1 hx).elim (hint x) fun hx => hfrac x (hp.subset hx)
  have hlt := ofDigitChars_lt hdigits
  have hle := hp.length_le
  have hzero : Nat.ofDigitChars 10 (c :: tl ++ trimEndZeros (frac.getD [])) 0 = 0 ↔
      ∀ x ∈ c :: tl ++ frac.getD [], x = '0' := by
    rw [ofDigitChars_eq_zero_iff hdigits, List.forall_mem_append, List.forall_mem_append, trimEndZeros_zero]
  rw [parse_eq, String.toList_ofList,
    parseQuantity_of hh hl (isWhitespace_of_plain (.inl hc)) (isWhitespace_of_plain (.inl hd)),
    splitSuffix_none hl (.inl hd) fun _ => mem_allSuffixes]
  dsimp only
  rw [rational_digits hh hc (.inl rfl) (splitExponent_marker hch (by simp [decimal]) hmarker htext)
    (noExponent_decimal hint hfrac hne (by omega)), Option.bind_some, ← hzero]
  by_cases hmin : exponent = -2 ^ 31
  · by_cases hz : Nat.ofDigitChars 10 (c :: tl ++ trimEndZeros (frac.getD [])) 0 = 0
    · rw [hz]
      exact iff_of_true rfl (.inr rfl)
    · rw [hmin, applyQuantity_least (by exact_mod_cast hz)]
      exact iff_of_false nofun fun h => h.elim (fun h => h rfl) hz
  · refine iff_of_true (applyQuantity_isSome (by positivity) (by exact_mod_cast hlt) ?_ ?_ ?_) (.inl hmin)
    · rw [List.length_append]
      omega
    · rw [List.length_append]
      omega
    · omega

theorem exponent_accepted_small : (parseResourceQuantity "memory" "0.5e-2147483647").isSome :=
  (exponent_accepted "memory" ['0'] (some ['5']) 'e' "-2147483647".toList (-2147483647)
    ⟨by decide, List.forall_mem_singleton.2 rfl⟩ (List.forall_mem_singleton.2 rfl) rfl (by decide) (by decide)).2
    (.inl (by decide))

/-- The least exponent cannot be negated. -/
theorem least_exponent_refused : parseI32 "-2147483648".toList = some (-2 ^ 31) ∧
    parseResourceQuantity "cpu" "1e-2147483648" = none := by
  decide

/-! ## Formatting -/

def formatCpuMilli (milli : Int) : String :=
  if milli.tmod 1000 = 0 then toString (milli.tdiv 1000) else toString milli ++ "m"

def memorySizes : List (String × Int) :=
  [("Ei", 1024 ^ 6), ("Pi", 1024 ^ 5), ("Ti", 1024 ^ 4), ("Gi", 1024 ^ 3), ("Mi", 1024 ^ 2), ("Ki", 1024)]

def formatMemoryBytes (bytes : Int) : String :=
  match memorySizes.find? fun (_, size) => bytes ≥ size && bytes.tmod size = 0 with
  | some (suffix, size) => toString (bytes.tdiv size) ++ suffix
  | none => toString bytes

def formatResourceQuantity (resourceKey : String) (value : Int) : String :=
  if resourceKey = "cpu" then formatCpuMilli value
  else if isBinaryQuantityResource resourceKey then formatMemoryBytes value
  else toString value

variable {v x : Int} {u : Option Suffix}

theorem applyQuantity_whole {fd : Int} {f d : Nat} (hf : decimalPowerScale fd = some f)
    (hd : decimalPowerScale ((u.map Suffix.den).getD 1) = some d) (hfd : f + d < 100)
    (h : x * 1000 * (u.map Suffix.num).getD 1 = v * 10 ^ (f + d)) (h0 : 0 ≤ v) (hv : v ≤ i64Max) :
    applyQuantity ⟨x, 0, 0⟩ u fd = some v := by
  have hp : (0 : Int) < 10 ^ (f + d) := by positivity
  have hr : roundUp (v * 10 ^ (f + d)) (f + d) = some v := by
    rw [roundUp, ceilDivBigint, if_neg (by rw [not_or, not_lt, not_le]; exact ⟨by positivity, hp⟩),
      if_pos (Int.mul_emod_left _ _), Int.mul_ediv_cancel _ hp.ne', Option.bind_some, boundedBigI64, if_neg (by omega),
      min_eq_left hv]
  unfold applyQuantity
  dsimp only
  rw [h]
  split
  · next hz => rw [(mul_eq_zero.1 hz).resolve_right hp.ne']
  · rw [hf, hd]
    simp only [Option.bind_eq_bind, Option.bind_some, Nat.zero_add]
    rw [checkedU32, if_pos (by omega), Option.bind_some, checkedU32, if_pos (by omega)]
    exact hr

theorem toString_toList (h : 0 ≤ x) : (toString x).toList = Nat.toDigits 10 x.toNat := by
  obtain ⟨k, rfl⟩ := Int.eq_ofNat_of_zero_le h
  exact Nat.toList_repr

theorem toDigits_isAsciiDigit (k : Nat) : ∀ c ∈ Nat.toDigits 10 k, isAsciiDigit c := by
  intro c hc
  have h := Nat.isDigit_of_mem_toDigits (by decide) (by decide) hc
  simp only [Char.isDigit, Bool.and_eq_true, decide_eq_true_eq, UInt32.le_iff_toNat_le] at h
  simpa [isAsciiDigit] using h

theorem parse_printed (hx : 0 ≤ x) (hs : ∀ s ∈ u, s ∈ suffixesOf ky ∧
      splitSuffix (Nat.toDigits 10 x.toNat ++ s.text.toList) (suffixesOf ky) = some (Nat.toDigits 10 x.toNat, s))
    (hq : applyQuantity ⟨x, 0, 0⟩ u (finalDivOf ky) = some v) :
    parseResourceQuantity ky (toString x ++ u.elim "" Suffix.text) = some v := by
  have hi := toDigits_isAsciiDigit x.toNat
  have hne := @Nat.toDigits_ne_nil x.toNat 10
  have hN : parseDecimalRationalNoExponent (Nat.toDigits 10 x.toNat) = some (x, 0) := by
    have h := @noExponent_decimal _ none hi (by simp) hne (by simp)
    have ht : trimEndZeros [] = [] := rfl
    rw [decimal, Option.elim_none, List.append_nil, Option.getD_none, ht, List.append_nil,
      Nat.ofDigitChars_ten_toDigits, Int.toNat_of_nonneg hx] at h
    exact h
  have hp := splitExponent_plain fun c hc => .inl (hi c hc)
  have hn : ∀ c ∈ Nat.toDigits 10 x.toNat, isExponentMarker c = false := fun c hc => not_exponentMarker (.inl (hi c hc))
  have ha := List.getLast?_eq_some_getLast hne
  have hld := hi _ (List.getLast_mem hne)
  rw [parse_eq, String.toList_append, toString_toList hx]
  generalize Nat.toDigits 10 x.toNat = w at *
  obtain ⟨c, tl, rfl⟩ := List.exists_cons_of_ne_nil hne
  have hcd := hi c (.head _)
  have hw := isWhitespace_of_plain (.inl hcd)
  cases u with
  | none =>
    rw [Option.elim_none, String.toList_empty, List.append_nil, parseQuantity_of rfl ha hw
      (isWhitespace_of_plain (.inl hld)), splitSuffix_none ha (.inl hld) fun _ => mem_allSuffixes]
    dsimp only
    rw [rational_digits rfl hcd (.inl rfl) hp hN]
    exact hq
  | some s =>
    obtain ⟨hm, hsp⟩ := hs s rfl
    obtain ⟨d, hd, -, -, hdw⟩ := allSuffixes_end (mem_allSuffixes hm)
    have hl : (c :: tl ++ s.text.toList).getLast? = some d := by
      rw [List.getLast?_append, hd, Option.some_or]
    rw [Option.elim_some, parseQuantity_of rfl hl hw hdw, hsp]
    dsimp only
    rw [rational_digits rfl hcd (.inr hn) hp hN]
    exact hq

theorem splitSuffix_of_mem {k : Nat} (h0 : l ≠ []) : ∀ {ss : List Suffix},
    (∀ x ∈ ss, x.text.toList.length = k) → ss.Pairwise (·.text ≠ ·.text) → s ∈ ss →
      splitSuffix (l ++ s.text.toList) ss = some (l, s)
  | x :: ss, hk, hp, hs => by
    have hi := @List.suffix_append_inj_of_length_eq _ [] l x.text.toList s.text.toList
      ((hk x (.head _)).trans (hk s hs).symm)
    rw [List.nil_append] at hi
    rw [splitSuffix, stripSuffix]
    rcases List.mem_cons.1 hs with rfl | hs
    · rw [if_pos (List.isSuffixOf_iff_suffix.2 (hi.2 ⟨List.nil_suffix, rfl⟩))]
      simp [h0]
    · have hne : ¬x.text.toList.isSuffixOf (l ++ s.text.toList) := fun h =>
        (List.pairwise_cons.1 hp).1 s hs (String.toList_inj.1 (hi.1 (List.isSuffixOf_iff_suffix.1 h)).2)
      rw [if_neg hne]
      exact splitSuffix_of_mem h0 (fun y hy => hk y (.tail _ hy)) (List.pairwise_cons.1 hp).2 hs

theorem finalDivOf_scale (hc : ky ≠ "cpu") : decimalPowerScale (finalDivOf ky) = some 3 := by
  rw [finalDivOf, if_neg hc]
  decide

theorem parse_toString (hc : ky ≠ "cpu") (h0 : 0 ≤ v) (hv : v ≤ i64Max) :
    parseResourceQuantity ky (toString v) = some v := by
  have hq := applyQuantity_whole (x := v) (u := none) (d := 0) (finalDivOf_scale hc) (by decide) (by decide) (by simp)
    h0 hv
  simpa using parse_printed h0 (by simp) hq

theorem parse_formatCpuMilli (h0 : 0 ≤ v) (hv : v ≤ i64Max) :
    parseResourceQuantity "cpu" (formatCpuMilli v) = some v := by
  have hu : suffixesOf "cpu" = cpuSuffixes := if_pos rfl
  have hf : decimalPowerScale (finalDivOf "cpu") = some 0 := by decide
  unfold formatCpuMilli
  rw [Int.tmod_eq_emod_of_nonneg h0, Int.tdiv_eq_ediv_of_nonneg h0]
  split
  · have hq := applyQuantity_whole (x := v / 1000) (v := v) (u := none) (d := 0) hf (by decide) (by decide)
      (by simp; omega) h0 hv
    simpa using parse_printed (by omega) (by simp) hq
  · have hs : (⟨"m", 1, 10 ^ 3⟩ : Suffix) ∈ cpuSuffixes := by simp [cpuSuffixes]
    have hq := applyQuantity_whole (x := v) (u := some ⟨"m", 1, 10 ^ 3⟩) (d := 3) hf (by decide) (by decide) (by simp)
      h0 hv
    refine parse_printed (u := some ⟨"m", 1, 10 ^ 3⟩) h0 ?_ hq
    rintro _ ⟨⟩
    rw [hu]
    exact ⟨hs, splitSuffix_of_mem (k := 1) Nat.toDigits_ne_nil (by decide) (by decide) hs⟩

theorem memorySizes_suffixes :
    ∀ p ∈ memorySizes, 0 < p.2 ∧ ∃ s ∈ binarySuffixes, s.text = p.1 ∧ s.num = p.2 ∧ s.den = 1 := by
  decide

theorem parse_formatMemoryBytes (hc : ky ≠ "cpu") (hb : isBinaryQuantityResource ky) (h0 : 0 ≤ v)
    (hv : v ≤ i64Max) : parseResourceQuantity ky (formatMemoryBytes v) = some v := by
  have hu : suffixesOf ky = binarySuffixes ++ decimalSuffixes := by rw [suffixesOf, if_neg hc, if_pos hb]
  unfold formatMemoryBytes
  split
  · next t si hf =>
    have hm : (t, si) ∈ memorySizes := List.mem_of_find?_eq_some hf
    obtain ⟨hpos, s, hs, ht, hn, he⟩ := memorySizes_suffixes (t, si) hm
    dsimp only at hpos ht hn
    subst ht hn
    have ho := List.find?_some hf
    simp only [Bool.and_eq_true, decide_eq_true_eq, Int.tmod_eq_emod_of_nonneg h0] at ho
    rw [Int.tdiv_eq_ediv_of_nonneg h0]
    have hd : v / s.num * s.num = v := Int.ediv_mul_cancel (Int.dvd_of_emod_eq_zero ho.2)
    have hd1 : decimalPowerScale (((some s).map Suffix.den).getD 1) = some 0 := by
      rw [Option.map_some, Option.getD_some, he]
      decide
    refine parse_printed (u := some s) (Int.ediv_nonneg h0 hpos.le) ?_
      (applyQuantity_whole (finalDivOf_scale hc) hd1 (by decide) ?_ h0 hv)
    · rintro _ ⟨⟩
      have hp := splitSuffix_of_mem (k := 2) (@Nat.toDigits_ne_nil (v / s.num).toNat 10) (by decide) (by decide) hs
      rw [hu, splitSuffix_append, hp]
      exact ⟨List.mem_append_left _ hs, rfl⟩
    · rw [Option.map_some, Option.getD_some, mul_right_comm, hd]
      norm_num
  · exact parse_toString hc h0 hv

/-- **Round trip.** A value that is not negative is read back from what is written for it. -/
theorem format_round_trip (key : String) (value : Int) (h0 : 0 ≤ value) (hmax : value ≤ i64Max) :
    parseResourceQuantity key (formatResourceQuantity key value) = some value := by
  unfold formatResourceQuantity
  split
  · next hc =>
    subst hc
    exact parse_formatCpuMilli h0 hmax
  · next hc =>
    split
    · next hb => exact parse_formatMemoryBytes hc hb h0 hmax
    · exact parse_toString hc h0 hmax

theorem format_round_trip_kib : formatResourceQuantity "memory" 3072 = "3Ki" ∧
    parseResourceQuantity "memory" (formatResourceQuantity "memory" 3072) = some 3072 :=
  ⟨by decide, format_round_trip "memory" 3072 (by decide) (by decide)⟩

end Klights.Quantity
