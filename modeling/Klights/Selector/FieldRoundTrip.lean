import Klights.Selector.Terms

/-!
# Field selectors that are written with escapes

Requirements whose values are written with `\`, `,` and `=` escaped and joined by commas, read back by
`FieldSelector.parse` (`klights-types/src/field_selector.rs`). The three loops of the parser agree on what is escaped:

- `Whole`: a text that the split into terms goes through without ending a term (`splitTerms_joined`);
- `cutAtOperator_written`, `unescapeChars_escaped`: the operator and the value of one term;
- `field_selector_round_trip`: the requirements are read back, if no field has a separator in its name.
-/

namespace Klights.Selector

open Lib List

inductive OperatorToken where
  | single
  | double
  | bang

def OperatorToken.text : OperatorToken → List Char
  | single => ['=']
  | double => ['=', '=']
  | bang => ['!', '=']

def OperatorToken.operator : OperatorToken → FieldSelectorOperator
  | single | double => .equals
  | bang => .notEquals

/-- A requirement together with the spelling of its operator. -/
structure WrittenRequirement where
  field : String
  token : OperatorToken
  value : String

def WrittenRequirement.requirement (r : WrittenRequirement) : FieldRequirement := ⟨r.field, r.token.operator, r.value⟩

def escapeChar (c : Char) : List Char := if isEscapable c then ['\\', c] else [c]

def escapeValue (value : List Char) : List Char := value.flatMap escapeChar

def WrittenRequirement.text (r : WrittenRequirement) : List Char :=
  r.field.toList ++ (r.token.text ++ escapeValue r.value.toList)

def writeSelector (requirements : List WrittenRequirement) : String :=
  String.ofList ([','].intercalate (requirements.map WrittenRequirement.text))

/-- A field name without separators. -/
def isPlainName (field : String) : Bool := field.toList.all fun c => !isEscapable c && c ≠ '!'

/-! ## Terms -/

/-- A text that the split into terms reads through, wherever a term begins. -/
def Whole (text : List Char) : Prop :=
  ∀ term rest, splitTermsFrom false term (text ++ rest) = splitTermsFrom false (text.reverse ++ term) rest

theorem Whole.append {t u : List Char} (ht : Whole t) (hu : Whole u) : Whole (t ++ u) := by
  intro term rest
  rw [append_assoc, ht, hu, reverse_append, append_assoc]

theorem whole_flatMap {f : Char → List Char} (h : ∀ c, Whole (f c)) (t : List Char) : Whole (t.flatMap f) := by
  induction t with
  | nil => exact fun _ _ => rfl
  | cons c tl ih => exact (h c).append ih

theorem whole_plain {t : List Char} (h : ∀ c ∈ t, c ≠ '\\' ∧ c ≠ ',') : Whole t := by
  intro term rest
  induction t generalizing term with
  | nil => rfl
  | cons c tl ih =>
    obtain ⟨hc, ht⟩ := forall_mem_cons.1 h
    rw [cons_append, splitTermsFrom, if_neg Bool.false_ne_true, if_neg hc.1, if_neg hc.2, ih ht, reverse_cons,
      append_assoc]
    rfl

theorem whole_escapeChar (c : Char) : Whole (escapeChar c) := by
  unfold escapeChar
  split
  · exact fun _ _ => rfl
  · rename_i hc
    refine whole_plain fun d hd => ?_
    rw [mem_singleton.1 hd]
    simp_all [isEscapable]

theorem splitTermsFrom_joined {t : List Char} {ts : List (List Char)} (h : ∀ u ∈ t :: ts, Whole u) :
    splitTermsFrom false [] ([','].intercalate (t :: ts)) = t :: ts := by
  induction ts generalizing t with
  | nil =>
    have ht := h t (.head _) [] []
    simpa [intercalate, splitTermsFrom] using ht
  | cons u tl ih =>
    obtain ⟨ht, hr⟩ := forall_mem_cons.1 h
    have hj : [','].intercalate (t :: u :: tl) = t ++ ',' :: [','].intercalate (u :: tl) := by
      simp [intercalate]
    rw [hj, ht, append_nil, splitTermsFrom, if_neg Bool.false_ne_true, if_neg (by decide), if_pos rfl, reverse_reverse,
      ih hr]

/-! ## One term -/

theorem cutAtOperator_written {f v : List Char} (hf : ∀ c ∈ f, c ≠ '=' ∧ c ≠ '!') (hv : v.head? ≠ some '=')
    (token : OperatorToken) : cutAtOperator (f ++ (token.text ++ v)) = some (f, token.operator, v) := by
  induction f with
  | nil =>
    cases token with
    | single =>
      have hl : leadingOperator ('=' :: v) = some (.equals, v) := by
        unfold leadingOperator
        split <;> simp_all
      simp [cutAtOperator, OperatorToken.text, hl, OperatorToken.operator]
    | double => rfl
    | bang => rfl
  | cons c tl ih =>
    obtain ⟨hc, ht⟩ := forall_mem_cons.1 hf
    have hl : leadingOperator (c :: (tl ++ (token.text ++ v))) = none := by
      unfold leadingOperator
      split <;> simp_all
    rw [cons_append, cutAtOperator, hl, ih ht]
    rfl

theorem head_escapeValue (v : List Char) : (escapeValue v).head? ≠ some '=' := by
  cases v with
  | nil => simp [escapeValue]
  | cons c tl =>
    rw [escapeValue, flatMap_cons, escapeChar]
    split
    · simp
    · simp_all [isEscapable]

theorem unescapeChars_escaped (v : List Char) : unescapeChars (escapeValue v) = .ok v := by
  induction v with
  | nil => rfl
  | cons c tl ih =>
    rw [escapeValue, flatMap_cons, escapeChar, ← escapeValue]
    split
    · rename_i hc
      have hs : unescapeChars ('\\' :: c :: escapeValue tl) =
          if isEscapable c then (unescapeChars (escapeValue tl)).map (c :: ·) else .error (.invalidEscape c) := rfl
      rw [cons_append, cons_append, nil_append, hs, if_pos hc, ih]
      rfl
    · rename_i hc
      have hp : c ≠ '\\' ∧ c ≠ ',' ∧ c ≠ '=' := by simpa [isEscapable, and_assoc] using hc
      rw [cons_append, nil_append, unescapeChars_cons hp.1, if_neg (by simp [hp]), ih]
      rfl

theorem parseTerm_text {r : WrittenRequirement} (h : isPlainName r.field) : parseTerm r.text = .ok r.requirement := by
  have hf : ∀ c ∈ r.field.toList, c ≠ '=' ∧ c ≠ '!' := by
    intro c hc
    have := all_eq_true.1 h c hc
    simp_all [isEscapable]
  have hc := cutAtOperator_written hf (head_escapeValue r.value.toList) r.token
  simp [parseTerm, parseRequirement, WrittenRequirement.text, hc, unescapeValue_eq, unescapeChars_escaped,
    WrittenRequirement.requirement, bind, Except.bind, pure, Except.pure]

theorem whole_token (token : OperatorToken) : Whole token.text := by
  cases token <;> exact fun _ _ => rfl

theorem whole_text {r : WrittenRequirement} (h : isPlainName r.field) : Whole r.text := by
  refine (whole_plain fun c hc => ?_).append ((whole_token _).append (whole_flatMap whole_escapeChar _))
  have := all_eq_true.1 h c hc
  simp_all [isEscapable]

theorem text_ne_nil (r : WrittenRequirement) : r.text ≠ [] := by
  cases ht : r.token <;> simp [WrittenRequirement.text, OperatorToken.text, ht]

theorem splitTerms_written {rs : List WrittenRequirement} (h : ∀ r ∈ rs, isPlainName r.field) :
    splitTerms (writeSelector rs).toList = rs.map WrittenRequirement.text := by
  rw [writeSelector, String.toList_ofList, splitTerms]
  cases rs with
  | nil => rfl
  | cons r tl =>
    have hn : [','].intercalate ((r :: tl).map WrittenRequirement.text) ≠ [] := by
      cases tl <;> simp [intercalate, text_ne_nil]
    rw [if_neg (by simpa using hn), map_cons, splitTermsFrom_joined]
    rw [← map_cons, forall_mem_map]
    exact fun r hr => whole_text (h r hr)

/-- **Round trip.** Requirements whose fields are plain names are read back from the selector that is written for them,
in some order. -/
theorem field_selector_round_trip (requirements : List WrittenRequirement)
    (hfields : ∀ r ∈ requirements, isPlainName r.field = true) :
    ∃ selector, FieldSelector.parse (writeSelector requirements) = .ok selector ∧
      ∀ requirement, requirement ∈ selector.requirements ↔
        requirement ∈ requirements.map WrittenRequirement.requirement := by
  have hm : ∀ t, t ∈ ((splitTerms (writeSelector requirements).toList).insertionSort fun a b =>
      String.ofList a ≤ String.ofList b).filter (fun t => !t.isEmpty) ↔ ∃ r ∈ requirements, r.text = t := by
    intro t
    rw [mem_filter, mem_insertionSort, splitTerms_written hfields, mem_map]
    refine and_iff_left_of_imp ?_
    rintro ⟨r, -, rfl⟩
    simpa using text_ne_nil r
  obtain ⟨read, hread⟩ := mapM_ok_iff.2 fun t ht => by
    obtain ⟨r, hr, rfl⟩ := (hm t).1 ht
    exact ⟨_, parseTerm_text (hfields r hr)⟩
  refine ⟨⟨read⟩, by rw [FieldSelector.parse, hread]; rfl, fun q => ?_⟩
  constructor
  · intro hq
    obtain ⟨t, ht, hp⟩ := of_mem_mapM_ok hread q hq
    obtain ⟨r, hr, rfl⟩ := (hm t).1 ht
    rw [parseTerm_text (hfields r hr)] at hp
    cases hp
    exact mem_map_of_mem hr
  · intro hq
    obtain ⟨r, hr, rfl⟩ := mem_map.1 hq
    obtain ⟨q, hq, hp⟩ := mem_of_mapM_ok hread _ ((hm _).2 ⟨r, hr, rfl⟩)
    rw [parseTerm_text (hfields r hr)] at hp
    cases hp
    exact hq

def sampleWritten : List WrittenRequirement := [⟨"metadata.name", .double, "a,b=\\c"⟩, ⟨"status.phase", .bang, ""⟩]

theorem field_selector_round_trip_separators :
    ∃ selector, FieldSelector.parse (writeSelector sampleWritten) = .ok selector ∧
      ∀ requirement, requirement ∈ selector.requirements ↔
        requirement ∈ sampleWritten.map WrittenRequirement.requirement :=
  field_selector_round_trip sampleWritten (by decide +kernel)

/-- A field that ends with `!` makes another operator of a `=`. -/
theorem bang_field_misread :
    FieldSelector.parse (writeSelector [⟨"a!", .single, "b"⟩]) = .ok ⟨[⟨"a", .notEquals, "b"⟩]⟩ := by
  decide +kernel

end Klights.Selector
