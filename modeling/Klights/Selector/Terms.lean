import Klights.Selector.Parse

/-!
# Parts of a field selector and its terms

A field selector is cut at every comma by those who only look for one field (`parts`), and at the commas that are not
escaped by its parser. Where the two agree:

- `term_of_part`: a part without a backslash ends a term, after nothing or after an escaped comma;
- `parseTerm_part`: a term that ends with `field=value` either is that requirement, or its field has a comma;
- `requirement_of_part`: a part `field=value` of a selector that parses is one of its requirements, unless some
  requirement has a comma in its field.
-/

namespace Klights.Selector

open Lib List

/-- The texts between commas, escaped or not. -/
def parts (selector : String) : List (List Char) := selector.toList.splitOn ','

/-! ## Cutting at commas -/

theorem splitOn_cons_comma (rest : List Char) : (',' :: rest).splitOn ',' = [] :: rest.splitOn ',' := by
  rw [splitOn_cons_eq_if_modifyHead, if_pos (by simp)]

theorem splitOn_cons_other {c : Char} (h : c ≠ ',') (rest : List Char) :
    (c :: rest).splitOn ',' = (rest.splitOn ',').modifyHead (c :: ·) := by
  rw [splitOn_cons_eq_if_modifyHead, if_neg (by simpa using h)]

/-- A part at the end of a term: it follows nothing, or a comma. -/
def EndsWith (term part : List Char) : Prop :=
  ∃ before, term = before ++ part ∧ (before = [] ∨ before.getLast? = some ',')

/-- The current term goes on with the first part, and the other parts end terms of their own. -/
theorem splitTermsFrom_parts : ∀ (tx : List Char) (e : Bool) (tm f : List Char)
    (os : List (List Char)), tx.splitOn ',' = f :: os →
      (e = false → '\\' ∉ f → tm.reverse ++ f ∈ splitTermsFrom e tm tx) ∧
      ∀ p ∈ os, '\\' ∉ p → ∃ t ∈ splitTermsFrom e tm tx, EndsWith t p
  | [], e, tm, f, os, h => by
    obtain ⟨rfl, rfl⟩ := List.cons.inj (h : [[]] = f :: os)
    exact ⟨fun _ _ => by simp [splitTermsFrom], fun p hpt => absurd hpt not_mem_nil⟩
  | c :: tl, e, tm, f, os, h => by
    obtain ⟨next, mo, hr⟩ := exists_cons_of_ne_nil (splitOn_ne_nil ',' tl)
    by_cases hc : c = ','
    · subst hc
      rw [splitOn_cons_comma, hr] at h
      obtain ⟨rfl, rfl⟩ := List.cons.inj h
      cases e with
      | true =>
        obtain ⟨hx, ho⟩ := splitTermsFrom_parts tl false (',' :: tm) next mo hr
        refine ⟨fun hf => absurd hf (by simp), fun p hpt hp => ?_⟩
        rcases mem_cons.1 hpt with rfl | hpt
        · exact ⟨_, hx rfl hp, (',' :: tm).reverse, rfl, .inr (by simp)⟩
        · exact ho p hpt hp
      | false =>
        obtain ⟨hx, ho⟩ := splitTermsFrom_parts tl false [] next mo hr
        rw [splitTermsFrom, if_neg (by simp), if_neg (by decide), if_pos rfl]
        refine ⟨fun _ _ => by simp, fun p hpt hp => ?_⟩
        rcases mem_cons.1 hpt with rfl | hpt
        · exact ⟨p, mem_cons_of_mem _ (by simpa using hx rfl hp), [], rfl, .inl rfl⟩
        · obtain ⟨t, ht, hn⟩ := ho p hpt hp
          exact ⟨t, mem_cons_of_mem _ ht, hn⟩
    · rw [splitOn_cons_other hc, hr] at h
      obtain ⟨rfl, rfl⟩ := List.cons.inj (h : (c :: next) :: mo = f :: os)
      cases e with
      | true =>
        obtain ⟨-, ho⟩ := splitTermsFrom_parts tl false (c :: tm) next mo hr
        exact ⟨fun hf => absurd hf (by simp), ho⟩
      | false =>
        by_cases hb : c = '\\'
        · subst hb
          obtain ⟨-, ho⟩ := splitTermsFrom_parts tl true ('\\' :: tm) next mo hr
          exact ⟨fun _ hp => absurd mem_cons_self hp, ho⟩
        · obtain ⟨hx, ho⟩ := splitTermsFrom_parts tl false (c :: tm) next mo hr
          rw [splitTermsFrom, if_neg (by simp), if_neg hb, if_neg hc]
          refine ⟨fun _ hp => ?_, ho⟩
          have he := hx rfl fun hm => hp (mem_cons_of_mem c hm)
          simpa using he

variable {s : String} {rest tl : List Char}

theorem term_of_part {part : List Char} (hpt : part ∈ parts s) (hl : '\\' ∉ part)
    (hn : part ≠ []) : ∃ t ∈ splitTerms s.toList, EndsWith t part := by
  unfold parts at hpt
  unfold splitTerms
  obtain ⟨fst, os, hs⟩ := exists_cons_of_ne_nil (splitOn_ne_nil ',' s.toList)
  have ht : s.toList ≠ [] := by
    intro he
    rw [he] at hpt
    exact hn (mem_singleton.1 (hpt : part ∈ [[]]))
  rw [if_neg (fun he => ht (isEmpty_iff.1 he))]
  obtain ⟨hf1, ho⟩ := splitTermsFrom_parts _ false [] fst os hs
  rw [hs] at hpt
  rcases mem_cons.1 hpt with rfl | hpt
  · exact ⟨part, by simpa using hf1 rfl hl, [], rfl, .inl rfl⟩
  · exact ho part hpt hl

/-! ## Operators and escapes -/

theorem leadingOperator_equals (rest : List Char) : leadingOperator ('=' :: rest) ≠ none := by
  unfold leadingOperator
  split
  case h_4 h => exact absurd rfl (h rest)
  all_goals simp

/-- What `cutAtOperator` finds: an operator whose `=` is the first one of the text, but for a `!` before it. -/
theorem cutAtOperator_spec : ∀ {tx field value : List Char} {o : FieldSelectorOperator},
    cutAtOperator tx = some (field, o, value) → '=' ∉ field ∧ ((o = .notEquals ∧ tx = field ++ '!' :: '=' :: value) ∨
        (o = .equals ∧ (tx = field ++ '=' :: '=' :: value ∨ tx = field ++ '=' :: value ∧ value.head? ≠ some '=')))
  | [], _, _, _, h => by cases h
  | c :: tl, field, value, o, h => by
    rw [cutAtOperator] at h
    cases hlea : leadingOperator (c :: tl) with
    | some fo =>
      rw [hlea] at h
      cases h
      refine ⟨not_mem_nil, ?_⟩
      unfold leadingOperator at hlea
      split at hlea
      case h_1 => cases hlea; exact .inl ⟨rfl, by assumption⟩
      case h_2 => cases hlea; exact .inr ⟨rfl, .inl (by assumption)⟩
      case h_3 tail hd ht =>
        cases hlea
        refine .inr ⟨rfl, .inr ⟨ht, fun hh => ?_⟩⟩
        obtain ⟨mo, rfl⟩ := head?_eq_some_iff.1 hh
        exact hd mo rfl
      case h_4 => cases hlea
    | none =>
      rw [hlea] at h
      obtain ⟨⟨before, fo, aft⟩, hr, hp⟩ := Option.map_eq_some_iff.1 h
      cases hp
      obtain ⟨hfi, hc⟩ := cutAtOperator_spec hr
      refine ⟨?_, ?_⟩
      · intro hmem
        rcases mem_cons.1 hmem with rfl | hmem
        · exact leadingOperator_equals tl hlea
        · exact hfi hmem
      · rcases hc with ⟨ho, rfl⟩ | ⟨ho, rfl | ⟨rfl, hh⟩⟩
        · exact .inl ⟨ho, rfl⟩
        · exact .inr ⟨ho, .inl rfl⟩
        · exact .inr ⟨ho, .inr ⟨rfl, hh⟩⟩

theorem unescapeChars_cons {c : Char} (hc : c ≠ '\\') (rest : List Char) : unescapeChars (c :: rest) =
      if c = ',' ∨ c = '=' then .error (.unescapedCharacter c) else (unescapeChars rest).map (c :: ·) := by
  rw [unescapeChars]
  · exact fun h _ => hc h
  · exact fun d _ h _ => hc h

/-- A value that can be read starts with a plain character, or with an escaped one. -/
theorem unescapeChars_cons_ok {c : Char} {value : List Char} (h : unescapeChars (c :: rest) = .ok value) :
    (c ≠ '\\' ∧ c ≠ ',' ∧ c ≠ '=' ∧ ∃ tail, unescapeChars rest = .ok tail ∧ value = c :: tail) ∨
      (c = '\\' ∧ ∃ d more tail, rest = d :: more ∧ unescapeChars more = .ok tail ∧ value = d :: tail) := by
  by_cases hc : c = '\\'
  · subst hc
    cases rest with
    | nil => cases h
    | cons d more =>
      have hs : unescapeChars ('\\' :: d :: more) =
          if isEscapable d then (unescapeChars more).map (d :: ·) else .error (.invalidEscape d) := rfl
      rw [hs] at h
      split at h
      · obtain ⟨tail, ht, rfl⟩ := map_eq_ok.1 h
        exact .inr ⟨rfl, d, more, tail, rfl, ht, rfl⟩
      · cases h
  · rw [unescapeChars_cons hc] at h
    obtain ⟨hp, h⟩ := ite_error_eq_ok.1 h
    obtain ⟨tail, ht, rfl⟩ := map_eq_ok.1 h
    rw [not_or] at hp
    exact .inl ⟨hc, hp.1, hp.2, tail, ht, rfl⟩

theorem unescapeChars_after_comma : ∀ {before aft value : List Char},
    unescapeChars (before ++ ',' :: aft) = .ok value → ∃ rest, unescapeChars aft = .ok rest
  | [], aft, value, h => by
    rcases unescapeChars_cons_ok h with ⟨-, hc, -⟩ | ⟨hc, -⟩
    · exact absurd rfl hc
    · exact absurd hc (by decide)
  | [c], aft, value, h => by
    rcases unescapeChars_cons_ok h with ⟨-, -, -, tail, ht, -⟩ | ⟨-, d, more, tail, hm, ht, -⟩
    · exact @unescapeChars_after_comma [] _ _ ht
    · obtain ⟨-, rfl⟩ := List.cons.inj hm
      exact ⟨tail, ht⟩
  | c :: d :: before, aft, value, h => by
    rcases unescapeChars_cons_ok h with ⟨-, -, -, tail, ht, -⟩ | ⟨-, e, more, tail, hm, ht, -⟩
    · exact @unescapeChars_after_comma (d :: before) _ _ ht
    · obtain ⟨-, rfl⟩ := List.cons.inj hm
      exact @unescapeChars_after_comma before _ _ ht

theorem unescapeChars_plain : ∀ {tx value : List Char}, '\\' ∉ tx → unescapeChars tx = .ok value → value = tx ∧ '=' ∉ tx
  | [], _, _, h => ⟨(Except.ok.inj h).symm, not_mem_nil⟩
  | c :: tl, value, hp, h => by
    rcases unescapeChars_cons_ok h with ⟨-, -, he, tail, ht, rfl⟩ | ⟨rfl, -⟩
    · obtain ⟨rfl, hr⟩ := unescapeChars_plain (fun hm => hp (mem_cons_of_mem c hm)) ht
      exact ⟨rfl, fun hm => (mem_cons.1 hm).elim (fun heq => he heq.symm) hr⟩
    · exact absurd mem_cons_self hp

theorem unescapeChars_of_none : ∀ {tx : List Char}, tx.any isEscapable = false → unescapeChars tx = .ok tx
  | [], _ => rfl
  | c :: tl, h => by
    rw [any_cons, Bool.or_eq_false_iff] at h
    have hr := unescapeChars_of_none h.2
    have hc : c ≠ '\\' ∧ c ≠ ',' ∧ c ≠ '=' := by simpa [isEscapable, and_assoc] using h.1
    rw [unescapeChars_cons hc.1, if_neg (by simp [hc.2.1, hc.2.2]), hr]
    rfl

theorem unescapeValue_eq (text : List Char) : unescapeValue text = unescapeChars text := by
  unfold unescapeValue
  cases ha : text.any isEscapable with
  | true => rfl
  | false => exact (unescapeChars_of_none ha).symm

theorem parseTerm_ok {r : List Char} {requirement : FieldRequirement} (h : parseTerm r = .ok requirement) :
    ∃ field value text, cutAtOperator r = some (field, requirement.operator, value) ∧ unescapeChars value = .ok text ∧
      requirement.field = String.ofList field ∧ requirement.value = String.ofList text := by
  obtain ⟨⟨field, o, value⟩, hcut, h⟩ := bind_eq_ok.1 h
  obtain ⟨text, ht, h⟩ := bind_eq_ok.1 h
  cases h
  unfold parseRequirement at hcut
  split at hcut
  case h_1 hs =>
    cases hcut
    exact ⟨field, value, text, hs, (unescapeValue_eq value).symm.trans ht, rfl, rfl⟩
  case h_2 => cases hcut

/-! ## Requirements -/

/-- A field name without separators. -/
structure PlainField (field : List Char) : Prop where
  nonempty : field ≠ []
  equals : '=' ∉ field
  bang : '!' ∉ field
  backslash : '\\' ∉ field

/-- A value that both readings take as it stands. -/
structure PlainValue (value : List Char) : Prop where
  backslash : '\\' ∉ value
  head : value.head? ≠ some '='

variable {before field value : List Char} {requirement rq : FieldRequirement} {fr : List Char}
  {o : FieldSelectorOperator} {ps : FieldSelector}

section

variable (hfi : PlainField field) (hv : PlainValue value)

include hfi hv

theorem not_read_after_comma {text : List Char} : unescapeChars (fr ++ ',' :: (field ++ '=' :: value)) ≠ .ok text := by
  intro h
  obtain ⟨tl, hr⟩ := unescapeChars_after_comma h
  refine (unescapeChars_plain ?_ hr).2 (by simp)
  simp [hfi.backslash, hv.backslash]

theorem no_earlier_operator {text : List Char} {k : List Char} (he : '=' ∈ fr)
    (hc : cutAtOperator (fr ++ ',' :: (field ++ '=' :: value)) = some (k, o, rest)) :
    unescapeChars rest ≠ .ok text := by
  obtain ⟨fst, se, rfl, hf1⟩ := eq_append_cons_of_mem he
  obtain ⟨hk, hs⟩ := cutAtOperator_spec hc
  rw [append_assoc, cons_append] at hs
  rcases hs with ⟨-, ht⟩ | ⟨-, ht | ⟨ht, -⟩⟩
  · have heq : se ++ ',' :: (field ++ '=' :: value) = rest :=
      (cut_unique (ht.trans (append_cons k '!' ('=' :: rest))) hf1 (by simp [hk])).2
    rw [← heq]
    exact not_read_after_comma hfi hv
  · have heq := (cut_unique ht hf1 hk).2
    cases se with
    | nil => exact absurd (List.cons.inj heq).1 (by decide)
    | cons d se =>
      rw [← (List.cons.inj heq).2]
      exact not_read_after_comma hfi hv
  · rw [← (cut_unique ht hf1 hk).2]
    exact not_read_after_comma hfi hv

/-- Where the first `=` of a term is that of its last part, the field is all that stands before it. -/
theorem cut_at_part (hb : '=' ∉ before) {k : List Char}
    (hc : cutAtOperator (before ++ (field ++ '=' :: value)) = some (k, o, tl)) :
    k = before ++ field ∧ o = .equals ∧ tl = value := by
  obtain ⟨hk, hs⟩ := cutAtOperator_spec hc
  have hf1 : '=' ∉ before ++ field := by simp [hb, hfi.equals]
  rw [← append_assoc] at hs
  rcases hs with ⟨-, ht⟩ | ⟨ho, ht | ⟨ht, -⟩⟩
  · -- a field does not end with a bang
    have heq : before ++ field = k ++ ['!'] :=
      (cut_unique (ht.trans (append_cons k '!' ('=' :: tl))) hf1 (by simp [hk])).1
    have hl := congrArg List.getLast? heq
    rw [getLast?_append_of_ne_nil _ hfi.nonempty, getLast?_concat] at hl
    exact absurd (mem_of_getLast? hl) hfi.bang
  · have heq := (cut_unique ht hf1 hk).2
    exact absurd (by rw [heq]; rfl) hv.head
  · obtain ⟨heq, hr⟩ := cut_unique ht hf1 hk
    exact ⟨heq.symm, ho, hr.symm⟩

theorem parseTerm_part {t : List Char} (hd : EndsWith t (field ++ '=' :: value)) (h : parseTerm t = .ok rq) :
    rq = ⟨String.ofList field, .equals, String.ofList value⟩ ∨ ',' ∈ rq.field.toList := by
  obtain ⟨k, tl, tx, hc, ht, hn, hr⟩ := parseTerm_ok h
  obtain ⟨before, rfl, hm | hcm⟩ := hd
  · subst hm
    obtain ⟨rfl, ho, rfl⟩ := cut_at_part hfi hv not_mem_nil hc
    left
    obtain ⟨rfl, -⟩ := unescapeChars_plain hv.backslash ht
    cases rq with
    | mk nm o wa =>
      simp only at hn ho hr
      rw [hn, ho, hr]
  · right
    obtain ⟨fr, rfl⟩ := getLast?_eq_some_iff.1 hcm
    by_cases he : '=' ∈ fr
    · rw [append_assoc] at hc
      exact absurd ht (no_earlier_operator hfi hv he hc)
    · obtain ⟨rfl, -⟩ := cut_at_part hfi hv (by simp [he]) hc
      rw [hn]
      simp

end

theorem mem_requirements (h : FieldSelector.parse s = .ok ps)
    {t : List Char} (ht : t ∈ splitTerms s.toList) (hn : t ≠ []) :
    ∃ requirement ∈ ps.requirements, parseTerm t = .ok requirement := by
  obtain ⟨requirements, hp, h⟩ := bind_eq_ok.1 h
  cases h
  refine mem_of_mapM_ok hp t (mem_filter.2 ⟨(mem_insertionSort _).2 ht, ?_⟩)
  simpa using hn

theorem requirement_of_part (h : FieldSelector.parse s = .ok ps)
    (hpt : field ++ '=' :: value ∈ parts s) (hfi : PlainField field) (hv : PlainValue value)
    (hc : ∀ requirement ∈ ps.requirements, ',' ∉ requirement.field.toList) :
    ⟨String.ofList field, .equals, String.ofList value⟩ ∈ ps.requirements := by
  have hl : '\\' ∉ field ++ '=' :: value := by simp [hfi.backslash, hv.backslash]
  obtain ⟨te, ht, he⟩ := term_of_part hpt hl (by simp)
  have hne : te ≠ [] := by
    obtain ⟨before, rfl, -⟩ := he
    simp
  obtain ⟨requirement, hm, hp⟩ := mem_requirements h ht hne
  rcases parseTerm_part hfi hv he hp with rfl | hcm
  · exact hm
  · exact absurd hcm (hc requirement hm)

end Klights.Selector
