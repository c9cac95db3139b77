import Klights.Lib.Bytes
import Klights.Lib.Text

/-!
# Percent-encoded queries

Percent decoding, and the `name=value` pairs of a form-encoded query: `+` stands for a blank, and bytes that are not
UTF-8 are replaced.

- `percentDecode`, `urlDecode` (values as they are, if they do not decode), `formDecode`, `formPairs`;
- `formDecode_plain`: text without `%` and `+` stands for itself;
- `urlDecode_of_formDecode`: the two decoders agree on values without blanks and replaced bytes;
- `formDecode_eq_urlDecode_iff`: they agree exactly on texts without `+` whose bytes are UTF-8.
-/

namespace Klights.Lib

open List

/-! ## Decoders -/

def hexValue (b : UInt8) : Option UInt8 :=
  if 48 ≤ b ∧ b ≤ 57 then some (b - 48)
  else if 65 ≤ b ∧ b ≤ 70 then some (b - 55)
  else if 97 ≤ b ∧ b ≤ 102 then some (b - 87)
  else none

/-- A percent sign without two digits after it stands for itself. -/
def percentDecode : List UInt8 → List UInt8
  | 37 :: high :: low :: rest =>
    match hexValue high, hexValue low with
    | some h, some l => (h * 16 + l) :: percentDecode rest
    | _, _ => 37 :: percentDecode (high :: low :: rest)
  | b :: rest => b :: percentDecode rest
  | [] => []

def decodedBytes (text : List Char) : List UInt8 := percentDecode (utf8Bytes (String.ofList text))

/-- The decoded text, or the text itself where the bytes are not UTF-8. -/
def urlDecode (text : List Char) : String := (ofUtf8Bytes (decodedBytes text)).getD (String.ofList text)

/-- A reader of bytes that need not be UTF-8: it leaves a replacement character where they are not. -/
structure LossyUtf8 where
  decode : List UInt8 → String
  valid : ∀ bytes text, ofUtf8Bytes bytes = some text → decode bytes = text
  invalid : ∀ bytes, ofUtf8Bytes bytes = none → '�' ∈ (decode bytes).toList

def plusToSpace (c : Char) : Char := if c = '+' then ' ' else c

def formDecode (lossy : LossyUtf8) (text : List Char) : String := lossy.decode (decodedBytes (text.map plusToSpace))

/-- The name and the value of a part; without `=` the value is empty. -/
def cutPair (part : List Char) : List Char × List Char := (splitOnce ['='] part).getD (part, [])

def queryParts (query : List Char) : List (List Char) := (query.splitOn '&').filter fun part => !part.isEmpty

def formPair (lossy : LossyUtf8) (part : List Char) : String × String :=
  (formDecode lossy (cutPair part).1, formDecode lossy (cutPair part).2)

def formPairs (lossy : LossyUtf8) (query : List Char) : List (String × String) :=
  (queryParts query).map (formPair lossy)

/-! ## Percent decoding -/

theorem percentDecode_cons_ne {b : UInt8} (h : b ≠ 37) (rest : List UInt8) :
    percentDecode (b :: rest) = b :: percentDecode rest := by
  rw [percentDecode]
  rintro hi lo mo rfl
  exact fun _ => h rfl

theorem percentDecode_plain : ∀ {bs : List UInt8}, 37 ∉ bs → percentDecode bs = bs
  | [], _ => rfl
  | b :: rest, h => by
    rw [percentDecode_cons_ne fun hb => h (hb ▸ .head _), percentDecode_plain fun hm => h (mem_cons_of_mem b hm)]

/-- A byte that is no digit and no percent sign is left where it is. -/
theorem mem_percentDecode {b : UInt8} (hh : hexValue b = none) (hp : b ≠ 37) (bytes : List UInt8)
    (hmem : b ∈ bytes) : b ∈ percentDecode bytes := by
  fun_induction percentDecode bytes with
  | case1 hg lo tl h l hl hi ih =>
    simp only [mem_cons] at hmem ⊢
    rcases hmem with rfl | rfl | rfl | hmem
    · exact absurd rfl hp
    · cases hh.symm.trans hi
    · cases hh.symm.trans hl
    · exact .inr (ih hmem)
  | case2 hg lo tl hd ih =>
    rcases mem_cons.1 hmem with rfl | hmem
    · exact absurd rfl hp
    · exact .tail _ (ih hmem)
  | case3 c tl ho ih =>
    rcases mem_cons.1 hmem with rfl | hmem
    · exact .head _
    · exact .tail _ (ih hmem)
  | case4 => exact nomatch hmem

variable {text : List Char}

/-! ## Form decoding -/

theorem map_plusToSpace (h : '+' ∉ text) : text.map plusToSpace = text := by
  have heq : ∀ c ∈ text, plusToSpace c = id c := by
    intro c hc
    refine if_neg ?_
    rintro rfl
    exact h hc
  rw [map_congr_left heq, map_id]

theorem formDecode_plain (l : LossyUtf8) (hc : 37 ∉ utf8Bytes (String.ofList text)) (hp : '+' ∉ text) :
    formDecode l text = String.ofList text := by
  rw [formDecode, map_plusToSpace hp, decodedBytes, percentDecode_plain hc]
  exact l.valid _ _ (ofUtf8Bytes_utf8Bytes _)

theorem urlDecode_of_formDecode {l : LossyUtf8} {value : String} (h : formDecode l text = value)
    (hbk : 32 ∉ utf8Bytes value) (hl : '�' ∉ value.toList) : urlDecode text = value := by
  have hb : ofUtf8Bytes (decodedBytes (text.map plusToSpace)) = some value := by
    cases hf : ofUtf8Bytes (decodedBytes (text.map plusToSpace)) with
    | none => exact absurd (h ▸ l.invalid _ hf) hl
    | some o => rw [← h, formDecode, l.valid _ _ hf]
  have hp : '+' ∉ text := by
    intro hm
    -- a plus would have left a blank
    have hs : (32 : UInt8) ∈ utf8Bytes (String.ofList (text.map plusToSpace)) := by
      rw [utf8Bytes_ofList]
      exact mem_flatMap.2 ⟨' ', mem_map.2 ⟨'+', hm, rfl⟩, by decide⟩
    have hk := mem_percentDecode (by decide) (by decide) _ hs
    rw [utf8Bytes_of_ofUtf8Bytes hb] at hbk
    exact hbk hk
  rw [map_plusToSpace hp] at hb
  rw [urlDecode, hb, Option.getD_some]

/-! ## Where the decoders agree -/

theorem length_percentDecode_le (bytes : List UInt8) : (percentDecode bytes).length ≤ bytes.length := by
  fun_induction percentDecode bytes with
  | case1 _ _ rest _ _ _ _ ih => simp only [length_cons]; omega
  | case2 _ _ rest _ ih => simpa using ih
  | case3 _ rest _ ih => simpa using ih
  | case4 => exact le_rfl

/-- Decoding that shortens nothing changes nothing. -/
theorem percentDecode_of_length (bytes : List UInt8) (h : (percentDecode bytes).length = bytes.length) :
    percentDecode bytes = bytes := by
  fun_induction percentDecode bytes with
  | case1 high low rest _ _ _ _ ih =>
    have hle := length_percentDecode_le rest
    simp only [length_cons] at h
    omega
  | case2 high low rest _ ih => rw [ih (by simpa using h)]
  | case3 b rest _ ih => rw [ih (by simpa using h)]
  | case4 => rfl

def plusByteToSpace (b : UInt8) : UInt8 := if b = 43 then 32 else b

/-- The bytes of a character other than `+` do not hold the byte of `+`. -/
theorem plusByte_notMem_encode {c : Char} (h : c ≠ '+') : 43 ∉ String.utf8EncodeChar c := by
  intro hm
  rcases mem_utf8EncodeChar hm with ⟨hb, -⟩ | ⟨hb, -⟩
  · exact h (Char.ext (UInt32.toNat_inj.1 hb.symm))
  · simp at hb

theorem encode_plusToSpace (c : Char) :
    String.utf8EncodeChar (plusToSpace c) = (String.utf8EncodeChar c).map plusByteToSpace := by
  by_cases hc : c = '+'
  · subst hc
    decide
  · rw [plusToSpace, if_neg hc]
    refine (map_id _).symm.trans (map_congr_left fun b hb => ?_)
    have hne : b ≠ 43 := by
      rintro rfl
      exact plusByte_notMem_encode hc hb
    rw [plusByteToSpace, if_neg hne, id]

theorem utf8Bytes_plusToSpace (text : List Char) :
    utf8Bytes (String.ofList (text.map plusToSpace)) = (utf8Bytes (String.ofList text)).map plusByteToSpace := by
  rw [utf8Bytes_ofList, utf8Bytes_ofList, flatMap_map, map_flatMap]
  exact congrArg (flatMap · text) (funext encode_plusToSpace)

theorem plusByteToSpace_hex {b h : UInt8} (hb : hexValue b = some h) : plusByteToSpace b = b := by
  refine if_neg ?_
  rintro rfl
  cases hb

theorem hexValue_plusByteToSpace (b : UInt8) : hexValue (plusByteToSpace b) = hexValue b := by
  by_cases h : b = 43
  · subst h
    rfl
  · rw [plusByteToSpace, if_neg h]

theorem percentDecode_escape {high low h l : UInt8} (hh : hexValue high = some h) (hl : hexValue low = some l)
    (rest : List UInt8) : percentDecode (37 :: high :: low :: rest) = (h * 16 + l) :: percentDecode rest := by
  rw [percentDecode, hh, hl]

/-- Decoding keeps the bytes of `+` that are not escaped where they are. -/
theorem percentDecode_plus (bytes : List UInt8) :
    Forall₂ (fun b b' => b' = b ∨ b = 43 ∧ b' = 32) (percentDecode bytes) (percentDecode (bytes.map plusByteToSpace)) ∧
      (percentDecode (bytes.map plusByteToSpace) = percentDecode bytes → 43 ∉ bytes) := by
  fun_induction percentDecode bytes with
  | case1 high low rest h l hl hh ih =>
    have hs : (37 :: high :: low :: rest).map plusByteToSpace = 37 :: high :: low :: rest.map plusByteToSpace := by
      simp only [map_cons, plusByteToSpace_hex hh, plusByteToSpace_hex hl]
      rfl
    rw [hs, percentDecode_escape hh hl]
    refine ⟨.cons (.inl rfl) ih.1, fun heq hm => ?_⟩
    simp only [mem_cons] at hm
    rcases hm with hm | rfl | rfl | hm
    · cases hm
    · cases hh
    · cases hl
    · exact ih.2 (cons.inj heq).2 hm
  | case2 high low rest hd ih =>
    have hs : percentDecode ((37 :: high :: low :: rest).map plusByteToSpace) =
        37 :: percentDecode ((high :: low :: rest).map plusByteToSpace) := by
      rw [map_cons, map_cons, map_cons, show plusByteToSpace 37 = 37 from rfl, percentDecode]
      split
      · rename_i h l hh hl
        rw [hexValue_plusByteToSpace] at hh hl
        exact absurd hl (hd h l hh)
      · rfl
    rw [hs]
    refine ⟨.cons (.inl rfl) ih.1, fun heq hm => ?_⟩
    rcases mem_cons.1 hm with hm | hm
    · cases hm
    · exact ih.2 (cons.inj heq).2 hm
  | case3 b rest hno ih =>
    have hb : percentDecode ((b :: rest).map plusByteToSpace) =
        plusByteToSpace b :: percentDecode (rest.map plusByteToSpace) := by
      by_cases h37 : b = 37
      · -- there are no two bytes after the percent sign
        match rest, hno with
        | [], _ => subst h37; rfl
        | [x], _ => subst h37; rfl
        | x :: y :: rest, hno => exact (hno x y rest h37 rfl).elim
      · refine percentDecode_cons_ne ?_ _
        rw [plusByteToSpace]
        split
        · decide
        · exact h37
    rw [hb]
    refine ⟨.cons ?_ ih.1, fun heq hm => ?_⟩
    · by_cases h : b = 43
      · subst h
        exact .inr ⟨rfl, rfl⟩
      · exact .inl (if_neg h)
    · obtain ⟨hhead, htail⟩ := cons.inj heq
      rcases mem_cons.1 hm with rfl | hm
      · cases hhead
      · exact ih.2 htail hm
  | case4 => exact ⟨.nil, fun _ => not_mem_nil⟩

theorem forall₂_of_plain {rest : List UInt8} : ∀ {plain bytes : List UInt8}, 43 ∉ plain →
    Forall₂ (fun b b' => b' = b ∨ b = 43 ∧ b' = 32) (plain ++ rest) bytes →
    ∃ bytes', bytes = plain ++ bytes' ∧ Forall₂ (fun b b' => b' = b ∨ b = 43 ∧ b' = 32) rest bytes'
  | [], bytes, _, h => ⟨bytes, rfl, h⟩
  | b :: plain, _ :: bytes, hno, .cons hb h => by
    obtain ⟨bytes', rfl, hr⟩ := forall₂_of_plain (fun hm => hno (.tail _ hm)) h
    rcases hb with rfl | ⟨rfl, -⟩
    · exact ⟨bytes', rfl, hr⟩
    · exact (hno (.head _)).elim

/-- Bytes of a text in which some `+` are blanks are those of a text. -/
theorem utf8_of_plus : ∀ (text : List Char) {bytes : List UInt8},
    Forall₂ (fun b b' => b' = b ∨ b = 43 ∧ b' = 32) (text.flatMap String.utf8EncodeChar) bytes →
    ∃ other : List Char, other.flatMap String.utf8EncodeChar = bytes
  | [], _, .nil => ⟨[], rfl⟩
  | c :: text, bytes, h => by
    by_cases hc : c = '+'
    · subst hc
      rw [flatMap_cons, show String.utf8EncodeChar '+' = [43] by decide] at h
      cases h with
      | cons hb h =>
        obtain ⟨other, rfl⟩ := utf8_of_plus text h
        rcases hb with rfl | ⟨-, rfl⟩
        · exact ⟨'+' :: other, rfl⟩
        · exact ⟨' ' :: other, rfl⟩
    · obtain ⟨bytes', rfl, hr⟩ := forall₂_of_plain (plusByte_notMem_encode hc) h
      obtain ⟨other, rfl⟩ := utf8_of_plus text hr
      exact ⟨c :: other, rfl⟩

/-- A text without replacement characters is decoded alike exactly if it has no `+` and stands for UTF-8. -/
theorem formDecode_eq_urlDecode_iff (lossy : LossyUtf8) (h : '�' ∉ text) :
    formDecode lossy text = urlDecode text ↔ '+' ∉ text ∧ (ofUtf8Bytes (decodedBytes text)).isSome := by
  constructor
  · intro heq
    obtain ⟨hrel, hplus⟩ := percentDecode_plus (utf8Bytes (String.ofList text))
    have hform : decodedBytes (text.map plusToSpace) =
        percentDecode ((utf8Bytes (String.ofList text)).map plusByteToSpace) := by
      rw [decodedBytes, utf8Bytes_plusToSpace]
    rw [formDecode, hform] at heq
    cases hv : ofUtf8Bytes (decodedBytes text) with
    | none =>
      rw [urlDecode, hv, Option.getD_none] at heq
      cases hw : ofUtf8Bytes (percentDecode ((utf8Bytes (String.ofList text)).map plusByteToSpace)) with
      | none =>
        have hm := lossy.invalid _ hw
        rw [heq, String.toList_ofList] at hm
        exact absurd hm h
      | some value =>
        -- nothing was decoded, so the text itself is UTF-8
        rw [lossy.valid _ _ hw] at heq
        have hb := utf8Bytes_of_ofUtf8Bytes hw
        rw [heq] at hb
        have hsame := percentDecode_of_length _ (by rw [← hb, length_map])
        rw [hsame] at hb
        rw [← hb] at hsame
        rw [decodedBytes, hsame, ofUtf8Bytes_utf8Bytes] at hv
        cases hv
    | some value =>
      have hb := utf8Bytes_of_ofUtf8Bytes hv
      refine ⟨fun hm => ?_, rfl⟩
      have hrel' := hrel
      rw [show percentDecode (utf8Bytes (String.ofList text)) = utf8Bytes value from hb.symm,
        ← String.ofList_toList (s := value), utf8Bytes_ofList] at hrel'
      obtain ⟨other, ho⟩ := utf8_of_plus _ hrel'
      rw [← utf8Bytes_ofList] at ho
      have hw := ofUtf8Bytes_utf8Bytes (String.ofList other)
      rw [ho] at hw
      rw [lossy.valid _ _ hw, urlDecode, hv, Option.getD_some] at heq
      rw [heq] at ho
      refine hplus (ho.symm.trans hb) ?_
      rw [utf8Bytes_ofList]
      exact mem_flatMap.2 ⟨'+', hm, by decide⟩
  · rintro ⟨hp, hv⟩
    obtain ⟨value, hv⟩ := Option.isSome_iff_exists.1 hv
    rw [formDecode, map_plusToSpace hp, urlDecode, hv, lossy.valid _ _ hv, Option.getD_some]

end Klights.Lib
