import Mathlib.Algebra.Group.Int.Defs
import Mathlib.Algebra.Group.Nat.Defs
import Mathlib.Data.List.Infix

/-!
# JSON values as the store keeps them

`serde_json::Value` without the `preserve_order` feature: an object is a map sorted by key, so two objects are
equal exactly when their field lists are. `Json.obj` therefore holds a key-sorted list, and `Fields.insert` and
`Fields.remove` keep it sorted.

- the accessors of `serde_json` the store uses (`Json.get`, `Json.pointer`, `Json.asStr`, `Json.asI64`);
- the in-place updates (`Json.insertField`, `Json.modifyField`), merge patches and compact text (`Json.mergePatch`,
  `Json.text`);
- `Blob`, the bytes of a BLOB column: canonical JSON text, or bytes that do not parse.
-/

namespace Klights

open List

/-- A JSON value. Numbers that are not integers keep their printed form. -/
inductive Json where
  | null
  | bool (b : Bool)
  | num (n : Int)
  | float (repr : String)
  | str (s : String)
  | arr (items : List Json)
  | obj (fields : List (String × Json))
  deriving Repr, Inhabited

namespace Json

/-! ## Decidable equality -/

mutual

def beq : Json → Json → Bool
  | .null, .null => true
  | .bool a, .bool b => a == b
  | .num a, .num b => a == b
  | .float a, .float b => a == b
  | .str a, .str b => a == b
  | .arr xs, .arr ys => beqList xs ys
  | .obj xs, .obj ys => beqFields xs ys
  | _, _ => false

def beqList : List Json → List Json → Bool
  | [], [] => true
  | x :: xs, y :: ys => beq x y && beqList xs ys
  | _, _ => false

def beqFields : List (String × Json) → List (String × Json) → Bool
  | [], [] => true
  | (k, x) :: xs, (l, y) :: ys => k == l && beq x y && beqFields xs ys
  | _, _ => false

end

mutual

theorem beq_iff : ∀ a b : Json, beq a b ↔ a = b
  | .null, b | .bool _, b | .num _, b | .float _, b | .str _, b => by cases b <;> simp [beq]
  | .arr xs, b => by cases b <;> simp [beq, beqList_iff xs]
  | .obj xs, b => by cases b <;> simp [beq, beqFields_iff xs]

theorem beqList_iff : ∀ xs ys : List Json, beqList xs ys ↔ xs = ys
  | [], ys => by cases ys <;> simp [beqList]
  | x :: xs, ys => by cases ys <;> simp [beqList, beq_iff x, beqList_iff xs]

theorem beqFields_iff : ∀ xs ys : List (String × Json), beqFields xs ys ↔ xs = ys
  | [], ys => by cases ys <;> simp [beqFields]
  | (k, x) :: xs, ys => by
    cases ys with
    | nil => simp [beqFields]
    | cons y ys => simp [beqFields, beq_iff x, beqFields_iff xs, Prod.ext_iff]

end

instance : DecidableEq Json := fun a b => decidable_of_iff _ (beq_iff a b)

/-! ## Field lists -/

namespace Fields

def get (key : String) : List (String × Json) → Option Json
  | [] => none
  | (k, v) :: rest => if k = key then some v else get key rest

def insert (key : String) (value : Json) : List (String × Json) → List (String × Json)
  | [] => [(key, value)]
  | (k, v) :: rest =>
    if k = key then (key, value) :: rest
    else if key < k then (key, value) :: (k, v) :: rest
    else (k, v) :: insert key value rest

def remove (key : String) (fields : List (String × Json)) : List (String × Json) :=
  fields.filter fun field => field.1 ≠ key

@[simp] theorem get_insert_self (key : String) (value : Json) : ∀ fields, get key (insert key value fields) = some value
  | [] => by simp [insert, get]
  | (k, v) :: rest => by
    unfold insert
    split
    · simp [get]
    · rename_i hk
      split
      · simp [get]
      · simp [get, hk, get_insert_self key value rest]

variable {o : String} {value : Json}

@[simp] theorem get_insert_ne {key : String} (value : Json) (h : o ≠ key) :
    ∀ fields, get o (insert key value fields) = get o fields
  | [] => by simp [insert, get, h.symm]
  | (k, v) :: rest => by
    unfold insert
    split
    · rename_i hk
      simp [get, hk, h.symm]
    · split
      · simp [get, h.symm]
      · simp [get, get_insert_ne value h rest]

@[simp] theorem get_remove_self (key : String) : ∀ fields, get key (remove key fields) = none
  | [] => rfl
  | (k, v) :: rest => by
    have ih := get_remove_self key rest
    simp only [remove, filter_cons] at ih ⊢
    split
    · rename_i hk
      simp only [ne_eq, decide_eq_true_eq] at hk
      rw [get, if_neg hk, ih]
    · exact ih

@[simp] theorem get_remove_ne {key : String} (h : o ≠ key) : ∀ fields, get o (remove key fields) = get o fields
  | [] => rfl
  | (k, v) :: rest => by
    have ih := get_remove_ne h rest
    simp only [remove, filter_cons] at ih ⊢
    split
    · rw [get, get, ih]
    · rename_i hk
      have he : k = key := by simpa using hk
      rw [ih, get, if_neg fun heq => h (heq.symm.trans he)]

theorem remove_insert (key : String) (value : Json) : ∀ fields, remove key (insert key value fields) = remove key fields
  | [] => by simp [insert, remove]
  | (k, v) :: rest => by
    unfold insert
    split
    · rename_i hk
      simp [remove, hk]
    · split
      · simp [remove]
      · have ih := remove_insert key value rest
        simp only [remove, filter_cons] at ih ⊢
        rw [ih]

/-- The keys in increasing order, as a map holds them. -/
def Sorted (fields : List (String × Json)) : Prop := fields.Pairwise fun a b => a.1 < b.1

instance (fields : List (String × Json)) : Decidable (Sorted fields) :=
  inferInstanceAs (Decidable (fields.Pairwise fun a b => a.1 < b.1))

variable {fields fs : List (String × Json)}

theorem Sorted.nodup (h : Sorted fs) : (fs.map Prod.fst).Nodup :=
  pairwise_map.2 (h.imp String.ne_of_lt)

theorem mem_insert {key : String} {fld : String × Json} :
    ∀ {fields : List (String × Json)}, fld ∈ insert key value fields → fld = (key, value) ∨ fld ∈ fields
  | [], h => .inl (mem_singleton.1 h)
  | (k, v) :: rest, h => by
    unfold insert at h
    split at h
    · exact (mem_cons.1 h).imp id (mem_cons_of_mem _)
    · split at h
      · exact mem_cons.1 h
      · rcases mem_cons.1 h with rfl | hr
        · exact .inr mem_cons_self
        · exact (mem_insert hr).imp id (mem_cons_of_mem _)

theorem Sorted.insert (key : String) (value : Json) :
    ∀ {fields : List (String × Json)}, Sorted fields → Sorted (Fields.insert key value fields)
  | [], _ => pairwise_singleton _ _
  | (k, v) :: rest, h => by
    obtain ⟨hf1, hr⟩ := pairwise_cons.1 h
    unfold Fields.insert
    split
    · rename_i hk
      exact pairwise_cons.2 ⟨fun fld hfd => hk ▸ hf1 fld hfd, hr⟩
    · rename_i hk
      split
      · rename_i hlt
        refine pairwise_cons.2 ⟨forall_mem_cons.2 ⟨hlt, fun fld hfd => ?_⟩, h⟩
        exact String.lt_trans hlt (hf1 fld hfd)
      · rename_i hlt
        have hb : k < key :=
          String.not_le.1 fun hle => hk (String.le_antisymm (String.not_lt.1 hlt) hle)
        refine pairwise_cons.2 ⟨fun fld hfd => ?_, Sorted.insert key value hr⟩
        rcases mem_insert hfd with rfl | hfd
        · exact hb
        · exact hf1 fld hfd

theorem Sorted.remove (key : String) (h : Sorted fs) : Sorted (Fields.remove key fs) := List.Pairwise.filter _ h

theorem get_eq_some_iff_mem {key : String} :
    ∀ {fields : List (String × Json)}, Sorted fields → (get key fields = some value ↔ (key, value) ∈ fields)
  | [], _ => by simp [get]
  | (k, v) :: rest, h => by
    obtain ⟨hf1, hr⟩ := pairwise_cons.1 h
    unfold get
    split
    · rename_i hk
      subst hk
      constructor
      · intro hv
        rw [Option.some.inj hv]
        exact .head _
      · intro hmem
        rcases mem_cons.1 hmem with heq | hmem
        · rw [(Prod.mk.inj heq).2]
        · exact absurd (hf1 _ hmem) (String.lt_irrefl _)
    · rename_i hk
      rw [get_eq_some_iff_mem hr, mem_cons]
      constructor
      · exact .inr
      · rintro (heq | hmem)
        · exact absurd (Prod.mk.inj heq).1.symm hk
        · exact hmem

end Fields

/-! ## Accessors -/

def isNull : Json → Bool
  | .null => true
  | _ => false

def asStr : Json → Option String
  | .str s => some s
  | _ => none

def asBool : Json → Option Bool
  | .bool b => some b
  | _ => none

/-- Integers outside the signed 64-bit range are `u64` numbers, which `as_i64` refuses. -/
def asI64 : Json → Option Int
  | .num n => if -2 ^ 63 ≤ n ∧ n < 2 ^ 63 then some n else none
  | _ => none

def asU64 : Json → Option Nat
  | .num n => if 0 ≤ n ∧ n < 2 ^ 64 then some n.toNat else none
  | _ => none

def asArray : Json → Option (List Json)
  | .arr items => some items
  | _ => none

def asObject : Json → Option (List (String × Json))
  | .obj fields => some fields
  | _ => none

/-- `Value::get` with a string index: only objects have fields. -/
def get (v : Json) (key : String) : Option Json :=
  match v with
  | .obj fields => Fields.get key fields
  | _ => none

def pointer (v : Json) : List String → Option Json
  | [] => some v
  | key :: path => (v.get key).bind fun child => child.pointer path

theorem pointer_pair (v : Json) (key fld : String) : v.pointer [key, fld] = (v.get key).bind (·.get fld) := by
  simp [pointer]

/-- `as_object_mut().insert`, which leaves anything but an object alone. -/
def insertField (v : Json) (key : String) (value : Json) : Json :=
  match v with
  | .obj fields => .obj (Fields.insert key value fields)
  | v => v

def removeField (v : Json) (key : String) : Json :=
  match v with
  | .obj fields => .obj (Fields.remove key fields)
  | v => v

def modifyField (v : Json) (key : String) (f : Json → Json) : Json :=
  match v.get key with
  | some child => v.insertField key (f child)
  | none => v

def entryOrInsert (v : Json) (key : String) (default : Json) (f : Json → Json) : Json :=
  match v with
  | .obj fields => .obj (Fields.insert key (f ((Fields.get key fields).getD default)) fields)
  | v => v

@[simp] theorem get_insertField_self (fields : List (String × Json)) (key : String) (value : Json) :
    (insertField (.obj fields) key value).get key = some value := Fields.get_insert_self key value fields

@[simp] theorem get_insertField_ne (v : Json) {key : String} (value : Json) (h : other ≠ key) :
    (v.insertField key value).get other = v.get other := by
  cases v with
  | obj fs => exact Fields.get_insert_ne value h fs
  | _ => rfl

theorem get_modifyField_ne (v : Json) {key : String} (h : other ≠ key) (f : Json → Json) :
    (v.modifyField key f).get other = v.get other := by
  unfold modifyField
  split
  · exact get_insertField_ne v _ h
  · rfl

@[simp] theorem asObject_insertField_isSome (v : Json) (key : String) (value : Json) :
    (v.insertField key value).asObject.isSome = v.asObject.isSome := by
  cases v <;> rfl

theorem removeField_insertField (v : Json) (key : String) (value : Json) :
    (v.insertField key value).removeField key = v.removeField key := by
  cases v with
  | obj fs => exact congrArg Json.obj (Fields.remove_insert key value fs)
  | _ => rfl

@[simp] theorem get_removeField_ne (v : Json) {key : String} (h : other ≠ key) :
    (v.removeField key).get other = v.get other := by
  cases v with
  | obj fs => exact Fields.get_remove_ne h fs
  | _ => rfl

def Sorted (v : Json) : Prop := ∀ fields ∈ v.asObject, Fields.Sorted fields

theorem Sorted.insertField {v : Json} (h : v.Sorted) (key : String) (value : Json) :
    (v.insertField key value).Sorted := by
  cases v with
  | obj fs =>
    intro f' hf
    cases hf
    exact (h fs rfl).insert key value
  | _ => exact h

theorem Sorted.removeField {v : Json} (h : v.Sorted) (key : String) : (v.removeField key).Sorted := by
  cases v with
  | obj fs =>
    intro f' hf
    cases hf
    exact (h fs rfl).remove key
  | _ => exact h

theorem get_insertField_same {v : Json} {key : String} (h : v.get key = some value) (other : String) :
    (v.insertField key value).get other = v.get other := by
  rcases eq_or_ne other key with rfl | hkey
  · cases v with
    | obj fs => rw [get_insertField_self, h]
    | _ => cases h
  · exact get_insertField_ne v value hkey

/-! ## Agreement -/

/-- Two values that look the same apart from some fields. -/
structure AgreeOff (keys : List String) (v w : Json) : Prop where
  scalar : v.asObject = none → w = v
  object : v.asObject.isSome = w.asObject.isSome
  field : ∀ key, key ∉ keys → v.get key = w.get key

section Agreement

variable {ks : List String} {u v w : Json} {key : String}

theorem AgreeOff.refl (ks : List String) (v : Json) : AgreeOff ks v v := ⟨fun _ => rfl, rfl, fun _ _ => rfl⟩

theorem AgreeOff.symm (h : AgreeOff ks v w) : AgreeOff ks w v := by
  refine ⟨fun hs => ?_, h.object.symm, fun key hk => (h.field key hk).symm⟩
  have hn : v.asObject = none := by
    rw [← Option.isNone_iff_eq_none, ← Option.not_isSome, h.object, hs]
    rfl
  exact (h.scalar hn).symm

theorem AgreeOff.trans (h : AgreeOff ks u v) (h' : AgreeOff ks v w) : AgreeOff ks u w := by
  refine ⟨fun hs => ?_, h.object.trans h'.object, fun key hk => (h.field key hk).trans (h'.field key hk)⟩
  have heq := h.scalar hs
  rw [h'.scalar (by rw [heq]; exact hs), heq]

theorem AgreeOff.insertField (h : AgreeOff ks v w) (key : String) (value : Json) :
    AgreeOff ks (v.insertField key value) (w.insertField key value) := by
  cases v with
  | obj fs =>
    cases w with
    | obj f' =>
      refine ⟨nofun, rfl, fun o ho => ?_⟩
      by_cases heq : o = key
      · rw [heq, get_insertField_self, get_insertField_self]
      · rw [get_insertField_ne _ _ heq, get_insertField_ne _ _ heq, h.field o ho]
    | _ => cases h.object
  | _ =>
    obtain rfl := h.scalar rfl
    exact .refl _ _

theorem agreeOff_insertField (v value : Json) (hk : key ∈ ks) : AgreeOff ks (v.insertField key value) v := by
  refine ⟨fun hs => ?_, asObject_insertField_isSome v key value, fun o ho => ?_⟩
  · cases v with
    | obj fs => cases hs
    | _ => rfl
  · exact get_insertField_ne v value fun heq => ho (heq ▸ hk)

theorem agreeOff_insertField_same (h : v.get key = some value) : AgreeOff ks (v.insertField key value) v := by
  refine ⟨fun hs => ?_, asObject_insertField_isSome v key value, fun o _ => get_insertField_same h o⟩
  cases v with
  | obj fs => cases hs
  | _ => rfl

end Agreement

def strAt (v : Json) (path : List String) : Option String := (v.pointer path).bind asStr

/-! ## Merge patches -/

mutual

/-- RFC 7396: objects merge field by field, anything else replaces. -/
def mergePatch (target : Json) : Json → Json
  | .obj patch => .obj (mergeFields (target.asObject.getD []) patch)
  | .null => .null
  | .bool b => .bool b
  | .num n => .num n
  | .float r => .float r
  | .str s => .str s
  | .arr items => .arr items

/-- A `null` in the patch removes the field. -/
def mergeFields (fields : List (String × Json)) : List (String × Json) → List (String × Json)
  | [] => fields
  | (key, value) :: rest =>
    mergeFields (if value.isNull then Fields.remove key fields
        else Fields.insert key (mergePatch ((Fields.get key fields).getD .null) value) fields)
      rest

end

/-! ## Printing -/

def hexDigit (n : Nat) : Char := Char.ofNat (if n < 10 then 48 + n else 87 + n)

def shortEscape (code : Nat) : Option Char :=
  match code with
  | 8 => some 'b'
  | 9 => some 't'
  | 10 => some 'n'
  | 12 => some 'f'
  | 13 => some 'r'
  | 34 => some (Char.ofNat 34)
  | 92 => some (Char.ofNat 92)
  | _ => none

def escapeChar (c : Char) : List Char :=
  match shortEscape c.toNat with
  | some letter => [Char.ofNat 92, letter]
  | none =>
    if c.toNat < 32 then [Char.ofNat 92, 'u', '0', '0', hexDigit (c.toNat / 16), hexDigit (c.toNat % 16)] else [c]

def quote (s : String) : String := "\"" ++ String.ofList (s.toList.flatMap escapeChar) ++ "\""

mutual

def text : Json → String
  | .null => "null"
  | .bool b => if b then "true" else "false"
  | .num n => toString n
  | .float repr => repr
  | .str s => quote s
  | .arr items => "[" ++ textItems items ++ "]"
  | .obj fields => "\x7b" ++ textFields fields ++ "\x7d"

def textItems : List Json → String
  | [] => ""
  | [item] => text item
  | item :: rest => text item ++ "," ++ textItems rest

def textFields : List (String × Json) → String
  | [] => ""
  | [(key, value)] => quote key ++ ":" ++ text value
  | (key, value) :: rest => quote key ++ ":" ++ text value ++ "," ++ textFields rest

end

end Json

/-! ## Text -/

/-- The characters `str::trim` removes: the Unicode `White_Space` property. -/
def isWhitespace (c : Char) : Bool :=
  let n := c.toNat
  (9 ≤ n && n ≤ 13) || n == 0x20 || n == 0x85 || n == 0xA0 || n == 0x1680 || (0x2000 ≤ n && n ≤ 0x200A) ||
    n == 0x2028 || n == 0x2029 || n == 0x202F || n == 0x205F || n == 0x3000

def isBlank (s : String) : Bool := s.toList.all isWhitespace

def containsText (s part : String) : Bool := decide (part.toList <:+: s.toList)

/-! ## Columns -/

/-- The greatest signed 64-bit value, the last rowid SQLite hands out. -/
def i64Max : Int := 2 ^ 63 - 1

/-- `i64::saturating_add`. -/
def saturatingAdd (a b : Int) : Int := max (-i64Max - 1) (min (a + b) i64Max)

/-- The bytes of a BLOB column that holds JSON: the canonical text of a value, or bytes that do not parse. -/
inductive Blob where
  | json (v : Json)
  | corrupt (bytes : List UInt8)
  deriving DecidableEq

namespace Blob

def toVec (v : Json) : Blob := .json v

def fromSlice : Blob → Option Json
  | .json v => some v
  | .corrupt _ => none

@[simp] theorem fromSlice_toVec (v : Json) : fromSlice (toVec v) = some v := rfl

end Blob

end Klights
