import Mathlib.Data.List.Shortlex
import Mathlib.Tactic.Common

/-!
# Texts as bytes, and frames of bytes

The UTF-8 bytes of a text, and frames that write at most 255 bytes after a byte with their number.

- `utf8Bytes`, `ofUtf8Bytes`: a text is determined by its bytes;
- `frame`, `unframe`: what is read back is what was written, cut at 255 bytes (`unframe_frame`);
- `flatMap_frame_inj`, `flatMap_frame_prefix`: frames in a row are equal, or begin others, when their contents do;
- `between_iff`: the lists between a list and the next one of its length begin with it.
-/

namespace Klights.Lib

open List

/-! ## Texts -/

def utf8Bytes (text : String) : List UInt8 := text.toByteArray.data.toList

/-- The text with the given bytes, if they are valid. -/
def ofUtf8Bytes (bytes : List UInt8) : Option String := String.fromUTF8? ⟨bytes.toArray⟩

@[simp] theorem ofUtf8Bytes_utf8Bytes (text : String) : ofUtf8Bytes (utf8Bytes text) = some text :=
  dif_pos text.isValidUTF8

theorem utf8Bytes_of_ofUtf8Bytes {bytes : List UInt8} {tx : String} (h : ofUtf8Bytes bytes = some tx) :
    utf8Bytes tx = bytes := by
  unfold ofUtf8Bytes String.fromUTF8? at h
  split at h
  case isTrue => cases h; rfl
  case isFalse => cases h

theorem utf8Bytes_inj {tx other : String} : utf8Bytes tx = utf8Bytes other ↔ tx = other := by
  constructor
  · intro h
    have hb := congrArg ofUtf8Bytes h
    simpa using hb
  · exact congrArg utf8Bytes

theorem length_utf8Bytes (tx : String) : (utf8Bytes tx).length = tx.utf8ByteSize := by
  simp [utf8Bytes]

theorem utf8Bytes_ofList (tx : List Char) : utf8Bytes (String.ofList tx) = tx.flatMap String.utf8EncodeChar := by
  rw [utf8Bytes, String.toByteArray_ofList]
  simp [List.utf8Encode]

/-- A byte of a character is the character itself, in ASCII, or one of a longer encoding. -/
theorem mem_utf8EncodeChar {c : Char} {b : UInt8} (h : b ∈ String.utf8EncodeChar c) :
    b.toNat = c.val.toNat ∧ b.toNat < 128 ∨ 128 ≤ b.toNat ∧ b.toNat < 255 := by
  unfold String.utf8EncodeChar at h
  dsimp only at h
  split_ifs at h <;> simp only [mem_cons, not_mem_nil, or_false] at h
  · subst h
    rw [UInt8.toNat_ofNat']
    omega
  all_goals
    right
    rcases h with rfl | rfl | rfl | rfl <;> rw [UInt8.toNat_ofNat'] <;> omega

/-- No byte of a text is 255. -/
theorem ne_of_mem_utf8Bytes {tx : String} {b : UInt8} (h : b ∈ utf8Bytes tx) : b ≠ 255 := by
  rw [← String.ofList_toList (s := tx), utf8Bytes_ofList] at h
  obtain ⟨c, -, h⟩ := mem_flatMap.1 h
  rintro rfl
  have hb := mem_utf8EncodeChar h
  simp at hb

/-! ## Frames -/

/-- The number of bytes, at most 255, and that many of them. -/
def frame (bytes : List UInt8) : List UInt8 :=
  UInt8.ofNat (min bytes.length 255) :: bytes.take (min bytes.length 255)

def unframe : List UInt8 → Option (List UInt8 × List UInt8)
  | [] => none
  | len :: rest => if rest.length < len.toNat then none else some (rest.take len.toNat, rest.drop len.toNat)

theorem take_min_length {α : Type} (l : List α) (n : Nat) : l.take (min l.length n) = l.take n := by
  rw [take_eq_take_min (i := n), Nat.min_comm]

@[simp] theorem unframe_frame (bs tl : List UInt8) : unframe (frame bs ++ tl) = some (bs.take 255, tl) := by
  have hl : (UInt8.ofNat (min bs.length 255)).toNat = min bs.length 255 := by
    rw [UInt8.toNat_ofNat']
    omega
  have htk : (bs.take (min bs.length 255)).length = min bs.length 255 := by
    rw [length_take]
    omega
  rw [frame, cons_append, unframe, hl, if_neg (by rw [length_append, htk]; omega),
    take_left' htk, drop_left' htk, take_min_length]

theorem frame_take (bytes : List UInt8) : frame (bytes.take 255) = frame bytes := by
  have hl : min (bytes.take 255).length 255 = min bytes.length 255 := by
    rw [length_take]
    omega
  rw [frame, frame, hl, take_take, Nat.min_assoc]
  congr 2

theorem flatMap_frame_inj : ∀ {con os : List (List UInt8)},
    con.flatMap frame = os.flatMap frame ↔ con.map (List.take 255) = os.map (List.take 255)
  | [], [] => by simp
  | [], other :: os => by simp [frame]
  | content :: con, [] => by simp [frame]
  | content :: con, other :: os => by
    rw [flatMap_cons, flatMap_cons, map_cons, map_cons, List.cons.injEq, ← flatMap_frame_inj]
    constructor
    · intro h
      have hf1 := congrArg unframe h
      rwa [unframe_frame, unframe_frame, Option.some.injEq, Prod.mk.injEq] at hf1
    · rintro ⟨hc, hr⟩
      rw [← frame_take content, hc, frame_take, hr]

/-! ## The order of bytes -/

/-- Lists that begin with as many bytes are compared by these first. -/
theorem append_lt_append_iff : ∀ {a b r s : List UInt8}, a.length = b.length → (a ++ r < b ++ s ↔ a < b ∨ a = b ∧ r < s)
  | [], [], r, s, _ => by simp
  | x :: a, y :: b, r, s, h => by
    have ih := append_lt_append_iff (r := r) (s := s) (Nat.succ.inj h)
    simp only [cons_append, cons_lt_cons_iff, ih, cons.injEq]
    tauto

/-- Frames are compared by the number of bytes they keep, then by these, and then by what follows. -/
theorem frame_lt_frame_iff {a b r s : List UInt8} : frame a ++ r < frame b ++ s ↔
    Shortlex (· < ·) (a.take 255) (b.take 255) ∨ a.take 255 = b.take 255 ∧ r < s := by
  have hlt : UInt8.ofNat (min a.length 255) < UInt8.ofNat (min b.length 255) ↔
      min a.length 255 < min b.length 255 := by
    rw [UInt8.lt_iff_toNat_lt, UInt8.toNat_ofNat', UInt8.toNat_ofNat']
    omega
  have heq : UInt8.ofNat (min a.length 255) = UInt8.ofNat (min b.length 255) ↔
      min a.length 255 = min b.length 255 := by
    rw [← UInt8.toNat_inj, UInt8.toNat_ofNat', UInt8.toNat_ofNat']
    omega
  rw [frame, frame, cons_append, cons_append, cons_lt_cons_iff, take_min_length, take_min_length, hlt, heq,
    shortlex_def, length_take, length_take, Nat.min_comm 255, Nat.min_comm 255]
  by_cases hl : min a.length 255 = min b.length 255
  · have hlen : (a.take 255).length = (b.take 255).length := by
      rw [length_take, length_take, Nat.min_comm, hl, Nat.min_comm]
    rw [append_lt_append_iff hlen]
    simp only [hl, lt_self_iff_false, true_and, false_or]
    rfl
  · have hne : a.take 255 ≠ b.take 255 := fun h => hl (by
      have := congrArg length h
      rwa [length_take, length_take, Nat.min_comm, Nat.min_comm 255] at this)
    simp [hl, hne]

theorem between_iff {b : UInt8} (hb : b ≠ 255) : ∀ {p k : List UInt8},
    (¬k < p ++ [b] ∧ k < p ++ [b + 1] ↔ p ++ [b] <+: k)
  | [], [] => by simp
  | [], c :: k => by
    have hn : b.toNat ≠ 255 := fun h => hb (UInt8.toNat_inj.1 h)
    have hs : (b + 1).toNat = b.toNat + 1 := by
      rw [UInt8.toNat_add]
      have := b.toNat_lt
      simp only [UInt8.toNat_one]
      omega
    simp only [nil_append, cons_lt_cons_iff, not_lt_nil, and_false, or_false, cons_prefix_cons, nil_prefix, and_true,
      UInt8.lt_iff_toNat_lt, hs, ← UInt8.toNat_inj]
    omega
  | a :: p, [] => by simp
  | a :: p, c :: k => by
    have ih := between_iff hb (p := p) (k := k)
    simp only [cons_append, cons_lt_cons_iff, cons_prefix_cons, ← ih, UInt8.lt_iff_toNat_lt, ← UInt8.toNat_inj]
    constructor
    · rintro ⟨hl, h | ⟨h, hr⟩⟩
      · omega
      · exact ⟨h.symm, fun hk => hl (.inr ⟨h, hk⟩), hr⟩
    · rintro ⟨h, hl, hr⟩
      refine ⟨?_, .inr ⟨h.symm, hr⟩⟩
      rintro (hlt | ⟨-, hk⟩)
      · omega
      · exact hl hk

theorem flatMap_frame_prefix : ∀ {xs ys : List (List UInt8)},
    xs.flatMap frame <+: ys.flatMap frame ↔ xs.map (List.take 255) <+: ys.map (List.take 255)
  | [], ys => by simp
  | x :: xs, [] => by simp [frame]
  | x :: xs, y :: ys => by
    rw [flatMap_cons, flatMap_cons, map_cons, map_cons, cons_prefix_cons, ← flatMap_frame_prefix]
    constructor
    · rintro ⟨t, h⟩
      have hu := congrArg unframe h
      rw [append_assoc, unframe_frame, unframe_frame, Option.some.injEq, Prod.mk.injEq] at hu
      exact ⟨hu.1, t, hu.2⟩
    · rintro ⟨h, hp⟩
      rw [← frame_take x, h, frame_take]
      exact ( prefix_append_right_inj _).2 hp

end Klights.Lib
