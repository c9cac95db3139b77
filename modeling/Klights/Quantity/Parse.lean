import Klights.Json
import Klights.Lib.Machine
import Mathlib.Data.Nat.Digits.Defs

/-!
# Parsing Kubernetes quantities

`klights-types/src/quantity.rs`: a quantity is a decimal with an optional fraction and either a decimal exponent or a
suffix; its value in the unit of the resource is rounded up and saturated at the greatest `i64`.

- `parseDecimalRational`: the digits as numerator, decimal scale and exponent, kept apart;
- `applyQuantity`: the powers of ten cancelled before anything large is computed, then rounded up;
- `parseResourceQuantity`: the unit and the suffixes of a resource key;
- every parsed quantity is an `i64` that is not negative (`parseResourceQuantity_range`).
-/

namespace Klights.Quantity

open Lib Option

/-! ## Suffixes -/

structure Suffix where
  text : String
  num : Int
  den : Int

def cpuSuffixes : List Suffix :=
  [⟨"n", 1, 10 ^ 9⟩, ⟨"u", 1, 10 ^ 6⟩, ⟨"m", 1, 10 ^ 3⟩, ⟨"k", 10 ^ 3, 1⟩, ⟨"M", 10 ^ 6, 1⟩, ⟨"G", 10 ^ 9, 1⟩,
    ⟨"T", 10 ^ 12, 1⟩, ⟨"P", 10 ^ 15, 1⟩, ⟨"E", 10 ^ 18, 1⟩]

def decimalSuffixes : List Suffix :=
  [⟨"E", 10 ^ 18, 1⟩, ⟨"P", 10 ^ 15, 1⟩, ⟨"T", 10 ^ 12, 1⟩, ⟨"G", 10 ^ 9, 1⟩, ⟨"M", 10 ^ 6, 1⟩, ⟨"k", 10 ^ 3, 1⟩,
    ⟨"m", 1, 10 ^ 3⟩, ⟨"u", 1, 10 ^ 6⟩, ⟨"n", 1, 10 ^ 9⟩]

def binarySuffixes : List Suffix :=
  [⟨"Ki", 1024, 1⟩, ⟨"Mi", 1024 ^ 2, 1⟩, ⟨"Gi", 1024 ^ 3, 1⟩, ⟨"Ti", 1024 ^ 4, 1⟩, ⟨"Pi", 1024 ^ 5, 1⟩,
    ⟨"Ei", 1024 ^ 6, 1⟩]

def stripSuffix (raw text : List Char) : Option (List Char) :=
  if text.isSuffixOf raw then some (raw.take (raw.length - text.length)) else none

/-- The first suffix that leaves a number, and the number. -/
def splitSuffix (raw : List Char) : List Suffix → Option (List Char × Suffix)
  | [] => none
  | suffix :: rest =>
    match stripSuffix raw suffix.text.toList with
    | some number => if number.isEmpty then splitSuffix raw rest else some (number, suffix)
    | none => splitSuffix raw rest

/-! ## Decimals -/

structure QuantityRational where
  numerator : Int
  scale10 : Nat
  exponent10 : Int

def isAsciiDigit (c : Char) : Bool := 48 ≤ c.toNat && c.toNat ≤ 57

def parseDecimalDigits (raw : List Char) : Option Int :=
  raw.foldlM (fun value c => if isAsciiDigit c then some (value * 10 + (c.toNat - 48 : Nat)) else none) 0

def parseI32 (raw : List Char) : Option Int :=
  let (negative, digits) := match raw with
    | '-' :: digits => (true, digits)
    | '+' :: digits => (false, digits)
    | digits => (false, digits)
  if digits.isEmpty then none
  else (parseDecimalDigits digits).bind fun value => checkedI32 (if negative then -value else value)

def isExponentMarker (c : Char) : Bool := c = 'e' || c = 'E'

/-- The digits before the exponent marker, and the exponent; a second marker is refused. -/
def splitExponent (raw : List Char) : Option (List Char × Int) :=
  let number := raw.takeWhile fun c => !isExponentMarker c
  match raw.dropWhile fun c => !isExponentMarker c with
  | [] => some (raw, 0)
  | _ :: exponentText =>
    if exponentText.any isExponentMarker then none
    else if number.isEmpty || exponentText.isEmpty then none
    else (parseI32 exponentText).map fun exponent => (number, exponent)

/-- `str::split_once('.')`, with nothing after a point that is not there. -/
def splitPoint (raw : List Char) : List Char × List Char :=
  (raw.takeWhile (· ≠ '.'), (raw.dropWhile (· ≠ '.')).drop 1)

def trimEndZeros (digits : List Char) : List Char := (digits.reverse.dropWhile (· = '0')).reverse

def parseDecimalRationalNoExponent (raw : List Char) : Option (Int × Nat) := do
  let (intPart, fraction) := splitPoint raw
  let fracPart := trimEndZeros fraction
  if intPart.isEmpty && fracPart.isEmpty && (!raw.contains '.' || fraction.isEmpty) then none
  else if intPart.any (fun c => !isAsciiDigit c) then none
  else if fracPart.any (fun c => !isAsciiDigit c) then none
  else do
    let intValue ← parseDecimalDigits intPart
    let scale10 ← checkedU32 fracPart.length
    let fracValue ← parseDecimalDigits fracPart
    some (intValue * 10 ^ scale10 + fracValue, scale10)

def parseDecimalRational (raw : List Char) (allowExponent : Bool) : Option QuantityRational :=
  if raw.isEmpty || raw.head? = some '-' then none
  else
    let raw := if raw.head? = some '+' then raw.drop 1 else raw
    if raw.isEmpty then none
    else if !allowExponent && raw.any isExponentMarker then none
    else do
      let (number, exponent) ← splitExponent raw
      let (numerator, scale10) ← parseDecimalRationalNoExponent number
      some ⟨numerator, scale10, exponent⟩

/-! ## Scaling -/

/-- Divide by ten while that is exact; an `i128` has fewer than 39 factors of ten. -/
def stripTens : Nat → Int → Nat → Int × Nat
  | 0, value, scale => (value, scale)
  | fuel + 1, value, scale =>
    if value > 1 ∧ value % 10 = 0 then stripTens fuel (value / 10) (scale + 1) else (value, scale)

def decimalPowerScale (value : Int) : Option Nat :=
  if value ≤ 0 then none
  else
    let (rest, scale) := stripTens 39 value 0
    if rest = 1 then some scale else none

def normalizeDecimalExponent (scale10 : Nat) (exponent10 : Int) : Nat × Int :=
  if exponent10 ≤ 0 then (scale10, exponent10)
  else
    let cancelled := min scale10 exponent10.toNat
    (scale10 - cancelled, exponent10 - cancelled)

def ceilDivBigint (value divisor : Int) : Option Int :=
  if value < 0 ∨ divisor ≤ 0 then none
  else if value % divisor = 0 then some (value / divisor)
  else some (value / divisor + 1)

/-- Saturate at the greatest `i64`. -/
def boundedBigI64 (value : Int) : Option Int := if value < 0 then none else some (min value i64Max)

def roundUp (numerator : Int) (denominatorScale10 : Nat) : Option Int :=
  (ceilDivBigint numerator (10 ^ denominatorScale10)).bind boundedBigI64

def decimalLength (n : Int) : Nat := (Nat.digits 10 n.toNat).length

/-- The numerator over the decimal scale, both without common powers of ten: too large an exponent saturates, too small
a one rounds up to one. -/
def scaleQuantity (numerator : Int) (denominatorScale10 : Nat) (exponent10 : Int) : Option Int :=
  if exponent10 > 0 then
    if exponent10 > 4096 then some i64Max else roundUp (numerator * 10 ^ exponent10.toNat) denominatorScale10
  else if exponent10 < 0 then do
    let magnitude ← checkedI32 (-exponent10)
    let digits ← checkedU32 (decimalLength numerator)
    if magnitude.toNat > (digits + 4096) % 2 ^ 32 then some 1
    else do
      let denominatorScale10 ← checkedU32 (denominatorScale10 + magnitude.toNat)
      roundUp numerator denominatorScale10
  else roundUp numerator denominatorScale10

def applyQuantity (rational : QuantityRational) (suffix : Option Suffix) (finalDiv : Int) : Option Int :=
  let numerator := rational.numerator * 1000 * (suffix.map Suffix.num).getD 1
  if numerator = 0 then some 0
  else do
    let finalScale ← decimalPowerScale finalDiv
    let scale ← checkedU32 (rational.scale10 + finalScale)
    let suffixScale ← decimalPowerScale ((suffix.map Suffix.den).getD 1)
    let scale ← checkedU32 (scale + suffixScale)
    let (scale, exponent) := normalizeDecimalExponent scale rational.exponent10
    scaleQuantity numerator scale exponent

/-! ## Resource keys -/

/-- `raw.trim() == raw`, for a string that is not empty. -/
def isTrimmed (raw : List Char) : Bool := !raw.head?.any isWhitespace && !raw.getLast?.any isWhitespace

def parseQuantityWithSuffixes (raw : List Char) (suffixes : List Suffix) (finalDiv : Int) : Option Int :=
  if raw.isEmpty || !isTrimmed raw then none
  else
    match splitSuffix raw suffixes with
    | some (number, suffix) => (parseDecimalRational number false).bind fun q => applyQuantity q (some suffix) finalDiv
    | none => (parseDecimalRational raw true).bind fun q => applyQuantity q none finalDiv

def parseCpuMilli (raw : String) : Option Int := parseQuantityWithSuffixes raw.toList cpuSuffixes 1

def isBinaryQuantityResource (resourceKey : String) : Bool :=
  resourceKey = "memory" || resourceKey = "ephemeral-storage" || containsText resourceKey "storage" ||
    "hugepages-".toList.isPrefixOf resourceKey.toList

def parseMemoryBytes (raw : String) : Option Int :=
  if raw.toList.isEmpty || !isTrimmed raw.toList then none
  else
    match splitSuffix raw.toList binarySuffixes with
    | some (number, suffix) => (parseDecimalRational number false).bind fun q => applyQuantity q (some suffix) 1000
    | none =>
      match splitSuffix raw.toList decimalSuffixes with
      | some (number, suffix) => (parseDecimalRational number false).bind fun q => applyQuantity q (some suffix) 1000
      | none => parseQuantityWithSuffixes raw.toList [] 1000

def parseDecimalSiQuantity (raw : String) : Option Int := parseQuantityWithSuffixes raw.toList decimalSuffixes 1000

def parseResourceQuantity (resourceKey quantity : String) : Option Int :=
  if resourceKey = "cpu" then parseCpuMilli quantity
  else if isBinaryQuantityResource resourceKey then parseMemoryBytes quantity
  else parseDecimalSiQuantity quantity

/-! ## Range -/

variable {q : Int}

def InRange (q : Int) : Prop := 0 ≤ q ∧ q ≤ i64Max

theorem boundedBigI64_range {vl : Int} (h : boundedBigI64 vl = some q) : InRange q := by
  unfold boundedBigI64 at h
  split at h
  · cases h
  · cases h
    constructor
    · exact le_min (by omega) (by decide)
    · exact min_le_right _ _

theorem roundUp_range {n : Int} {sc : Nat} (h : roundUp n sc = some q) : InRange q := by
  obtain ⟨v, -, hbou⟩ := bind_eq_some_iff.1 h
  exact boundedBigI64_range hbou

theorem scaleQuantity_range {n e : Int} {sc : Nat} (h : scaleQuantity n sc e = some q) : InRange q := by
  unfold scaleQuantity at h
  split at h
  · split at h
    · cases h
      exact ⟨by decide, le_rfl⟩
    · exact roundUp_range h
  · split at h
    · obtain ⟨ma, -, h⟩ := bind_eq_some_iff.1 h
      obtain ⟨ds, -, h⟩ := bind_eq_some_iff.1 h
      split at h
      · cases h
        exact ⟨by decide, by decide⟩
      · obtain ⟨sc', -, h⟩ := bind_eq_some_iff.1 h
        exact roundUp_range h
    · exact roundUp_range h

theorem applyQuantity_range {r : QuantityRational} {su : Option Suffix} {f : Int}
    (h : applyQuantity r su f = some q) : InRange q := by
  unfold applyQuantity at h
  dsimp only at h
  split at h
  · cases h
    exact ⟨le_rfl, by decide⟩
  · obtain ⟨fi, -, h⟩ := bind_eq_some_iff.1 h
    obtain ⟨sc, -, h⟩ := bind_eq_some_iff.1 h
    obtain ⟨suf, -, h⟩ := bind_eq_some_iff.1 h
    obtain ⟨sc', -, h⟩ := bind_eq_some_iff.1 h
    exact scaleQuantity_range h

theorem parseQuantityWithSuffixes_range {r : List Char} {s : List Suffix} {f : Int}
    (h : parseQuantityWithSuffixes r s f = some q) : InRange q := by
  unfold parseQuantityWithSuffixes at h
  split at h
  · cases h
  · split at h
    all_goals
      obtain ⟨ra, -, h⟩ := bind_eq_some_iff.1 h
      exact applyQuantity_range h

theorem parseMemoryBytes_range {r : String} (h : parseMemoryBytes r = some q) : InRange q := by
  unfold parseMemoryBytes at h
  split at h
  · cases h
  · split at h
    · obtain ⟨ra, -, h⟩ := bind_eq_some_iff.1 h
      exact applyQuantity_range h
    · split at h
      · obtain ⟨ra, -, h⟩ := bind_eq_some_iff.1 h
        exact applyQuantity_range h
      · exact parseQuantityWithSuffixes_range h

theorem parseResourceQuantity_range {r qa : String} (h : parseResourceQuantity r qa = some q) : InRange q := by
  unfold parseResourceQuantity at h
  split at h
  · exact parseQuantityWithSuffixes_range h
  · split at h
    · exact parseMemoryBytes_range h
    · exact parseQuantityWithSuffixes_range h

end Klights.Quantity
