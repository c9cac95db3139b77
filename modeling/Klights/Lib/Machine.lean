import Mathlib.Algebra.BigOperators.Group.List.Basic
import Mathlib.Algebra.Order.Group.Int
import Mathlib.Algebra.Ring.Int.Defs

/-!
# Machine integers

Fixed-width arithmetic over `Int` and `Nat`: checked operations answer `none` outside their type (`checkedU32`,
`checkedI32`), and a signed 64-bit addition without overflow checks wraps (`wrapI64`). A wrapping sum is the true sum,
wrapped once (`wrappingSum_eq`), and the true sum itself when that fits (`wrapI64_of_fits`).

For `Int64` itself, whose operations wrap, the value of a sum or difference is the true one when that fits
(`toInt_add_of_fits`, `toInt_sub_of_fits`, `toInt_sum_of_fits`).
-/

namespace Klights.Lib

def checkedU32 (n : Nat) : Option Nat := if n < 2 ^ 32 then some n else none

def checkedI32 (n : Int) : Option Int := if -2 ^ 31 ≤ n ∧ n < 2 ^ 31 then some n else none

/-! ## Wrapping sums -/

/-- An `i64` after an addition without overflow checks. -/
def wrapI64 (n : Int) : Int := n.bmod (2 ^ 64)

/-- `Iterator::sum` in a build without overflow checks. -/
def wrappingSum (values : List Int) : Int := values.foldl (fun total value => wrapI64 (total + value)) 0

theorem wrapI64_lt (n : Int) : wrapI64 n < 2 ^ 63 := by
  have h := Int.bmod_lt (x := n) (m := 2 ^ 64) (by decide)
  unfold wrapI64
  omega

theorem wrapI64_of_fits {n : Int} (hw : -2 ^ 63 ≤ n) (hi : n < 2 ^ 63) : wrapI64 n = n := by
  apply Int.bmod_eq_of_le
  · simpa using hw
  · simpa using hi

/-- Only what is below the range wraps to something larger. -/
theorem wrapI64_le {n : Int} (h : -2 ^ 63 ≤ n) : wrapI64 n ≤ n := by
  unfold wrapI64
  rw [Int.bmod_def]
  omega

theorem wrapI64_add (a b : Int) : wrapI64 (wrapI64 a + b) = wrapI64 (a + b) := Int.bmod_add_bmod

/-- Wrapping at every addition is wrapping at the end. -/
theorem foldl_wrapI64 (vs : List Int) (s : Int) :
    vs.foldl (fun t v => wrapI64 (t + v)) (wrapI64 s) = wrapI64 (s + vs.sum) := by
  induction vs generalizing s with
  | nil => simp
  | cons v tl ih =>
    rw [List.foldl_cons, wrapI64_add, ih, List.sum_cons, add_assoc]

theorem wrappingSum_eq (vs : List Int) : wrappingSum vs = wrapI64 vs.sum := by
  have h := foldl_wrapI64 vs 0
  rwa [zero_add] at h

/-! ## `Int64` -/

variable {a b : Int64}

theorem toInt_add_of_fits (hw : -2 ^ 63 ≤ a.toInt + b.toInt) (hi : a.toInt + b.toInt < 2 ^ 63) :
    (a + b).toInt = a.toInt + b.toInt := by
  rw [Int64.toInt_add]
  exact wrapI64_of_fits hw hi

theorem toInt_sub_of_fits (hw : -2 ^ 63 ≤ a.toInt - b.toInt) (hi : a.toInt - b.toInt < 2 ^ 63) :
    (a - b).toInt = a.toInt - b.toInt := by
  rw [Int64.toInt_sub]
  exact wrapI64_of_fits hw hi

@[simp] theorem toInt_min (a b : Int64) : (min a b).toInt = min a.toInt b.toInt := by
  change (if a ≤ b then a else b).toInt = _
  rw [Int.min_def]
  simp only [Int64.le_iff_toInt_le]
  split <;> rfl

@[simp] theorem toInt_max (a b : Int64) : (max a b).toInt = max a.toInt b.toInt := by
  change (if a ≤ b then b else a).toInt = _
  rw [Int.max_def]
  simp only [Int64.le_iff_toInt_le]
  split <;> rfl

theorem toInt_sum (vs : List Int64) : vs.sum.toInt = wrapI64 (vs.map Int64.toInt).sum := by
  induction vs with
  | nil => rfl
  | cons v tl ih =>
    rw [List.sum_cons, Int64.toInt_add, ih, List.map_cons, List.sum_cons, add_comm v.toInt, add_comm v.toInt]
    exact wrapI64_add _ _

theorem toInt_sum_of_fits {vs : List Int64} (hw : 0 ≤ (vs.map Int64.toInt).sum)
    (hi : (vs.map Int64.toInt).sum < 2 ^ 63) : vs.sum.toInt = (vs.map Int64.toInt).sum := by
  rw [toInt_sum, wrapI64_of_fits (by omega) hi]

end Klights.Lib
