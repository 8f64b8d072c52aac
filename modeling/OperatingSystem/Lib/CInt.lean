import Mathlib.Data.Int.Basic
import Mathlib.Tactic.Ring

/-! # Fixed-width C integers over ℤ and ℕ

An `int` is an integer of `[-2^31, 2^31)`, a `uint32_t` a natural number below `2^32`, a `size_t`
one below `2^64`. Arithmetic is done in ℤ and wrapped by the conversions below, which are the
identity where the value fits (`wrap32_of_fits`, `sizeT_of_fits`). Division is
C's, `Int.tdiv`, which truncates towards zero. -/

namespace OperatingSystem.Lib.CInt

/-- The largest `int`. -/
def INT_MAX : ℤ := 2147483647

/-- The largest `uint32_t`. -/
def UINT32_MAX : ℕ := 4294967295

/-- The value fits an `int`. -/
def FitsInt (x : ℤ) : Prop := -2147483648 ≤ x ∧ x ≤ INT_MAX

instance (x : ℤ) : Decidable (FitsInt x) := by unfold FitsInt; infer_instance

/-- Conversion to `int` (two's complement). -/
def wrap32 (x : ℤ) : ℤ := (2147483648 + x) % 4294967296 - 2147483648

/-- Conversion to `size_t`. -/
def sizeT (x : ℤ) : ℕ := (x % 18446744073709551616).toNat

theorem wrap32_of_fits {x : ℤ} (h : FitsInt x) : wrap32 x = x := by
  unfold FitsInt INT_MAX at h
  unfold wrap32
  omega

theorem sizeT_of_fits {x : ℤ} (h0 : 0 ≤ x) (h : x ≤ INT_MAX) : (sizeT x : ℤ) = x := by
  unfold INT_MAX at h
  unfold sizeT
  omega

/-- A negative `int` becomes a huge `size_t`. -/
theorem sizeT_of_neg {x : ℤ} (h : x < 0) (hf : FitsInt x) : INT_MAX < (sizeT x : ℤ) := by
  unfold FitsInt at hf
  unfold sizeT INT_MAX
  omega

/-- The quotient of an `int` by a count is an `int`. -/
theorem fitsInt_tdiv {x : ℤ} (h : FitsInt x) (n : ℕ) : FitsInt (x.tdiv n) := by
  unfold FitsInt INT_MAX at *
  rcases le_total 0 x with h0 | h0
  · have := Int.tdiv_nonneg h0 (Int.natCast_nonneg n)
    have := Int.tdiv_le_self (n : ℤ) h0
    omega
  · have hx : x.tdiv n = -((-x).tdiv n) := by rw [Int.neg_tdiv, neg_neg]
    have := Int.tdiv_nonneg (neg_nonneg.mpr h0) (Int.natCast_nonneg n)
    have := Int.tdiv_le_self (n : ℤ) (neg_nonneg.mpr h0)
    omega

/-- `UINT32_MAX` is `-1` as an `int`. -/
theorem wrap32_UINT32_MAX : wrap32 UINT32_MAX = -1 := by decide

/-- The `(x + (n - 1)) / n` of the source is the rounded-up quotient. -/
theorem tdiv_round_up {x n : ℕ} (hn : 0 < n) :
    ((x : ℤ) + ((n : ℤ) - 1)).tdiv n = ((x + n - 1) / n : ℕ) := by
  have hx : ((x : ℤ) + ((n : ℤ) - 1)) = ((x + n - 1 : ℕ) : ℤ) := by omega
  rw [hx]
  rfl

end OperatingSystem.Lib.CInt
