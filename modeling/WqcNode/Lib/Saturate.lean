import Mathlib.Algebra.Order.Ring.Int
import Mathlib.Algebra.Ring.Nat

/-! # Machine words: saturating operations and casts

Rust's `saturating_sub` and `saturating_mul` on 64-bit integers give the exact result, or the
nearest value of the type; an `as` cast keeps the bits. Each operation is described by one equation
between the values it reads and returns. -/

namespace WqcNode.Lib.Saturate

/-! ### `i64` -/

/-- `i64::saturating_sub`. -/
def i64SaturatingSub (a b : Int64) : Int64 :=
  Int64.ofInt (max (-2 ^ 63) (min (2 ^ 63 - 1) (a.toInt - b.toInt)))

theorem toInt_i64SaturatingSub (a b : Int64) :
    (i64SaturatingSub a b).toInt = max (-2 ^ 63) (min (2 ^ 63 - 1) (a.toInt - b.toInt)) :=
  Int64.toInt_ofInt_of_le (by omega) (by omega)

/-- A `u64` cast to an `i64`: from `2 ^ 63` on it is negative. -/
theorem toInt_toInt64 (x : UInt64) :
    x.toInt64.toInt = if x.toNat < 2 ^ 63 then (x.toNat : ℤ) else x.toNat - 2 ^ 64 := by
  show x.toBitVec.toInt = _
  rw [BitVec.toInt_eq_toNat_cond]
  show (if 2 * x.toNat < 2 ^ 64 then (x.toNat : ℤ) else x.toNat - ((2 ^ 64 : ℕ) : ℤ)) = _
  split_ifs <;> omega

/-! ### `u64` -/

/-- `u64::saturating_sub`. -/
def u64SaturatingSub (a b : UInt64) : UInt64 := UInt64.ofNat (a.toNat - b.toNat)

theorem toNat_u64SaturatingSub (a b : UInt64) :
    (u64SaturatingSub a b).toNat = a.toNat - b.toNat := by
  have ha := a.toNat_lt
  have hsize : a.toNat - b.toNat < 2 ^ 64 := by omega
  exact UInt64.toNat_ofNat_of_lt' hsize

/-- `u64::saturating_mul`. -/
def u64SaturatingMul (a b : UInt64) : UInt64 := UInt64.ofNat (min (a.toNat * b.toNat) (2 ^ 64 - 1))

theorem toNat_u64SaturatingMul (a b : UInt64) :
    (u64SaturatingMul a b).toNat = min (a.toNat * b.toNat) (2 ^ 64 - 1) := by
  have hsize : min (a.toNat * b.toNat) (2 ^ 64 - 1) < 2 ^ 64 := by omega
  exact UInt64.toNat_ofNat_of_lt' hsize

end WqcNode.Lib.Saturate
