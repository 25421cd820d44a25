import Mathlib.Algebra.Order.Floor.Semiring
import Mathlib.Data.Nat.Log
import Mathlib.Data.Rat.Floor
import Mathlib.Tactic.Linarith
import Mathlib.Tactic.Positivity
import Mathlib.Tactic.Ring
import WqcNode.Lib.Json

/-! # The double nearest to a rational

The bits of a nonnegative double are `shift * 2 ^ 52 + significand`, where the shift is zero or the
significand has 53 bits, and its value is `significand * 2 ^ shift` in units of `2 ^ (-1074)`. This
covers the subnormal numbers, and a significand that is rounded up to 54 bits carries into the shift.
A rational is rounded to the nearest significand, and a tie to the even one.

* `nearest_value_nearest`: a number that is rounded is not changed by rounding it again. -/

namespace WqcNode.Lib.Double

open WqcNode.Lib.Json

/-! ### The integer nearest to a rational -/

/-- The integer nearest to `q`, and of two the even one. -/
def roundEven (q : ℚ) : ℕ :=
  if q - ⌊q⌋₊ < 1 / 2 then ⌊q⌋₊
  else if 1 / 2 < q - ⌊q⌋₊ then ⌊q⌋₊ + 1
  else ⌊q⌋₊ + ⌊q⌋₊ % 2

theorem roundEven_natCast (n : ℕ) : roundEven n = n := by
  unfold roundEven
  rw [Nat.floor_natCast, sub_self, if_pos (by norm_num)]

theorem roundEven_le {q : ℚ} (hq : 0 ≤ q) {n : ℕ} (h : q < n) : roundEven q ≤ n := by
  have hfloor : ⌊q⌋₊ < n := (Nat.floor_lt hq).mpr h
  unfold roundEven
  split_ifs
  all_goals omega

/-! ### Bits -/

/-- The bits of infinity; those below are the finite nonnegative doubles in their order. -/
def infinityBits : ℕ := 2047 * 2 ^ 52

def shiftOf (bits : ℕ) : ℕ := bits / 2 ^ 52 - 1

def significandOf (bits : ℕ) : ℕ := bits - shiftOf bits * 2 ^ 52

/-- The value in units of `2 ^ (-1074)`. -/
def unitsOf (bits : ℕ) : ℕ := significandOf bits * 2 ^ shiftOf bits

/-- The bits of the double nearest to `q` units. -/
def nearestBits (q : ℚ) : ℕ :=
  let shift := Nat.log2 ⌊q⌋₊ - 52
  min (shift * 2 ^ 52 + roundEven (q / 2 ^ shift)) infinityBits

theorem nearestBits_le (q : ℚ) : nearestBits q ≤ infinityBits := by
  unfold nearestBits
  exact min_le_right _ _

theorem shiftOf_add_significandOf (bits : ℕ) :
    shiftOf bits * 2 ^ 52 + significandOf bits = bits := by
  unfold significandOf shiftOf
  omega

theorem significandOf_lt (bits : ℕ) : significandOf bits < 2 ^ 53 := by
  unfold significandOf shiftOf
  omega

theorem shiftOf_eq_zero_or (bits : ℕ) : shiftOf bits = 0 ∨ 2 ^ 52 ≤ significandOf bits := by
  unfold significandOf shiftOf
  omega

/-- The units of a double determine its shift. -/
theorem log2_unitsOf (bits : ℕ) : Nat.log2 (unitsOf bits) - 52 = shiftOf bits := by
  have hlt := significandOf_lt bits
  unfold unitsOf
  rcases shiftOf_eq_zero_or bits with hzero | hge
  · rw [hzero, pow_zero, mul_one]
    by_cases hm : significandOf bits = 0
    · rw [hm]
      rfl
    · have : Nat.log2 (significandOf bits) < 53 := (Nat.log2_lt hm).mpr hlt
      omega
  · have hlog : Nat.log2 (significandOf bits * 2 ^ shiftOf bits) = 52 + shiftOf bits := by
      rw [Nat.log2_eq_iff (by positivity)]
      constructor
      · rw [pow_add]
        exact Nat.mul_le_mul_right _ hge
      · calc significandOf bits * 2 ^ shiftOf bits < 2 ^ 53 * 2 ^ shiftOf bits :=
              Nat.mul_lt_mul_of_pos_right hlt (by positivity)
          _ = 2 ^ (52 + shiftOf bits + 1) := by ring
    rw [hlog]
    omega

theorem nearestBits_unitsOf {bits : ℕ} (h : bits ≤ infinityBits) : nearestBits (unitsOf bits) = bits := by
  have hdiv : (unitsOf bits : ℚ) / 2 ^ shiftOf bits = significandOf bits := by
    unfold unitsOf
    push_cast
    exact mul_div_cancel_right₀ _ (by positivity)
  unfold nearestBits
  simp only [Nat.floor_natCast, log2_unitsOf]
  rw [hdiv, roundEven_natCast, shiftOf_add_significandOf]
  exact min_eq_left h

/-- A number far below the greatest double is not rounded to infinity. -/
theorem nearestBits_lt {q : ℚ} (hq : 0 ≤ q) {n : ℕ} (hn : n ≤ 2097) (h : q < 2 ^ n) :
    nearestBits q < infinityBits := by
  have hfloor : ⌊q⌋₊ < 2 ^ n := (Nat.floor_lt hq).mpr (by push_cast; exact h)
  have hlog : Nat.log2 ⌊q⌋₊ - 52 ≤ 2044 := by
    by_cases hz : ⌊q⌋₊ = 0
    · rw [hz]
      decide
    · have : Nat.log2 ⌊q⌋₊ < n := (Nat.log2_lt hz).mpr hfloor
      omega
  have hround : roundEven (q / 2 ^ (Nat.log2 ⌊q⌋₊ - 52)) ≤ 2 ^ 53 := by
    refine roundEven_le (by positivity) ?_
    rw [div_lt_iff₀ (by positivity)]
    have hself : ⌊q⌋₊ + 1 ≤ 2 ^ (53 + (Nat.log2 ⌊q⌋₊ - 52)) :=
      calc ⌊q⌋₊ + 1 ≤ 2 ^ (Nat.log2 ⌊q⌋₊ + 1) := Nat.lt_log2_self
        _ ≤ 2 ^ (53 + (Nat.log2 ⌊q⌋₊ - 52)) := Nat.pow_le_pow_right (by decide) (by omega)
    calc q < (⌊q⌋₊ + 1 : ℕ) := by exact_mod_cast Nat.lt_floor_add_one q
      _ ≤ (2 ^ (53 + (Nat.log2 ⌊q⌋₊ - 52)) : ℕ) := by exact_mod_cast hself
      _ = (2 ^ 53 : ℕ) * 2 ^ (Nat.log2 ⌊q⌋₊ - 52) := by rw [pow_add]; push_cast; rfl
  unfold nearestBits infinityBits
  simp only
  omega

/-! ### Doubles -/

theorem valid_ofNat {bits : ℕ} (h : bits ≤ infinityBits) :
    Float.Model.Format.binary64.Valid (UInt64.ofNat bits).toBitVec := by
  have hlt : bits < 2 ^ 64 := by
    unfold infinityBits at h
    omega
  have hbits : (BitVec.ofNat 64 bits).toNat = bits := Nat.mod_eq_of_lt hlt
  refine ⟨fun hexponent hmantissa => absurd ?_ hmantissa⟩
  have hexponent' := congrArg BitVec.toNat hexponent
  simp only [Float.Model.UnpackedFloat.unpackExponent, BitVec.toNat_cast, BitVec.extractLsb_toNat,
    UInt64.toBitVec_ofNat', BitVec.toNat_neg, BitVec.toNat_ofNat] at hexponent'
  rw [hbits, Nat.shiftRight_eq_div_pow] at hexponent'
  apply BitVec.eq_of_toNat_eq
  simp only [Float.Model.UnpackedFloat.unpackMantissa, BitVec.toNat_cast, BitVec.extractLsb_toNat,
    UInt64.toBitVec_ofNat', BitVec.toNat_ofNat]
  rw [hbits, Nat.shiftRight_eq_div_pow]
  unfold infinityBits at h
  omega

/-- The double with these bits. -/
def ofBits (bits : ℕ) (h : bits ≤ infinityBits) : F64 := ⟨UInt64.ofNat bits, valid_ofNat h⟩

/-- The double nearest to `q`; a number that is too great is rounded to infinity. -/
def nearest (q : ℚ) : F64 :=
  if q < 0 then (ofBits (nearestBits (-q * 2 ^ 1074)) (nearestBits_le _)).neg
  else ofBits (nearestBits (q * 2 ^ 1074)) (nearestBits_le _)

/-- The value of a finite double. -/
def value (f : F64) : ℚ :=
  if f.toBits.toNat < 2 ^ 63 then unitsOf f.toBits.toNat / 2 ^ 1074
  else -(unitsOf (f.toBits.toNat - 2 ^ 63) / 2 ^ 1074)

theorem toNat_ofBits {bits : ℕ} (h : bits ≤ infinityBits) : (ofBits bits h).toBits.toNat = bits := by
  unfold infinityBits at h
  exact UInt64.toNat_ofNat_of_lt' (by simp [UInt64.size]; omega)

theorem value_ofBits {bits : ℕ} (h : bits ≤ infinityBits) :
    value (ofBits bits h) = unitsOf bits / 2 ^ 1074 := by
  unfold value
  rw [toNat_ofBits h, if_pos]
  unfold infinityBits at h
  omega

theorem value_nearest_nonneg {q : ℚ} (hq : 0 ≤ q) : 0 ≤ value (nearest q) := by
  unfold nearest
  rw [if_neg (not_lt.mpr hq), value_ofBits]
  positivity

/-- **Main result.** A number that is rounded is not changed by rounding it again. -/
theorem nearest_value_nearest {q : ℚ} (hq : 0 ≤ q) : nearest (value (nearest q)) = nearest q := by
  have hnonneg := value_nearest_nonneg hq
  unfold nearest at hnonneg ⊢
  rw [if_neg (not_lt.mpr hq)] at hnonneg ⊢
  rw [if_neg (not_lt.mpr hnonneg)]
  have hunits : value (ofBits (nearestBits (q * 2 ^ 1074)) (nearestBits_le _)) * 2 ^ 1074 =
      unitsOf (nearestBits (q * 2 ^ 1074)) := by
    rw [value_ofBits]
    exact div_mul_cancel₀ _ (by positivity)
  have hbits : nearestBits (unitsOf (nearestBits (q * 2 ^ 1074))) = nearestBits (q * 2 ^ 1074) :=
    nearestBits_unitsOf (nearestBits_le _)
  simp only [hunits, hbits]

theorem isFinite_ofBits {bits : ℕ} (h : bits < infinityBits) : isFinite (ofBits bits h.le) = true := by
  unfold isFinite
  rw [bne_iff_ne, ne_eq, ← UInt64.toNat_inj, UInt64.toNat_and, UInt64.toNat_shiftRight, toNat_ofBits]
  have hmask : bits >>> 52 &&& (2 ^ 11 - 1) = bits / 2 ^ 52 % 2 ^ 11 := by
    rw [Nat.and_two_pow_sub_one_eq_mod, Nat.shiftRight_eq_div_pow]
  unfold infinityBits at h
  change ¬ bits >>> 52 &&& (2 ^ 11 - 1) = 2047
  rw [hmask]
  omega

theorem isFinite_nearest {q : ℚ} (hq : 0 ≤ q) (h : q < 2 ^ 1023) : isFinite (nearest q) = true := by
  unfold nearest
  rw [if_neg (not_lt.mpr hq)]
  refine isFinite_ofBits (nearestBits_lt (by positivity) le_rfl ?_)
  calc q * 2 ^ 1074 < 2 ^ 1023 * 2 ^ 1074 := mul_lt_mul_of_pos_right h (by positivity)
    _ = 2 ^ 2097 := by rw [← pow_add]

example : (nearest (1 / 3)).toBits = 0x3FD5555555555555 := by decide +kernel

end WqcNode.Lib.Double
