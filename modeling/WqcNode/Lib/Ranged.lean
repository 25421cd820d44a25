import Mathlib.Algebra.Order.Ring.Int
import Mathlib.Algebra.Ring.Nat

/-! # Operations that may go out of range

Integers of fixed width are modelled as integers; an operation that leaves the type, and a slice
past the end, is `none`. A cast wraps. -/

namespace WqcNode.Lib.Ranged

variable {α β : Type}

/-- The result of an operation on `i32`. -/
def i32 (n : ℤ) : Option ℤ := if -2 ^ 31 ≤ n ∧ n < 2 ^ 31 then some n else none

/-- A `usize` as an `i32`. -/
def asI32 (n : ℕ) : ℤ := (n : ℤ).bmod (2 ^ 32)

/-- An `i32` as a `usize`. -/
def asUsize (n : ℤ) : ℕ := (n % 2 ^ 64).toNat

def usizeAdd (m n : ℕ) : Option ℕ := if m + n < 2 ^ 64 then some (m + n) else none

def usizeSub (m n : ℕ) : Option ℕ := if n ≤ m then some (m - n) else none

/-- `&text[..n]`. -/
def sliceTo (n : ℕ) (text : List α) : Option (List α) :=
  if n ≤ text.length then some (text.take n) else none

/-- `&text[n..]`. -/
def sliceFrom (n : ℕ) (text : List α) : Option (List α) :=
  if n ≤ text.length then some (text.drop n) else none

/-- `repeat`; what is allocated has at most `isize::MAX` bytes. -/
def repeated (n : ℕ) (a : α) : Option (List α) :=
  if n < 2 ^ 63 then some (List.replicate n a) else none

theorem some_bind (a : α) (f : α → Option β) : some a >>= f = f a := rfl

theorem i32_eq {n : ℤ} (hlo : -2 ^ 31 ≤ n) (hhi : n < 2 ^ 31) : i32 n = some n :=
  if_pos ⟨hlo, hhi⟩

theorem asI32_eq {n : ℕ} (h : n < 2 ^ 31) : asI32 n = n := by
  unfold asI32
  rw [Int.bmod_eq_of_le] <;> omega

theorem asUsize_eq {n : ℤ} (hlo : 0 ≤ n) (hhi : n < 2 ^ 31) : asUsize n = n.toNat := by
  unfold asUsize
  rw [Int.emod_eq_of_lt hlo (by omega)]

theorem usizeAdd_eq {m n : ℕ} (h : m + n < 2 ^ 64) : usizeAdd m n = some (m + n) := if_pos h

theorem usizeSub_eq {m n : ℕ} (h : n ≤ m) : usizeSub m n = some (m - n) := if_pos h

theorem sliceTo_eq {n : ℕ} {text : List α} (h : n ≤ text.length) :
    sliceTo n text = some (text.take n) :=
  if_pos h

theorem sliceFrom_eq {n : ℕ} {text : List α} (h : n ≤ text.length) :
    sliceFrom n text = some (text.drop n) :=
  if_pos h

theorem repeated_eq {n : ℕ} {a : α} (h : n < 2 ^ 63) :
    repeated n a = some (List.replicate n a) :=
  if_pos h

end WqcNode.Lib.Ranged
