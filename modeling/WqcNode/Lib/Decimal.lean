import WqcNode.Lib.Code
import Mathlib.Algebra.Field.Rat
import Mathlib.Algebra.Order.Field.Rat
import Mathlib.Algebra.GroupWithZero.Basic
import Mathlib.Tactic.Ring
import Mathlib.Tactic.FieldSimp
import Mathlib.Tactic.IntervalCases
import Mathlib.Data.Rat.Cast.Order
import Mathlib.Data.List.Induction
import Mathlib.Data.Int.Log
import Mathlib.Data.Rat.Floor

/-! # Decimal numerals

A numeral is a sign, digits, an optional fraction and an optional exponent, as in `-1.15`, `1e20` or
`2.4e-6`. Its text determines it (`Decimal.text_inj`), and with it the sign and the magnitude it
denotes. -/

namespace WqcNode.Lib

/-- The number a list of digits denotes. -/
def digitsVal (ds : List Char) : ℕ := Nat.ofDigitChars 10 ds 0

theorem digitsVal_append (xs ys : List Char) :
    digitsVal (xs ++ ys) = digitsVal xs * 10 ^ ys.length + digitsVal ys := by
  rw [digitsVal, Nat.ofDigitChars_append, Nat.ofDigitChars_eq_ofDigitChars_zero, mul_comm]
  rfl

@[simp] theorem digitsVal_zeros (n : ℕ) : digitsVal (List.replicate n '0') = 0 := by
  rw [digitsVal, Nat.ofDigitChars_replicate_zero, mul_zero]

@[simp] theorem digitsVal_toDigits (n : ℕ) : digitsVal (Nat.toDigits 10 n) = n :=
  Nat.ofDigitChars_ten_toDigits

/-- A digit stands for at most nine, and for at least one unless it is `0`. -/
theorem digitsVal_digit {c : Char} (hc : c.isDigit = true) :
    digitsVal [c] ≤ 9 ∧ (c ≠ '0' → 1 ≤ digitsVal [c]) := by
  have hval : digitsVal [c] = c.toNat - 48 := by
    simp [digitsVal, Nat.ofDigitChars_cons]
  have hrange : 48 ≤ c.toNat ∧ c.toNat ≤ 57 := by
    simpa [Char.isDigit, UInt32.le_iff_toNat_le] using hc
  refine ⟨by omega, fun hne => ?_⟩
  have hzero : c.toNat ≠ 48 := fun h => hne (Char.toNat_inj.mp h)
  omega

theorem digitsVal_lt {ds : List Char} (hd : ∀ c ∈ ds, c.isDigit = true) :
    digitsVal ds < 10 ^ ds.length := by
  induction ds using List.reverseRecOn with
  | nil => simp [digitsVal]
  | append_singleton ds c ih =>
    have hds := ih fun c' hc' => hd c' (List.mem_append_left _ hc')
    have hc := (digitsVal_digit (hd c (by simp))).1
    rw [digitsVal_append, List.length_append, List.length_singleton, pow_succ]
    omega

/-- Without a leading zero every digit but the first adds a power of ten. -/
theorem le_digitsVal {ds : List Char} (hne : ds ≠ []) (hd : ∀ c ∈ ds, c.isDigit = true)
    (hlead : ds.head? ≠ some '0') : 10 ^ (ds.length - 1) ≤ digitsVal ds := by
  cases ds with
  | nil => exact absurd rfl hne
  | cons c rest =>
    have hfirst : 1 ≤ digitsVal [c] :=
      (digitsVal_digit (hd c (List.mem_cons_self ..))).2 fun h => hlead (by rw [h]; rfl)
    have hsplit : digitsVal (c :: rest) = digitsVal [c] * 10 ^ rest.length + digitsVal rest :=
      digitsVal_append [c] rest
    have hmul := Nat.mul_le_mul_right (10 ^ rest.length) hfirst
    rw [hsplit, List.length_cons, Nat.add_sub_cancel]
    omega

/-- The power of ten at which a first digit that is not zero stands is the logarithm. -/
theorem log_digitsVal {ds : List Char} (hne : ds ≠ []) (hd : ∀ c ∈ ds, c.isDigit = true)
    (hlead : ds.head? ≠ some '0') (k : ℤ) :
    Int.log 10 ((digitsVal ds : ℚ) * 10 ^ k) = (ds.length : ℤ) - 1 + k := by
  have hlen : 0 < ds.length := List.length_pos_iff.mpr hne
  have hunit : (0 : ℚ) < 10 ^ k := zpow_pos (by norm_num) _
  have hlower : ((10 ^ (ds.length - 1) : ℕ) : ℚ) ≤ digitsVal ds := by
    exact_mod_cast le_digitsVal hne hd hlead
  have hupper : (digitsVal ds : ℚ) < (10 ^ ds.length : ℕ) := by exact_mod_cast digitsVal_lt hd
  have hshift : ∀ n : ℕ, ((10 : ℕ) : ℚ) ^ (n + k : ℤ) = (10 ^ n : ℕ) * 10 ^ k := by
    intro n
    rw [zpow_add₀ (by norm_num), zpow_natCast]
    push_cast
    rfl
  have hle : ((10 : ℕ) : ℚ) ^ ((ds.length - 1 : ℕ) + k : ℤ) ≤ digitsVal ds * 10 ^ k := by
    rw [hshift]
    exact mul_le_mul_of_nonneg_right hlower hunit.le
  have hlt : (digitsVal ds : ℚ) * 10 ^ k < ((10 : ℕ) : ℚ) ^ (ds.length + k : ℤ) := by
    rw [hshift]
    exact mul_lt_mul_of_pos_right hupper hunit
  have hpos : (0 : ℚ) < digitsVal ds * 10 ^ k := lt_of_lt_of_le (zpow_pos (by norm_num) _) hle
  have hlo := (Int.zpow_le_iff_le_log (by norm_num) hpos).mp hle
  have hhi := (Int.lt_zpow_iff_log_lt (by norm_num) hpos).mp hlt
  omega

/-- The exponent of a numeral: its sign, if one is written, and its digits. -/
structure Exponent where
  sign : Option Bool
  digits : List Char
deriving DecidableEq

namespace Exponent

/-- A written sign: `-` for `true`, `+` for `false`. -/
def signText : Option Bool → List Char
  | none => []
  | some true => ['-']
  | some false => ['+']

def text (e : Exponent) : List Char := signText e.sign ++ e.digits

def value (e : Exponent) : ℤ :=
  if e.sign = some true then -(digitsVal e.digits : ℤ) else digitsVal e.digits

end Exponent

/-- A decimal numeral; an empty fraction is one that is not written. -/
structure Decimal where
  neg : Bool
  int : List Char
  frac : List Char
  exp : Option Exponent
deriving DecidableEq

namespace Decimal

def signText (neg : Bool) : List Char := if neg then ['-'] else []

def fracText (frac : List Char) : List Char := if frac = [] then [] else '.' :: frac

def expText : Option Exponent → List Char
  | none => []
  | some e => 'e' :: e.text

def mantissa (d : Decimal) : List Char := d.int ++ fracText d.frac

def text (d : Decimal) : List Char := signText d.neg ++ (d.mantissa ++ expText d.exp)

def expVal (d : Decimal) : ℤ := (d.exp.map Exponent.value).getD 0

/-- The number it denotes, without its sign. -/
def magnitude (d : Decimal) : ℚ := digitsVal (d.int ++ d.frac) * 10 ^ (d.expVal - d.frac.length)

/-- The digits are digits, and there are some where there must be. -/
structure WellFormed (d : Decimal) : Prop where
  int_ne : d.int ≠ []
  int : ∀ c ∈ d.int, c.isDigit = true
  frac : ∀ c ∈ d.frac, c.isDigit = true
  exp : ∀ e ∈ d.exp, e.digits ≠ [] ∧ ∀ c ∈ e.digits, c.isDigit = true

/-- A numeral JSON allows: no zero before other digits. -/
structure IsJson (d : Decimal) : Prop extends d.WellFormed where
  leading : d.int.head? = some '0' → d.int = ['0']

/-- The numeral of a natural number. -/
def ofNat (n : ℕ) : Decimal := ⟨false, Nat.toDigits 10 n, [], none⟩

@[simp] theorem ofNat_text (n : ℕ) : (ofNat n).text = Nat.toDigits 10 n := by
  simp [ofNat, text, mantissa, signText, fracText, expText]

theorem head?_toDigits {n : ℕ} (hn : 0 < n) : (Nat.toDigits 10 n).head? ≠ some '0' := by
  induction n using Nat.strongRecOn with
  | ind n ih =>
    rw [Nat.toDigits_eq_if (by norm_num)]
    split_ifs with hlt
    · interval_cases n <;> decide
    · rw [List.head?_append_of_ne_nil _ Nat.toDigits_ne_nil]
      exact ih (n / 10) (by omega) (by omega)

theorem ofNat_isJson (n : ℕ) : (ofNat n).IsJson := by
  refine ⟨⟨Nat.toDigits_ne_nil, fun _ => Nat.isDigit_of_mem_toDigits (by norm_num) (by norm_num),
    by simp [ofNat], by simp [ofNat]⟩, fun hzero => ?_⟩
  rcases Nat.eq_zero_or_pos n with rfl | hpos
  · exact Nat.toDigits_zero 10
  · exact absurd hzero (head?_toDigits hpos)

/-- The numeral of an integer. -/
def ofInt (i : ℤ) : Decimal := ⟨decide (i < 0), Nat.toDigits 10 i.natAbs, [], none⟩

theorem ofInt_isJson (i : ℤ) : (ofInt i).IsJson := by
  obtain ⟨⟨hne, hint, hfrac, hexp⟩, hlead⟩ := ofNat_isJson i.natAbs
  exact ⟨⟨hne, hint, hfrac, hexp⟩, hlead⟩

/-! ### A numeral is determined by its text -/

theorem isDigit_ne {c : Char} (h : c.isDigit = true) :
    c ≠ '-' ∧ c ≠ '+' ∧ c ≠ '.' ∧ c ≠ 'e' := by
  refine ⟨?_, ?_, ?_, ?_⟩ <;> rintro rfl <;> exact absurd h (by decide)

theorem exists_cons {ds : List Char} (hne : ds ≠ []) (hd : ∀ c ∈ ds, c.isDigit = true) :
    ∃ c rest, ds = c :: rest ∧ c.isDigit = true := by
  cases ds with
  | nil => exact absurd rfl hne
  | cons c rest => exact ⟨c, rest, rfl, hd c (List.mem_cons_self ..)⟩

theorem exponent_inj {e e' : Exponent} (hne : e.digits ≠ []) (hd : ∀ c ∈ e.digits, c.isDigit = true)
    (hne' : e'.digits ≠ []) (hd' : ∀ c ∈ e'.digits, c.isDigit = true) (h : e.text = e'.text) :
    e = e' := by
  obtain ⟨c, rest, hc, hdig⟩ := exists_cons hne hd
  obtain ⟨c', rest', hc', hdig'⟩ := exists_cons hne' hd'
  obtain ⟨hm, hp, -, -⟩ := isDigit_ne hdig
  obtain ⟨hm', hp', -, -⟩ := isDigit_ne hdig'
  have hm'' := hm'.symm
  have hp'' := hp'.symm
  obtain ⟨sign, digits⟩ := e
  obtain ⟨sign', digits'⟩ := e'
  simp only at hc hc'
  subst hc hc'
  rcases sign with _ | _ | _ <;> rcases sign' with _ | _ | _ <;>
    simp_all [Exponent.text, Exponent.signText]

theorem expText_inj {x x' : Option Exponent}
    (hx : ∀ e ∈ x, e.digits ≠ [] ∧ ∀ c ∈ e.digits, c.isDigit = true)
    (hx' : ∀ e ∈ x', e.digits ≠ [] ∧ ∀ c ∈ e.digits, c.isDigit = true)
    (h : expText x = expText x') : x = x' := by
  cases x with
  | none =>
    cases x' with
    | none => rfl
    | some e' => simp [expText] at h
  | some e =>
    cases x' with
    | none => simp [expText] at h
    | some e' =>
      obtain ⟨hne, hd⟩ := hx e rfl
      obtain ⟨hne', hd'⟩ := hx' e' rfl
      rw [exponent_inj hne hd hne' hd' (List.cons.inj h).2]

theorem ends_expText (x : Option Exponent) : Code.Ends Char.isDigit (expText x) := by
  cases x <;> simp [expText]

theorem fracText_inj {f f' : List Char} {x x' : Option Exponent}
    (hf : ∀ c ∈ f, c.isDigit = true) (hf' : ∀ c ∈ f', c.isDigit = true)
    (h : fracText f ++ expText x = fracText f' ++ expText x') :
    f = f' ∧ expText x = expText x' := by
  unfold fracText at h
  split_ifs at h with hnil hnil'
  · exact ⟨hnil.trans hnil'.symm, by simpa using h⟩
  · cases x <;> simp [expText] at h
  · cases x' <;> simp [expText] at h
  · exact Code.block_inj hf hf' (ends_expText x) (ends_expText x') (List.cons.inj h).2

theorem ends_fracText (f : List Char) (x : Option Exponent) :
    Code.Ends Char.isDigit (fracText f ++ expText x) := by
  unfold fracText
  split_ifs
  · exact ends_expText x
  · simp

/-- **A numeral is determined by its text.** -/
theorem text_inj {d d' : Decimal} (hd : d.WellFormed) (hd' : d'.WellFormed)
    (h : d.text = d'.text) : d = d' := by
  have hsign : d.neg = d'.neg ∧ d.mantissa ++ expText d.exp = d'.mantissa ++ expText d'.exp := by
    obtain ⟨c, rest, hc, hdig⟩ := exists_cons hd.int_ne hd.int
    obtain ⟨c', rest', hc', hdig'⟩ := exists_cons hd'.int_ne hd'.int
    have hm := (isDigit_ne hdig).1
    have hm' := (isDigit_ne hdig').1.symm
    simp only [text, mantissa, hc, hc'] at h ⊢
    cases hneg : d.neg <;> cases hneg' : d'.neg <;> simp_all [signText]
  obtain ⟨hneg, hrest⟩ := hsign
  rw [mantissa, mantissa, List.append_assoc, List.append_assoc] at hrest
  obtain ⟨hint, hrest⟩ :=
    Code.block_inj hd.int hd'.int (ends_fracText _ _) (ends_fracText _ _) hrest
  obtain ⟨hfrac, hexp⟩ := fracText_inj hd.frac hd'.frac hrest
  have hexp' := expText_inj hd.exp hd'.exp hexp
  cases d
  cases d'
  simp_all

/-- The symbols of numerals. -/
def isNumeral (c : Char) : Bool := c.isDigit || c == '-' || c == '+' || c == '.' || c == 'e'

theorem isNumeral_text {d : Decimal} (hd : d.WellFormed) : ∀ c ∈ d.text, isNumeral c = true := by
  have hdigit : ∀ {c : Char}, c.isDigit = true → isNumeral c = true := by
    intro c hc
    simp [isNumeral, hc]
  intro c hc
  simp only [text, mantissa, List.mem_append] at hc
  rcases hc with hc | (hc | hc) | hc
  · unfold signText at hc
    split_ifs at hc
    · obtain rfl := List.mem_singleton.mp hc
      rfl
    · cases hc
  · exact hdigit (hd.int c hc)
  · unfold fracText at hc
    split_ifs at hc
    · cases hc
    · rcases List.mem_cons.mp hc with rfl | hc
      · rfl
      · exact hdigit (hd.frac c hc)
  · cases hx : d.exp with
    | none => simp [hx, expText] at hc
    | some e =>
      rw [hx] at hc
      rcases List.mem_cons.mp hc with rfl | hc
      · rfl
      · rcases List.mem_append.mp hc with hc | hc
        · obtain ⟨sign, digits⟩ := e
          rcases sign with _ | _ | _ <;> simp [Exponent.signText] at hc <;> subst hc <;> rfl
        · exact hdigit ((hd.exp e hx).2 c hc)

/-- A numeral begins with a digit or a minus sign. -/
theorem exists_text_cons {d : Decimal} (hd : d.WellFormed) :
    ∃ c rest, d.text = c :: rest ∧ (c.isDigit = true ∨ c = '-') := by
  obtain ⟨c, rest, hc, hdig⟩ := exists_cons hd.int_ne hd.int
  cases hneg : d.neg with
  | true => exact ⟨'-', _, by simp [text, signText, hneg]; rfl, .inr rfl⟩
  | false => exact ⟨c, _, by simp [text, mantissa, signText, hneg, hc]; rfl, .inl hdig⟩

end Decimal

end WqcNode.Lib
