import WqcNode.Lib.Decimal
import WqcNode.Lib.Json
import Mathlib.Data.List.DropRight

/-! # Floats as Go writes them (`go_json_float` in `domain/p2p.rs`)

`go_json_float` takes ryu's digits and lays them out as Go's `encoding/json` does. The layout
denotes the same decimal (`goJsonFloat_decimal`), so a text that ryu reads back belongs to one float
only (`goJsonFloat_inj`). -/

namespace WqcNode.Domain.GoFloat

open WqcNode.Lib WqcNode.Lib.Json

/-! ### The source's functions -/

/-- `ryu`: `Buffer::format_finite`, and the parser that reads a sign and a magnitude back as the
nearest double. -/
structure Ryu where
  formatFinite : F64 → List Char
  parse : Bool → ℚ → F64

/-- `i32::from_str`. -/
def parseI32 (text : List Char) : Option ℤ :=
  let (neg, ds) := match text with
    | '-' :: ds => (true, ds)
    | '+' :: ds => (false, ds)
    | ds => (false, ds)
  if ds ≠ [] ∧ ds.all Char.isDigit = true then
    let n : ℤ := if neg then -(digitsVal ds : ℤ) else digitsVal ds
    if -2 ^ 31 ≤ n ∧ n < 2 ^ 31 then some n else none
  else none

/-- `str::split_once` at a character. -/
def splitOnce (c : Char) (text : List Char) : Option (List Char × List Char) :=
  if c ∈ text then some (text.takeWhile (· != c), (text.dropWhile (· != c)).tail) else none

def isZero (c : Char) : Bool := c == '0'

/-- Splits ryu's text into sign, significant digits without leading or trailing zeros, and the
exponent of the first digit. -/
def decimalDigits (text : List Char) : List Char × List Char × ℤ :=
  let (sign, text) := match text with
    | '-' :: rest => (['-'], rest)
    | _ => ([], text)
  let (mantissa, expPart) := (splitOnce 'e' text).getD (text, ['0'])
  let expPart := (parseI32 expPart).getD 0
  let point := mantissa.findIdx (· == '.')
  let all := mantissa.filter (· != '.')
  let trimmed := all.dropWhile isZero
  let leading := all.length - trimmed.length
  (sign, trimmed.rdropWhile isZero, (point : ℤ) - 1 - leading + expPart)

/-- `d.ddd × 10^exp` written without an exponent. -/
def plainDecimal (digits : List Char) (exp : ℤ) : List Char :=
  if exp < 0 then "0.".toList ++ (List.replicate (-exp - 1).toNat '0' ++ digits)
  else
    let intLen := exp.toNat + 1
    if digits.length ≤ intLen then digits ++ List.replicate (intLen - digits.length) '0'
    else digits.take intLen ++ '.' :: digits.drop intLen

/-- `{:02}` of a natural number. -/
def padTwo (n : ℕ) : List Char :=
  let ds := Nat.toDigits 10 n
  List.replicate (2 - ds.length) '0' ++ ds

/-- `d.ddd × 10^exp` written with an exponent. -/
def exponentDecimal (digits : List Char) (exp : ℤ) : List Char :=
  let mantissa :=
    if digits.length = 1 then digits else digits.take 1 ++ '.' :: digits.drop 1
  if exp < 0 then mantissa ++ ("e-".toList ++ Nat.toDigits 10 (-exp).toNat)
  else mantissa ++ ("e+".toList ++ padTwo exp.toNat)

/-- The sign bit. -/
def isSignNegative (f : F64) : Bool := f.toBits ≥ 0x8000000000000000

/-- `f == 0.0`, which both zeros are. -/
def isZeroF64 (f : F64) : Bool := f.toBits = 0 ∨ f.toBits = 0x8000000000000000

/-- `1e-6` and `1e21`. -/
def plainFrom : F64 := Float.Model.ofBits 0x3EB0C6F7A0B5ED8D
def plainBelow : F64 := Float.Model.ofBits 0x444B1AE4D6E2EF50

/-- Plain decimal, unless `|f| < 1e-6` or `|f| ≥ 1e21`. -/
def goJsonFloat (ryu : Ryu) (f : F64) : List Char :=
  if isZeroF64 f then if isSignNegative f then "-0".toList else "0".toList
  else
    let (sign, digits, exp) := decimalDigits (ryu.formatFinite f)
    let abs := f.abs
    sign ++ if plainFrom ≤ abs ∧ abs < plainBelow then plainDecimal digits exp
      else exponentDecimal digits exp

/-! ### Digits -/

/-- The significant digits of a list of digits. -/
def significant (all : List Char) : List Char := (all.dropWhile isZero).rdropWhile isZero

def leadingZeros (all : List Char) : ℕ := all.length - (all.dropWhile isZero).length

theorem eq_zeros {l : List Char} (h : ∀ c ∈ l, isZero c = true) :
    l = List.replicate l.length '0' :=
  List.eq_replicate_iff.mpr ⟨rfl, fun c hc => by simpa [isZero] using h c hc⟩

/-- Digits are leading zeros, the significant ones and trailing zeros. -/
theorem significant_split (all : List Char) :
    ∃ n, all = List.replicate (leadingZeros all) '0' ++ (significant all ++ List.replicate n '0') := by
  have hlead : all.takeWhile isZero = List.replicate (leadingZeros all) '0' := by
    have hlen : (all.takeWhile isZero).length = leadingZeros all := by
      have := congrArg List.length (List.takeWhile_append_dropWhile (p := isZero) (l := all))
      rw [List.length_append] at this
      unfold leadingZeros
      omega
    rw [← hlen]
    exact eq_zeros fun c hc => List.mem_takeWhile_imp hc
  have htail : ∀ l : List Char, l = l.rdropWhile isZero ++
      List.replicate (l.reverse.takeWhile isZero).length '0' := by
    intro l
    have hrev := List.takeWhile_append_dropWhile (p := isZero) (l := l.reverse)
    have hzeros : (l.reverse.takeWhile isZero).reverse =
        List.replicate (l.reverse.takeWhile isZero).length '0' := by
      rw [← List.length_reverse]
      exact eq_zeros fun c hc => List.mem_takeWhile_imp (List.mem_reverse.mp hc)
    rw [← hzeros, List.rdropWhile, ← List.reverse_append, hrev, List.reverse_reverse]
  refine ⟨((all.dropWhile isZero).reverse.takeWhile isZero).length, ?_⟩
  rw [significant, ← htail, ← hlead, List.takeWhile_append_dropWhile]

theorem head?_significant (all : List Char) : (significant all).head? ≠ some '0' := by
  intro hzero
  obtain ⟨rest, hrest⟩ := List.rdropWhile_prefix isZero (l := all.dropWhile isZero)
  cases hsig : significant all with
  | nil => simp [hsig] at hzero
  | cons c tail =>
    rw [hsig] at hzero
    rw [significant] at hsig
    rw [hsig, List.cons_append] at hrest
    have hhead := List.head_dropWhile_not isZero (l := all) (by rw [← hrest]; simp)
    obtain rfl := Option.some.inj hzero
    simp only [← hrest, List.head_cons] at hhead
    cases hhead

theorem getLast?_significant (all : List Char) : (significant all).getLast? ≠ some '0' := by
  unfold significant
  intro hzero
  have hne : (all.dropWhile isZero).rdropWhile isZero ≠ [] := by
    intro hnil
    simp [hnil] at hzero
  have hlast := List.rdropWhile_last_not isZero (all.dropWhile isZero) hne
  rw [List.getLast?_eq_some_getLast hne] at hzero
  exact hlast (by rw [Option.some.inj hzero]; rfl)

/-- The value of `d.ddd × 10^exp`. -/
def scaled (digits : List Char) (exp : ℤ) : ℚ := digitsVal digits * 10 ^ (exp + 1 - digits.length)

/-- The significant digits with their exponent denote the same number. -/
theorem scaled_significant (d : Decimal) : scaled (significant (d.int ++ d.frac))
    ((d.int.length : ℤ) - 1 - leadingZeros (d.int ++ d.frac) + d.expVal) = d.magnitude := by
  obtain ⟨n, hsplit⟩ := significant_split (d.int ++ d.frac)
  have hval : digitsVal (d.int ++ d.frac) = digitsVal (significant (d.int ++ d.frac)) * 10 ^ n := by
    conv_lhs => rw [hsplit]
    rw [digitsVal_append, digitsVal_append]
    simp
  have hlen : d.int.length + d.frac.length =
      leadingZeros (d.int ++ d.frac) + ((significant (d.int ++ d.frac)).length + n) := by
    have := congrArg List.length hsplit
    simpa using this
  have hexp : (d.int.length : ℤ) - 1 - leadingZeros (d.int ++ d.frac) + d.expVal + 1 -
      (significant (d.int ++ d.frac)).length = (n : ℤ) + (d.expVal - d.frac.length) := by omega
  rw [scaled, Decimal.magnitude, hval, hexp, zpow_add₀ (by norm_num), zpow_natCast]
  push_cast
  ring

theorem significant_ne {d : Decimal} (hpos : 0 < d.magnitude) : significant (d.int ++ d.frac) ≠ [] := by
  intro hnil
  rw [← scaled_significant d, scaled, hnil] at hpos
  simp [digitsVal] at hpos

/-! ### Taking a numeral apart -/

theorem parseI32_text {e : Exponent} (hne : e.digits ≠ []) (hd : ∀ c ∈ e.digits, c.isDigit = true)
    (hlo : -2 ^ 31 ≤ e.value) (hhi : e.value < 2 ^ 31) : parseI32 e.text = some e.value := by
  obtain ⟨sign, digits⟩ := e
  obtain ⟨c, rest, rfl, hc⟩ := Decimal.exists_cons hne hd
  obtain ⟨hm, hp, -, -⟩ := Decimal.isDigit_ne hc
  rcases sign with _ | _ | _
  · simp only [Exponent.value, Exponent.text, Exponent.signText, List.nil_append] at hlo hhi ⊢
    simp only [parseI32]
    split
    · exact absurd (by simp_all) hm
    · exact absurd (by simp_all) hp
    · simp_all
  all_goals
    simp only [Exponent.value, Exponent.text, Exponent.signText, List.cons_append, List.nil_append]
      at hlo hhi ⊢
    simp only [parseI32]
    simp_all

theorem splitOnce_append {c : Char} {x y : List Char} (hx : c ∉ x) :
    splitOnce c (x ++ c :: y) = some (x, y) := by
  have hp : ∀ a ∈ x, (a != c) = true := fun a ha => by
    simpa using fun heq : a = c => hx (heq ▸ ha)
  rw [splitOnce, if_pos (by simp), List.takeWhile_append_of_pos hp, List.dropWhile_append_of_pos hp]
  simp

theorem splitOnce_none {c : Char} {x : List Char} (hx : c ∉ x) : splitOnce c x = none := by
  rw [splitOnce, if_neg hx]

/-- The sign, and what `strip_prefix('-')` leaves. -/
def stripSign (text : List Char) : List Char × List Char :=
  match text with
  | '-' :: rest => (['-'], rest)
  | _ => ([], text)

/-- `decimal_digits` of a text whose parts are known. -/
theorem decimalDigits_parts {text sign rest mantissa expPart : List Char}
    (hstrip : stripSign text = (sign, rest))
    (hsplit : (splitOnce 'e' rest).getD (rest, ['0']) = (mantissa, expPart)) :
    decimalDigits text = (sign, significant (mantissa.filter (· != '.')),
      (mantissa.findIdx (· == '.') : ℤ) - 1 - leadingZeros (mantissa.filter (· != '.')) +
        (parseI32 expPart).getD 0) := by
  have hmatch : ∀ text : List Char, (match text with
      | '-' :: rest => (['-'], rest)
      | _ => ([], text)) = stripSign text := fun _ => rfl
  simp only [decimalDigits, hmatch, hstrip, hsplit]
  rfl

section Numeral

variable {d : Decimal} (hd : d.WellFormed)
include hd

theorem notMem_mantissa : 'e' ∉ d.mantissa := by
  intro h
  rcases List.mem_append.mp h with h | h
  · exact (Decimal.isDigit_ne (hd.int _ h)).2.2.2 rfl
  · unfold Decimal.fracText at h
    split_ifs at h
    · cases h
    · rcases List.mem_cons.mp h with h | h
      · cases h
      · exact (Decimal.isDigit_ne (hd.frac _ h)).2.2.2 rfl

theorem filter_mantissa : d.mantissa.filter (· != '.') = d.int ++ d.frac := by
  have hkeep : ∀ {l : List Char}, (∀ c ∈ l, c.isDigit = true) → l.filter (· != '.') = l := by
    intro l hl
    refine List.filter_eq_self.mpr fun c hc => ?_
    simpa using (Decimal.isDigit_ne (hl c hc)).2.2.1
  rw [Decimal.mantissa, List.filter_append, hkeep hd.int]
  unfold Decimal.fracText
  split_ifs with hnil
  · simp [hnil]
  · rw [List.filter_cons, if_neg (by simp), hkeep hd.frac]

theorem findIdx_mantissa : d.mantissa.findIdx (· == '.') = d.int.length := by
  have hnone : ∀ c ∈ d.int, (c == '.') = false := fun c hc => by
    simpa using (Decimal.isDigit_ne (hd.int c hc)).2.2.1
  have hlen : d.int.findIdx (· == '.') = d.int.length := List.findIdx_eq_length.mpr hnone
  rw [Decimal.mantissa, List.findIdx_append, if_neg (by rw [hlen]; exact lt_irrefl _)]
  unfold Decimal.fracText
  split_ifs <;> simp [List.findIdx_cons]

theorem stripSign_text :
    stripSign d.text = (Decimal.signText d.neg, d.mantissa ++ Decimal.expText d.exp) := by
  obtain ⟨c, rest, hc, hdig⟩ := Decimal.exists_cons hd.int_ne hd.int
  cases hneg : d.neg with
  | true => simp [stripSign, Decimal.text, Decimal.signText, hneg]
  | false =>
    have htext : d.text = d.mantissa ++ Decimal.expText d.exp := by
      simp [Decimal.text, Decimal.signText, hneg]
    rw [htext]
    unfold stripSign
    split
    · rename_i rest' heq
      rw [Decimal.mantissa, hc, List.cons_append, List.cons_append] at heq
      exact absurd (List.cons.inj heq).1 (Decimal.isDigit_ne hdig).1
    · simp [Decimal.signText]

/-- `decimal_digits` of a numeral. -/
theorem decimalDigits_text (hexp : ∀ e ∈ d.exp, -2 ^ 31 ≤ e.value ∧ e.value < 2 ^ 31) :
    decimalDigits d.text = (Decimal.signText d.neg, significant (d.int ++ d.frac),
      (d.int.length : ℤ) - 1 - leadingZeros (d.int ++ d.frac) + d.expVal) := by
  obtain ⟨expPart, hsplit, hparse⟩ : ∃ expPart,
      (splitOnce 'e' (d.mantissa ++ Decimal.expText d.exp)).getD
        (d.mantissa ++ Decimal.expText d.exp, ['0']) = (d.mantissa, expPart) ∧
      (parseI32 expPart).getD 0 = d.expVal := by
    cases hx : d.exp with
    | none =>
      rw [Decimal.expText, List.append_nil, splitOnce_none (notMem_mantissa hd)]
      have hzero : (parseI32 ['0']).getD 0 = 0 := by decide
      exact ⟨['0'], rfl, by rw [Decimal.expVal, hx]; exact hzero⟩
    | some e =>
      rw [Decimal.expText, splitOnce_append (notMem_mantissa hd)]
      obtain ⟨hne, hdig⟩ := hd.exp e hx
      obtain ⟨hlo, hhi⟩ := hexp e hx
      refine ⟨e.text, rfl, ?_⟩
      rw [parseI32_text hne hdig hlo hhi]
      simp [Decimal.expVal, hx]
  rw [decimalDigits_parts (stripSign_text hd) hsplit, filter_mantissa hd, findIdx_mantissa hd,
    hparse]

theorem isDigit_significant : ∀ c ∈ significant (d.int ++ d.frac), c.isDigit = true := by
  intro c hc
  obtain ⟨n, hsplit⟩ := significant_split (d.int ++ d.frac)
  have hmem : c ∈ d.int ++ d.frac := by
    rw [hsplit]
    simp [hc]
  rcases List.mem_append.mp hmem with h | h
  · exact hd.int c h
  · exact hd.frac c h

end Numeral

/-! ### Laying a numeral out -/

/-- The numeral of the plain layout. -/
def plainNumeral (neg : Bool) (digits : List Char) (exp : ℤ) : Decimal :=
  if exp < 0 then ⟨neg, ['0'], List.replicate (-exp - 1).toNat '0' ++ digits, none⟩
  else ⟨neg, digits.take (exp.toNat + 1) ++ List.replicate (exp.toNat + 1 - digits.length) '0',
    digits.drop (exp.toNat + 1), none⟩

/-- The exponent as it is written, with its sign. -/
def writtenExponent (exp : ℤ) : Exponent :=
  if exp < 0 then ⟨some true, Nat.toDigits 10 (-exp).toNat⟩ else ⟨some false, padTwo exp.toNat⟩

/-- The numeral of the exponent layout. -/
def exponentNumeral (neg : Bool) (digits : List Char) (exp : ℤ) : Decimal :=
  ⟨neg, digits.take 1, digits.drop 1, some (writtenExponent exp)⟩

@[simp] theorem plainNumeral_neg (neg : Bool) (digits : List Char) (exp : ℤ) :
    (plainNumeral neg digits exp).neg = neg := by
  unfold plainNumeral
  split_ifs <;> rfl

@[simp] theorem plainNumeral_exp (neg : Bool) (digits : List Char) (exp : ℤ) :
    (plainNumeral neg digits exp).exp = none := by
  unfold plainNumeral
  split_ifs <;> rfl

theorem writtenExponent_value (exp : ℤ) : (writtenExponent exp).value = exp := by
  unfold writtenExponent
  split_ifs with hexp
  · simp only [Exponent.value, if_true, digitsVal_toDigits]
    omega
  · simp only [Exponent.value, padTwo, digitsVal_append, digitsVal_zeros, digitsVal_toDigits]
    simp only [Option.some.injEq, Bool.false_eq_true, if_false, Nat.zero_mul, Nat.zero_add]
    omega

theorem isDigit_zeros (n : ℕ) : ∀ c ∈ List.replicate n '0', c.isDigit = true := by
  intro c hc
  rw [(List.mem_replicate.mp hc).2]
  rfl

theorem writtenExponent_digits (exp : ℤ) : (writtenExponent exp).digits ≠ [] ∧
    ∀ c ∈ (writtenExponent exp).digits, c.isDigit = true := by
  have hto : ∀ n, ∀ c ∈ Nat.toDigits 10 n, c.isDigit = true := fun n c hc =>
    Nat.isDigit_of_mem_toDigits (by norm_num) (by norm_num) hc
  unfold writtenExponent
  split_ifs
  · exact ⟨Nat.toDigits_ne_nil, hto _⟩
  · refine ⟨by simp [padTwo, Nat.toDigits_ne_nil], fun c hc => ?_⟩
    rcases List.mem_append.mp hc with hc | hc
    · exact isDigit_zeros _ c hc
    · exact hto _ c hc

section Layout

variable {digits : List Char} (hne : digits ≠ []) (hdig : ∀ c ∈ digits, c.isDigit = true)
  (hlead : digits.head? ≠ some '0') (neg : Bool) (exp : ℤ)

section Text

include hne

theorem plainNumeral_text : (plainNumeral neg digits exp).text =
    Decimal.signText neg ++ plainDecimal digits exp := by
  by_cases hexp : exp < 0
  · simp [plainNumeral, plainDecimal, Decimal.text, Decimal.mantissa, Decimal.fracText,
      Decimal.expText, hexp, hne]
  · by_cases hlen : digits.length ≤ exp.toNat + 1
    · simp [plainNumeral, plainDecimal, Decimal.text, Decimal.mantissa, Decimal.fracText,
        Decimal.expText, hexp, hlen]
    · have hdrop : digits.drop (exp.toNat + 1) ≠ [] := by simpa using hlen
      have hpad : exp.toNat + 1 - digits.length = 0 := by omega
      simp [plainNumeral, plainDecimal, Decimal.text, Decimal.mantissa, Decimal.fracText,
        Decimal.expText, hexp, hlen, hdrop, hpad]

theorem exponentNumeral_text : (exponentNumeral neg digits exp).text =
    Decimal.signText neg ++ exponentDecimal digits exp := by
  have hmant : digits.take 1 ++ Decimal.fracText (digits.drop 1) =
      if digits.length = 1 then digits else digits.take 1 ++ '.' :: digits.drop 1 := by
    cases digits with
    | nil => exact absurd rfl hne
    | cons c rest => cases rest <;> simp [Decimal.fracText]
  simp only [exponentNumeral, Decimal.text, Decimal.mantissa, Decimal.expText, hmant,
    exponentDecimal, writtenExponent]
  split_ifs <;> simp [Exponent.text, Exponent.signText]

end Text

section Json

include hne hdig hlead

theorem plainNumeral_isJson : (plainNumeral neg digits exp).IsJson := by
  unfold plainNumeral
  split_ifs with hexp
  · refine ⟨⟨by simp, by simp, fun c hc => ?_, by simp⟩, fun _ => rfl⟩
    rcases List.mem_append.mp hc with hc | hc
    · exact isDigit_zeros _ c hc
    · exact hdig c hc
  · refine ⟨⟨by simp [hne], fun c hc => ?_, fun c hc => hdig c (List.mem_of_mem_drop hc), by simp⟩,
      fun hzero => absurd hzero ?_⟩
    · rcases List.mem_append.mp hc with hc | hc
      · exact hdig c (List.mem_of_mem_take hc)
      · exact isDigit_zeros _ c hc
    · have htake : digits.take (exp.toNat + 1) ≠ [] := by simp [hne]
      rwa [List.head?_append_of_ne_nil _ htake, List.head?_take, if_neg (Nat.succ_ne_zero _)]

theorem exponentNumeral_isJson : (exponentNumeral neg digits exp).IsJson := by
  refine ⟨⟨by simp [exponentNumeral, hne], fun c hc => hdig c (List.mem_of_mem_take hc),
    fun c hc => hdig c (List.mem_of_mem_drop hc),
    by simpa [exponentNumeral] using writtenExponent_digits exp⟩, fun hzero => absurd hzero ?_⟩
  rwa [exponentNumeral, List.head?_take, if_neg (by norm_num)]

end Json

theorem plainNumeral_magnitude : (plainNumeral neg digits exp).magnitude = scaled digits exp := by
  rw [Decimal.magnitude, Decimal.expVal, plainNumeral_exp, plainNumeral]
  split_ifs with hexp
  · have hval : digitsVal (['0'] ++ (List.replicate (-exp - 1).toNat '0' ++ digits)) =
        digitsVal digits := by
      rw [digitsVal_append, digitsVal_append, digitsVal_zeros, show digitsVal ['0'] = 0 from
        digitsVal_zeros 1, zero_mul, zero_mul, zero_add, zero_add]
    rw [hval, scaled]
    congr 2
    simp only [Option.map_none, Option.getD_none, List.length_append, List.length_replicate]
    omega
  · by_cases hlen : digits.length ≤ exp.toNat + 1
    · have hpow : exp + 1 - digits.length = ((exp.toNat + 1 - digits.length : ℕ) : ℤ) := by omega
      rw [scaled, List.take_of_length_le hlen, List.drop_of_length_le hlen, List.append_nil,
        digitsVal_append, digitsVal_zeros, hpow, zpow_natCast]
      simp
    · have hpad : exp.toNat + 1 - digits.length = 0 := by omega
      rw [scaled, hpad, List.replicate_zero, List.append_nil, List.take_append_drop,
        List.length_drop]
      congr 2
      simp only [Option.map_none, Option.getD_none]
      omega

include hne in
theorem exponentNumeral_magnitude :
    (exponentNumeral neg digits exp).magnitude = scaled digits exp := by
  have hlen : 0 < digits.length := List.length_pos_iff.mpr hne
  rw [Decimal.magnitude, scaled, exponentNumeral, List.take_append_drop, List.length_drop]
  congr 2
  simp only [Decimal.expVal, Option.map_some, Option.getD_some, writtenExponent_value]
  omega

include hne hdig hlead

/-- Either layout is a numeral for the same number. -/
theorem layout_decimal (plain : Prop) [Decidable plain] : ∃ d : Decimal, d.IsJson ∧ d.neg = neg ∧
    d.magnitude = scaled digits exp ∧ d.text = Decimal.signText neg ++
      if plain then plainDecimal digits exp else exponentDecimal digits exp := by
  by_cases hplain : plain
  · rw [if_pos hplain]
    exact ⟨plainNumeral neg digits exp, plainNumeral_isJson hne hdig hlead neg exp,
      plainNumeral_neg neg digits exp, plainNumeral_magnitude neg exp,
      plainNumeral_text hne neg exp⟩
  · rw [if_neg hplain]
    exact ⟨exponentNumeral neg digits exp, exponentNumeral_isJson hne hdig hlead neg exp, rfl,
      exponentNumeral_magnitude hne neg exp, exponentNumeral_text hne neg exp⟩

end Layout

/-! ### The text determines the float -/

/-- ryu's text of the float is a numeral that is read back as the float. -/
def Ryu.ReadsBack (ryu : Ryu) (f : F64) : Prop :=
  ∃ d : Decimal, d.WellFormed ∧ (∀ e ∈ d.exp, -2 ^ 31 ≤ e.value ∧ e.value < 2 ^ 31) ∧
    0 < d.magnitude ∧ ryu.formatFinite f = d.text ∧ ryu.parse d.neg d.magnitude = f

/-- The text of a float that ryu reads back: zero, or a numeral for the number ryu's text
denotes. -/
theorem goJsonFloat_decimal {ryu : Ryu} {f : F64} (hf : isZeroF64 f = false → ryu.ReadsBack f) :
    ∃ d : Decimal, d.IsJson ∧ goJsonFloat ryu f = d.text ∧
      (isZeroF64 f = true ∧ d.magnitude = 0 ∧ d.neg = isSignNegative f ∨
        isZeroF64 f = false ∧ 0 < d.magnitude ∧ ryu.parse d.neg d.magnitude = f) := by
  cases hz : isZeroF64 f with
  | true =>
    refine ⟨⟨isSignNegative f, ['0'], [], none⟩,
      ⟨⟨by simp, by simp, by simp, by simp⟩, fun _ => rfl⟩, ?_, .inl ⟨rfl, ?_, rfl⟩⟩
    · simp only [goJsonFloat, hz, if_true, Decimal.text, Decimal.mantissa, Decimal.fracText,
        Decimal.expText]
      cases isSignNegative f <;> rfl
    · rw [Decimal.magnitude, List.append_nil, show digitsVal ['0'] = 0 from digitsVal_zeros 1]
      simp
  | false =>
    obtain ⟨d, hd, hexp, hpos, htext, hparse⟩ := hf hz
    obtain ⟨d', hd', hneg, hmag, htext'⟩ := layout_decimal (significant_ne hpos)
      (isDigit_significant hd) (head?_significant _) d.neg
      ((d.int.length : ℤ) - 1 - leadingZeros (d.int ++ d.frac) + d.expVal)
      (plainFrom ≤ f.abs ∧ f.abs < plainBelow)
    rw [scaled_significant] at hmag
    refine ⟨d', hd', ?_, .inr ⟨rfl, by rwa [hmag], by rw [hneg, hmag, hparse]⟩⟩
    simp only [goJsonFloat, hz, Bool.false_eq_true, if_false, htext, decimalDigits_text hd hexp,
      htext']

/-- The two zeros are told apart by their sign. -/
theorem eq_of_zeros {f g : F64} (hf : isZeroF64 f = true) (hg : isZeroF64 g = true)
    (h : isSignNegative f = isSignNegative g) : f = g := by
  have hbits : f.toBits = g.toBits := by
    simp only [isZeroF64, decide_eq_true_eq] at hf hg
    rcases hf with hf | hf <;> rcases hg with hg | hg <;> simp_all [isSignNegative]
  cases f
  cases g
  simp only at hbits
  subst hbits
  rfl

/-- **Two floats with the same text are the same float.** -/
theorem goJsonFloat_inj {ryu : Ryu} {f g : F64} (hf : isZeroF64 f = false → ryu.ReadsBack f)
    (hg : isZeroF64 g = false → ryu.ReadsBack g) (h : goJsonFloat ryu f = goJsonFloat ryu g) :
    f = g := by
  obtain ⟨d, hd, htext, hcase⟩ := goJsonFloat_decimal hf
  obtain ⟨d', hd', htext', hcase'⟩ := goJsonFloat_decimal hg
  obtain rfl := Decimal.text_inj hd.toWellFormed hd'.toWellFormed (htext.symm.trans (h.trans htext'))
  rcases hcase with ⟨hz, hmag, hneg⟩ | ⟨-, hpos, hparse⟩ <;>
    rcases hcase' with ⟨hz', hmag', hneg'⟩ | ⟨-, hpos', hparse'⟩
  · exact eq_of_zeros hz hz' (hneg.symm.trans hneg')
  · exact absurd hmag hpos'.ne'
  · exact absurd hmag' hpos.ne'
  · exact hparse.symm.trans hparse'

end WqcNode.Domain.GoFloat
