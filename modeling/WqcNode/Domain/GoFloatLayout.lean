import WqcNode.Lib.Ranged
import WqcNode.Domain.GoFloat

/-! # The layout of a float in range (`go_json_float` in `domain/p2p.rs`)

`decimal_digits`, `plain_decimal` and `go_json_float` count in `i32` and `usize` and slice the
digits. `Checked` has them again with every such operation checked: `none` is a value out of range
or a slice past the end. On what ryu writes none of them fails, and the text is the numeral Go's
layout asks for (`goJsonFloat_layout`). -/

namespace WqcNode.Domain.GoFloatLayout

open WqcNode.Lib WqcNode.Lib.Json WqcNode.Lib.Ranged WqcNode.Domain.GoFloat

/-! ### The source's functions, checked -/

namespace Checked

def decimalDigits (text : List Char) : Option (List Char × List Char × ℤ) := do
  let (sign, text) := stripSign text
  let (mantissa, expPart) := (splitOnce 'e' text).getD (text, ['0'])
  let expPart := (parseI32 expPart).getD 0
  let point := asI32 (mantissa.findIdx (· == '.'))
  let all := mantissa.filter (· != '.')
  let trimmed := all.dropWhile isZero
  let leading ← usizeSub all.length trimmed.length
  -- `point - 1 - leading as i32 + exp_part`, from the left
  let exp ← i32 (point - 1)
  let exp ← i32 (exp - asI32 leading)
  let exp ← i32 (exp + expPart)
  return (sign, trimmed.rdropWhile isZero, exp)

def plainDecimal (digits : List Char) (exp : ℤ) : Option (List Char) := do
  if exp < 0 then
    let below ← i32 (-exp)
    let below ← i32 (below - 1)
    let zeros ← repeated (asUsize below) '0'
    return "0.".toList ++ (zeros ++ digits)
  else
    let intLen ← usizeAdd (asUsize exp) 1
    if digits.length ≤ intLen then
      let pad ← usizeSub intLen digits.length
      let zeros ← repeated pad '0'
      return digits ++ zeros
    else
      let int ← sliceTo intLen digits
      let frac ← sliceFrom intLen digits
      return int ++ '.' :: frac

/-- `d.ddd`, or the digit alone. -/
def exponentMantissa (digits : List Char) : Option (List Char) :=
  if digits.length = 1 then some digits
  else do
    let int ← sliceTo 1 digits
    let frac ← sliceFrom 1 digits
    return int ++ '.' :: frac

def exponentDecimal (digits : List Char) (exp : ℤ) : Option (List Char) := do
  let mantissa ← exponentMantissa digits
  if exp < 0 then
    let exp ← i32 (-exp)
    return mantissa ++ ("e-".toList ++ Nat.toDigits 10 exp.toNat)
  else return mantissa ++ ("e+".toList ++ padTwo exp.toNat)

/-- What follows the sign. -/
def layout (plain : Bool) (digits : List Char) (exp : ℤ) : Option (List Char) :=
  if plain then plainDecimal digits exp else exponentDecimal digits exp

def goJsonFloat (ryu : Ryu) (f : F64) : Option (List Char) :=
  if isZeroF64 f then some (if isSignNegative f then "-0".toList else "0".toList)
  else do
    let (sign, digits, exp) ← decimalDigits (ryu.formatFinite f)
    let abs := f.abs
    let body ← layout (plainFrom ≤ abs ∧ abs < plainBelow) digits exp
    return sign ++ body

/-! ### What is in range is what the unchecked functions compute -/

theorem stripSign_length (text : List Char) : (stripSign text).2.length ≤ text.length := by
  unfold stripSign
  split
  · simp
  · exact le_rfl

theorem splitOnce_length (c : Char) (text other : List Char) :
    ((splitOnce c text).getD (text, other)).1.length ≤ text.length := by
  unfold splitOnce
  split_ifs
  · exact (List.takeWhile_prefix _).length_le
  · exact le_rfl

/-- Splitting a text keeps in range as long as the exponent of the first digit does. -/
theorem decimalDigits_eq {text : List Char} (hlen : text.length < 2 ^ 31)
    (hlo : -2 ^ 31 ≤ (GoFloat.decimalDigits text).2.2)
    (hhi : (GoFloat.decimalDigits text).2.2 < 2 ^ 31) :
    decimalDigits text = some (GoFloat.decimalDigits text) := by
  have hrest := stripSign_length text
  obtain ⟨sign, rest, hstrip⟩ : ∃ sign rest, stripSign text = (sign, rest) := ⟨_, _, rfl⟩
  have hmant := splitOnce_length 'e' rest ['0']
  obtain ⟨mantissa, expPart, hsplit⟩ : ∃ mantissa expPart,
      (splitOnce 'e' rest).getD (rest, ['0']) = (mantissa, expPart) := ⟨_, _, rfl⟩
  rw [hstrip] at hrest
  rw [hsplit] at hmant
  have hpoint : mantissa.findIdx (· == '.') ≤ mantissa.length := List.findIdx_le_length
  have hall : (mantissa.filter (· != '.')).length ≤ mantissa.length := List.length_filter_le ..
  have htrimmed : ((mantissa.filter (· != '.')).dropWhile isZero).length ≤
      (mantissa.filter (· != '.')).length := (List.dropWhile_suffix _).length_le
  obtain ⟨exp, hexp⟩ : ∃ exp, (GoFloat.decimalDigits text).2.2 = exp := ⟨_, rfl⟩
  rw [hexp] at hlo hhi
  rw [decimalDigits_parts hstrip hsplit] at hexp ⊢
  simp only [leadingZeros] at hexp hrest hmant
  unfold decimalDigits
  rw [hstrip]
  dsimp only
  rw [hsplit]
  dsimp only
  rw [usizeSub_eq htrimmed, some_bind, asI32_eq (by omega), asI32_eq (by omega),
    i32_eq (by omega) (by omega), some_bind, i32_eq (by omega) (by omega), some_bind,
    i32_eq (by omega) (by omega), some_bind]
  rfl

theorem plainDecimal_eq {digits : List Char} {exp : ℤ} (hlo : -2 ^ 31 < exp) (hhi : exp < 2 ^ 31) :
    plainDecimal digits exp = some (GoFloat.plainDecimal digits exp) := by
  unfold plainDecimal GoFloat.plainDecimal
  by_cases hexp : exp < 0
  · rw [if_pos hexp, if_pos hexp, i32_eq (by omega) (by omega), some_bind,
      i32_eq (by omega) (by omega), some_bind, asUsize_eq (by omega) (by omega),
      repeated_eq (by omega)]
    rfl
  · have hint : usizeAdd (asUsize exp) 1 = some (exp.toNat + 1) := by
      rw [asUsize_eq (by omega) hhi, usizeAdd_eq (by omega)]
    rw [if_neg hexp, if_neg hexp, hint, some_bind]
    by_cases hlen : digits.length ≤ exp.toNat + 1
    · rw [if_pos hlen, usizeSub_eq hlen, some_bind, repeated_eq (by omega)]
      simp only [if_pos hlen]
      rfl
    · rw [if_neg hlen, sliceTo_eq (by omega), some_bind, sliceFrom_eq (by omega)]
      simp only [if_neg hlen]
      rfl

theorem exponentMantissa_eq {digits : List Char} (hne : digits ≠ []) :
    exponentMantissa digits = some
      (if digits.length = 1 then digits else digits.take 1 ++ '.' :: digits.drop 1) := by
  have hlen : 1 ≤ digits.length := List.length_pos_iff.mpr hne
  unfold exponentMantissa
  split_ifs
  · rfl
  · rw [sliceTo_eq hlen, some_bind, sliceFrom_eq hlen]
    rfl

theorem exponentDecimal_eq {digits : List Char} {exp : ℤ} (hne : digits ≠ [])
    (hlo : -2 ^ 31 < exp) (hhi : exp < 2 ^ 31) :
    exponentDecimal digits exp = some (GoFloat.exponentDecimal digits exp) := by
  unfold exponentDecimal GoFloat.exponentDecimal
  rw [exponentMantissa_eq hne, some_bind]
  by_cases hexp : exp < 0
  · rw [if_pos hexp, if_pos hexp, i32_eq (by omega) (by omega)]
    rfl
  · rw [if_neg hexp, if_neg hexp]
    rfl

theorem layout_eq {plain : Bool} {digits : List Char} {exp : ℤ} (hne : digits ≠ [])
    (hlo : -2 ^ 31 < exp) (hhi : exp < 2 ^ 31) :
    layout plain digits exp = some
      (if plain then GoFloat.plainDecimal digits exp else GoFloat.exponentDecimal digits exp) := by
  unfold layout
  split_ifs
  · exact plainDecimal_eq hlo hhi
  · exact exponentDecimal_eq hne hlo hhi

/-- Nothing overflows and no slice is out of bounds where the text is short, has a digit other than
zero and puts the first of them at an exponent in range. -/
theorem goJsonFloat_eq {ryu : Ryu} {f : F64} (hlen : (ryu.formatFinite f).length < 2 ^ 31)
    (hne : (GoFloat.decimalDigits (ryu.formatFinite f)).2.1 ≠ [])
    (hlo : -2 ^ 31 < (GoFloat.decimalDigits (ryu.formatFinite f)).2.2)
    (hhi : (GoFloat.decimalDigits (ryu.formatFinite f)).2.2 < 2 ^ 31) :
    goJsonFloat ryu f = some (GoFloat.goJsonFloat ryu f) := by
  have hdigits := decimalDigits_eq hlen hlo.le hhi
  unfold goJsonFloat GoFloat.goJsonFloat
  by_cases hz : isZeroF64 f = true
  · rw [if_pos hz, if_pos hz]
  · rw [if_neg hz, if_neg hz, hdigits, some_bind]
    dsimp only
    rw [layout_eq hne hlo hhi, some_bind]
    simp only [decide_eq_true_eq]
    rfl

end Checked

/-! ### The exponent of the first digit -/

/-- `decimal_digits` finds the exponent of the first digit. -/
theorem log_magnitude {d : Decimal} (hd : d.WellFormed) (hpos : 0 < d.magnitude) :
    (d.int.length : ℤ) - 1 - leadingZeros (d.int ++ d.frac) + d.expVal = Int.log 10 d.magnitude := by
  rw [← scaled_significant d, scaled, log_digitsVal (significant_ne hpos) (isDigit_significant hd)
    (head?_significant _)]
  omega

/-! ### Numerals without superfluous zeros -/

/-- The numeral `out` has the sign and the magnitude of `d` in Go's layout: no zero stands before
other digits or after the last one of a fraction or a mantissa, and there is an exponent, which is
that of the first digit, exactly where it is below -6 or above 20. -/
structure LaidOut (d out : Decimal) : Prop where
  json : out.IsJson
  neg : out.neg = d.neg
  magnitude : out.magnitude = d.magnitude
  frac : out.frac.getLast? ≠ some '0'
  mantissa : ∀ e ∈ out.exp, out.int.length = 1 ∧ (out.int ++ out.frac).getLast? ≠ some '0'
  exponent : ∀ e ∈ out.exp, e.digits.head? ≠ some '0' ∧ e.value = Int.log 10 d.magnitude
  form : out.exp.isSome = true ↔ Int.log 10 d.magnitude < -6 ∨ 20 < Int.log 10 d.magnitude

theorem getLast?_drop_ne {digits : List Char} (hlast : digits.getLast? ≠ some '0') (n : ℕ) :
    (digits.drop n).getLast? ≠ some '0' := by
  rw [List.getLast?_drop]
  split_ifs
  · simp
  · exact hlast

theorem plainNumeral_frac {digits : List Char} (hne : digits ≠ [])
    (hlast : digits.getLast? ≠ some '0') (neg : Bool) (exp : ℤ) :
    (plainNumeral neg digits exp).frac.getLast? ≠ some '0' := by
  unfold plainNumeral
  split_ifs
  · rwa [List.getLast?_append_of_ne_nil _ hne]
  · exact getLast?_drop_ne hlast _

/-- An exponent of two digits needs no padding. -/
theorem padTwo_eq {n : ℕ} (hn : 10 ≤ n) : padTwo n = Nat.toDigits 10 n := by
  have hlen : 2 ≤ (Nat.toDigits 10 n).length := by
    by_contra hlt
    have := (Nat.length_toDigits_le_iff (b := 10) (k := 1) (by norm_num) (by norm_num)).mp
      (by omega : (Nat.toDigits 10 n).length ≤ 1)
    omega
  have hpad : 2 - (Nat.toDigits 10 n).length = 0 := by omega
  simp [padTwo, hpad]

theorem head?_writtenExponent {exp : ℤ} (hexp : exp < -6 ∨ 20 < exp) :
    (writtenExponent exp).digits.head? ≠ some '0' := by
  unfold writtenExponent
  split_ifs with hneg
  · exact Decimal.head?_toDigits (by omega)
  · rw [padTwo_eq (by omega)]
    exact Decimal.head?_toDigits (by omega)

/-! ### What ryu writes of a number that is finite and not zero -/

/-- ryu writes `f`, which is finite and not zero, as the numeral `d`. -/
structure Writes (ryu : Ryu) (f : F64) (d : Decimal) : Prop where
  nonzero : isZeroF64 f = false
  wellFormed : d.WellFormed
  text : ryu.formatFinite f = d.text
  -- far more than the 24 bytes of its buffer
  short : d.text.length < 2 ^ 30
  -- smaller numbers round to zero, larger ones to infinity
  least : 2 ^ (-1075 : ℤ) ≤ d.magnitude
  finite : d.magnitude < 2 ^ (1024 : ℤ)
  -- `(1e-6..1e21).contains(&abs)` says of the float what is true of the decimal
  compares : plainFrom ≤ f.abs ∧ f.abs < plainBelow ↔
    10 ^ (-6 : ℤ) ≤ d.magnitude ∧ d.magnitude < 10 ^ (21 : ℤ)

section Writes

variable {ryu : Ryu} {f : F64} {d : Decimal} (hw : Writes ryu f d)
include hw

theorem Writes.pos : 0 < d.magnitude := lt_of_lt_of_le (zpow_pos (by norm_num) _) hw.least

theorem Writes.log_range : -1075 ≤ Int.log 10 d.magnitude ∧ Int.log 10 d.magnitude < 1024 := by
  have hleast : ((10 : ℕ) : ℚ) ^ (-1075 : ℤ) ≤ d.magnitude := by
    refine le_trans ?_ hw.least
    rw [zpow_neg, zpow_neg]
    exact inv_anti₀ (zpow_pos (by norm_num) _) (zpow_le_zpow_left₀ (by norm_num) (by norm_num)
      (by norm_num))
  have hfinite : d.magnitude < ((10 : ℕ) : ℚ) ^ (1024 : ℤ) :=
    lt_of_lt_of_le hw.finite (zpow_le_zpow_left₀ (by norm_num) (by norm_num) (by norm_num))
  exact ⟨(Int.zpow_le_iff_le_log (by norm_num) hw.pos).mp hleast,
    (Int.lt_zpow_iff_log_lt (by norm_num) hw.pos).mp hfinite⟩

/-- The comparisons with `1e-6` and `1e21` bound the exponent of the first digit. -/
theorem Writes.plain_iff : plainFrom ≤ f.abs ∧ f.abs < plainBelow ↔
    -6 ≤ Int.log 10 d.magnitude ∧ Int.log 10 d.magnitude ≤ 20 := by
  have hlower : (10 : ℚ) ^ (-6 : ℤ) ≤ d.magnitude ↔ -6 ≤ Int.log 10 d.magnitude :=
    Int.zpow_le_iff_le_log (b := 10) (by norm_num) hw.pos
  have hupper : d.magnitude < (10 : ℚ) ^ (21 : ℤ) ↔ Int.log 10 d.magnitude < 21 :=
    Int.lt_zpow_iff_log_lt (b := 10) (by norm_num) hw.pos
  rw [hw.compares, hlower, hupper]
  omega

theorem Writes.exponent_range : ∀ e ∈ d.exp, -2 ^ 31 ≤ e.value ∧ e.value < 2 ^ 31 := by
  intro e he
  have hval : d.expVal = e.value := by
    rw [Decimal.expVal, Option.mem_def.mp he]
    rfl
  have hdigits : d.int.length + d.frac.length ≤ d.text.length := by
    have hfrac : d.frac.length ≤ (Decimal.fracText d.frac).length := by
      unfold Decimal.fracText
      split_ifs with hnil
      · simp [hnil]
      · simp
    simp only [Decimal.text, Decimal.mantissa, List.length_append]
    omega
  have hleading : leadingZeros (d.int ++ d.frac) ≤ d.int.length + d.frac.length := by
    rw [leadingZeros, List.length_append]
    omega
  have hlog := log_magnitude hw.wellFormed hw.pos
  have hrange := hw.log_range
  have hshort := hw.short
  omega

/-- `decimal_digits` of what ryu writes. -/
theorem Writes.decimalDigits_eq : decimalDigits (ryu.formatFinite f) =
    (Decimal.signText d.neg, significant (d.int ++ d.frac), Int.log 10 d.magnitude) := by
  rw [hw.text, decimalDigits_text hw.wellFormed hw.exponent_range,
    log_magnitude hw.wellFormed hw.pos]

theorem Writes.scaled_eq :
    scaled (significant (d.int ++ d.frac)) (Int.log 10 d.magnitude) = d.magnitude := by
  rw [← log_magnitude hw.wellFormed hw.pos, scaled_significant]

/-- The numeral that is laid out. -/
theorem Writes.goJsonFloat_eq : goJsonFloat ryu f =
    (if plainFrom ≤ f.abs ∧ f.abs < plainBelow then
      plainNumeral d.neg (significant (d.int ++ d.frac)) (Int.log 10 d.magnitude)
    else exponentNumeral d.neg (significant (d.int ++ d.frac)) (Int.log 10 d.magnitude)).text := by
  have hne := significant_ne hw.pos
  simp only [goJsonFloat, hw.nonzero, Bool.false_eq_true, if_false, hw.decimalDigits_eq]
  split_ifs
  · rw [plainNumeral_text hne]
  · rw [exponentNumeral_text hne]

/-- Nothing on the way is out of range. -/
theorem Writes.checked_eq : Checked.goJsonFloat ryu f = some (goJsonFloat ryu f) := by
  have hrange := hw.log_range
  refine Checked.goJsonFloat_eq ?_ ?_ ?_ ?_
  · have hshort := hw.short
    rw [hw.text]
    omega
  · rw [hw.decimalDigits_eq]
    exact significant_ne hw.pos
  · rw [hw.decimalDigits_eq]
    show -2 ^ 31 < Int.log 10 d.magnitude
    omega
  · rw [hw.decimalDigits_eq]
    show Int.log 10 d.magnitude < 2 ^ 31
    omega

theorem Writes.plain_laidOut (hplain : plainFrom ≤ f.abs ∧ f.abs < plainBelow) :
    LaidOut d (plainNumeral d.neg (significant (d.int ++ d.frac)) (Int.log 10 d.magnitude)) := by
  have hne := significant_ne hw.pos
  have hexp := hw.plain_iff.mp hplain
  refine ⟨plainNumeral_isJson hne (isDigit_significant hw.wellFormed) (head?_significant _) _ _,
    plainNumeral_neg .., ?_, plainNumeral_frac hne (getLast?_significant _) _ _, by simp, by simp,
    ?_⟩
  · rw [plainNumeral_magnitude, hw.scaled_eq]
  · rw [plainNumeral_exp]
    constructor
    · intro h
      cases h
    · intro h
      omega

theorem Writes.exponent_laidOut (hplain : ¬(plainFrom ≤ f.abs ∧ f.abs < plainBelow)) :
    LaidOut d (exponentNumeral d.neg (significant (d.int ++ d.frac)) (Int.log 10 d.magnitude)) := by
  have hne := significant_ne hw.pos
  have hlast := getLast?_significant (d.int ++ d.frac)
  have hexp : Int.log 10 d.magnitude < -6 ∨ 20 < Int.log 10 d.magnitude := by
    have hnot : ¬(-6 ≤ Int.log 10 d.magnitude ∧ Int.log 10 d.magnitude ≤ 20) :=
      fun h => hplain (hw.plain_iff.mpr h)
    omega
  refine ⟨exponentNumeral_isJson hne (isDigit_significant hw.wellFormed) (head?_significant _) _ _,
    rfl, ?_, getLast?_drop_ne hlast 1, ?_, ?_, ⟨fun _ => hexp, fun _ => rfl⟩⟩
  · rw [exponentNumeral_magnitude hne, hw.scaled_eq]
  · intro e _
    have hlen : 1 ≤ (significant (d.int ++ d.frac)).length := List.length_pos_iff.mpr hne
    simp only [exponentNumeral, List.length_take, List.take_append_drop]
    exact ⟨by omega, hlast⟩
  · intro e he
    obtain rfl := Option.some.inj he
    exact ⟨head?_writtenExponent hexp, writtenExponent_value _⟩

/-- **The layout keeps the number.** Of a number that is finite and not zero, `go_json_float` writes
a numeral in Go's layout, and nothing on the way is out of range. -/
theorem goJsonFloat_layout : ∃ out : Decimal, Checked.goJsonFloat ryu f = some out.text ∧
    goJsonFloat ryu f = out.text ∧ LaidOut d out := by
  rw [hw.checked_eq, hw.goJsonFloat_eq]
  refine ⟨_, rfl, rfl, ?_⟩
  by_cases hplain : plainFrom ≤ f.abs ∧ f.abs < plainBelow
  · rw [if_pos hplain]
    exact hw.plain_laidOut hplain
  · rw [if_neg hplain]
    exact hw.exponent_laidOut hplain

end Writes

/-- `-2.5e22`, and ryu where it writes it. -/
def sampleF64 : F64 := Float.Model.ofBits 0xC4952D02C7E14AF6

def sampleNumeral : Decimal := ⟨true, ['2'], ['5'], some ⟨none, ['2', '2']⟩⟩

def sampleRyu : Ryu := ⟨fun _ => "-2.5e22".toList, fun _ _ => sampleF64⟩

theorem sampleNumeral_magnitude : sampleNumeral.magnitude = 25 * 10 ^ (21 : ℤ) := by
  have hdigits : digitsVal (sampleNumeral.int ++ sampleNumeral.frac) = 25 := by decide
  have hexp : sampleNumeral.expVal - sampleNumeral.frac.length = 21 := by decide
  rw [Decimal.magnitude, hdigits, hexp]
  rfl

theorem sampleRyu_writes : Writes sampleRyu sampleF64 sampleNumeral where
  nonzero := by decide +kernel
  wellFormed := by
    refine ⟨by simp [sampleNumeral], List.forall_mem_singleton.mpr rfl,
      List.forall_mem_singleton.mpr rfl, fun e he => ?_⟩
    obtain rfl := Option.some.inj he
    exact ⟨by simp, List.forall_mem_cons.mpr ⟨rfl, List.forall_mem_singleton.mpr rfl⟩⟩
  text := by decide
  short := by decide
  least := by
    rw [sampleNumeral_magnitude]
    calc (2 : ℚ) ^ (-1075 : ℤ)
        ≤ 2 ^ (0 : ℤ) := zpow_le_zpow_right₀ (by norm_num) (by norm_num)
      _ ≤ 25 * 10 ^ (21 : ℤ) := by norm_num
  finite := by
    rw [sampleNumeral_magnitude]
    calc (25 : ℚ) * 10 ^ (21 : ℤ)
        < 2 ^ (100 : ℤ) := by norm_num
      _ ≤ 2 ^ (1024 : ℤ) := zpow_le_zpow_right₀ (by norm_num) (by norm_num)
  compares := by
    rw [sampleNumeral_magnitude]
    have hnot : ¬(plainFrom ≤ sampleF64.abs ∧ sampleF64.abs < plainBelow) := by decide +kernel
    constructor
    · exact fun h => absurd h hnot
    · intro h
      norm_num at h

theorem goJsonFloat_layout_sample : goJsonFloat sampleRyu sampleF64 = "-2.5e+22".toList ∧
    ∃ out : Decimal, Checked.goJsonFloat sampleRyu sampleF64 = some out.text ∧
      goJsonFloat sampleRyu sampleF64 = out.text ∧ LaidOut sampleNumeral out :=
  ⟨by decide +kernel, goJsonFloat_layout sampleRyu_writes⟩

end WqcNode.Domain.GoFloatLayout
