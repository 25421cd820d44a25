import WqcNode.Lib.Bytes
import WqcNode.Lib.Text
import WqcNode.Lib.Decimal
import WqcNode.Lib.Fallible

/-! # Token amounts (`domain/token.rs`)

An amount in WQC is a whole part and, after a point, up to 18 fractional digits; it is read into
Planck, `10 ^ 18` to the WQC. The fraction is checked digit by digit, the whole part is left to
`num-bigint`, which also takes a sign and underscores. So the amounts that are read are the ones of
the grammar exactly where the whole part has neither (`reads_grammar_iff`). -/

namespace WqcNode.Domain.Token

open WqcNode.Lib WqcNode.Lib.Text WqcNode.Lib.Fallible

/-! ### The source's functions -/

/-- 1 WQC = 10^18 Planck (pWQC). -/
def planckPerWqc : ℕ := 1000000000000000000

section Parse

-- `BigInt::from_str`, and `{:?}` of a text
variable (fromStr : List Char → Option ℤ) (debug : List Char → String)

/-- The whole part of `raw`; an empty one is 0. An error has the text of its context. -/
def parseWhole (raw : List Char) (part : List Char) : Except String ℤ :=
  let wholeStr := if part.isEmpty then ['0'] else part
  match fromStr wholeStr with
  | none => .error s!"invalid WQC whole part in {debug raw}"
  | some whole => if whole < 0 then .error s!"invalid WQC whole part in {debug raw}" else .ok whole

/-- The fraction of `raw`, with zeros up to `maxFracDigits` digits. -/
def fracText (raw : List Char) (maxFracDigits : ℕ) : Option (List Char) → Except String (List Char)
  | some frac =>
    let len := (utf8 (String.ofList frac)).length
    if len > maxFracDigits then
      .error s!"WQC amount {debug raw} exceeds {maxFracDigits} fractional digits"
    else if !frac.all Char.isDigit then .error s!"invalid WQC amount {debug raw}"
    else .ok (frac ++ List.replicate (maxFracDigits - len) '0')
  | none => .ok (List.replicate maxFracDigits '0')

def parseFixedPointWqc (raw : List Char) (maxFracDigits scale : ℕ) : Except String ℤ :=
  if raw.isEmpty then .error "empty WQC amount"
  else
    let parts := raw.splitOn '.'
    if parts.length > 2 then .error s!"invalid WQC amount {debug raw}"
    else do
      let whole ← parseWhole fromStr debug raw (parts.headD [])
      let fracStr ← fracText debug raw maxFracDigits parts[1]?
      match fromStr fracStr with
      | none => .error s!"invalid WQC fractional part in {debug raw}"
      | some frac => .ok (whole * scale + frac)

/-- Parses a human WQC amount (e.g. `"100"`, `"0.05"`) into Planck integers. -/
def parseWqcToPlanck (raw : String) : Except String ℤ :=
  parseFixedPointWqc fromStr debug (trim raw).toList 18 planckPerWqc

end Parse

/-! ### The grammar -/

def Digits (text : List Char) : Prop := ∀ c ∈ text, c.isDigit = true

/-- The fraction with the point before it. -/
def pointed : Option (List Char) → List Char
  | none => []
  | some frac => '.' :: frac

/-- At most `max` digits. -/
def FracOk (max : ℕ) (frac : Option (List Char)) : Prop := ∀ f ∈ frac, Digits f ∧ f.length ≤ max

/-- What the fraction is worth in Planck. -/
def fracPlanck (frac : Option (List Char)) : ℕ :=
  digitsVal (frac.getD []) * 10 ^ (18 - (frac.getD []).length)

/-- The text is `W` or `W.F`, digits all, and stands for `n` Planck. -/
def AmountOf (text : List Char) (n : ℕ) : Prop :=
  text ≠ [] ∧ ∃ whole frac, text = whole ++ pointed frac ∧ Digits whole ∧ FracOk 18 frac ∧
    n = digitsVal whole * planckPerWqc + fracPlanck frac

/-- A digit, then digits and underscores. -/
def Grouped (body : List Char) : Prop :=
  ∃ c rest, body = c :: rest ∧ c.isDigit = true ∧ ∀ d ∈ rest, d.isDigit = true ∨ d = '_'

/-- The number that grouped digits denote, with its sign. -/
def signedVal (sign : Option Bool) (body : List Char) : ℤ :=
  let n := digitsVal (body.filter (· != '_'))
  if sign = some true then -(n : ℤ) else n

/-- `num-bigint` as it is documented: an optional sign, then digits, with underscores between or
after them. -/
def Documented (fromStr : List Char → Option ℤ) : Prop :=
  ∀ text n, fromStr text = some n ↔ ∃ sign body, text = Exponent.signText sign ++ body ∧
    Grouped body ∧ n = signedVal sign body

/-- A number with a sign or an underscore, and not negative. -/
def Decorated (whole : List Char) : Prop :=
  ∃ sign body, whole = Exponent.signText sign ++ body ∧ Grouped body ∧
    (sign ≠ none ∨ '_' ∈ body) ∧ 0 ≤ signedVal sign body

/-- An amount but for its whole part, which has a sign or an underscore. -/
def Lenient (text : List Char) : Prop :=
  ∃ whole frac, text = whole ++ pointed frac ∧ Decorated whole ∧ FracOk 18 frac

/-! ### Whole part and fraction -/

theorem digit_ne {c : Char} (hc : c.isDigit = true) : c ≠ '.' ∧ c ≠ '_' ∧ c ≠ '-' ∧ c ≠ '+' := by
  refine ⟨?_, ?_, ?_, ?_⟩ <;> rintro rfl <;> exact absurd hc (by decide)

theorem Digits.notMem {text : List Char} (h : Digits text) : '.' ∉ text := by
  intro hmem
  exact (digit_ne (h '.' hmem)).1 rfl

theorem Digits.ascii {text : List Char} (h : Digits text) : ∀ c ∈ text, c.val ≤ 127 := by
  intro c hc
  have hdigit := h c hc
  unfold Char.isDigit at hdigit
  rw [Bool.and_eq_true, decide_eq_true_eq, decide_eq_true_eq] at hdigit
  exact UInt32.le_trans hdigit.2 (by decide)

theorem Grouped.notMem {body : List Char} (h : Grouped body) : '.' ∉ body := by
  obtain ⟨c, rest, rfl, hc, hrest⟩ := h
  intro hmem
  rcases List.mem_cons.mp hmem with heq | hmem
  · exact (digit_ne hc).1 heq.symm
  · rcases hrest '.' hmem with h | h
    · exact absurd h (by decide)
    · exact absurd h (by decide)

theorem Grouped.digits {body : List Char} (h : Grouped body) (hu : '_' ∉ body) : Digits body := by
  obtain ⟨c, rest, rfl, hc, hrest⟩ := h
  intro d hd
  rcases List.mem_cons.mp hd with rfl | hd
  · exact hc
  · rcases hrest d hd with h | rfl
    · exact h
    · exact absurd (List.mem_cons_of_mem c hd) hu

theorem Digits.grouped {text : List Char} (h : Digits text) (hne : text ≠ []) : Grouped text := by
  obtain ⟨c, rest, rfl⟩ := List.exists_cons_of_ne_nil hne
  exact ⟨c, rest, rfl, h c (List.mem_cons_self ..), fun d hd => .inl (h d (List.mem_cons_of_mem c hd))⟩

theorem Digits.signedVal_none {text : List Char} (h : Digits text) :
    signedVal none text = digitsVal text := by
  have hkeep : text.filter (· != '_') = text := by
    refine List.filter_eq_self.mpr fun c hc => ?_
    simpa using (digit_ne (h c hc)).2.1
  unfold signedVal
  rw [hkeep]
  rfl

theorem signText_notMem (sign : Option Bool) : '.' ∉ Exponent.signText sign := by
  rcases sign with _ | _ | _ <;> decide

theorem Decorated.notMem {whole : List Char} (h : Decorated whole) : '.' ∉ whole := by
  obtain ⟨sign, body, rfl, hbody, -, -⟩ := h
  intro hmem
  rcases List.mem_append.mp hmem with hmem | hmem
  · exact signText_notMem sign hmem
  · exact hbody.notMem hmem

/-- Digits alone are not decorated. -/
theorem Decorated.not_digits {whole : List Char} (h : Decorated whole) : ¬ Digits whole := by
  obtain ⟨sign, body, rfl, -, hdec, -⟩ := h
  intro hdigits
  rcases hdec with hsign | hunder
  · obtain ⟨neg, rfl⟩ := Option.ne_none_iff_exists'.mp hsign
    cases neg with
    | false => exact absurd (hdigits '+' (by simp [Exponent.signText])) (by decide)
    | true => exact absurd (hdigits '-' (by simp [Exponent.signText])) (by decide)
  · exact (digit_ne (hdigits '_' (List.mem_append_right _ hunder))).2.1 rfl

/-- The point parts a text in one way. -/
theorem parts_inj {w w' : List Char} {f f' : Option (List Char)} (hw : '.' ∉ w) (hw' : '.' ∉ w')
    (h : w ++ pointed f = w' ++ pointed f') : w = w' ∧ f = f' := by
  have hends : ∀ f : Option (List Char), Code.Ends (· != '.') (pointed f) := by
    intro f
    cases f with
    | none => exact Code.ends_nil _
    | some f => exact (Code.ends_cons ..).mpr rfl
  have hplain : ∀ {w : List Char}, '.' ∉ w → ∀ c ∈ w, (c != '.') = true := by
    intro w hw c hc
    simpa using fun heq : c = '.' => hw (heq ▸ hc)
  obtain ⟨rfl, hf⟩ := Code.block_inj (hplain hw) (hplain hw') (hends f) (hends f') h
  refine ⟨rfl, ?_⟩
  cases f <;> cases f' <;> simp_all [pointed]

section Parse

variable {fromStr : List Char → Option ℤ} {debug : List Char → String} {raw : List Char}

/-- **The text is split** at its one point, or has none; it is refused with more. -/
theorem splitOn_cases (raw : List Char) :
    (∃ w f, raw = w ++ pointed f ∧ '.' ∉ w ∧ raw.splitOn '.' = w :: f.toList) ∨
      2 < (raw.splitOn '.').length := by
  by_cases hmem : '.' ∈ raw
  · obtain ⟨w, f, rfl, hw⟩ := List.eq_append_cons_of_mem hmem
    rw [List.splitOn_append_cons_self_of_not_mem hw]
    by_cases hf : '.' ∈ f
    · right
      obtain ⟨f, g, rfl, hf'⟩ := List.eq_append_cons_of_mem hf
      rw [List.splitOn_append_cons_self_of_not_mem hf', List.length_cons, List.length_cons]
      have := List.length_pos_iff.mpr (List.splitOn_ne_nil '.' g)
      omega
    · left
      exact ⟨w, some f, rfl, hw, by rw [List.splitOn_eq_singleton hf]; rfl⟩
  · left
    exact ⟨raw, none, (List.append_nil raw).symm, hmem, List.splitOn_eq_singleton hmem⟩

theorem parseWhole_ok_iff (hdoc : Documented fromStr) {w : List Char} {n : ℤ} :
    parseWhole fromStr debug raw w = .ok n ↔
      0 ≤ n ∧ (w = [] ∧ n = 0 ∨ fromStr w = some n) := by
  have hzero : fromStr ['0'] = some 0 := (hdoc ..).mpr ⟨none, ['0'], rfl, ⟨'0', [], rfl, rfl, by simp⟩, rfl⟩
  have hempty : ∀ n, fromStr [] ≠ some n := by
    intro n h
    obtain ⟨sign, body, htext, ⟨c, rest, rfl, -⟩, -⟩ := (hdoc ..).mp h
    exact absurd htext (by simp)
  unfold parseWhole
  by_cases hw : w = []
  · subst hw
    simp only [List.isEmpty_nil, if_true, hzero, lt_self_iff_false, if_false, Except.ok.injEq,
      true_and, hempty, or_false]
    omega
  · have hne : w.isEmpty = false := by simpa using hw
    simp only [hne, Bool.false_eq_true, if_false, hw, false_and, false_or]
    cases hval : fromStr w with
    | none => simp
    | some whole =>
      simp only [Option.some.injEq]
      split_ifs with hneg
      · simp only [false_iff]
        omega
      · simp only [Except.ok.injEq]
        omega

theorem fracText_ok_iff {max : ℕ} {frac : Option (List Char)} {text : List Char} :
    fracText debug raw max frac = .ok text ↔
      FracOk max frac ∧ text = frac.getD [] ++ List.replicate (max - (frac.getD []).length) '0' := by
  cases frac with
  | none =>
    simp only [fracText, FracOk, Option.mem_def, reduceCtorEq, false_implies, implies_true, true_and,
      Option.getD_none, List.nil_append, List.length_nil, Nat.sub_zero, Except.ok.injEq, eq_comm]
  | some f =>
    have hall : f.all Char.isDigit = true ↔ Digits f := List.all_eq_true
    simp only [fracText, FracOk, Option.mem_def, Option.some.injEq, forall_eq', Option.getD_some]
    by_cases hdig : Digits f
    · rw [length_utf8_of_ascii hdig.ascii]
      simp only [hall.mpr hdig, Bool.not_true, Bool.false_eq_true, if_false, hdig, true_and]
      split_ifs with hlen
      · simp only [false_iff]
        omega
      · simp only [Except.ok.injEq, eq_comm]
        constructor
        · exact fun h => ⟨by omega, h⟩
        · exact fun h => h.2
    · have hfalse : f.all Char.isDigit = false := by
        rw [← Bool.not_eq_true, hall]
        exact hdig
      simp only [hfalse, Bool.not_false, if_true, hdig, false_and, iff_false]
      split_ifs <;> simp

/-- The digits of a fraction with its zeros, read as a number. -/
theorem fromStr_fracText (hdoc : Documented fromStr) {frac : Option (List Char)} (hf : FracOk 18 frac) :
    fromStr (frac.getD [] ++ List.replicate (18 - (frac.getD []).length) '0') =
      some (fracPlanck frac : ℤ) := by
  have hdigits : Digits (frac.getD []) := by
    cases frac with
    | none => exact fun c hc => absurd hc List.not_mem_nil
    | some f => exact (hf f rfl).1
  have hall : Digits (frac.getD [] ++ List.replicate (18 - (frac.getD []).length) '0') := by
    intro c hc
    rcases List.mem_append.mp hc with hc | hc
    · exact hdigits c hc
    · rw [(List.mem_replicate.mp hc).2]
      rfl
  have hne : frac.getD [] ++ List.replicate (18 - (frac.getD []).length) '0' ≠ [] := by
    intro hnil
    have hlen := congrArg List.length hnil
    rw [List.length_append, List.length_replicate, List.length_nil] at hlen
    omega
  refine (hdoc ..).mpr ⟨none, _, (List.nil_append _).symm, hall.grouped hne, ?_⟩
  rw [hall.signedVal_none, digitsVal_append, digitsVal_zeros, List.length_replicate, Nat.add_zero]
  rfl

/-- **What is read**: a whole part that `num-bigint` takes and that is not negative, and a fraction
of digits. -/
theorem parseWqcToPlanck_ok_iff (hdoc : Documented fromStr) {s : String} {n : ℤ} :
    parseWqcToPlanck fromStr debug s = .ok n ↔ (trim s).toList ≠ [] ∧ ∃ w f whole,
      (trim s).toList = w ++ pointed f ∧ '.' ∉ w ∧ FracOk 18 f ∧ 0 ≤ whole ∧
      (w = [] ∧ whole = 0 ∨ fromStr w = some whole) ∧
      n = whole * (planckPerWqc : ℤ) + fracPlanck f := by
  unfold parseWqcToPlanck parseFixedPointWqc
  generalize (trim s).toList = raw
  by_cases hraw : raw = []
  · simp [hraw]
  have hne : raw.isEmpty = false := by simpa using hraw
  simp only [hne, Bool.false_eq_true, if_false, ne_eq, hraw, not_false_eq_true, true_and]
  rcases splitOn_cases raw with ⟨w, f, hparts, hw, hsplit⟩ | hlong
  · have hlen : ¬ (w :: f.toList).length > 2 := by
      cases f <;> simp
    have hget : (w :: f.toList)[1]? = f := by
      cases f <;> rfl
    rw [hsplit, if_neg hlen, hget, List.headD_cons]
    constructor
    · intro h
      obtain ⟨whole, hwhole, h⟩ := bind_eq_ok.mp h
      obtain ⟨text, htext, h⟩ := bind_eq_ok.mp h
      obtain ⟨hfrac, rfl⟩ := fracText_ok_iff.mp htext
      obtain ⟨hpos, hval⟩ := (parseWhole_ok_iff hdoc).mp hwhole
      rw [fromStr_fracText hdoc hfrac] at h
      cases h
      exact ⟨w, f, whole, hparts, hw, hfrac, hpos, hval, rfl⟩
    · rintro ⟨w', f', whole, hparts', hw', hfrac, hpos, hval, rfl⟩
      obtain ⟨rfl, rfl⟩ := parts_inj hw hw' (hparts.symm.trans hparts')
      rw [(parseWhole_ok_iff hdoc).mpr ⟨hpos, hval⟩, fracText_ok_iff.mpr ⟨hfrac, rfl⟩]
      simp only [bind, Except.bind, fromStr_fracText hdoc hfrac]
  · rw [if_pos hlong]
    simp only [reduceCtorEq, false_iff]
    rintro ⟨w, f, whole, hparts, hw, hfrac, -⟩
    have hshort : (raw.splitOn '.').length ≤ 2 := by
      rw [hparts]
      cases f with
      | none =>
        rw [pointed, List.append_nil, List.splitOn_eq_singleton hw]
        exact Nat.le_succ 1
      | some f =>
        rw [pointed, List.splitOn_append_cons_self_of_not_mem hw,
          List.splitOn_eq_singleton (hfrac f rfl).1.notMem]
        exact le_rfl
    omega

/-- What is read of the text is what the grammar says. -/
def ReadsGrammar (fromStr : List Char → Option ℤ) (debug : List Char → String) (s : String) : Prop :=
  ∀ n : ℤ, parseWqcToPlanck fromStr debug s = .ok n ↔ ∃ m : ℕ, n = m ∧ AmountOf (trim s).toList m

/-- A whole part that is read is digits, or decorated. -/
theorem digits_or_decorated (hdoc : Documented fromStr) {w : List Char} {whole : ℤ} (hpos : 0 ≤ whole)
    (hval : w = [] ∧ whole = 0 ∨ fromStr w = some whole) :
    Digits w ∧ whole = digitsVal w ∨ Decorated w := by
  rcases hval with ⟨rfl, rfl⟩ | hval
  · exact .inl ⟨fun c hc => absurd hc List.not_mem_nil, rfl⟩
  · obtain ⟨sign, body, rfl, hbody, rfl⟩ := (hdoc ..).mp hval
    by_cases hplain : sign = none ∧ '_' ∉ body
    · obtain ⟨rfl, hu⟩ := hplain
      have hdigits := hbody.digits hu
      exact .inl ⟨hdigits, hdigits.signedVal_none⟩
    · refine .inr ⟨sign, body, rfl, hbody, ?_, hpos⟩
      by_cases hsign : sign = none
      · right
        by_contra hu
        exact hplain ⟨hsign, hu⟩
      · exact .inl hsign

/-- Digits are read as the number they denote. -/
theorem whole_of_digits (hdoc : Documented fromStr) {w : List Char} (hw : Digits w) :
    w = [] ∧ (digitsVal w : ℤ) = 0 ∨ fromStr w = some (digitsVal w : ℤ) := by
  by_cases hnil : w = []
  · subst hnil
    exact .inl ⟨rfl, rfl⟩
  · refine .inr ((hdoc ..).mpr ⟨none, w, rfl, hw.grouped hnil, ?_⟩)
    exact hw.signedVal_none.symm

/-- Every amount of the grammar is read, with its value. -/
theorem parse_of_amount (hdoc : Documented fromStr) {s : String} {m : ℕ}
    (h : AmountOf (trim s).toList m) : parseWqcToPlanck fromStr debug s = .ok (m : ℤ) := by
  obtain ⟨hne, w, f, hparts, hw, hfrac, rfl⟩ := h
  refine (parseWqcToPlanck_ok_iff hdoc).mpr
    ⟨hne, w, f, digitsVal w, hparts, hw.notMem, hfrac, Int.natCast_nonneg _, whole_of_digits hdoc hw, ?_⟩
  push_cast
  rfl

/-- **Main result.** The amounts that are read are those of the grammar, each with its value, unless
the text is an amount but for a sign or an underscore in its whole part. -/
theorem reads_grammar_iff (hdoc : Documented fromStr) (s : String) :
    ReadsGrammar fromStr debug s ↔ ¬ Lenient (trim s).toList := by
  constructor
  · rintro hreads ⟨w, f, hparts, hdec, hfrac⟩
    obtain ⟨sign, body, htext, hbody, -, hpos⟩ := id hdec
    have hne : (trim s).toList ≠ [] := by
      obtain ⟨c, rest, rfl, -⟩ := hbody
      rw [hparts, htext]
      simp
    have hparse : parseWqcToPlanck fromStr debug s = .ok _ := (parseWqcToPlanck_ok_iff hdoc).mpr
      ⟨hne, w, f, signedVal sign body, hparts, hdec.notMem, hfrac, hpos,
        .inr ((hdoc ..).mpr ⟨sign, body, htext, hbody, rfl⟩), rfl⟩
    obtain ⟨m, -, -, w', f', hparts', hw', -⟩ := (hreads _).mp hparse
    obtain ⟨rfl, -⟩ := parts_inj hdec.notMem hw'.notMem (hparts.symm.trans hparts')
    exact hdec.not_digits hw'
  · intro hstrict n
    constructor
    · intro h
      obtain ⟨hne, w, f, whole, hparts, -, hfrac, hpos, hval, rfl⟩ :=
        (parseWqcToPlanck_ok_iff hdoc).mp h
      rcases digits_or_decorated hdoc hpos hval with ⟨hdigits, rfl⟩ | hdec
      · exact ⟨_, by push_cast; rfl, hne, w, f, hparts, hdigits, hfrac, rfl⟩
      · exact absurd ⟨w, f, hparts, hdec, hfrac⟩ hstrict
    · rintro ⟨m, rfl, hamount⟩
      exact parse_of_amount hdoc hamount

end Parse

/-! ### A parser as documented -/

def isGrouped : List Char → Bool
  | [] => false
  | c :: rest => c.isDigit && rest.all fun d => d.isDigit || d == '_'

/-- `BigInt::from_str`. -/
def bigIntFromStr (text : List Char) : Option ℤ :=
  let (sign, body) := match text with
    | '-' :: rest => (some true, rest)
    | '+' :: rest => (some false, rest)
    | _ => (none, text)
  if isGrouped body then some (signedVal sign body) else none

theorem isGrouped_iff (body : List Char) : isGrouped body = true ↔ Grouped body := by
  cases body with
  | nil =>
    constructor
    · intro h
      cases h
    · rintro ⟨c, rest, h, -⟩
      cases h
  | cons c rest =>
    have hrest : (rest.all fun d => d.isDigit || d == '_') = true ↔
        ∀ d ∈ rest, d.isDigit = true ∨ d = '_' := by
      simp [List.all_eq_true]
    unfold isGrouped
    rw [Bool.and_eq_true, hrest]
    constructor
    · rintro ⟨hc, hr⟩
      exact ⟨c, rest, rfl, hc, hr⟩
    · rintro ⟨c', rest', heq, hc, hr⟩
      cases heq
      exact ⟨hc, hr⟩

/-- The sign is read off, or there is none. -/
theorem bigIntFromStr_text (sign : Option Bool) {body : List Char} (hbody : Grouped body) :
    bigIntFromStr (Exponent.signText sign ++ body) = some (signedVal sign body) := by
  have hgrouped := (isGrouped_iff body).mpr hbody
  rcases sign with _ | _ | _
  · obtain ⟨c, rest, rfl, hc, -⟩ := hbody
    obtain ⟨-, -, hm, hp⟩ := digit_ne hc
    unfold bigIntFromStr
    split
    rename_i heq
    split at heq
    · rename_i hcons
      cases hcons
      exact absurd rfl hm
    · rename_i hcons
      cases hcons
      exact absurd rfl hp
    · cases heq
      exact if_pos hgrouped
  · exact if_pos hgrouped
  · exact if_pos hgrouped

theorem bigIntFromStr_documented : Documented bigIntFromStr := by
  intro text n
  constructor
  · intro h
    have hsome : ∃ sign body, text = Exponent.signText sign ++ body ∧
        bigIntFromStr text = if isGrouped body then some (signedVal sign body) else none := by
      unfold bigIntFromStr
      split
      rename_i heq
      split at heq <;> cases heq
      · exact ⟨some true, _, rfl, rfl⟩
      · exact ⟨some false, _, rfl, rfl⟩
      · exact ⟨none, text, rfl, rfl⟩
    obtain ⟨sign, body, htext, hval⟩ := hsome
    rw [hval] at h
    split_ifs at h with hgrouped
    cases h
    exact ⟨sign, body, htext, (isGrouped_iff body).mp hgrouped, rfl⟩
  · rintro ⟨sign, body, rfl, hbody, rfl⟩
    exact bigIntFromStr_text sign hbody

theorem reads_grammar_default : ReadsGrammar bigIntFromStr String.ofList "0.05" ↔
    ¬ Lenient (trim "0.05").toList :=
  reads_grammar_iff bigIntFromStr_documented "0.05"

/-- **A minus sign and an underscore are accepted**, although the grammar has neither. -/
theorem signed_amount_read :
    parseWqcToPlanck bigIntFromStr String.ofList "-0.5" = .ok 500000000000000000 ∧
      (¬ ∃ m, AmountOf (trim "-0.5").toList m) ∧
    parseWqcToPlanck bigIntFromStr String.ofList "1_000" = .ok 1000000000000000000000 ∧
      ¬ ∃ m, AmountOf (trim "1_000").toList m := by
  have hminus : Decorated ['-', '0'] :=
    ⟨some true, ['0'], rfl, ⟨'0', [], rfl, rfl, by simp⟩, .inl (by simp), by decide⟩
  have hunder : Decorated "1_000".toList :=
    ⟨none, "1_000".toList, rfl, (isGrouped_iff _).mp (by decide), .inr (by decide), by decide⟩
  have hnot : ∀ {text w : List Char} {f : Option (List Char)}, text = w ++ pointed f → Decorated w →
      ¬ ∃ m, AmountOf text m := by
    rintro text w f htext hdec ⟨m, -, w', f', htext', hw', -⟩
    obtain ⟨rfl, -⟩ := parts_inj hdec.notMem hw'.notMem (htext.symm.trans htext')
    exact hdec.not_digits hw'
  exact ⟨by decide +kernel, hnot (f := some ['5']) rfl hminus, by decide +kernel,
    hnot (f := none) rfl hunder⟩

end WqcNode.Domain.Token
