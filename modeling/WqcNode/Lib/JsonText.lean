import WqcNode.Lib.Json
import WqcNode.Lib.Text
import WqcNode.Lib.Decimal
import Mathlib.Data.Nat.Basic

/-! # JSON text

A reader for JSON (RFC 8259) that keeps every number as its numeral, and the texts that writers
make: no whitespace, members in order, each character escaped in some way a reader undoes.

* `parse_render`: what a writer has written is read back, with the numerals of its numbers. -/

namespace WqcNode.Lib.JsonText

open WqcNode.Lib WqcNode.Lib.Text WqcNode.Lib.Json WqcNode.Lib.Code

/-! ### Reading -/

def isSpace (c : Char) : Bool := c == ' ' || c == '\t' || c == '\n' || c == '\r'

def skip (text : List Char) : List Char := text.dropWhile isSpace

/-- The value of a hexadecimal digit. -/
def hexVal (c : Char) : Option ℕ :=
  let n := c.toNat
  if 48 ≤ n ∧ n ≤ 57 then some (n - 48)
  else if 97 ≤ n ∧ n ≤ 102 then some (n - 87)
  else if 65 ≤ n ∧ n ≤ 70 then some (n - 55)
  else none

/-- The number four hexadecimal digits denote. -/
def hexNum (a b c d : Char) : Option ℕ :=
  match hexVal a, hexVal b, hexVal c, hexVal d with
  | some a, some b, some c, some d => some (((a * 16 + b) * 16 + c) * 16 + d)
  | _, _, _, _ => none

/-- The character a backslash and a letter stand for. -/
def unescape : Char → Option Char
  | '"' => some '"'
  | '\\' => some '\\'
  | '/' => some '/'
  | 'b' => some '\x08'
  | 'f' => some '\x0c'
  | 'n' => some '\n'
  | 'r' => some '\r'
  | 't' => some '\t'
  | _ => none

/-- The character two surrogates stand for. -/
def surrogates (hi lo : ℕ) : Option Char :=
  if 0xd800 ≤ hi ∧ hi < 0xdc00 ∧ 0xdc00 ≤ lo ∧ lo < 0xe000 then
    some (Char.ofNat (0x10000 + (hi - 0xd800) * 0x400 + (lo - 0xdc00)))
  else none

/-- Puts a character before the ones read. -/
def withChar (c : Char) (p : List Char × List Char) : List Char × List Char := (c :: p.1, p.2)

/-- The characters of a string up to its closing quote, and what follows it. -/
def readChars : List Char → Option (List Char × List Char)
  | [] => none
  | c :: rest =>
    if c = '"' then some ([], rest)
    else if c = '\\' then
      match rest with
      | [] => none
      | x :: rest =>
        if x = 'u' then
          match rest with
          | h₃ :: h₂ :: h₁ :: h₀ :: rest =>
            match hexNum h₃ h₂ h₁ h₀ with
            | none => none
            | some n =>
              if n.isValidChar then (readChars rest).map (withChar (Char.ofNat n))
              else
                -- a high surrogate, which must be followed by a low one
                match rest with
                | '\\' :: 'u' :: l₃ :: l₂ :: l₁ :: l₀ :: rest =>
                  match (hexNum l₃ l₂ l₁ l₀).bind (surrogates n) with
                  | none => none
                  | some y => (readChars rest).map (withChar y)
                | _ => none
          | _ => none
        else match unescape x with
          | none => none
          | some y => (readChars rest).map (withChar y)
    else if c.toNat < 0x20 then none
    else (readChars rest).map (withChar c)

/-- The digits of a fraction; there is at least one after a point. -/
def readFrac : List Char → Option (List Char × List Char)
  | '.' :: rest =>
    let frac := rest.takeWhile Char.isDigit
    if frac = [] then none else some (frac, rest.dropWhile Char.isDigit)
  | text => some ([], text)

/-- A sign that may be written. -/
def readSign : List Char → Option Bool × List Char
  | '-' :: rest => (some true, rest)
  | '+' :: rest => (some false, rest)
  | text => (none, text)

/-- The exponent after an `e`; it has at least one digit. -/
def readExponent (text : List Char) : Option (Option Exponent × List Char) :=
  let (sign, rest) := readSign text
  let digits := rest.takeWhile Char.isDigit
  if digits = [] then none else some (some ⟨sign, digits⟩, rest.dropWhile Char.isDigit)

def readExp : List Char → Option (Option Exponent × List Char)
  | 'e' :: rest => readExponent rest
  | 'E' :: rest => readExponent rest
  | text => some (none, text)

def readMinus : List Char → Bool × List Char
  | '-' :: rest => (true, rest)
  | text => (false, text)

/-- A numeral; its digits before the point begin with a zero only if that is all of them. -/
def readNumber (text : List Char) : Option (Decimal × List Char) :=
  let (neg, text) := readMinus text
  let int := text.takeWhile Char.isDigit
  if int = [] ∨ int.head? = some '0' ∧ int ≠ ['0'] then none
  else do
    let (frac, text) ← readFrac (text.dropWhile Char.isDigit)
    let (exp, text) ← readExp text
    some (⟨neg, int, frac, exp⟩, text)

/-- The literal names; any other text must be a number. -/
def readScalar (text : List Char) : Option (Document Decimal × List Char) :=
  if (chars "null").isPrefixOf text then some (.null, text.drop 4)
  else if (chars "true").isPrefixOf text then some (.bool true, text.drop 4)
  else if (chars "false").isPrefixOf text then some (.bool false, text.drop 5)
  else (readNumber text).map fun p => (.number p.1, p.2)

section Values

variable (str : List Char → Option (List Char × List Char))

mutual

/-- A value, its strings read by `str`, with fuel for the nesting and the length of lists. -/
def readValue : ℕ → List Char → Option (Document Decimal × List Char)
  | 0, _ => none
  | fuel + 1, text =>
    match skip text with
    | '"' :: rest => (str rest).map fun p => (.string (String.ofList p.1), p.2)
    | '[' :: rest =>
      match skip rest with
      | ']' :: rest => some (.array [], rest)
      | rest => (readItems fuel rest).map fun p => (.array p.1, p.2)
    | '\x7b' :: rest =>
      match skip rest with
      | '\x7d' :: rest => some (.object [], rest)
      | rest => (readMembers fuel rest).map fun p => (.object p.1, p.2)
    | text => readScalar text

/-- The items of an array after its bracket. -/
def readItems : ℕ → List Char → Option (List (Document Decimal) × List Char)
  | 0, _ => none
  | fuel + 1, text => do
    let (item, text) ← readValue fuel text
    match skip text with
    | ',' :: rest =>
      let (items, text) ← readItems fuel rest
      some (item :: items, text)
    | ']' :: rest => some ([item], rest)
    | _ => none

/-- The members of an object after its brace. -/
def readMembers : ℕ → List Char → Option (List (String × Document Decimal) × List Char)
  | 0, _ => none
  | fuel + 1, text =>
    match skip text with
    | '"' :: rest => do
      let (key, text) ← str rest
      match skip text with
      | ':' :: rest =>
        let (value, text) ← readValue fuel rest
        match skip text with
        | ',' :: rest =>
          let (members, text) ← readMembers fuel rest
          some ((String.ofList key, value) :: members, text)
        | '\x7d' :: rest => some ([(String.ofList key, value)], rest)
        | _ => none
      | _ => none
    | _ => none

end

/-- One value with nothing but whitespace after it. -/
def parseWith (text : List Char) : Option (Document Decimal) :=
  match readValue str (text.length + 1) text with
  | some (value, rest) => if skip rest = [] then some value else none
  | none => none

end Values

/-- One value, its strings with their escapes undone. -/
def parse (text : List Char) : Option (Document Decimal) := parseWith readChars text

/-! ### Writing -/

section Render

variable {ν : Type} (esc : Char → List Char) (num : ν → List Char)

def renderString (text : String) : List Char := '"' :: (text.toList.flatMap esc ++ ['"'])

mutual

/-- The document without whitespace. -/
def render : Document ν → List Char
  | .null => chars "null"
  | .bool b => if b then chars "true" else chars "false"
  | .number n => num n
  | .string text => renderString esc text
  | .array items => '[' :: (joined ',' (renderItems items) ++ [']'])
  | .object members => '\x7b' :: (joined ',' (renderMembers members) ++ ['\x7d'])

def renderItems : List (Document ν) → List (List Char)
  | [] => []
  | item :: items => render item :: renderItems items

def renderMembers : List (String × Document ν) → List (List Char)
  | [] => []
  | (key, value) :: members => (renderString esc key ++ ':' :: render value) :: renderMembers members

end

mutual

/-- Only the images of the numbers are written. -/
theorem render_map {μ : Type} (f : μ → ν) :
    ∀ v : Document μ, render esc num (v.map f) = render esc (fun n => num (f n)) v
  | .null => by simp only [Document.map, render]
  | .bool _ => by simp only [Document.map, render]
  | .number _ => by simp only [Document.map, render]
  | .string _ => by simp only [Document.map, render]
  | .array items => by simp only [Document.map, render, renderItems_map f items]
  | .object members => by simp only [Document.map, render, renderMembers_map f members]

theorem renderItems_map {μ : Type} (f : μ → ν) : ∀ items : List (Document μ),
    renderItems esc num (mapItems f items) = renderItems esc (fun n => num (f n)) items
  | [] => by simp only [mapItems, renderItems]
  | item :: items => by simp only [mapItems, renderItems, render_map f item, renderItems_map f items]

theorem renderMembers_map {μ : Type} (f : μ → ν) : ∀ members : List (String × Document μ),
    renderMembers esc num (mapMembers f members) = renderMembers esc (fun n => num (f n)) members
  | [] => by simp only [mapMembers, renderMembers]
  | (key, value) :: members => by
    simp only [mapMembers, renderMembers, render_map f value, renderMembers_map f members]

end

end Render

/-! ### Strings are read back -/

/-- The reader undoes the escapes. -/
def Escapes (esc : Char → List Char) : Prop :=
  ∀ c r, readChars (esc c ++ r) = (readChars r).map (withChar c)

theorem readChars_quote (r : List Char) : readChars ('"' :: r) = some ([], r) := by
  rw [readChars.eq_def]
  simp

/-- A character that stands for itself. -/
theorem readChars_plain {c : Char} (hq : c ≠ '"') (hb : c ≠ '\\') (hc : 0x20 ≤ c.toNat)
    (r : List Char) : readChars (c :: r) = (readChars r).map (withChar c) := by
  rw [readChars.eq_def]
  simp only [if_neg hq, if_neg hb, if_neg (Nat.not_lt.mpr hc)]

theorem readChars_short {x y : Char} (h : unescape x = some y) (r : List Char) :
    readChars ('\\' :: x :: r) = (readChars r).map (withChar y) := by
  have hu : x ≠ 'u' := by
    rintro rfl
    simp [unescape] at h
  rw [readChars.eq_def]
  simp only [if_neg (show '\\' ≠ '"' by decide), if_true, if_neg hu, h]

/-- `\u` and four digits, for a character that is not a surrogate. -/
theorem readChars_unicode {h₃ h₂ h₁ h₀ c : Char} (h : hexNum h₃ h₂ h₁ h₀ = some c.toNat)
    (r : List Char) :
    readChars ('\\' :: 'u' :: h₃ :: h₂ :: h₁ :: h₀ :: r) = (readChars r).map (withChar c) := by
  have hvalid : c.toNat.isValidChar := c.valid
  rw [readChars.eq_def]
  simp only [if_neg (show '\\' ≠ '"' by decide), if_true, h, if_pos hvalid, Char.ofNat_toNat]

theorem readChars_flatMap {esc : Char → List Char} (hesc : Escapes esc) (r : List Char) :
    ∀ cs : List Char, readChars (cs.flatMap esc ++ '"' :: r) = some (cs, r)
  | [] => readChars_quote r
  | c :: cs => by
    rw [List.flatMap_cons, List.append_assoc, hesc, readChars_flatMap hesc r cs]
    rfl

/-! ### Numbers are read back -/

theorem span_digits {ds r : List Char} (hd : ∀ c ∈ ds, c.isDigit = true)
    (hr : Ends Char.isDigit r) :
    (ds ++ r).takeWhile Char.isDigit = ds ∧ (ds ++ r).dropWhile Char.isDigit = r := by
  refine ⟨takeWhile_of_ends hd hr, ?_⟩
  rw [List.dropWhile_append_of_pos hd]
  cases r with
  | nil => rfl
  | cons c r => rw [List.dropWhile_cons_of_neg (by simpa using (ends_cons ..).mp hr)]

theorem readSign_text (sign : Option Bool) {ds : List Char} (hne : ds ≠ [])
    (hd : ∀ c ∈ ds, c.isDigit = true) (r : List Char) :
    readSign (Exponent.signText sign ++ (ds ++ r)) = (sign, ds ++ r) := by
  obtain ⟨c, rest, rfl, hc⟩ := Decimal.exists_cons hne hd
  obtain ⟨hm, hp, -, -⟩ := Decimal.isDigit_ne hc
  rcases sign with _ | _ | _
  · simp only [Exponent.signText, List.nil_append, List.cons_append]
    unfold readSign
    split <;> simp_all
  · rfl
  · rfl

/-- The symbols that would go on with a numeral. -/
def goesOn (c : Char) : Bool := Decimal.isNumeral c || c == 'E'

theorem goesOn_eq_false {c : Char} (h : goesOn c = false) :
    c.isDigit = false ∧ c ≠ '.' ∧ c ≠ 'e' ∧ c ≠ 'E' := by
  simp only [goesOn, Decimal.isNumeral, Bool.or_eq_false_iff, beq_eq_false_iff_ne] at h
  exact ⟨h.1.1.1.1.1, h.1.1.2, h.1.2, h.2⟩

theorem ends_isDigit {r : List Char} (h : Ends goesOn r) : Ends Char.isDigit r :=
  fun c hc => (goesOn_eq_false (h c hc)).1

theorem readExponent_text {e : Exponent} (hne : e.digits ≠ [])
    (hd : ∀ c ∈ e.digits, c.isDigit = true) {r : List Char} (hr : Ends goesOn r) :
    readExponent (e.text ++ r) = some (some e, r) := by
  obtain ⟨htake, hdrop⟩ := span_digits hd (ends_isDigit hr)
  rw [readExponent, Exponent.text, List.append_assoc, readSign_text e.sign hne hd]
  simp only [htake, hdrop, if_neg hne]

theorem readExp_text {x : Option Exponent}
    (hx : ∀ e ∈ x, e.digits ≠ [] ∧ ∀ c ∈ e.digits, c.isDigit = true) {r : List Char}
    (hr : Ends goesOn r) : readExp (Decimal.expText x ++ r) = some (x, r) := by
  cases x with
  | some e => exact readExponent_text (hx e rfl).1 (hx e rfl).2 hr
  | none =>
    rw [Decimal.expText, List.nil_append]
    unfold readExp
    split
    · exact absurd rfl (goesOn_eq_false ((ends_cons ..).mp hr)).2.2.1
    · exact absurd rfl (goesOn_eq_false ((ends_cons ..).mp hr)).2.2.2
    · rfl

theorem readFrac_text {frac : List Char} (hd : ∀ c ∈ frac, c.isDigit = true)
    (x : Option Exponent) {r : List Char} (hr : Ends goesOn r) :
    readFrac (Decimal.fracText frac ++ (Decimal.expText x ++ r)) =
      some (frac, Decimal.expText x ++ r) := by
  have hend : Ends Char.isDigit (Decimal.expText x ++ r) := by
    cases x with
    | none => exact ends_isDigit hr
    | some e => exact (ends_cons ..).mpr rfl
  unfold Decimal.fracText
  split_ifs with hnil
  · rw [List.nil_append, hnil]
    unfold readFrac
    split
    next rest htext =>
      cases x with
      | none =>
        rw [Decimal.expText, List.nil_append] at htext
        rw [htext] at hr
        exact absurd rfl (goesOn_eq_false ((ends_cons ..).mp hr)).2.1
      | some e => simp [Decimal.expText] at htext
    · rfl
  · obtain ⟨htake, hdrop⟩ := span_digits hd hend
    rw [List.cons_append, readFrac]
    simp only [htake, hdrop, if_neg hnil]

/-- **A numeral is read back.** -/
theorem readNumber_text {d : Decimal} (hd : d.IsJson) {r : List Char} (hr : Ends goesOn r) :
    readNumber (d.text ++ r) = some (d, r) := by
  obtain ⟨c, rest, hint, hc⟩ := Decimal.exists_cons hd.int_ne hd.int
  have hm := (Decimal.isDigit_ne hc).1
  -- the sign
  have hsign : readMinus (d.text ++ r) = (d.neg, d.mantissa ++ (Decimal.expText d.exp ++ r)) := by
    rw [Decimal.text, List.append_assoc, List.append_assoc]
    cases hneg : d.neg with
    | true => rfl
    | false =>
      rw [Decimal.signText, if_neg (by decide), List.nil_append, Decimal.mantissa, hint]
      simp only [List.cons_append]
      unfold readMinus
      split
      next rest' heq => exact absurd (List.cons.inj heq).1 hm
      · rfl
  -- the digits before the point
  have hend : Ends Char.isDigit (Decimal.fracText d.frac ++ (Decimal.expText d.exp ++ r)) := by
    unfold Decimal.fracText
    split_ifs
    · cases d.exp with
      | none => exact ends_isDigit hr
      | some e => exact (ends_cons ..).mpr rfl
    · exact (ends_cons ..).mpr rfl
  obtain ⟨htake, hdrop⟩ := span_digits hd.int hend
  have hlead : ¬ (d.int = [] ∨ d.int.head? = some '0' ∧ d.int ≠ ['0']) := by
    rintro (hnil | ⟨hzero, hne⟩)
    · exact hd.int_ne hnil
    · exact hne (hd.leading hzero)
  rw [readNumber, hsign, Decimal.mantissa, List.append_assoc]
  simp only [htake, hdrop, if_neg hlead, readFrac_text hd.frac d.exp hr, readExp_text hd.exp hr,
    Option.bind_eq_bind, Option.bind_some]

/-! ### Values are read back -/

theorem skip_cons {c : Char} (h : isSpace c = false) (r : List Char) : skip (c :: r) = c :: r := by
  rw [skip, List.dropWhile_cons_of_neg (by simp [h])]

theorem isDigit_notSpace {c : Char} (h : c.isDigit = true ∨ c = '-') :
    isSpace c = false ∧ c ≠ '"' ∧ c ≠ '[' ∧ c ≠ ']' ∧ c ≠ '\x7b' ∧ c ≠ '\x7d' ∧ c ≠ 'n' ∧
      c ≠ 't' ∧ c ≠ 'f' := by
  have hne : ∀ x : Char, x.isDigit = false ∧ x ≠ '-' → c ≠ x := by
    rintro x ⟨hx, hm⟩ rfl
    rcases h with h | h
    · rw [hx] at h
      cases h
    · exact hm h
  refine ⟨?_, hne _ ⟨rfl, by decide⟩, hne _ ⟨rfl, by decide⟩, hne _ ⟨rfl, by decide⟩,
    hne _ ⟨rfl, by decide⟩, hne _ ⟨rfl, by decide⟩, hne _ ⟨rfl, by decide⟩, hne _ ⟨rfl, by decide⟩,
    hne _ ⟨rfl, by decide⟩⟩
  simp only [isSpace, Bool.or_eq_false_iff, beq_eq_false_iff_ne]
  exact ⟨⟨⟨hne _ ⟨rfl, by decide⟩, hne _ ⟨rfl, by decide⟩⟩, hne _ ⟨rfl, by decide⟩⟩,
    hne _ ⟨rfl, by decide⟩⟩

/-- A text that begins as a numeral is read as one. -/
theorem readValue_number {str : List Char → Option (List Char × List Char)} {c : Char}
    (h : c.isDigit = true ∨ c = '-') (fuel : ℕ) (r : List Char) :
    readValue str (fuel + 1) (c :: r) = (readNumber (c :: r)).map fun p => (.number p.1, p.2) := by
  obtain ⟨hspace, hq, hb, -, hb', -, hn, ht, hf⟩ := isDigit_notSpace h
  have hscalar : readScalar (c :: r) = (readNumber (c :: r)).map fun p => (.number p.1, p.2) := by
    have hpre : ∀ (x : Char) (text : List Char), c ≠ x → (x :: text).isPrefixOf (c :: r) = false := by
      intro x text hx
      simp [List.isPrefixOf, Ne.symm hx]
    rw [readScalar, show chars "null" = 'n' :: chars "ull" from rfl,
      show chars "true" = 't' :: chars "rue" from rfl,
      show chars "false" = 'f' :: chars "alse" from rfl, hpre _ _ hn, hpre _ _ ht, hpre _ _ hf]
    simp
  rw [readValue, skip_cons hspace]
  split
  next heq => exact absurd (List.cons.inj heq).1 hq
  next heq => exact absurd (List.cons.inj heq).1 hb
  next heq => exact absurd (List.cons.inj heq).1 hb'
  · exact hscalar

section RoundTrip

variable {ν : Type} {esc : Char → List Char} {num : ν → List Char} {numeral : ν → Decimal}

/-- The numbers are written as JSON numerals. -/
def Numerals (num : ν → List Char) (numeral : ν → Decimal) (ns : List ν) : Prop :=
  ∀ n ∈ ns, num n = (numeral n).text ∧ (numeral n).IsJson

theorem Numerals.left {ns ms : List ν} (h : Numerals num numeral (ns ++ ms)) :
    Numerals num numeral ns := fun n hn => h n (List.mem_append_left _ hn)

theorem Numerals.right {ns ms : List ν} (h : Numerals num numeral (ns ++ ms)) :
    Numerals num numeral ms := fun n hn => h n (List.mem_append_right _ hn)

theorem joined_cons_cons (sep : Char) (w w' : List Char) (ws : List (List Char)) :
    joined sep (w :: w' :: ws) = w ++ sep :: joined sep (w' :: ws) := by
  simp [joined]

/-- The first character of a written value. -/
theorem render_head (esc : Char → List Char) (v : Document ν) (hnum : Numerals num numeral v.numbers) :
    ∃ c rest, render esc num v = c :: rest ∧ isSpace c = false ∧ c ≠ ']' := by
  cases v with
  | null => exact ⟨'n', chars "ull", by rw [render]; rfl, rfl, by decide⟩
  | bool b =>
    cases b
    · exact ⟨'f', chars "alse", by rw [render]; rfl, rfl, by decide⟩
    · exact ⟨'t', chars "rue", by rw [render]; rfl, rfl, by decide⟩
  | number n =>
    obtain ⟨htext, hjson⟩ := hnum n (by simp [Document.numbers])
    obtain ⟨c, rest, hc, hdig⟩ := Decimal.exists_text_cons hjson.toWellFormed
    obtain ⟨hspace, -, -, hb, -⟩ := isDigit_notSpace hdig
    exact ⟨c, rest, by rw [render, htext, hc], hspace, hb⟩
  | string text => exact ⟨'"', _, by rw [render, renderString], rfl, by decide⟩
  | array items => exact ⟨'[', _, by rw [render], rfl, by decide⟩
  | object members => exact ⟨'\x7b', _, by rw [render], rfl, by decide⟩

variable {str : List Char → Option (List Char × List Char)} {raw : String → String}

/-- The reader gives `raw text` for a text that is written. -/
def ReadsTexts (str : List Char → Option (List Char × List Char)) (esc : Char → List Char)
    (raw : String → String) : Prop :=
  ∀ text r, str (text.toList.flatMap esc ++ '"' :: r) = some ((raw text).toList, r)

theorem readsTexts_of_escapes (hesc : Escapes esc) : ReadsTexts readChars esc id :=
  fun text r => readChars_flatMap hesc r text.toList

mutual

/-- **A written value is read back**, with the numerals of its numbers and its texts as they are
read. -/
theorem readValue_render (hstr : ReadsTexts str esc raw) : ∀ (v : Document ν) (n : ℕ) (r : List Char),
    Numerals num numeral v.numbers → (render esc num v).length < n → Ends goesOn r →
    readValue str n (render esc num v ++ r) = some ((v.map numeral).mapTexts raw, r)
  | v, 0, r, _, hn, _ => absurd hn (Nat.not_lt_zero _)
  | .null, n + 1, r, _, _, _ => by
    rw [render, Document.map, Document.mapTexts]
    rfl
  | .bool b, n + 1, r, _, _, _ => by
    rw [render, Document.map, Document.mapTexts]
    cases b <;> rfl
  | .number x, n + 1, r, hnum, _, hr => by
    obtain ⟨htext, hjson⟩ := hnum x (by simp [Document.numbers])
    obtain ⟨c, rest, hc, hdig⟩ := Decimal.exists_text_cons hjson.toWellFormed
    have hread := readNumber_text hjson hr
    rw [render, Document.map, Document.mapTexts, htext]
    rw [hc, List.cons_append] at hread ⊢
    rw [readValue_number hdig, hread]
    rfl
  | .string text, n + 1, r, _, _, _ => by
    rw [render, Document.map, Document.mapTexts, renderString, List.cons_append, List.append_assoc,
      List.singleton_append, readValue, skip_cons rfl]
    simp only [hstr text r, Option.map_some, String.ofList_toList]
  | .array [], n + 1, r, _, _, _ => by
    rw [render, Document.map, Document.mapTexts, renderItems, mapItems, mapTextsItems]
    rfl
  | .array (item :: items), n + 1, r, hnum, hn, _ => by
    rw [Document.numbers] at hnum
    have hlen : (joined ',' (renderItems esc num (item :: items))).length + 1 < n := by
      simp only [render, List.length_cons, List.length_append, List.length_nil] at hn
      omega
    have hread := readItems_render hstr item items n r hnum hlen
    obtain ⟨c, rest, hc, hspace, hb⟩ := render_head esc item hnum.left
    rw [render, Document.map, Document.mapTexts, List.cons_append, List.append_assoc,
      List.singleton_append, readValue, skip_cons rfl]
    rw [renderItems, joined, hc, List.cons_append, List.cons_append] at hread ⊢
    simp only [skip_cons hspace]
    split
    next heq => exact absurd (List.cons.inj heq).1 hb
    · rw [hread]
      rfl
  | .object [], n + 1, r, _, _, _ => by
    rw [render, Document.map, Document.mapTexts, renderMembers, mapMembers, mapTextsMembers]
    rfl
  | .object ((key, value) :: members), n + 1, r, hnum, hn, _ => by
    rw [Document.numbers] at hnum
    have hlen : (joined ',' (renderMembers esc num ((key, value) :: members))).length + 1 < n := by
      simp only [render, List.length_cons, List.length_append, List.length_nil] at hn
      omega
    have hread := readMembers_render hstr key value members n r hnum hlen
    rw [render, Document.map, Document.mapTexts, List.cons_append, List.append_assoc,
      List.singleton_append, readValue, skip_cons rfl]
    rw [renderMembers, joined, renderString, List.cons_append, List.cons_append,
      List.cons_append] at hread ⊢
    simp only [skip_cons (show isSpace '"' = false from rfl)]
    split
    next heq => exact absurd (List.cons.inj heq).1 (by decide)
    · rw [hread]
      rfl

theorem readItems_render (hstr : ReadsTexts str esc raw) :
    ∀ (item : Document ν) (items : List (Document ν)) (n : ℕ) (r : List Char), Numerals num numeral (numbersOfItems (item :: items)) →
    (joined ',' (renderItems esc num (item :: items))).length + 1 < n →
    readItems str n (joined ',' (renderItems esc num (item :: items)) ++ ']' :: r) =
      some (mapTextsItems raw (mapItems numeral (item :: items)), r)
  | item, items, 0, r, _, hn => absurd hn (Nat.not_lt_zero _)
  | item, [], n + 1, r, hnum, hn => by
    have hlen : (render esc num item).length < n := by
      simp only [renderItems, joined, List.flatMap_nil, List.append_nil] at hn
      omega
    rw [renderItems, renderItems, joined, List.flatMap_nil, List.append_nil, readItems,
      readValue_render hstr item n _ hnum.left hlen ((ends_cons ..).mpr rfl), mapItems, mapItems,
      mapTextsItems, mapTextsItems]
    simp only [Option.bind_eq_bind, Option.bind_some, skip_cons (show isSpace ']' = false from rfl)]
  | item, next :: items, n + 1, r, hnum, hn => by
    rw [renderItems, renderItems, joined_cons_cons, List.length_append, List.length_cons] at hn
    have hread := readItems_render hstr next items n r hnum.right (by rw [renderItems]; omega)
    rw [renderItems] at hread
    rw [renderItems, renderItems, joined_cons_cons, List.append_assoc, List.cons_append, readItems,
      readValue_render hstr item n _ hnum.left (by omega) ((ends_cons ..).mpr rfl), mapItems,
      mapTextsItems]
    simp only [Option.bind_eq_bind, Option.bind_some, skip_cons (show isSpace ',' = false from rfl),
      hread]

theorem readMembers_render (hstr : ReadsTexts str esc raw) : ∀ (key : String) (value : Document ν)
    (members : List (String × Document ν)) (n : ℕ) (r : List Char),
    Numerals num numeral (numbersOfMembers ((key, value) :: members)) →
    (joined ',' (renderMembers esc num ((key, value) :: members))).length + 1 < n →
    readMembers str n (joined ',' (renderMembers esc num ((key, value) :: members)) ++ '\x7d' :: r) =
      some (mapTextsMembers raw (mapMembers numeral ((key, value) :: members)), r)
  | key, value, members, 0, r, _, hn => absurd hn (Nat.not_lt_zero _)
  | key, value, [], n + 1, r, hnum, hn => by
    have hlen : (render esc num value).length < n := by
      simp only [renderMembers, joined, List.flatMap_nil, List.append_nil, List.length_append,
        List.length_cons] at hn
      omega
    rw [renderMembers, renderMembers, joined, List.flatMap_nil, List.append_nil, renderString,
      List.cons_append, List.cons_append, List.append_assoc, List.append_assoc,
      List.singleton_append, List.cons_append, readMembers, mapMembers, mapMembers,
      mapTextsMembers, mapTextsMembers,      skip_cons rfl]
    simp only [hstr key, Option.bind_eq_bind, Option.bind_some,
      skip_cons (show isSpace ':' = false from rfl),
      readValue_render hstr value n _ hnum.left hlen ((ends_cons goesOn '\x7d' r).mpr rfl),
      skip_cons (show isSpace '\x7d' = false from rfl), String.ofList_toList]
  | key, value, next :: members, n + 1, r, hnum, hn => by
    obtain ⟨key', value'⟩ := next
    rw [renderMembers, renderMembers, joined_cons_cons, List.length_append, List.length_cons,
      List.length_append, List.length_cons] at hn
    have hread := readMembers_render hstr key' value' members n r hnum.right
      (by rw [renderMembers]; omega)
    rw [renderMembers] at hread
    rw [renderMembers, renderMembers, joined_cons_cons, List.append_assoc, List.append_assoc,
      renderString, List.cons_append, List.cons_append, List.cons_append, List.append_assoc,
      List.singleton_append, readMembers, mapMembers, mapTextsMembers, skip_cons rfl]
    simp only [hstr key, Option.bind_eq_bind, Option.bind_some,
      skip_cons (show isSpace ':' = false from rfl),
      readValue_render hstr value n _ hnum.left (by omega) ((ends_cons goesOn ',' _).mpr rfl),
      skip_cons (show isSpace ',' = false from rfl), hread, String.ofList_toList]

end

theorem parseWith_render (hstr : ReadsTexts str esc raw) {v : Document ν}
    (hnum : Numerals num numeral v.numbers) :
    parseWith str (render esc num v) = some ((v.map numeral).mapTexts raw) := by
  have hread := readValue_render hstr v _ [] hnum (Nat.lt_succ_self _) (ends_nil _)
  rw [List.append_nil] at hread
  rw [parseWith, hread]
  rfl

/-- **Main result.** What a writer has written is read back, with the numerals of its numbers. -/
theorem parse_render (hesc : Escapes esc) {v : Document ν}
    (hnum : Numerals num numeral v.numbers) : parse (render esc num v) = some (v.map numeral) := by
  rw [parse, parseWith_render (readsTexts_of_escapes hesc) hnum, Document.mapTexts_id]

end RoundTrip

end WqcNode.Lib.JsonText
