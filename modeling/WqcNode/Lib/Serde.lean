import WqcNode.Lib.JsonKeys
import WqcNode.Lib.Bytes
import Mathlib.Data.List.Nodup

/-! # Records as JSON

How `serde_json` writes and reads a record with derived implementations. A record is written as the
object of its fields in order, without those that are skipped. Reading takes the fields by name, or
by position from an array, and passes over the members no field has.

* `escape_escapes`: the escapes of `serde_json` are read back.
* `fieldsOnce_record`, `fieldsLast_record`: the fields of a written record are the ones that were
  written, whether a member twice is an error (`from_slice`) or the last one counts (`Value`).
* `fromSlice_toVec`: a written document is read back. -/

namespace WqcNode.Lib.Serde

open WqcNode.Lib WqcNode.Lib.Text WqcNode.Lib.Json WqcNode.Lib.JsonText WqcNode.Lib.JsonKeys

/-! ### Strings -/

/-- `format_escaped_str`: the two-character escapes, and `\u00` with two digits for the other
control characters. -/
def escape : Char → List Char
  | '"' => ['\\', '"']
  | '\\' => ['\\', '\\']
  | '\x08' => ['\\', 'b']
  | '\x0c' => ['\\', 'f']
  | '\n' => ['\\', 'n']
  | '\r' => ['\\', 'r']
  | '\t' => ['\\', 't']
  | c =>
    if c.toNat < 0x20 then
      ['\\', 'u', '0', '0', Nat.digitChar (c.toNat / 16), Nat.digitChar (c.toNat % 16)]
    else [c]

theorem hexVal_digitChar {n : ℕ} (hn : n < 16) : hexVal (Nat.digitChar n) = some n := by
  have hall : ∀ a : Fin 16, hexVal (Nat.digitChar a) = some a.val := by decide
  exact hall ⟨n, hn⟩

theorem escape_escapes : Escapes escape := by
  intro c r
  unfold escape
  split
  · exact readChars_short rfl r
  · exact readChars_short rfl r
  · exact readChars_short rfl r
  · exact readChars_short rfl r
  · exact readChars_short rfl r
  · exact readChars_short rfl r
  · exact readChars_short rfl r
  next hq hb _ _ _ _ _ =>
    split_ifs with hc
    · refine readChars_unicode ?_ r
      have hzero : hexVal '0' = some 0 := rfl
      simp only [hexNum, hzero, hexVal_digitChar (show c.toNat / 16 < 16 by omega),
        hexVal_digitChar (show c.toNat % 16 < 16 by omega)]
      congr 1
      omega
    · exact readChars_plain hq hb (Nat.not_lt.mp hc) r

/-- Ordinary characters are not escaped. -/
theorem escape_plain (c : Char) (h : isPlain c = true) : escape c = [c] := by
  obtain ⟨hq, hb, hc⟩ := isPlain_iff.mp h
  have hctrl : ∀ x : Char, x.toNat < 0x20 → c ≠ x := by
    rintro x hx rfl
    omega
  unfold escape
  split
  · exact absurd rfl hq
  · exact absurd rfl hb
  · exact absurd rfl (hctrl _ (by decide))
  · exact absurd rfl (hctrl _ (by decide))
  · exact absurd rfl (hctrl _ (by decide))
  · exact absurd rfl (hctrl _ (by decide))
  · exact absurd rfl (hctrl _ (by decide))
  · rw [if_neg (Nat.not_lt.mpr hc)]

/-! ### Records -/

section Records

variable {ν : Type}

/-- The members that are written: a field that is skipped has none. -/
def present (fields : List (String × Option (Document ν))) : List (String × Document ν) :=
  fields.filterMap fun f => f.2.map (f.1, ·)

def record (fields : List (String × Option (Document ν))) : Document ν := .object (present fields)

/-- The last member of a name. -/
def last : List (String × Document ν) → String → Option (Document ν)
  | [], _ => none
  | (key, value) :: members, name =>
    (last members name).or (if key = name then some value else none)

/-- By position, from an array that is not too long; the last fields are left to their defaults. -/
def positional (names : List String) (items : List (Document ν)) :
    Option (List (Option (Document ν))) :=
  if items.length ≤ names.length then
    some (items.map some ++ List.replicate (names.length - items.length) none)
  else none

/-- An array of a record's values holds those of its fields that have no default. -/
def atLeast (n : ℕ) : Document ν → Bool
  | .array items => n ≤ items.length
  | _ => true

/-- The fields of a record; a member that comes twice is an error. -/
def fieldsOnce (names : List String) : Document ν → Option (List (Option (Document ν)))
  | .object members =>
    if names.all (fun name => (members.map (·.1)).count name ≤ 1) then
      some (names.map (last members))
    else none
  | .array items => positional names items
  | _ => none

/-- The fields of a record in a `Value`, which keeps the last member of a name. -/
def fieldsLast (names : List String) : Document ν → Option (List (Option (Document ν)))
  | .object members => some (names.map (last members))
  | .array items => positional names items
  | _ => none

theorem present_cons (name : String) (value : Option (Document ν))
    (fields : List (String × Option (Document ν))) :
    present ((name, value) :: fields) =
      (value.map fun v => (name, v)).toList ++ present fields := by
  cases value <;> simp [present]

theorem keys_present_sublist : ∀ fields : List (String × Option (Document ν)),
    ((present fields).map (·.1)).Sublist (fields.map (·.1))
  | [] => by simp [present]
  | (name, value) :: fields => by
    rw [present_cons, List.map_append, List.map_cons]
    cases value with
    | none => exact (keys_present_sublist fields).cons _
    | some v => exact (keys_present_sublist fields).cons_cons name

theorem last_eq_none {name : String} : ∀ {members : List (String × Document ν)},
    name ∉ members.map (·.1) → last members name = none
  | [], _ => rfl
  | (key, value) :: members, h => by
    simp only [List.map_cons, List.mem_cons, not_or] at h
    rw [last, last_eq_none h.2, if_neg (Ne.symm h.1)]
    rfl

/-- A field's name finds the field. -/
theorem last_present : ∀ {fields : List (String × Option (Document ν))},
    (fields.map (·.1)).Nodup → ∀ f ∈ fields, last (present fields) f.1 = f.2
  | [], _, f, hf => by cases hf
  | (name, value) :: fields, hnodup, f, hf => by
    obtain ⟨hname, hrest⟩ := List.nodup_cons.mp hnodup
    rw [present_cons]
    rcases List.mem_cons.mp hf with rfl | hmem
    · have hlast : last (present fields) name = none :=
        last_eq_none fun h => hname ((keys_present_sublist fields).subset h)
      cases value with
      | none => simpa using hlast
      | some v =>
        simp only [Option.map_some, Option.toList_some, List.singleton_append, last, hlast]
        simp
    · have hne : name ≠ f.1 := fun h => hname (List.mem_map.mpr ⟨f, hmem, h.symm⟩)
      cases value with
      | none => simpa using last_present hrest f hmem
      | some v =>
        simp only [Option.map_some, Option.toList_some, List.singleton_append, last,
          last_present hrest f hmem, if_neg hne, Option.or_none]

theorem map_last_present {fields : List (String × Option (Document ν))}
    (hnodup : (fields.map (·.1)).Nodup) :
    (fields.map (·.1)).map (last (present fields)) = fields.map (·.2) := by
  rw [List.map_map]
  exact List.map_congr_left fun f hf => last_present hnodup f hf

/-- **The fields of a written record**, for a reader that takes no member twice. -/
theorem fieldsOnce_record (fields : List (String × Option (Document ν)))
    (hnodup : (fields.map (·.1)).Nodup) :
    fieldsOnce (fields.map (·.1)) (record fields) = some (fields.map (·.2)) := by
  have honce : ((fields.map (·.1)).all fun name =>
      decide (((present fields).map (·.1)).count name ≤ 1)) = true := by
    rw [List.all_eq_true]
    intro name _
    exact decide_eq_true (List.nodup_iff_count_le_one.mp
      ((keys_present_sublist fields).nodup hnodup) name)
  rw [record, fieldsOnce, if_pos honce, map_last_present hnodup]

/-- **The fields of a written record**, for a reader that takes the last member. -/
theorem fieldsLast_record (fields : List (String × Option (Document ν)))
    (hnodup : (fields.map (·.1)).Nodup) :
    fieldsLast (fields.map (·.1)) (record fields) = some (fields.map (·.2)) := by
  rw [record, fieldsLast, map_last_present hnodup]

/-- A record has clean keys if its names are clean and its values have clean keys. -/
theorem cleanKeys_record {fields : List (String × Option (Document ν))}
    (hnames : CleanKeys (fields.map (·.1)))
    (hdocs : ∀ f ∈ fields, ∀ doc ∈ f.2, CleanKeys (keys doc)) :
    CleanKeys (keys (record fields)) := by
  rw [record, keys]
  induction fields with
  | nil =>
    rw [present, List.filterMap_nil, keysOfMembers]
    exact cleanKeys_nil
  | cons f fields ih =>
    obtain ⟨name, value⟩ := f
    have hrest := ih (fun k hk => hnames k (List.mem_cons_of_mem _ hk))
      (fun f hf => hdocs f (List.mem_cons_of_mem _ hf))
    rw [present_cons]
    cases value with
    | none => exact hrest
    | some doc =>
      rw [Option.map_some, Option.toList_some, List.singleton_append, keysOfMembers, cleanKeys_cons,
        cleanKeys_append]
      exact ⟨hnames _ (List.mem_cons_self ..), hdocs _ (List.mem_cons_self ..) doc rfl, hrest⟩

theorem map_record {μ : Type} (f : ν → μ) (fields : List (String × Option (Document ν))) :
    (record fields).map f = record (fields.map fun e => (e.1, e.2.map (Document.map f))) := by
  rw [record, record, Document.map, mapMembers_eq, present, present, List.map_filterMap,
    List.filterMap_map]
  congr 2
  funext e
  simp [Function.comp_def]

end Records

/-! ### Values of the fields -/

section Values

variable {α : Type}

def textOf {ν : Type} : Document ν → Option String
  | .string text => some text
  | _ => none

/-- An unsigned integer: no sign, fraction or exponent, and below the bound. -/
def natOf (bound : ℕ) : Document Decimal → Option ℕ
  | .number d =>
    if d.neg = false ∧ d.frac = [] ∧ d.exp = none ∧ digitsVal d.int < bound then
      some (digitsVal d.int)
    else none
  | _ => none

def u32Of (doc : Document Decimal) : Option UInt32 := (natOf (2 ^ 32) doc).map UInt32.ofNat

def u64Of (doc : Document Decimal) : Option UInt64 := (natOf (2 ^ 64) doc).map UInt64.ofNat

/-- A signed integer; `-0` is a float. -/
def intOf : Document Decimal → Option ℤ
  | .number d =>
    if d.frac = [] ∧ d.exp = none ∧ ¬ (d.neg = true ∧ digitsVal d.int = 0) then
      some (if d.neg = true then -(digitsVal d.int : ℤ) else digitsVal d.int)
    else none
  | _ => none

def i64Of (doc : Document Decimal) : Option Int64 :=
  (intOf doc).bind fun i => if -2 ^ 63 ≤ i ∧ i < 2 ^ 63 then some (Int64.ofInt i) else none

/-- A field that must be there. -/
def required {δ : Type} (read : δ → Option α) (field : Option δ) : Option α := field.bind read

/-- An `Option`, which may be missing or null; one without a default may not be missing from an array
(`atLeast`). -/
def nullable {ν : Type} (read : Document ν → Option α) : Option (Document ν) → Option (Option α)
  | none => some none
  | some .null => some none
  | some doc => (read doc).map some

/-- `#[serde(default)]`. -/
def orDefault {δ : Type} (default : α) (read : δ → Option α) : Option δ → Option α
  | none => some default
  | some doc => read doc

@[simp] theorem orDefault_some {δ : Type} (default : α) (read : δ → Option α) (doc : δ) :
    orDefault default read (some doc) = read doc := rfl

/-- `Vec`. -/
def listOf {ν : Type} (read : Document ν → Option α) : Document ν → Option (List α)
  | .array items => items.mapM read
  | _ => none

/-- The entries of a map with text keys in the order of the text, where each key comes once. -/
def mapOf {ν : Type} (read : Document ν → Option α) : Document ν → Option (List (String × α))
  | .object members => members.mapM fun e => (read e.2).map fun a => (e.1, a)
  | _ => none

theorem mapM_map {β γ : Type} {write : α → β} {read : β → Option γ} (key : α → γ) :
    ∀ {l : List α}, (∀ a ∈ l, read (write a) = some (key a)) →
      (l.map write).mapM read = some (l.map key)
  | [], _ => rfl
  | a :: l, h => by
    rw [List.map_cons, List.mapM_cons, h a (List.mem_cons_self ..),
      mapM_map key fun b hb => h b (List.mem_cons_of_mem _ hb)]
    rfl

theorem natOf_ofNat {bound n : ℕ} (h : n < bound) :
    natOf bound (.number (Decimal.ofNat n)) = some n := by
  rw [natOf, if_pos ⟨rfl, rfl, rfl, by simpa [Decimal.ofNat] using h⟩]
  simp [Decimal.ofNat]

@[simp] theorem u32Of_ofNat (x : UInt32) : u32Of (.number (Decimal.ofNat x.toNat)) = some x := by
  rw [u32Of, natOf_ofNat x.toNat_lt, Option.map_some, UInt32.ofNat_toNat]

@[simp] theorem u64Of_ofNat (x : UInt64) : u64Of (.number (Decimal.ofNat x.toNat)) = some x := by
  rw [u64Of, natOf_ofNat x.toNat_lt, Option.map_some, UInt64.ofNat_toNat]

theorem intOf_ofInt (i : ℤ) : intOf (.number (Decimal.ofInt i)) = some i := by
  have hneg : ¬ ((Decimal.ofInt i).neg = true ∧ digitsVal (Decimal.ofInt i).int = 0) := by
    simp only [Decimal.ofInt, decide_eq_true_eq, digitsVal_toDigits]
    omega
  rw [intOf, if_pos ⟨rfl, rfl, hneg⟩]
  simp only [Decimal.ofInt, decide_eq_true_eq, digitsVal_toDigits]
  congr 1
  split_ifs <;> omega

@[simp] theorem i64Of_ofInt (x : Int64) : i64Of (.number (Decimal.ofInt x.toInt)) = some x := by
  have hlo := x.le_toInt
  have hhi := x.toInt_lt
  rw [i64Of, intOf_ofInt, Option.bind_some, if_pos ⟨by simpa using hlo, by simpa using hhi⟩,
    Int64.ofInt_toInt]

end Values

/-! ### Bytes -/

/-- `str::from_utf8`. -/
def ofUtf8 (bytes : Bytes) : Option String := String.fromUTF8? ⟨bytes.toArray⟩

theorem ofUtf8_utf8 (s : String) : ofUtf8 (utf8 s) = some s := by
  have hbytes : (⟨(utf8 s).toArray⟩ : ByteArray) = s.toByteArray := ByteArray.ext (by simp [utf8])
  rw [ofUtf8, hbytes, String.fromUTF8?, dif_pos s.isValidUTF8]
  rfl

/-- `to_vec`. -/
def toVec {ν : Type} (num : ν → List Char) (doc : Document ν) : Bytes :=
  utf8 (String.ofList (render escape num doc))

/-- The document a slice holds. -/
def fromSlice (bytes : Bytes) : Option (Document Decimal) :=
  (ofUtf8 bytes).bind fun text => parse text.toList

/-- **A written document is read back**, with the numerals of its numbers. -/
theorem fromSlice_toVec {ν : Type} {num : ν → List Char} {numeral : ν → Decimal} {doc : Document ν}
    (hnum : Numerals num numeral doc.numbers) :
    fromSlice (toVec num doc) = some (doc.map numeral) := by
  rw [fromSlice, toVec, ofUtf8_utf8, Option.bind_some, String.toList_ofList,
    parse_render escape_escapes hnum]

end WqcNode.Lib.Serde
