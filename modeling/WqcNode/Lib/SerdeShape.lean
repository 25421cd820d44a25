import WqcNode.Lib.Serde

/-! # Reading a record from a slice (`serde_json::from_slice`)

`serde_json` decodes the values of the fields a record has and the names of all its members. It
passes over the values of the other members: there a string need not be UTF-8, and its escapes need
not stand for a character. So a slice is read twice, first byte by byte with the strings as they
stand between their quotes, then along the shape of what is read.

* `fromSliceAs_toVec`: of a written document, the reader gets what its shape has. -/

namespace WqcNode.Lib.SerdeShape

open WqcNode.Lib WqcNode.Lib.Code WqcNode.Lib.Json WqcNode.Lib.JsonText WqcNode.Lib.Serde

/-! ### Passing over strings -/

/-- A byte as the character of its number. -/
def byteChar (b : UInt8) : Char := Char.ofNat b.toNat

def byteChars (bytes : Bytes) : List Char := bytes.map byteChar

/-- Puts characters before those read. -/
def withChars (cs : List Char) (p : List Char × List Char) : List Char × List Char :=
  (cs ++ p.1, p.2)

/-- `ignore_str`: the bytes of a string as they stand up to its closing quote, and what follows it.
The letter of an escape and its four digits are checked, but not what they stand for. -/
def skipChars : List Char → Option (List Char × List Char)
  | [] => none
  | c :: rest =>
    if c = '"' then some ([], rest)
    else if c = '\\' then
      match rest with
      | [] => none
      | x :: rest =>
        if x = 'u' then
          match rest with
          | h₃ :: h₂ :: h₁ :: h₀ :: rest =>
            match hexNum h₃ h₂ h₁ h₀ with
            | none => none
            | some _ => (skipChars rest).map (withChars ['\\', 'u', h₃, h₂, h₁, h₀])
          | _ => none
        else match unescape x with
          | none => none
          | some _ => (skipChars rest).map (withChars ['\\', x])
    else if c.toNat < 0x20 then none
    else (skipChars rest).map (withChar c)

/-- The document a slice holds, a character of a text for each byte between its quotes. -/
def skim (bytes : Bytes) : Option (Document Decimal) := parseWith skipChars (byteChars bytes)

/-- `parse_str`: the text the bytes between two quotes stand for. -/
def decodeText (raw : String) : Option String := do
  let text ← ofUtf8 (raw.toList.map fun c => UInt8.ofNat c.toNat)
  let (cs, _) ← readChars (text.toList ++ ['"'])
  return String.ofList cs

/-! ### Shapes -/

/-- What a type reads of a value: all of it, or of a record the members it has fields for. -/
inductive Shape
  | whole
  | list (item : Shape)
  | record (fields : List (String × Shape))

/-- The shape of a record none of whose fields is a record. -/
def Shape.flat (names : List String) : Shape := .record (names.map fun name => (name, .whole))

/-- The shape of the item at an index, where a record is read by position. -/
def Shape.item : Shape → ℕ → Shape
  | .whole, _ => .whole
  | .list item, _ => item
  | .record fields, i => (fields[i]?.map (·.2)).getD .whole

/-- The shape of a member, unless it is passed over. -/
def Shape.member : Shape → String → Option Shape
  | .record fields, name => (fields.find? (·.1 = name)).map (·.2)
  | _, _ => some .whole

mutual

/-- Decodes what the shape reads and leaves the rest out. -/
def decodeAs : Shape → Document Decimal → Option (Document Decimal)
  | _, .null => some .null
  | _, .bool b => some (.bool b)
  | _, .number n => some (.number n)
  | _, .string raw => (decodeText raw).map .string
  | shape, .array items => (decodeItems shape 0 items).map .array
  | shape, .object members => (decodeMembers shape members).map .object

def decodeItems (shape : Shape) : ℕ → List (Document Decimal) → Option (List (Document Decimal))
  | _, [] => some []
  | i, item :: items => do
    return (← decodeAs (shape.item i) item) :: (← decodeItems shape (i + 1) items)

def decodeMembers (shape : Shape) :
    List (String × Document Decimal) → Option (List (String × Document Decimal))
  | [] => some []
  | (raw, value) :: members => do
    let key ← decodeText raw
    match shape.member key with
    | none => decodeMembers shape members
    | some shape' => return (key, ← decodeAs shape' value) :: (← decodeMembers shape members)

end

/-- The document a slice holds, as far as the shape reads it. -/
def fromSliceAs (shape : Shape) (bytes : Bytes) : Option (Document Decimal) :=
  (skim bytes).bind (decodeAs shape)

/-! ### Bytes as characters -/

/-- The bytes of a character, as characters. -/
def spread (c : Char) : List Char := byteChars (String.utf8EncodeChar c)

theorem utf8_ofList (cs : List Char) : utf8 (String.ofList cs) = cs.flatMap String.utf8EncodeChar := by
  unfold utf8
  rw [String.toByteArray_ofList, List.utf8Encode, List.data_toByteArray]

theorem byteChars_utf8 (cs : List Char) : byteChars (utf8 (String.ofList cs)) = cs.flatMap spread := by
  rw [utf8_ofList, byteChars, List.map_flatMap]
  rfl

theorem toNat_byteChar (b : UInt8) : (byteChar b).toNat = b.toNat := by
  have hlt := b.toNat_lt
  have hvalid : b.toNat.isValidChar := .inl (by omega)
  rw [byteChar, Char.ofNat, dif_pos hvalid]
  rfl

theorem bytes_byteChars (bytes : Bytes) :
    (byteChars bytes).map (fun c => UInt8.ofNat c.toNat) = bytes := by
  rw [byteChars, List.map_map]
  conv_rhs => rw [← List.map_id bytes]
  refine List.map_congr_left fun b _ => ?_
  rw [Function.comp_apply, toNat_byteChar, UInt8.ofNat_toNat, id]

/-- An ASCII character is its own byte. -/
theorem spread_ascii {c : Char} (h : c.toNat ≤ 0x7f) : spread c = [c] := by
  have hbyte : (UInt8.ofNat c.toNat).toNat = c.toNat := by
    rw [UInt8.toNat_ofNat']
    omega
  have henc : String.utf8EncodeChar c = [UInt8.ofNat c.toNat] := if_pos h
  rw [spread, henc, byteChars, List.map_singleton, byteChar, hbyte, Char.ofNat_toNat]

theorem le_of_mem_spread {c d : Char} (h : 0x7f < c.toNat) (hd : d ∈ spread c) : 0x80 ≤ d.toNat := by
  obtain ⟨b, hb, rfl⟩ := List.mem_map.mp hd
  rw [toNat_byteChar]
  have hn : ¬ c.val.toNat ≤ 0x7f := by simpa using h
  unfold String.utf8EncodeChar at hb
  simp only [if_neg hn] at hb
  split_ifs at hb
  all_goals
    simp only [List.mem_cons, List.not_mem_nil, or_false] at hb
    rcases hb with rfl | rfl | rfl | rfl <;> simp only [UInt8.toNat_ofNat'] <;> omega

theorem flatMap_spread_ascii : ∀ {cs : List Char}, (∀ c ∈ cs, c.toNat ≤ 0x7f) → cs.flatMap spread = cs
  | [], _ => rfl
  | c :: cs, h => by
    rw [List.flatMap_cons, spread_ascii (h c (List.mem_cons_self ..)),
      flatMap_spread_ascii fun d hd => h d (List.mem_cons_of_mem _ hd), List.singleton_append]

/-! ### A written text is passed over -/

theorem withChars_withChars (cs ds : List Char) (p : Option (List Char × List Char)) :
    (p.map (withChars ds)).map (withChars cs) = p.map (withChars (cs ++ ds)) := by
  rw [Option.map_map]
  congr 1
  funext q
  simp [withChars]

theorem skipChars_plain {c : Char} (hq : c ≠ '"') (hb : c ≠ '\\') (hc : 0x20 ≤ c.toNat)
    (r : List Char) : skipChars (c :: r) = (skipChars r).map (withChars [c]) := by
  rw [skipChars.eq_def]
  simp only [if_neg hq, if_neg hb, if_neg (Nat.not_lt.mpr hc)]
  rfl

theorem skipChars_short {x : Char} (h : (unescape x).isSome = true) (r : List Char) :
    skipChars ('\\' :: x :: r) = (skipChars r).map (withChars ['\\', x]) := by
  have hu : x ≠ 'u' := by
    rintro rfl
    cases h
  obtain ⟨y, hy⟩ := Option.isSome_iff_exists.mp h
  rw [skipChars.eq_def]
  simp only [if_neg (show '\\' ≠ '"' by decide), if_true, if_neg hu, hy]

theorem skipChars_unicode {h₃ h₂ h₁ h₀ : Char} (h : (hexNum h₃ h₂ h₁ h₀).isSome = true) (r : List Char) :
    skipChars ('\\' :: 'u' :: h₃ :: h₂ :: h₁ :: h₀ :: r) =
      (skipChars r).map (withChars ['\\', 'u', h₃, h₂, h₁, h₀]) := by
  obtain ⟨n, hn⟩ := Option.isSome_iff_exists.mp h
  rw [skipChars.eq_def]
  simp only [if_neg (show '\\' ≠ '"' by decide), if_true, hn]

/-- The bytes of a character that is no ASCII character need no escape. -/
theorem skipChars_high : ∀ {cs : List Char}, (∀ c ∈ cs, 0x80 ≤ c.toNat) → ∀ r,
    skipChars (cs ++ r) = (skipChars r).map (withChars cs)
  | [], _, r => by
    rw [List.nil_append, show withChars [] = id from rfl, Option.map_id]
    rfl
  | c :: cs, h, r => by
    have hc : 0x80 ≤ c.toNat := h c (List.mem_cons_self ..)
    have hne : ∀ x : Char, x.toNat < 0x80 → c ≠ x := by
      rintro x hx rfl
      omega
    rw [List.cons_append, skipChars_plain (hne _ (by decide)) (hne _ (by decide)) (by omega),
      skipChars_high (fun d hd => h d (List.mem_cons_of_mem _ hd)) r, withChars_withChars,
      List.singleton_append]

theorem skipChars_escape (c : Char) (r : List Char) :
    skipChars ((escape c).flatMap spread ++ r) =
      (skipChars r).map (withChars ((escape c).flatMap spread)) := by
  have hshort : ∀ x : Char, x.toNat ≤ 0x7f → (unescape x).isSome = true →
      skipChars (['\\', x].flatMap spread ++ r) =
        (skipChars r).map (withChars (['\\', x].flatMap spread)) := by
    intro x hx hu
    rw [flatMap_spread_ascii (by simp [hx])]
    exact skipChars_short hu r
  unfold escape
  split
  · exact hshort _ (by decide) rfl
  · exact hshort _ (by decide) rfl
  · exact hshort _ (by decide) rfl
  · exact hshort _ (by decide) rfl
  · exact hshort _ (by decide) rfl
  · exact hshort _ (by decide) rfl
  · exact hshort _ (by decide) rfl
  next hq hb _ _ _ _ _ =>
    split_ifs with hc
    · have hdigit : ∀ a : Fin 16, (Nat.digitChar a).toNat ≤ 0x7f := by decide
      have hhigh := hdigit ⟨c.toNat / 16, by omega⟩
      have hlow := hdigit ⟨c.toNat % 16, by omega⟩
      rw [flatMap_spread_ascii (by simp [hhigh, hlow])]
      refine skipChars_unicode ?_ r
      have hzero : hexVal '0' = some 0 := rfl
      simp only [hexNum, hzero, hexVal_digitChar (show c.toNat / 16 < 16 by omega),
        hexVal_digitChar (show c.toNat % 16 < 16 by omega), Option.isSome_some]
    · rw [List.flatMap_singleton]
      rcases Nat.lt_or_ge 0x7f c.toNat with hhigh | hascii
      · exact skipChars_high (fun d hd => le_of_mem_spread hhigh hd) r
      · rw [spread_ascii hascii]
        exact skipChars_plain hq hb (Nat.not_lt.mp hc) r

/-- A written text as it stands between its quotes. -/
def rawText (text : String) : String :=
  String.ofList (text.toList.flatMap fun c => (escape c).flatMap spread)

theorem skipChars_flatMap (r : List Char) : ∀ cs : List Char,
    skipChars ((cs.flatMap fun c => (escape c).flatMap spread) ++ '"' :: r) =
      some (cs.flatMap fun c => (escape c).flatMap spread, r)
  | [] => by
    rw [List.flatMap_nil, List.nil_append, skipChars.eq_def]
    rfl
  | c :: cs => by
    rw [List.flatMap_cons, List.append_assoc, skipChars_escape, skipChars_flatMap r cs]
    rfl

theorem readsTexts_skipChars :
    ReadsTexts skipChars (fun c => (escape c).flatMap spread) rawText := by
  intro text r
  rw [rawText, String.toList_ofList]
  exact skipChars_flatMap r text.toList

/-- **A written text is decoded.** -/
theorem decodeText_rawText (text : String) : decodeText (rawText text) = some text := by
  have hraw : (rawText text).toList = byteChars (utf8 (String.ofList (text.toList.flatMap escape))) := by
    rw [rawText, String.toList_ofList, byteChars_utf8, List.flatMap_assoc]
  have hread := readChars_flatMap escape_escapes [] text.toList
  unfold decodeText
  rw [hraw, bytes_byteChars, ofUtf8_utf8]
  simp only [Option.bind_eq_bind, Option.bind_some, String.toList_ofList, hread, String.ofList_toList, pure]

theorem flatMap_joined (ws : List (List Char)) :
    (joined ',' ws).flatMap spread = joined ',' (ws.map fun w => w.flatMap spread) := by
  cases ws with
  | nil => rfl
  | cons w ws =>
    rw [joined, List.flatMap_append, List.map_cons, joined, List.flatMap_assoc, List.flatMap_map]
    simp only [List.flatMap_cons, spread_ascii (show (',' : Char).toNat ≤ 0x7f by decide),
      List.singleton_append]

theorem isNumeral_ascii {c : Char} (h : Decimal.isNumeral c = true) : c.toNat ≤ 0x7f := by
  simp only [Decimal.isNumeral, Char.isDigit, Bool.or_eq_true, Bool.and_eq_true, decide_eq_true_eq,
    beq_iff_eq] at h
  rcases h with (((⟨-, hle⟩ | rfl) | rfl) | rfl) | rfl
  · have hle' : c.toNat ≤ 57 := hle
    omega
  all_goals decide

section Render

variable {ν : Type} {num : ν → List Char}

theorem flatMap_renderString (text : String) : (renderString escape text).flatMap spread =
    renderString (fun c => (escape c).flatMap spread) text := by
  have hquote : spread '"' = ['"'] := spread_ascii (by decide)
  rw [renderString, renderString, List.flatMap_cons, List.flatMap_append, List.flatMap_assoc,
    List.flatMap_singleton, hquote, List.singleton_append]

mutual

/-- The bytes of a written document are those of its texts between the same punctuation. -/
theorem flatMap_render : ∀ doc : Document ν, (∀ n ∈ doc.numbers, ∀ c ∈ num n, c.toNat ≤ 0x7f) →
    (render escape num doc).flatMap spread = render (fun c => (escape c).flatMap spread) num doc
  | .null, _ => by
    rw [render, render]
    exact flatMap_spread_ascii (by simp [Text.chars])
  | .bool b, _ => by
    rw [render, render]
    cases b <;> exact flatMap_spread_ascii (by simp [Text.chars])
  | .number n, h => by
    rw [render, render]
    exact flatMap_spread_ascii (h n (by simp [Document.numbers]))
  | .string text, _ => by rw [render, render, flatMap_renderString]
  | .array items, h => by
    have hopen : spread '[' = ['['] := spread_ascii (by decide)
    have hclose : spread ']' = [']'] := spread_ascii (by decide)
    rw [render, render, List.flatMap_cons, List.flatMap_append, flatMap_joined, flatMap_renderItems items h,
      List.flatMap_singleton, hopen, hclose, List.singleton_append]
  | .object members, h => by
    have hopen : spread '\x7b' = ['\x7b'] := spread_ascii (by decide)
    have hclose : spread '\x7d' = ['\x7d'] := spread_ascii (by decide)
    rw [render, render, List.flatMap_cons, List.flatMap_append, flatMap_joined,
      flatMap_renderMembers members h, List.flatMap_singleton, hopen, hclose, List.singleton_append]

theorem flatMap_renderItems : ∀ items : List (Document ν),
    (∀ n ∈ numbersOfItems items, ∀ c ∈ num n, c.toNat ≤ 0x7f) →
    (renderItems escape num items).map (fun w => w.flatMap spread) =
      renderItems (fun c => (escape c).flatMap spread) num items
  | [], _ => rfl
  | item :: items, h => by
    rw [renderItems, renderItems, List.map_cons,
      flatMap_render item fun n hn => h n (List.mem_append_left _ hn),
      flatMap_renderItems items fun n hn => h n (List.mem_append_right _ hn)]

theorem flatMap_renderMembers : ∀ members : List (String × Document ν),
    (∀ n ∈ numbersOfMembers members, ∀ c ∈ num n, c.toNat ≤ 0x7f) →
    (renderMembers escape num members).map (fun w => w.flatMap spread) =
      renderMembers (fun c => (escape c).flatMap spread) num members
  | [], _ => rfl
  | (key, value) :: members, h => by
    have hcolon : spread ':' = [':'] := spread_ascii (by decide)
    rw [renderMembers, renderMembers, List.map_cons, List.flatMap_append, flatMap_renderString,
      List.flatMap_cons, hcolon, flatMap_render value fun n hn => h n (List.mem_append_left _ hn),
      flatMap_renderMembers members fun n hn => h n (List.mem_append_right _ hn),
      List.singleton_append]

end

/-! ### A written document is read -/

mutual

/-- What the shape reads of a document. -/
def restrict : Shape → Document ν → Document ν
  | _, .null => .null
  | _, .bool b => .bool b
  | _, .number n => .number n
  | _, .string text => .string text
  | shape, .array items => .array (restrictItems shape 0 items)
  | shape, .object members => .object (restrictMembers shape members)

def restrictItems (shape : Shape) : ℕ → List (Document ν) → List (Document ν)
  | _, [] => []
  | i, item :: items => restrict (shape.item i) item :: restrictItems shape (i + 1) items

def restrictMembers (shape : Shape) : List (String × Document ν) → List (String × Document ν)
  | [] => []
  | (key, value) :: members =>
    match shape.member key with
    | none => restrictMembers shape members
    | some shape' => (key, restrict shape' value) :: restrictMembers shape members

end

mutual

theorem restrict_whole : ∀ doc : Document ν, restrict .whole doc = doc
  | .null => rfl
  | .bool _ => rfl
  | .number _ => rfl
  | .string _ => rfl
  | .array items => by rw [restrict, restrictItems_whole 0 items]
  | .object members => by rw [restrict, restrictMembers_whole members]

theorem restrictItems_whole : ∀ (i : ℕ) (items : List (Document ν)),
    restrictItems .whole i items = items
  | _, [] => rfl
  | i, item :: items => by
    rw [restrictItems, Shape.item, restrict_whole item, restrictItems_whole (i + 1) items]

theorem restrictMembers_whole : ∀ members : List (String × Document ν),
    restrictMembers .whole members = members
  | [] => rfl
  | (key, value) :: members => by
    have hmember : Shape.member .whole key = some .whole := rfl
    rw [restrictMembers, hmember]
    simp only [restrict_whole value, restrictMembers_whole members]

end

mutual

theorem restrict_map {μ : Type} (f : ν → μ) : ∀ (shape : Shape) (doc : Document ν),
    restrict shape (doc.map f) = (restrict shape doc).map f
  | _, .null => rfl
  | _, .bool _ => rfl
  | _, .number _ => rfl
  | _, .string _ => rfl
  | shape, .array items => by
    rw [restrict, Document.map, Document.map, restrict, restrictItems_map f shape 0 items]
  | shape, .object members => by
    rw [restrict, Document.map, Document.map, restrict, restrictMembers_map f shape members]

theorem restrictItems_map {μ : Type} (f : ν → μ) (shape : Shape) : ∀ (i : ℕ) (items : List (Document ν)),
    restrictItems shape i (mapItems f items) = mapItems f (restrictItems shape i items)
  | _, [] => rfl
  | i, item :: items => by
    rw [restrictItems, mapItems, restrictItems, mapItems, restrict_map f (shape.item i) item,
      restrictItems_map f shape (i + 1) items]

theorem restrictMembers_map {μ : Type} (f : ν → μ) (shape : Shape) :
    ∀ members : List (String × Document ν),
      restrictMembers shape (mapMembers f members) = mapMembers f (restrictMembers shape members)
  | [] => rfl
  | (key, value) :: members => by
    rw [mapMembers, restrictMembers, restrictMembers]
    cases shape.member key with
    | none => exact restrictMembers_map f shape members
    | some shape' =>
      simp only [mapMembers, restrict_map f shape' value, restrictMembers_map f shape members]

end

/-- A record is read whole if its shape has a field for each of its members. -/
theorem restrict_record {shapes : List (String × Shape)} {fields : List (String × Option (Document ν))}
    (h : ∀ f ∈ fields, ∀ doc ∈ f.2, ∃ shape, (Shape.record shapes).member f.1 = some shape ∧
      restrict shape doc = doc) : restrict (.record shapes) (record fields) = record fields := by
  rw [record, restrict]
  congr 1
  induction fields with
  | nil => rfl
  | cons f fields ih =>
    obtain ⟨name, value⟩ := f
    have hrest := ih fun f hf => h f (List.mem_cons_of_mem _ hf)
    rw [present_cons]
    cases value with
    | none => exact hrest
    | some doc =>
      obtain ⟨shape, hmember, hdoc⟩ := h _ (List.mem_cons_self ..) doc rfl
      rw [Option.map_some, Option.toList_some, List.singleton_append, restrictMembers, hmember]
      simp only [hdoc, hrest]

theorem member_flat {names : List String} {name : String} (h : name ∈ names) :
    (Shape.flat names).member name = some .whole := by
  unfold Shape.flat Shape.member
  induction names with
  | nil => cases h
  | cons other names ih =>
    by_cases hname : other = name
    · simp [hname]
    · rcases List.mem_cons.mp h with rfl | h
      · exact absurd rfl hname
      · simpa [hname] using ih h

theorem restrict_flat {fields : List (String × Option (Document ν))} {names : List String}
    (h : ∀ f ∈ fields, f.1 ∈ names) : restrict (.flat names) (record fields) = record fields :=
  restrict_record fun f hf doc _ => ⟨.whole, member_flat (h f hf), restrict_whole doc⟩

mutual

theorem decodeAs_mapTexts : ∀ (shape : Shape) (doc : Document Decimal),
    decodeAs shape (doc.mapTexts rawText) = some (restrict shape doc)
  | _, .null => by rw [Document.mapTexts, decodeAs, restrict]
  | _, .bool _ => by rw [Document.mapTexts, decodeAs, restrict]
  | _, .number _ => by rw [Document.mapTexts, decodeAs, restrict]
  | _, .string text => by rw [Document.mapTexts, decodeAs, restrict, decodeText_rawText, Option.map_some]
  | shape, .array items => by
    rw [Document.mapTexts, decodeAs, restrict, decodeItems_mapTexts shape 0 items, Option.map_some]
  | shape, .object members => by
    rw [Document.mapTexts, decodeAs, restrict, decodeMembers_mapTexts shape members, Option.map_some]

theorem decodeItems_mapTexts (shape : Shape) : ∀ (i : ℕ) (items : List (Document Decimal)),
    decodeItems shape i (mapTextsItems rawText items) = some (restrictItems shape i items)
  | _, [] => by rw [mapTextsItems, decodeItems, restrictItems]
  | i, item :: items => by
    rw [mapTextsItems, decodeItems, restrictItems, decodeAs_mapTexts (shape.item i) item,
      decodeItems_mapTexts shape (i + 1) items]
    rfl

theorem decodeMembers_mapTexts (shape : Shape) : ∀ members : List (String × Document Decimal),
    decodeMembers shape (mapTextsMembers rawText members) = some (restrictMembers shape members)
  | [] => by rw [mapTextsMembers, decodeMembers, restrictMembers]
  | (key, value) :: members => by
    rw [mapTextsMembers, decodeMembers, restrictMembers, decodeText_rawText,
      decodeMembers_mapTexts shape members]
    simp only [Option.bind_eq_bind, Option.bind_some]
    cases shape.member key with
    | none => rfl
    | some shape' =>
      simp only [decodeAs_mapTexts shape' value, Option.bind_some]
      rfl

end

/-- **Main result.** Of a written document, the reader gets what its shape has, with the numerals of
its numbers. -/
theorem fromSliceAs_toVec {numeral : ν → Decimal} {doc : Document ν}
    (hnum : Numerals num numeral doc.numbers) (shape : Shape) :
    fromSliceAs shape (toVec num doc) = some (restrict shape (doc.map numeral)) := by
  have hascii : ∀ n ∈ doc.numbers, ∀ c ∈ num n, c.toNat ≤ 0x7f := by
    intro n hn c hc
    obtain ⟨htext, hjson⟩ := hnum n hn
    rw [htext] at hc
    exact isNumeral_ascii (Decimal.isNumeral_text hjson.toWellFormed c hc)
  rw [fromSliceAs, skim, toVec, byteChars_utf8, flatMap_render doc hascii,
    parseWith_render readsTexts_skipChars hnum, Option.bind_some, decodeAs_mapTexts]

/-- A document the shape reads whole is read back. -/
theorem fromSliceAs_of_whole {numeral : ν → Decimal} {doc : Document ν}
    (hnum : Numerals num numeral doc.numbers) {shape : Shape} (hwhole : restrict shape doc = doc) :
    fromSliceAs shape (toVec num doc) = some (doc.map numeral) := by
  rw [fromSliceAs_toVec hnum, restrict_map, hwhole]

end Render

/-- A string of a member that is passed over may hold a lone surrogate. -/
example : fromSliceAs (.flat ["a"]) (utf8 "\x7b\"a\":\"x\",\"b\":\"\\ud800\"\x7d") =
    some (.object [("a", .string "x")]) := by rfl

end WqcNode.Lib.SerdeShape
