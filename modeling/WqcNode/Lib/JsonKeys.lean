import WqcNode.Lib.JsonText

/-! # Keys written as they are

A writer may put the keys of objects between quotes as they are, without escapes. A reader then
finds the document again exactly if no key holds a quote, a backslash or a control character.

* `plain_of_readChars`: a text between quotes that is read as itself is plain.
* `parse_renderRaw_iff`: so is every key of a document that is read back. -/

namespace WqcNode.Lib.JsonKeys

open WqcNode.Lib WqcNode.Lib.Text WqcNode.Lib.Json WqcNode.Lib.Code WqcNode.Lib.JsonText

/-- A character that stands for itself between quotes. -/
def isPlain (c : Char) : Bool := c != '"' && c != '\\' && decide (0x20 ≤ c.toNat)

def plainText (text : String) : Bool := text.toList.all isPlain

theorem isPlain_iff {c : Char} : isPlain c = true ↔ c ≠ '"' ∧ c ≠ '\\' ∧ 0x20 ≤ c.toNat := by
  simp [isPlain, and_assoc]

/-! ### A text that is read as itself -/

/-- How a text before the closing quote and the characters it is read as are related: each character
takes one symbol or more, one exactly if it is plain, and a quote stands after the place of the
character it is read as. -/
structure Spans (text cs : List Char) : Prop where
  le : cs.length ≤ text.length
  plain : cs.length = text.length → text = cs ∧ ∀ c ∈ text, isPlain c = true
  quote : ∀ i : ℕ, text[i]? = some '"' → ∃ j : ℕ, j < i ∧ cs[j]? = some '"'

theorem Spans.nil : Spans [] [] := ⟨le_rfl, fun _ => ⟨rfl, by simp⟩, by simp⟩

theorem Spans.cons_plain {text cs : List Char} (h : Spans text cs) {c : Char}
    (hc : isPlain c = true) : Spans (c :: text) (c :: cs) := by
  refine ⟨by simpa using h.le, fun hlen => ?_, fun i hi => ?_⟩
  · obtain ⟨rfl, hplain⟩ := h.plain (by simpa using hlen)
    exact ⟨rfl, by simpa using ⟨hc, hplain⟩⟩
  · cases i with
    | zero => exact absurd (Option.some.inj hi) (isPlain_iff.mp hc).1
    | succ i =>
      obtain ⟨j, hj, hquote⟩ := h.quote i hi
      exact ⟨j + 1, by omega, hquote⟩

/-- An escape takes two symbols or more, and only the escape of a quote holds one, not as its
first. -/
theorem Spans.escape {text cs esc : List Char} (h : Spans text cs) {c : Char} (hlen : 2 ≤ esc.length)
    (hesc : ∀ i : ℕ, esc[i]? = some '"' → 0 < i ∧ c = '"') : Spans (esc ++ text) (c :: cs) := by
  have hle := h.le
  refine ⟨by rw [List.length_append, List.length_cons]; omega, fun heq => ?_, fun i hi => ?_⟩
  · rw [List.length_append, List.length_cons] at heq
    omega
  · rcases Nat.lt_or_ge i esc.length with hlt | hge
    · rw [List.getElem?_append_left hlt] at hi
      obtain ⟨hpos, rfl⟩ := hesc i hi
      exact ⟨0, hpos, rfl⟩
    · rw [List.getElem?_append_right hge] at hi
      obtain ⟨j, hj, hquote⟩ := h.quote _ hi
      exact ⟨j + 1, by omega, hquote⟩

theorem hexNum_ne {a b c d : Char} {n : ℕ} (h : hexNum a b c d = some n) :
    '"' ∉ [a, b, c, d] := by
  have hquote : hexVal '"' = none := rfl
  intro hmem
  unfold hexNum at h
  simp only [List.mem_cons, List.not_mem_nil, or_false] at hmem
  rcases hmem with rfl | rfl | rfl | rfl <;> simp [hquote] at h

/-- An escape that holds no quote. -/
theorem Spans.escape_of_notMem {text cs esc : List Char} (h : Spans text cs) (c : Char)
    (hlen : 2 ≤ esc.length) (hesc : '"' ∉ esc) : Spans (esc ++ text) (c :: cs) :=
  h.escape hlen fun _ hi => absurd (List.mem_of_getElem? hi) hesc

theorem spans_readChars {text : List Char} : ∀ {cs r : List Char}, readChars text = some (cs, r) →
    ∃ pre, text = pre ++ '"' :: r ∧ Spans pre cs := by
  have hcons : ∀ (esc : List Char) {rest cs r : List Char} {c : Char},
      (∀ {cs r : List Char}, readChars rest = some (cs, r) →
        ∃ pre, rest = pre ++ '"' :: r ∧ Spans pre cs) →
      (∀ {pre cs : List Char}, Spans pre cs → Spans (esc ++ pre) (c :: cs)) →
      (readChars rest).map (withChar c) = some (cs, r) →
      ∃ pre, esc ++ rest = pre ++ '"' :: r ∧ Spans pre cs := by
    intro esc rest cs r c ih hspans h
    obtain ⟨⟨cs', r'⟩, hread, heq⟩ := Option.map_eq_some_iff.mp h
    cases heq
    obtain ⟨pre, rfl, hpre⟩ := ih hread
    exact ⟨esc ++ pre, by rw [List.append_assoc], hspans hpre⟩
  induction text using readChars.induct with
  | case1 => intro cs r h; simp [readChars] at h
  | case2 rest =>
    intro cs r h
    rw [readChars_quote] at h
    cases h
    exact ⟨[], rfl, .nil⟩
  | case3 => intro cs r h; rw [readChars.eq_def] at h; simp at h
  | case4 h₃ h₂ h₁ h₀ rest hnum => intro cs r h; rw [readChars.eq_def] at h; simp [hnum] at h
  | case5 h₃ h₂ h₁ h₀ rest n hnum hvalid _ ih =>
    intro cs r h
    rw [readChars.eq_def] at h
    simp only [if_neg (show '\\' ≠ '"' by decide), if_true, hnum, if_pos hvalid] at h
    refine hcons ['\\', 'u', h₃, h₂, h₁, h₀] ih (fun hs => ?_) h
    exact hs.escape_of_notMem _ (by simp) (by simpa using hexNum_ne hnum)
  | case6 h₃ h₂ h₁ h₀ n hnum hvalid l₃ l₂ l₁ l₀ rest hlow =>
    intro cs r h
    rw [readChars.eq_def] at h
    simp [hnum, hvalid, hlow] at h
  | case7 h₃ h₂ h₁ h₀ n hnum hvalid l₃ l₂ l₁ l₀ rest y hlow _ ih =>
    intro cs r h
    obtain ⟨low, hlow', -⟩ := Option.bind_eq_some_iff.mp hlow
    rw [readChars.eq_def] at h
    simp only [if_neg (show '\\' ≠ '"' by decide), if_true, hnum, if_neg hvalid, hlow] at h
    refine hcons ['\\', 'u', h₃, h₂, h₁, h₀, '\\', 'u', l₃, l₂, l₁, l₀] ih (fun hs => ?_) h
    refine hs.escape_of_notMem _ (by simp) ?_
    have hhigh := hexNum_ne hnum
    have hlow := hexNum_ne hlow'
    simp only [List.mem_cons, List.not_mem_nil, or_false, not_or] at hhigh hlow ⊢
    simp [hhigh, hlow]
  | case8 h₃ h₂ h₁ h₀ rest n hnum hvalid hrest =>
    intro cs r h
    rw [readChars.eq_def] at h
    simp only [if_neg (show '\\' ≠ '"' by decide), if_true, hnum, if_neg hvalid] at h
    cases h
  | case9 rest hrest =>
    intro cs r h
    rw [readChars.eq_def] at h
    simp only [if_neg (show '\\' ≠ '"' by decide), if_true] at h
    cases h
  | case10 x rest hu hx =>
    intro cs r h
    rw [readChars.eq_def] at h
    simp [hu, hx] at h
  | case11 x rest hu y hx _ ih =>
    intro cs r h
    rw [readChars_short hx] at h
    refine hcons ['\\', x] ih (fun hs => hs.escape (by simp) fun i hi => ?_) h
    rcases i with _ | _ | i
    · simp at hi
    · obtain rfl : x = '"' := by simpa using hi
      exact ⟨by omega, (Option.some.inj hx).symm⟩
    · simp at hi
  | case12 x rest hq hb hc =>
    intro cs r h
    rw [readChars.eq_def] at h
    simp [hq, hb, hc] at h
  | case13 x rest hq hb hc ih =>
    intro cs r h
    rw [readChars_plain hq hb (Nat.not_lt.mp hc)] at h
    exact hcons [x] ih (fun hs => hs.cons_plain (isPlain_iff.mpr ⟨hq, hb, Nat.not_lt.mp hc⟩)) h

/-- **A text between quotes that is read as itself is plain**, and the quote after it closes it. -/
theorem plain_of_readChars {text r r' : List Char}
    (h : readChars (text ++ '"' :: r) = some (text, r')) :
    (∀ c ∈ text, isPlain c = true) ∧ r' = r := by
  obtain ⟨pre, hpre, hspans⟩ := spans_readChars h
  have hleft : ∀ j : ℕ, j < pre.length → (pre ++ '"' :: r')[j]? = pre[j]? :=
    fun j hj => List.getElem?_append_left hj
  -- a quote before the closing one is read as an earlier character, which would be a quote again
  have hnone : ∀ i : ℕ, i ≤ text.length → i < pre.length → pre[i]? ≠ some '"' := by
    intro i
    induction i using Nat.strongRecOn with
    | ind i ih =>
      intro hle hlt hquote
      obtain ⟨j, hj, hjq⟩ := hspans.quote i hquote
      have hsame : pre[j]? = text[j]? := by
        rw [← hleft j (by omega), ← hpre, List.getElem?_append_left (by omega)]
      exact ih j hj (by omega) (by omega) (hsame.trans hjq)
  rcases Nat.lt_or_ge text.length pre.length with hlt | hge
  · refine absurd ?_ (hnone text.length le_rfl hlt)
    rw [← hleft _ hlt, ← hpre, List.getElem?_append_right le_rfl, Nat.sub_self]
    rfl
  · obtain ⟨rfl, hplain⟩ := hspans.plain (Nat.le_antisymm hspans.le hge)
    exact ⟨hplain, (List.cons.inj (List.append_cancel_left hpre)).2.symm⟩

/-! ### Documents with their keys as they are -/

section Raw

variable {ν : Type} (esc : Char → List Char) (num : ν → List Char)

/-- A text between quotes as it is. -/
def rawString (text : String) : List Char := '"' :: (text.toList ++ ['"'])

mutual

/-- The document without whitespace, its keys as they are. -/
def renderRaw : Document ν → List Char
  | .null => chars "null"
  | .bool b => if b then chars "true" else chars "false"
  | .number n => num n
  | .string text => renderString esc text
  | .array items => '[' :: (joined ',' (renderRawItems items) ++ [']'])
  | .object members => '\x7b' :: (joined ',' (renderRawMembers members) ++ ['\x7d'])

def renderRawItems : List (Document ν) → List (List Char)
  | [] => []
  | item :: items => renderRaw item :: renderRawItems items

def renderRawMembers : List (String × Document ν) → List (List Char)
  | [] => []
  | (key, value) :: members => (rawString key ++ ':' :: renderRaw value) :: renderRawMembers members

end

mutual

/-- The keys of the objects in a document. -/
def keys : Document ν → List String
  | .null => []
  | .bool _ => []
  | .number _ => []
  | .string _ => []
  | .array items => keysOfItems items
  | .object members => keysOfMembers members

def keysOfItems : List (Document ν) → List String
  | [] => []
  | item :: items => keys item ++ keysOfItems items

def keysOfMembers : List (String × Document ν) → List String
  | [] => []
  | (key, value) :: members => key :: (keys value ++ keysOfMembers members)

end

end Raw

section Clean

variable {ν : Type} {esc : Char → List Char} {num : ν → List Char}

/-- The keys hold nothing that would need an escape. -/
def CleanKeys (ks : List String) : Prop := ∀ k ∈ ks, plainText k = true

@[simp] theorem cleanKeys_nil : CleanKeys [] := fun _ hk => absurd hk List.not_mem_nil

@[simp] theorem cleanKeys_cons {k : String} {ks : List String} :
    CleanKeys (k :: ks) ↔ plainText k = true ∧ CleanKeys ks := List.forall_mem_cons

@[simp] theorem cleanKeys_append {ks ls : List String} :
    CleanKeys (ks ++ ls) ↔ CleanKeys ks ∧ CleanKeys ls := List.forall_mem_append

theorem cleanKeys_of_all {ks : List String} (h : ks.all plainText = true) : CleanKeys ks :=
  List.all_eq_true.mp h

theorem rawString_eq (hplain : ∀ c, isPlain c = true → esc c = [c]) {text : String}
    (h : plainText text = true) :
    rawString text = renderString esc text := by
  have hall : ∀ l : List Char, (∀ c ∈ l, isPlain c = true) → l.flatMap esc = l := by
    intro l hl
    induction l with
    | nil => rfl
    | cons c l ih =>
      rw [List.flatMap_cons, hplain c (hl c (List.mem_cons_self ..)),
        ih fun d hd => hl d (List.mem_cons_of_mem _ hd)]
      rfl
  rw [rawString, renderString, hall _ (List.all_eq_true.mp h)]

mutual

/-- Clean keys need no escapes. -/
theorem renderRaw_eq (hplain : ∀ c, isPlain c = true → esc c = [c]) : ∀ {v : Document ν},
    CleanKeys (keys v) → renderRaw esc num v = render esc num v
  | .null, _ => by rw [renderRaw, render]
  | .bool _, _ => by rw [renderRaw, render]
  | .number _, _ => by rw [renderRaw, render]
  | .string _, _ => by rw [renderRaw, render]
  | .array items, h => by
    rw [keys] at h
    rw [renderRaw, render, renderRawItems_eq hplain h]
  | .object members, h => by
    rw [keys] at h
    rw [renderRaw, render, renderRawMembers_eq hplain h]

theorem renderRawItems_eq (hplain : ∀ c, isPlain c = true → esc c = [c]) :
    ∀ {items : List (Document ν)}, CleanKeys (keysOfItems items) →
    renderRawItems esc num items = renderItems esc num items
  | [], _ => by rw [renderRawItems, renderItems]
  | item :: items, h => by
    rw [keysOfItems, cleanKeys_append] at h
    rw [renderRawItems, renderItems, renderRaw_eq hplain h.1, renderRawItems_eq hplain h.2]

theorem renderRawMembers_eq (hplain : ∀ c, isPlain c = true → esc c = [c]) :
    ∀ {members : List (String × Document ν)}, CleanKeys (keysOfMembers members) →
    renderRawMembers esc num members = renderMembers esc num members
  | [], _ => by rw [renderRawMembers, renderMembers]
  | (key, value) :: members, h => by
    rw [keysOfMembers, cleanKeys_cons, cleanKeys_append] at h
    rw [renderRawMembers, renderMembers, rawString_eq hplain h.1, renderRaw_eq hplain h.2.1,
      renderRawMembers_eq hplain h.2.2]

end

end Clean

/-! ### What a reader can have read -/

theorem readItems_inv {n : ℕ} {text r : List Char} {docs : List (Document Decimal)}
    (h : readItems readChars (n + 1) text = some (docs, r)) :
    ∃ doc t, readValue readChars n text = some (doc, t) ∧
      ((∃ rest docs', skip t = ',' :: rest ∧ readItems readChars n rest = some (docs', r) ∧
        docs = doc :: docs') ∨ (skip t = ']' :: r ∧ docs = [doc])) := by
  rw [readItems] at h
  simp only [Option.bind_eq_bind, Option.bind_eq_some_iff] at h
  obtain ⟨⟨doc, t⟩, hread, h⟩ := h
  refine ⟨doc, t, hread, ?_⟩
  split at h
  next rest hskip =>
    obtain ⟨⟨docs', r'⟩, hrest, heq⟩ := Option.bind_eq_some_iff.mp h
    cases heq
    exact .inl ⟨rest, docs', hskip, hrest, rfl⟩
  next rest hskip =>
    cases h
    exact .inr ⟨hskip, rfl⟩
  · cases h

theorem readMembers_inv {n : ℕ} {text r : List Char} {docs : List (String × Document Decimal)}
    (h : readMembers readChars (n + 1) ('"' :: text) = some (docs, r)) :
    ∃ key t rest doc t', readChars text = some (key, t) ∧ skip t = ':' :: rest ∧
      readValue readChars n rest = some (doc, t') ∧
      ((∃ rest' docs', skip t' = ',' :: rest' ∧ readMembers readChars n rest' = some (docs', r) ∧
        docs = (String.ofList key, doc) :: docs') ∨
        (skip t' = '\x7d' :: r ∧ docs = [(String.ofList key, doc)])) := by
  rw [readMembers, skip_cons rfl] at h
  simp only [Option.bind_eq_bind, Option.bind_eq_some_iff] at h
  obtain ⟨⟨key, t⟩, hkey, h⟩ := h
  split at h
  next rest hcolon =>
    obtain ⟨⟨doc, t'⟩, hread, h⟩ := Option.bind_eq_some_iff.mp h
    refine ⟨key, t, rest, doc, t', hkey, hcolon, hread, ?_⟩
    split at h
    next rest' hskip =>
      obtain ⟨⟨docs', r'⟩, hrest, heq⟩ := Option.bind_eq_some_iff.mp h
      cases heq
      exact .inl ⟨rest', docs', hskip, hrest, rfl⟩
    next rest' hskip =>
      cases h
      exact .inr ⟨hskip, rfl⟩
    · cases h
  · cases h

section Read

variable {ν : Type} {esc : Char → List Char} {num : ν → List Char} {numeral : ν → Decimal}
  {R : ν → Decimal → Prop}

/-- The first character of a written value. -/
theorem renderRaw_head (esc : Char → List Char) (v : Document ν)
    (hnum : Numerals num numeral v.numbers) :
    ∃ c rest, renderRaw esc num v = c :: rest ∧ isSpace c = false ∧ c ≠ ']' := by
  cases v with
  | array items => exact ⟨'[', _, by rw [renderRaw], rfl, by decide⟩
  | object members => exact ⟨'\x7b', _, by rw [renderRaw], rfl, by decide⟩
  | _ =>
    obtain ⟨c, rest, hc, h⟩ := render_head esc _ hnum
    rw [render] at hc
    exact ⟨c, rest, by rw [renderRaw, hc], h⟩

mutual

/-- A document that is read back has clean keys, and it ends where it was written to end. -/
theorem clean_of_readValue (hesc : Escapes esc) : ∀ (v : Document ν) {w : Document Decimal} {n : ℕ}
    {r r' : List Char}, Numerals num numeral v.numbers → Ends goesOn r →
    readValue readChars n (renderRaw esc num v ++ r) = some (w, r') → v.Rel R w →
    CleanKeys (keys v) ∧ r' = r
  | v, w, 0, r, r', _, _, h, _ => by simp [readValue] at h
  | .null, w, n + 1, r, r', _, _, h, _ => by
    rw [renderRaw] at h
    exact ⟨by rw [keys]; exact cleanKeys_nil, (Prod.mk.inj (Option.some.inj h)).2.symm⟩
  | .bool b, w, n + 1, r, r', _, _, h, _ => by
    rw [renderRaw] at h
    refine ⟨by rw [keys]; exact cleanKeys_nil, ?_⟩
    cases b <;> exact (Prod.mk.inj (Option.some.inj h)).2.symm
  | .number x, w, n + 1, r, r', hnum, hr, h, _ => by
    obtain ⟨htext, hjson⟩ := hnum x (by simp [Document.numbers])
    obtain ⟨c, rest, hc, hdig⟩ := Decimal.exists_text_cons hjson.toWellFormed
    have hread := readNumber_text hjson hr
    rw [renderRaw, htext] at h
    rw [hc, List.cons_append] at hread h
    rw [readValue_number hdig, hread] at h
    exact ⟨by rw [keys]; exact cleanKeys_nil, (Prod.mk.inj (Option.some.inj h)).2.symm⟩
  | .string text, w, n + 1, r, r', _, _, h, _ => by
    rw [renderRaw, renderString, List.cons_append, List.append_assoc, List.singleton_append,
      readValue, skip_cons rfl] at h
    simp only [readChars_flatMap hesc, Option.map_some] at h
    exact ⟨by rw [keys]; exact cleanKeys_nil, (Prod.mk.inj (Option.some.inj h)).2.symm⟩
  | .array [], w, n + 1, r, r', _, _, h, _ => by
    rw [renderRaw, renderRawItems] at h
    exact ⟨by rw [keys, keysOfItems]; exact cleanKeys_nil,
      (Prod.mk.inj (Option.some.inj h)).2.symm⟩
  | .array (item :: items), w, n + 1, r, r', hnum, _, h, hrel => by
    rw [Document.numbers] at hnum
    obtain ⟨c, rest, hc, hspace, hb⟩ := renderRaw_head esc item hnum.left
    rw [renderRaw, List.cons_append, List.append_assoc, List.singleton_append, readValue,
      skip_cons rfl] at h
    have hhead : joined ',' (renderRawItems esc num (item :: items)) ++ ']' :: r =
        c :: (rest ++ ((renderRawItems esc num items).flatMap (',' :: ·) ++ ']' :: r)) := by
      rw [renderRawItems, joined, hc]
      simp
    simp only [hhead, skip_cons hspace] at h
    split at h
    next heq => exact absurd (List.cons.inj heq).1 hb
    · obtain ⟨⟨docs, t⟩, hread, heq⟩ := Option.map_eq_some_iff.mp h
      cases heq
      rw [← hhead] at hread
      rw [Document.Rel] at hrel
      rw [keys]
      exact clean_of_readItems hesc item items hnum hread hrel
  | .object [], w, n + 1, r, r', _, _, h, _ => by
    rw [renderRaw, renderRawMembers] at h
    exact ⟨by rw [keys, keysOfMembers]; exact cleanKeys_nil,
      (Prod.mk.inj (Option.some.inj h)).2.symm⟩
  | .object ((key, value) :: members), w, n + 1, r, r', hnum, _, h, hrel => by
    rw [Document.numbers] at hnum
    rw [renderRaw, List.cons_append, List.append_assoc, List.singleton_append, readValue,
      skip_cons rfl] at h
    have hhead : joined ',' (renderRawMembers esc num ((key, value) :: members)) ++ '\x7d' :: r =
        '"' :: (key.toList ++ '"' :: ':' :: (renderRaw esc num value ++
          ((renderRawMembers esc num members).flatMap (',' :: ·) ++ '\x7d' :: r))) := by
      rw [renderRawMembers, joined, rawString]
      simp
    simp only [hhead, skip_cons (show isSpace '"' = false from rfl)] at h
    split at h
    next heq => exact absurd (List.cons.inj heq).1 (by decide)
    · obtain ⟨⟨docs, t⟩, hread, heq⟩ := Option.map_eq_some_iff.mp h
      cases heq
      rw [← hhead] at hread
      rw [Document.Rel] at hrel
      rw [keys]
      exact clean_of_readMembers hesc key value members hnum hread hrel

theorem clean_of_readItems (hesc : Escapes esc) : ∀ (item : Document ν) (items : List (Document ν))
    {docs : List (Document Decimal)} {n : ℕ} {r r' : List Char},
    Numerals num numeral (numbersOfItems (item :: items)) →
    readItems readChars n (joined ',' (renderRawItems esc num (item :: items)) ++ ']' :: r) =
      some (docs, r') →
    RelItems R (item :: items) docs → CleanKeys (keysOfItems (item :: items)) ∧ r' = r
  | item, items, docs, 0, r, r', _, h, _ => by simp [readItems] at h
  | item, items, docs, n + 1, r, r', hnum, h, hrel => by
    obtain ⟨doc, t, hread, hcase⟩ := readItems_inv h
    obtain ⟨docs', rfl⟩ : ∃ docs', docs = doc :: docs' := by
      rcases hcase with ⟨_, docs', -, -, rfl⟩ | ⟨-, rfl⟩
      · exact ⟨docs', rfl⟩
      · exact ⟨[], rfl⟩
    rw [RelItems] at hrel
    rw [renderRawItems, joined, List.append_assoc] at hread
    cases items with
    | nil =>
      obtain ⟨hclean, rfl⟩ := clean_of_readValue hesc item hnum.left ((ends_cons goesOn ']' r).mpr rfl)
        hread hrel.1
      rw [skip_cons rfl] at hcase
      rcases hcase with ⟨rest, _, heq, -, -⟩ | ⟨heq, -⟩
      · exact absurd (List.cons.inj heq).1 (by decide)
      · refine ⟨?_, (List.cons.inj heq).2.symm⟩
        rw [keysOfItems, keysOfItems, cleanKeys_append]
        exact ⟨hclean, cleanKeys_nil⟩
    | cons next items =>
      rw [renderRawItems, List.flatMap_cons, List.append_assoc, List.cons_append] at hread
      obtain ⟨hclean, rfl⟩ := clean_of_readValue hesc item hnum.left ((ends_cons goesOn ',' _).mpr rfl)
        hread hrel.1
      rw [skip_cons rfl] at hcase
      rcases hcase with ⟨rest, docs'', heq, hrest, hdocs⟩ | ⟨heq, -⟩
      · obtain rfl := (List.cons.inj hdocs).2
        obtain rfl := (List.cons.inj heq).2
        rw [← List.append_assoc, ← joined, ← renderRawItems] at hrest
        obtain ⟨hcleans, hr⟩ := clean_of_readItems hesc next items hnum.right hrest hrel.2
        rw [keysOfItems, cleanKeys_append]
        exact ⟨⟨hclean, hcleans⟩, hr⟩
      · exact absurd (List.cons.inj heq).1 (by decide)

theorem clean_of_readMembers (hesc : Escapes esc) : ∀ (key : String) (value : Document ν)
    (members : List (String × Document ν)) {docs : List (String × Document Decimal)} {n : ℕ}
    {r r' : List Char}, Numerals num numeral (numbersOfMembers ((key, value) :: members)) →
    readMembers readChars n
        (joined ',' (renderRawMembers esc num ((key, value) :: members)) ++ '\x7d' :: r) =
      some (docs, r') →
    RelMembers R ((key, value) :: members) docs →
    CleanKeys (keysOfMembers ((key, value) :: members)) ∧ r' = r
  | key, value, members, docs, 0, r, r', _, h, _ => by simp [readMembers] at h
  | key, value, members, docs, n + 1, r, r', hnum, h, hrel => by
    rw [renderRawMembers, joined, rawString, List.cons_append, List.cons_append, List.cons_append,
      List.append_assoc, List.append_assoc, List.append_assoc, List.singleton_append,
      List.cons_append] at h
    obtain ⟨key', t, rest, doc, t', hkey, hcolon, hread, hcase⟩ := readMembers_inv h
    obtain ⟨docs', rfl⟩ : ∃ docs', docs = (String.ofList key', doc) :: docs' := by
      rcases hcase with ⟨_, docs', -, -, rfl⟩ | ⟨-, rfl⟩
      · exact ⟨docs', rfl⟩
      · exact ⟨[], rfl⟩
    rw [RelMembers] at hrel
    obtain ⟨hsame, hvalue, hmembers⟩ := hrel
    -- the key is read as itself
    obtain rfl : key' = key.toList := by rw [hsame, String.toList_ofList]
    obtain ⟨hplain, rfl⟩ := plain_of_readChars hkey
    rw [skip_cons rfl] at hcolon
    obtain rfl := (List.cons.inj hcolon).2
    have hkeyClean : plainText key = true := List.all_eq_true.mpr hplain
    rw [keysOfMembers, cleanKeys_cons, cleanKeys_append]
    cases members with
    | nil =>
      obtain ⟨hclean, rfl⟩ := clean_of_readValue hesc value hnum.left
        ((ends_cons goesOn '\x7d' r).mpr rfl) hread hvalue
      rw [skip_cons rfl] at hcase
      rcases hcase with ⟨rest, _, heq, -, -⟩ | ⟨heq, -⟩
      · exact absurd (List.cons.inj heq).1 (by decide)
      · refine ⟨⟨hkeyClean, hclean, ?_⟩, (List.cons.inj heq).2.symm⟩
        rw [keysOfMembers]
        exact cleanKeys_nil
    | cons next members =>
      obtain ⟨key', value'⟩ := next
      rw [renderRawMembers, List.flatMap_cons, List.append_assoc, List.cons_append] at hread
      obtain ⟨hclean, rfl⟩ := clean_of_readValue hesc value hnum.left
        ((ends_cons goesOn ',' _).mpr rfl) hread hvalue
      rw [skip_cons rfl] at hcase
      rcases hcase with ⟨rest, docs'', heq, hrest, hdocs⟩ | ⟨heq, -⟩
      · obtain rfl := (List.cons.inj hdocs).2
        obtain rfl := (List.cons.inj heq).2
        rw [← List.append_assoc, ← joined, ← renderRawMembers] at hrest
        obtain ⟨hcleans, hr⟩ := clean_of_readMembers hesc key' value' members hnum.right hrest hmembers
        exact ⟨⟨hkeyClean, hclean, hcleans⟩, hr⟩
      · exact absurd (List.cons.inj heq).1 (by decide)

end

/-- **Main result.** A document written with its keys as they are is read back, number by number,
exactly if its keys are clean. -/
theorem parse_renderRaw_iff (hesc : Escapes esc) (hplain : ∀ c, isPlain c = true → esc c = [c])
    {v : Document ν} (hnum : Numerals num numeral v.numbers)
    (hR : ∀ n ∈ v.numbers, R n (numeral n)) :
    (∃ w, parse (renderRaw esc num v) = some w ∧ v.Rel R w) ↔ CleanKeys (keys v) := by
  constructor
  · rintro ⟨w, hparse, hrel⟩
    unfold parse parseWith at hparse
    split at hparse
    next value rest hread =>
      split_ifs at hparse
      cases hparse
      rw [← List.append_nil (renderRaw esc num v)] at hread
      exact (clean_of_readValue hesc v hnum (ends_nil _) hread hrel).1
    · cases hparse
  · intro hclean
    exact ⟨v.map numeral, by rw [renderRaw_eq hplain hclean, parse_render hesc hnum],
      Document.rel_map hR⟩

end Read

end WqcNode.Lib.JsonKeys
