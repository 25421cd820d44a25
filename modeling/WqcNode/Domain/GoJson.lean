import WqcNode.Lib.Text
import WqcNode.Domain.GoFloat
import WqcNode.Domain.Models

/-! # Circuits as the orchestrator signs them (`circuit_signing_json` in `domain/p2p.rs`)

`[{"type":…,"params":…}]`, with strings and numbers written as Go's `encoding/json` writes them. The
text is read from the left without ambiguity, so it determines the circuit up to how its numbers are
written (`circuitSigningJson_inj`). -/

namespace WqcNode.Domain.GoJson

open WqcNode.Lib WqcNode.Lib.Text WqcNode.Lib.Json WqcNode.Lib.Code
open WqcNode.Domain.GoFloat WqcNode.Domain.Models

/-! ### The source's functions -/

/-- The characters with a two-character escape. -/
def shortEscape : Char → Option Char
  | '"' => some '"'
  | '\\' => some '\\'
  | '\x08' => some 'b'
  | '\x0c' => some 'f'
  | '\n' => some 'n'
  | '\r' => some 'r'
  | '\t' => some 't'
  | _ => none

/-- `<`, `>`, `&`, U+2028, U+2029 and the other control characters. -/
def unicodeEscaped (c : Char) : Bool :=
  c == '<' || c == '>' || c == '&' || c.toNat == 0x2028 || c.toNat == 0x2029 || c.toNat < 0x20

/-- `{:04x}` of a number below `2^16`. -/
def hexFour (n : ℕ) : List Char :=
  [Nat.digitChar (n / 4096 % 16), Nat.digitChar (n / 256 % 16), Nat.digitChar (n / 16 % 16),
    Nat.digitChar (n % 16)]

def escapeChar (c : Char) : List Char :=
  match shortEscape c with
  | some x => ['\\', x]
  | none => if unicodeEscaped c then '\\' :: 'u' :: hexFour c.toNat else [c]

def writeGoJsonString (text : String) : List Char := '"' :: (text.toList.flatMap escapeChar ++ ['"'])

section Writer

variable (ryu : Ryu)

mutual

/-- Every number is written as its float64. -/
def writeGoJsonValue : Value → List Char
  | .null => chars "null"
  | .bool b => if b then chars "true" else chars "false"
  | .number n => goJsonFloat ryu n.asF64
  | .string text => writeGoJsonString text
  | .array items => '[' :: (joined ',' (writeItems items) ++ [']'])
  | .object map => '{' :: (joined ',' (writeMembers map) ++ ['}'])

def writeItems : List Value → List (List Char)
  | [] => []
  | item :: items => writeGoJsonValue item :: writeItems items

def writeMembers : List (String × Value) → List (List Char)
  | [] => []
  | (key, item) :: map => (writeGoJsonString key ++ ':' :: writeGoJsonValue item) :: writeMembers map

end

def writeGate (gate : Gate) : List Char :=
  chars "\x7b\"type\":" ++ (writeGoJsonString gate.type ++
    (chars ",\"params\":" ++ (writeGoJsonValue ryu gate.params ++ ['}'])))

def circuitSigningJson (circuit : List Gate) : List Char :=
  '[' :: (joined ',' (circuit.map (writeGate ryu)) ++ [']'])

end Writer

/-! ### Strings -/

theorem digitChar_inj {m n : ℕ} (hm : m < 16) (hn : n < 16) (h : Nat.digitChar m = Nat.digitChar n) :
    m = n := by
  have hall : ∀ a b : Fin 16, Nat.digitChar a = Nat.digitChar b → a = b := by decide
  exact congrArg Fin.val (hall ⟨m, hm⟩ ⟨n, hn⟩ h)

theorem hexFour_inj {m n : ℕ} (hm : m < 65536) (hn : n < 65536) (h : hexFour m = hexFour n) :
    m = n := by
  simp only [hexFour, List.cons.injEq, and_true] at h
  obtain ⟨h₃, h₂, h₁, h₀⟩ := h
  have hd : ∀ x : ℕ, x % 16 < 16 := fun x => Nat.mod_lt _ (by norm_num)
  have := digitChar_inj (hd _) (hd _) h₃
  have := digitChar_inj (hd _) (hd _) h₂
  have := digitChar_inj (hd _) (hd _) h₁
  have := digitChar_inj (hd _) (hd _) h₀
  omega

theorem unicodeEscaped_lt {c : Char} (h : unicodeEscaped c = true) : c.toNat < 65536 := by
  simp only [unicodeEscaped, Bool.or_eq_true, beq_iff_eq, decide_eq_true_eq] at h
  rcases h with ((((rfl | rfl) | rfl) | h) | h) | h
  · decide
  · decide
  · decide
  all_goals omega

/-- The escapes of a character: a backslash and a letter other than `u`, a backslash, `u` and four
hexadecimal digits, or the character itself, which is then neither a backslash nor a quote. -/
theorem escapeChar_cases (c : Char) :
    (∃ x, shortEscape c = some x ∧ x ≠ 'u' ∧ escapeChar c = ['\\', x]) ∨
    (unicodeEscaped c = true ∧ escapeChar c = '\\' :: 'u' :: hexFour c.toNat) ∨
    (c ≠ '\\' ∧ c ≠ '"' ∧ escapeChar c = [c]) := by
  unfold escapeChar
  cases hs : shortEscape c with
  | some x =>
    refine .inl ⟨x, rfl, ?_, rfl⟩
    rintro rfl
    unfold shortEscape at hs
    split at hs <;> simp at hs
  | none =>
    refine .inr ?_
    by_cases hu : unicodeEscaped c = true
    · exact .inl ⟨hu, by simp [hu]⟩
    · refine .inr ⟨?_, ?_, by simp [hu]⟩ <;> rintro rfl <;> simp [shortEscape] at hs

theorem shortEscape_inj {c c' x : Char} (h : shortEscape c = some x) (h' : shortEscape c' = some x) :
    c = c' := by
  unfold shortEscape at h h'
  split at h <;> cases h <;> split at h' <;> simp_all

/-- What stands for a character is read as this character. -/
theorem escapeChar_reads (c c' : Char) : Reads escapeChar (fun _ => True) id c c' := by
  intro r r' _ _ h
  rcases escapeChar_cases c with ⟨x, hx, hxu, he⟩ | ⟨hu, he⟩ | ⟨hb, -, he⟩ <;>
    rcases escapeChar_cases c' with ⟨x', hx', hxu', he'⟩ | ⟨hu', he'⟩ | ⟨hb', -, he'⟩ <;>
    rw [he, he'] at h <;>
    simp only [List.cons_append, List.nil_append, List.cons.injEq, true_and] at h
  · obtain ⟨rfl, rfl⟩ := h
    exact ⟨shortEscape_inj hx hx', rfl⟩
  · exact absurd h.1 hxu
  · exact absurd h.1.symm hb'
  · exact absurd h.1.symm hxu'
  · obtain ⟨hhex, rfl⟩ := List.append_inj h (by simp [hexFour])
    exact ⟨Char.toNat_inj.mp (hexFour_inj (unicodeEscaped_lt hu) (unicodeEscaped_lt hu') hhex), rfl⟩
  · exact absurd h.1.symm hb'
  · exact absurd h.1 hb
  · exact absurd h.1 hb
  · exact h

theorem escapeChar_ne_quote (c : Char) (r r' : List Char) : escapeChar c ++ r ≠ '"' :: r' := by
  rcases escapeChar_cases c with ⟨x, -, -, he⟩ | ⟨-, he⟩ | ⟨-, hq, he⟩ <;> rw [he]
  · simp
  · simp
  · simpa using fun h => absurd h hq

/-- A written string is read as this string, whatever follows. -/
theorem writeGoJsonString_reads (text text' : String) :
    Reads writeGoJsonString (fun _ => True) id text text' := by
  intro r r' _ _ h
  simp only [writeGoJsonString, List.cons_append, List.append_assoc, List.nil_append,
    List.cons.injEq, true_and] at h
  have hreads : ∀ c ∈ text.toList, ∀ c' ∈ text'.toList, Reads escapeChar (fun _ => True) id c c' :=
    fun c _ c' _ => escapeChar_reads c c'
  obtain ⟨hkeys, hr⟩ := flatMap_stop (fun _ => trivial) (fun _ _ => trivial) escapeChar_ne_quote
    hreads h
  refine ⟨String.toList_inj.mp ?_, hr⟩
  simpa using hkeys

/-! ### Values -/

section Values

variable {ryu : Ryu}

theorem writeItems_eq : ∀ items : List Value,
    writeItems ryu items = items.map (writeGoJsonValue ryu)
  | [] => rfl
  | item :: items => by rw [writeItems, writeItems_eq items, List.map_cons]

/-- A member of an object. -/
def writeMember (ryu : Ryu) (e : String × Value) : List Char :=
  writeGoJsonString e.1 ++ ':' :: writeGoJsonValue ryu e.2

theorem writeMembers_eq : ∀ map : List (String × Value),
    writeMembers ryu map = map.map (writeMember ryu)
  | [] => rfl
  | e :: map => by rw [writeMembers, writeMembers_eq map, List.map_cons, writeMember]

/-- The kinds of values. -/
inductive Kind
  | null
  | bool
  | number
  | string
  | array
  | object
deriving DecidableEq

def kind {ν : Type} : Document ν → Kind
  | .null => .null
  | .bool _ => .bool
  | .number _ => .number
  | .string _ => .string
  | .array _ => .array
  | .object _ => .object

/-- The kind of the value a text begins with. -/
def kindOfChar (c : Char) : Option Kind :=
  if c = 'n' then some .null
  else if c = 't' ∨ c = 'f' then some .bool
  else if c.isDigit ∨ c = '-' then some .number
  else if c = '"' then some .string
  else if c = '[' then some .array
  else if c = '\x7b' then some .object
  else none

theorem kindOfChar_digit {c : Char} (h : c.isDigit = true ∨ c = '-') :
    kindOfChar c = some .number := by
  have hne : c ≠ 'n' ∧ ¬ (c = 't' ∨ c = 'f') := by
    refine ⟨?_, ?_⟩
    · rintro rfl
      exact absurd h (by decide)
    · rintro (rfl | rfl) <;> exact absurd h (by decide)
  rw [kindOfChar, if_neg hne.1, if_neg hne.2, if_pos h]

/-- Every number of the code is read back from ryu's text. -/
def Ryu.ReadsNumbers (ryu : Ryu) : Prop :=
  ∀ n : Number, isZeroF64 n.asF64 = false → ryu.ReadsBack n.asF64

/-- The first character of a value shows its kind. -/
theorem write_head (hryu : Ryu.ReadsNumbers ryu) (v : Value) :
    ∃ c rest, writeGoJsonValue ryu v = c :: rest ∧ kindOfChar c = some (kind v) := by
  cases v with
  | null => exact ⟨'n', chars "ull", rfl, rfl⟩
  | bool b =>
    cases b
    · exact ⟨'f', chars "alse", rfl, rfl⟩
    · exact ⟨'t', chars "rue", rfl, rfl⟩
  | number n =>
    obtain ⟨d, hd, htext, -⟩ := goJsonFloat_decimal (hryu n)
    obtain ⟨c, rest, hc, hdig⟩ := Decimal.exists_text_cons hd.toWellFormed
    exact ⟨c, rest, by rw [writeGoJsonValue, htext, hc], kindOfChar_digit hdig⟩
  | string text => exact ⟨'"', _, by rw [writeGoJsonValue, writeGoJsonString], rfl⟩
  | array items => exact ⟨'[', _, by rw [writeGoJsonValue], rfl⟩
  | object map => exact ⟨'\x7b', _, by rw [writeGoJsonValue], rfl⟩

theorem write_ne_cons (hryu : Ryu.ReadsNumbers ryu) {stop : Char} (hstop : kindOfChar stop = none)
    (v : Value) (r r' : List Char) : writeGoJsonValue ryu v ++ r ≠ stop :: r' := by
  obtain ⟨c, rest, hc, hkind⟩ := write_head hryu v
  rw [hc, List.cons_append]
  intro h
  rw [(List.cons.inj h).1, hstop] at hkind
  cases hkind

theorem kind_eq (hryu : Ryu.ReadsNumbers ryu) {v w : Value} {r r' : List Char}
    (h : writeGoJsonValue ryu v ++ r = writeGoJsonValue ryu w ++ r') : kind v = kind w := by
  obtain ⟨c, rest, hc, hkind⟩ := write_head hryu v
  obtain ⟨c', rest', hc', hkind'⟩ := write_head hryu w
  rw [hc, hc', List.cons_append, List.cons_append] at h
  rw [(List.cons.inj h).1, hkind'] at hkind
  exact (Option.some.inj hkind).symm

/-- What may follow a value. -/
abbrev AfterValue : List Char → Prop := Ends Decimal.isNumeral

theorem isNumeral_goJsonFloat (hryu : Ryu.ReadsNumbers ryu) (n : Number) :
    ∀ c ∈ goJsonFloat ryu n.asF64, Decimal.isNumeral c = true := by
  obtain ⟨d, hd, htext, -⟩ := goJsonFloat_decimal (hryu n)
  rw [htext]
  exact Decimal.isNumeral_text hd.toWellFormed

theorem number_reads (hryu : Ryu.ReadsNumbers ryu) (n m : Number) :
    Reads (fun n : Number => goJsonFloat ryu n.asF64) AfterValue Number.asF64 n m :=
  reads_block (isNumeral_goJsonFloat hryu n) (isNumeral_goJsonFloat hryu m)
    fun h => goJsonFloat_inj (hryu n) (hryu m) h

/-- A member is read as this member if its value is. -/
theorem writeMember_reads {e e' : String × Value}
    (he : Reads (writeGoJsonValue ryu) AfterValue (Document.map Number.asF64) e.2 e'.2) :
    Reads (writeMember ryu) AfterValue (fun e => (e.1, Document.map Number.asF64 e.2)) e e' := by
  intro r r' hr hr' h
  simp only [writeMember, List.append_assoc, List.cons_append] at h
  obtain ⟨hkey, hrest⟩ := writeGoJsonString_reads e.1 e'.1 _ _ trivial trivial h
  obtain ⟨hval, hr⟩ := he r r' hr hr' (List.cons.inj hrest).2
  exact ⟨Prod.ext hkey hval, hr⟩

mutual

/-- A written value is read as this value, up to how its numbers are written. -/
theorem write_reads (hryu : Ryu.ReadsNumbers ryu) : ∀ v w : Value,
    Reads (writeGoJsonValue ryu) AfterValue (Document.map Number.asF64) v w
  | .null, w => by
    intro r r' _ _ h
    have hk := kind_eq hryu h
    cases w <;> cases hk
    exact ⟨rfl, List.append_cancel_left h⟩
  | .bool b, w => by
    intro r r' _ _ h
    have hk := kind_eq hryu h
    cases w with
    | bool b' =>
      have ht : chars "true" = 't' :: chars "rue" := rfl
      have hf : chars "false" = 'f' :: chars "alse" := rfl
      cases b <;> cases b' <;> simp [writeGoJsonValue, ht, hf] at h
      all_goals exact ⟨rfl, h⟩
    | _ => cases hk
  | .number n, w => by
    intro r r' hr hr' h
    have hk := kind_eq hryu h
    cases w with
    | number m =>
      obtain ⟨hnum, hr⟩ := number_reads hryu n m r r' hr hr' (by simpa [writeGoJsonValue] using h)
      exact ⟨by rw [Document.map, Document.map, hnum], hr⟩
    | _ => cases hk
  | .string text, w => by
    intro r r' _ _ h
    have hk := kind_eq hryu h
    cases w with
    | string text' =>
      obtain ⟨htext, hr⟩ := writeGoJsonString_reads text text' r r' trivial trivial
        (by simpa [writeGoJsonValue] using h)
      exact ⟨by rw [Document.map, Document.map, show text = text' from htext], hr⟩
    | _ => cases hk
  | .array items, w => by
    intro r r' _ _ h
    have hk := kind_eq hryu h
    cases w with
    | array items' =>
      simp only [writeGoJsonValue, writeItems_eq, List.cons_append, List.append_assoc,
        List.nil_append, List.cons.injEq, true_and] at h
      obtain ⟨hitems, hr⟩ := joined_stop (by decide) (fun _ => by simp; decide)
        (fun _ => by simp; decide) (write_ne_cons hryu (by decide))
        (fun v hv w _ => items_read hryu items v hv w) h
      exact ⟨by rw [Document.map, Document.map, mapItems_eq, mapItems_eq, hitems], hr⟩
    | _ => cases hk
  | .object map, w => by
    intro r r' _ _ h
    have hk := kind_eq hryu h
    cases w with
    | object map' =>
      simp only [writeGoJsonValue, writeMembers_eq, List.cons_append, List.append_assoc,
        List.nil_append, List.cons.injEq, true_and] at h
      obtain ⟨hmap, hr⟩ := joined_stop (by decide) (fun _ => by simp; decide)
        (fun _ => by simp; decide)
        (fun e _ _ heq => by simp [writeMember, writeGoJsonString] at heq)
        (fun e he e' _ => writeMember_reads (members_read hryu map e he e'.2)) h
      exact ⟨by rw [Document.map, Document.map, mapMembers_eq, mapMembers_eq, hmap], hr⟩
    | _ => cases hk

theorem items_read (hryu : Ryu.ReadsNumbers ryu) : ∀ items : List Value, ∀ v ∈ items, ∀ w,
    Reads (writeGoJsonValue ryu) AfterValue (Document.map Number.asF64) v w
  | [] => by simp
  | item :: items => by
    intro v hv
    rcases List.mem_cons.mp hv with heq | hv
    · rw [heq]
      exact fun w => write_reads hryu item w
    · exact items_read hryu items v hv

theorem members_read (hryu : Ryu.ReadsNumbers ryu) :
    ∀ map : List (String × Value), ∀ e ∈ map, ∀ w,
      Reads (writeGoJsonValue ryu) AfterValue (Document.map Number.asF64) e.2 w
  | [] => by simp
  | (key, item) :: map => by
    intro e he
    rcases List.mem_cons.mp he with heq | he
    · rw [heq]
      exact fun w => write_reads hryu item w
    · exact members_read hryu map e he

end

/-! ### Circuits -/

/-- A gate up to how its numbers are written. -/
def gateKey (gate : Gate) : String × Document F64 := (gate.type, Document.map Number.asF64 gate.params)

theorem writeGate_reads (hryu : Ryu.ReadsNumbers ryu) (gate gate' : Gate) :
    Reads (writeGate ryu) (fun _ => True) gateKey gate gate' := by
  intro r r' _ _ h
  simp only [writeGate, List.append_assoc, List.append_cancel_left_eq] at h
  obtain ⟨htype, h⟩ := writeGoJsonString_reads gate.type gate'.type _ _ trivial trivial h
  rw [List.append_cancel_left_eq] at h
  obtain ⟨hparams, h⟩ := write_reads hryu gate.params gate'.params _ _ (by simp; decide)
    (by simp; decide) h
  rw [List.append_cancel_left_eq] at h
  exact ⟨Prod.ext htype hparams, h⟩

theorem writeGate_ne (gate : Gate) (r r' : List Char) : writeGate ryu gate ++ r ≠ ']' :: r' := by
  rw [writeGate, show chars "\x7b\"type\":" = '\x7b' :: chars "\"type\":" from rfl]
  simp

/-- **The signing text determines the circuit**, up to how its numbers are written. -/
theorem circuitSigningJson_inj (hryu : Ryu.ReadsNumbers ryu) {circuit circuit' : List Gate}
    (h : circuitSigningJson ryu circuit = circuitSigningJson ryu circuit') :
    circuit.map gateKey = circuit'.map gateKey :=
  (joined_stop (by decide) (fun _ => trivial) (fun _ => trivial) writeGate_ne
    (fun gate _ gate' _ => writeGate_reads hryu gate gate') (List.cons.inj h).2).1

end Values

end WqcNode.Domain.GoJson
