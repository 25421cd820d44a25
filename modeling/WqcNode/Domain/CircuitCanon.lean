import WqcNode.Lib.Serde
import WqcNode.Domain.Dispatch

/-! # The signing JSON is canonical (`circuit_signing_json` in `domain/p2p.rs`)

The hand-written text is the JSON of a document, so a JSON reader gives the gates back, with every
number replaced by its float64.

* `writeGoJsonValue_eq`: the code's writer is the writer of `JsonText` with Go's escapes and
  numbers.
* `circuitSigningJson_canonical`: the text is read back, what is read has the same text again, and
  two circuits have the same text exactly when they differ in the spelling of numbers only. -/

namespace WqcNode.Domain.CircuitCanon

open WqcNode.Lib WqcNode.Lib.Text WqcNode.Lib.Json WqcNode.Lib.JsonText WqcNode.Lib.Code
open WqcNode.Lib.Serde
open WqcNode.Domain.Models WqcNode.Domain.GoFloat WqcNode.Domain.GoJson WqcNode.Domain.Dispatch

/-! ### The text is that of a document -/

theorem unescape_shortEscape {c x : Char} (h : shortEscape c = some x) : unescape x = some c := by
  unfold shortEscape at h
  split at h <;> cases h <;> rfl

theorem hexNum_hexFour {n : ℕ} (hn : n < 65536) :
    hexNum (Nat.digitChar (n / 4096 % 16)) (Nat.digitChar (n / 256 % 16))
      (Nat.digitChar (n / 16 % 16)) (Nat.digitChar (n % 16)) = some n := by
  have hd : ∀ x : ℕ, x % 16 < 16 := fun x => Nat.mod_lt _ (by norm_num)
  simp only [hexNum, hexVal_digitChar (hd _)]
  congr 1
  omega

/-- What Go writes for a character is read as this character. -/
theorem escapeChar_escapes : Escapes escapeChar := by
  intro c r
  unfold escapeChar
  cases hs : shortEscape c with
  | some x => exact readChars_short (unescape_shortEscape hs) r
  | none =>
    simp only
    split_ifs with hu
    · exact readChars_unicode (hexNum_hexFour (unicodeEscaped_lt hu)) r
    · refine readChars_plain ?_ ?_ ?_ r
      · rintro rfl
        simp [shortEscape] at hs
      · rintro rfl
        simp [shortEscape] at hs
      · simp only [unicodeEscaped, Bool.or_eq_true, decide_eq_true_eq, not_or, not_lt] at hu
        exact hu.2

section Writer

variable (ryu : Ryu)

mutual

/-- The code's writer, with Go's escapes and numbers. -/
theorem writeGoJsonValue_eq : ∀ v : Value,
    writeGoJsonValue ryu v = render escapeChar (fun n => goJsonFloat ryu n.asF64) v
  | .null => by rw [writeGoJsonValue, render]
  | .bool _ => by rw [writeGoJsonValue, render]
  | .number _ => by rw [writeGoJsonValue, render]
  | .string _ => by rw [writeGoJsonValue, render, writeGoJsonString, renderString]
  | .array items => by rw [writeGoJsonValue, render, writeItems_render items]
  | .object members => by rw [writeGoJsonValue, render, writeMembers_render members]

theorem writeItems_render : ∀ items : List Value,
    writeItems ryu items = renderItems escapeChar (fun n => goJsonFloat ryu n.asF64) items
  | [] => by rw [writeItems, renderItems]
  | item :: items => by
    rw [writeItems, renderItems, writeGoJsonValue_eq item, writeItems_render items]

theorem writeMembers_render : ∀ members : List (String × Value),
    writeMembers ryu members = renderMembers escapeChar (fun n => goJsonFloat ryu n.asF64) members
  | [] => by rw [writeMembers, renderMembers]
  | (key, value) :: members => by
    rw [writeMembers, renderMembers, writeGoJsonValue_eq value, writeMembers_render members,
      writeGoJsonString, renderString]

end

/-- A gate as a document. -/
def gateDoc (gate : Gate) : Value := .object [("type", .string gate.type), ("params", gate.params)]

def circuitDoc (circuit : List Gate) : Value := .array (circuit.map gateDoc)

theorem writeGate_eq (gate : Gate) :
    writeGate ryu gate = render escapeChar (fun n => goJsonFloat ryu n.asF64) (gateDoc gate) := by
  have htype : renderString escapeChar "type" = chars "\"type\"" := by decide
  have hparams : renderString escapeChar "params" = chars "\"params\"" := by decide
  have hopen : chars "\x7b\"type\":" = '\x7b' :: (chars "\"type\"" ++ [':']) := rfl
  have hnext : chars ",\"params\":" = ',' :: (chars "\"params\"" ++ [':']) := rfl
  rw [writeGate, gateDoc, render, renderMembers, renderMembers, renderMembers, htype, hparams, hopen,
    hnext, writeGoJsonValue_eq, writeGoJsonString, render, renderString]
  simp [joined]

/-- The signing text is the JSON of the circuit. -/
theorem circuitSigningJson_eq (circuit : List Gate) : circuitSigningJson ryu circuit =
    render escapeChar (fun n => goJsonFloat ryu n.asF64) (circuitDoc circuit) := by
  have hitems : ∀ l : List Gate, l.map (writeGate ryu) =
      renderItems escapeChar (fun n => goJsonFloat ryu n.asF64) (l.map gateDoc) := by
    intro l
    induction l with
    | nil => rw [List.map_nil, List.map_nil, renderItems]
    | cons gate l ih => rw [List.map_cons, List.map_cons, renderItems, ih, writeGate_eq]
  rw [circuitSigningJson, circuitDoc, render, hitems]

end Writer

/-! ### Reading a circuit -/

/-- A zero with a sign. -/
def zeroF64 (neg : Bool) : F64 := Float.Model.ofBits (if neg then 0x8000000000000000 else 0)

/-- The float64 a numeral is read as. -/
def floatOf (ryu : Ryu) (d : Decimal) : F64 :=
  if d.magnitude = 0 then zeroF64 d.neg else ryu.parse d.neg d.magnitude

/-- A gate, `Gate` in `domain/models.rs`, with numbers in `ν`. -/
def gateOf {ν : Type} (doc : Document ν) : Option (String × Document ν) :=
  match fieldsOnce ["type", "params"] doc with
  | some [type, params] => do
    return (← required textOf type, ← params)
  | _ => none

/-- The gates a JSON reader finds in the bytes, with every number as its float64. -/
def parseCircuit (ryu : Ryu) (bytes : Bytes) : Option (List (String × Document F64)) :=
  (fromSlice bytes).bind fun doc => listOf gateOf (doc.map (floatOf ryu))

theorem isZeroF64_zeroF64 (neg : Bool) :
    isZeroF64 (zeroF64 neg) = true ∧ isSignNegative (zeroF64 neg) = neg := by
  cases neg <;> decide

/-- A float's text is a numeral that is read as the float. -/
theorem goJsonFloat_numeral {ryu : Ryu} {f : F64} (hf : isZeroF64 f = false → ryu.ReadsBack f) :
    ∃ d : Decimal, goJsonFloat ryu f = d.text ∧ d.IsJson ∧ floatOf ryu d = f := by
  obtain ⟨d, hd, htext, ⟨hz, hmag, hneg⟩ | ⟨-, hpos, hparse⟩⟩ := goJsonFloat_decimal hf
  · refine ⟨d, htext, hd, ?_⟩
    rw [floatOf, if_pos hmag, hneg]
    obtain ⟨hzero, hsign⟩ := isZeroF64_zeroF64 (isSignNegative f)
    exact eq_of_zeros hzero hz hsign
  · exact ⟨d, htext, hd, by rw [floatOf, if_neg hpos.ne', hparse]⟩

theorem gateOf_gateDoc (gate : Gate) :
    gateOf ((gateDoc gate).map Number.asF64) = some (gateKey gate) := by
  have hdoc : (gateDoc gate).map Number.asF64 = record
      [("type", some (.string gate.type)), ("params", some (gate.params.map Number.asF64))] := by
    simp [gateDoc, record, present, Document.map, mapMembers]
  have hfields := fieldsOnce_record [("type", some (Document.string gate.type)),
    ("params", some (gate.params.map Number.asF64))] (by simp)
  simp only [List.map_cons, List.map_nil] at hfields
  rw [hdoc, gateOf]
  simp only [hfields]
  rfl

/-- **The circuit is read back** from the bytes that are signed. -/
theorem parseCircuit_circuitSigningJson {ryu : Ryu} (hryu : Ryu.ReadsNumbers ryu)
    (circuit : List Gate) :
    parseCircuit ryu (textBytes (circuitSigningJson ryu circuit)) = some (circuit.map gateKey) := by
  choose numeral htext hjson hfloat using fun n : Number => goJsonFloat_numeral (hryu n)
  have hparse := parse_render escapeChar_escapes (v := circuitDoc circuit)
    fun n _ => ⟨htext n, hjson n⟩
  have hfloats : floatOf ryu ∘ numeral = Number.asF64 := funext hfloat
  have hgates : ((circuit.map gateDoc).map (Document.map Number.asF64)).mapM gateOf =
      some (circuit.map gateKey) := by
    rw [List.map_map]
    exact mapM_map gateKey fun gate _ => gateOf_gateDoc gate
  rw [parseCircuit, fromSlice, textBytes, ofUtf8_utf8, Option.bind_some, String.toList_ofList,
    circuitSigningJson_eq, hparse, Option.bind_some, Document.map_map, hfloats, circuitDoc,
    Document.map, mapItems_eq, listOf, hgates]

/-! ### Canonical -/

/-- The text depends on the float64s of the numbers only. -/
theorem circuitSigningJson_of_gateKey {ryu : Ryu} {circuit circuit' : List Gate}
    (h : circuit.map gateKey = circuit'.map gateKey) :
    circuitSigningJson ryu circuit = circuitSigningJson ryu circuit' := by
  have hdoc : ∀ l : List Gate, (circuitDoc l).map Number.asF64 =
      .array ((l.map gateKey).map fun k => .object [("type", .string k.1), ("params", k.2)]) := by
    intro l
    rw [circuitDoc, Document.map, mapItems_eq, List.map_map, List.map_map]
    congr 1
  have htext : ∀ l : List Gate, circuitSigningJson ryu l =
      render escapeChar (goJsonFloat ryu) ((circuitDoc l).map Number.asF64) := by
    intro l
    rw [circuitSigningJson_eq, render_map]
  rw [htext, htext, hdoc, hdoc, h]

/-- **Main result.** The signing bytes are read back as the gates with every number replaced by its
float64; whatever circuit was read has the same bytes again; and two circuits have the same bytes
exactly when they are equal up to the spelling of numbers. -/
theorem circuitSigningJson_canonical {ryu : Ryu} (hryu : Ryu.ReadsNumbers ryu)
    (circuit : List Gate) :
    parseCircuit ryu (textBytes (circuitSigningJson ryu circuit)) = some (circuit.map gateKey) ∧
    (∀ parsed : List Gate,
      parseCircuit ryu (textBytes (circuitSigningJson ryu circuit)) = some (parsed.map gateKey) →
      textBytes (circuitSigningJson ryu parsed) = textBytes (circuitSigningJson ryu circuit)) ∧
    ∀ circuit' : List Gate,
      textBytes (circuitSigningJson ryu circuit) = textBytes (circuitSigningJson ryu circuit') ↔
        circuit.map gateKey = circuit'.map gateKey := by
  have hread := parseCircuit_circuitSigningJson hryu
  refine ⟨hread circuit, fun parsed hparsed => ?_, fun circuit' => ⟨fun h => ?_, fun h => ?_⟩⟩
  · have hkeys := Option.some.inj (hparsed.symm.trans (hread circuit))
    rw [circuitSigningJson_of_gateKey hkeys]
  · have hparsed := hread circuit
    rw [h, hread circuit'] at hparsed
    exact (Option.some.inj hparsed).symm
  · rw [circuitSigningJson_of_gateKey h]

/-- A gate whose type needs escapes, with nested params. -/
def oddGate : Gate :=
  ⟨"a\"<\n", .object [("angle", .array [.number (.posInt 1), .null, .bool true]), ("é", .string "\\")]⟩

/-- A circuit that is read back from its signing bytes. -/
theorem circuitSigningJson_canonical_oddGate :
    parseCircuit sampleCodec.ryu (textBytes (circuitSigningJson sampleCodec.ryu [oddGate])) =
        some [gateKey oddGate] ∧
      circuitSigningJson sampleCodec.ryu [oddGate] =
        chars "[\x7b\"type\":\"a\\\"\\u003c\\n\",\"params\":\x7b\"angle\":[1,null,true],\"é\":\"\\\\\"\x7d\x7d]" :=
  ⟨(circuitSigningJson_canonical sampleCodec_readsBack.ryu [oddGate]).1, by decide +kernel⟩

end WqcNode.Domain.CircuitCanon
