import WqcNode.Lib.Serde
import WqcNode.Lib.JsonKeys
import WqcNode.Domain.Observables

/-! # The result message (`domain/result.rs`)

The message is put together from string templates. Ids, texts, the proof and the work report go
through `serde_json`; the keys of counts and expectation values are put between quotes as they are.

* `toJsonText_eq`: the text is that of a document whose keys are written as they are.
* `messageOf_messageDoc`: the fields are read back from this document. -/

namespace WqcNode.Domain.Result

open WqcNode.Lib WqcNode.Lib.Text WqcNode.Lib.Json WqcNode.Lib.JsonText WqcNode.Lib.Code
open WqcNode.Lib.Serde WqcNode.Lib.JsonKeys
open WqcNode.Domain.Models WqcNode.Domain.Observables

/-! ### The source's functions -/

/-- `ResultMessage` mirrors the orchestrator P2P result stream payload. -/
structure ResultMessage where
  subTaskId : String
  nodeId : String
  resultType : String
  complexResult : ComplexResult
  sampleResult : Option SampleResult
  expectationResult : Option ExpectationResult
  proof : Proof
  workReport : Option WorkReport
  error : Option String
deriving DecidableEq

/-- The numbers of a message: unsigned integers, and floats in `format_go_float`. -/
inductive Num
  | int (n : ℕ)
  | float (f : F64)

section Text

variable (ft : FloatText)

def numText : Num → List Char
  | .int n => Nat.toDigits 10 n
  | .float f => formatGoFloat ft f

/-- `serde_json::to_string` of a text. -/
def jsonString (text : String) : List Char := renderString escape text

/-- `serde_json::to_string` of a record. -/
def jsonRecord (fields : List (String × Option (Document Num))) : List Char :=
  render escape (numText ft) (record fields)

/-- `skip_serializing_if = "String::is_empty"`. -/
def skipEmpty (text : String) : Option (Document Num) :=
  if text = "" then none else some (.string text)

def publicInputsFields (p : PublicInputs) : List (String × Option (Document Num)) :=
  [("circuit_id", some (.string p.circuitId)), ("sub_task_id", some (.string p.subTaskId)),
    ("node_id", some (.string p.nodeId)), ("slice_id", some (.string p.sliceId)),
    ("output_result_hash", some (.string p.outputResultHash)),
    ("measurement_spec_hash", skipEmpty p.measurementSpecHash),
    ("security_level", skipEmpty p.securityLevel)]

def proofFields (p : Proof) : List (String × Option (Document Num)) :=
  [("public_inputs", some (record (publicInputsFields p.publicInputs))),
    ("stark_proof_b64", some (.string p.starkProofB64))]

def workReportFields (w : WorkReport) : List (String × Option (Document Num)) :=
  [("trace_rows", some (.number (.int w.traceRows.toNat))),
    ("gate_count", some (.number (.int w.gateCount.toNat))),
    ("compute_wall_ms", some (.number (.int w.computeWallMs.toNat))),
    ("prove_wall_ms", some (.number (.int w.proveWallMs.toNat))),
    ("proof_bytes", some (.number (.int w.proofBytes.toNat))),
    ("tn_backend", some (.string w.tnBackend)),
    ("vram_peak_bytes", some (.number (.int w.vramPeakBytes.toNat))),
    ("proof_scope", skipEmpty w.proofScope)]

/-- Matches orchestrator `ComplexResult.MarshalJSON` for hash verification. -/
def formatGoComplexResultJson (value : ComplexResult) : List Char :=
  chars "\x7b\"real\":" ++ (formatGoFloat ft value.real ++ (chars ",\"imag\":" ++
    (formatGoFloat ft value.imag ++ ['\x7d'])))

/-- The loop's body: a comma unless nothing has been pushed yet, then the pair. -/
def pushPair (pairs pair : List Char) : List Char :=
  (if pairs.isEmpty then pairs else pairs ++ [',']) ++ pair

/-- Matches orchestrator canonical JSON for sample-result hashing. -/
def formatGoSampleResultJson (value : SampleResult) : List Char :=
  let countsPairs := value.counts.foldl (fun pairs e =>
    pushPair pairs ('"' :: (e.1.toList ++ '"' :: ':' :: Nat.toDigits 10 e.2.toNat))) []
  chars "\x7b\"counts\":\x7b" ++ (countsPairs ++ (chars "\x7d,\"shots\":" ++
    (Nat.toDigits 10 value.shots.toNat ++ ['\x7d'])))

/-- Matches orchestrator canonical JSON for expectation-result hashing. -/
def formatGoExpectationResultJson (value : ExpectationResult) : List Char :=
  let pairs := value.values.foldl (fun pairs e =>
    pushPair pairs ('"' :: (e.1.toList ++ '"' :: ':' :: formatGoComplexResultJson ft e.2))) []
  chars "\x7b\"values\":\x7b" ++ (pairs ++ chars "\x7d\x7d")

def failureJsonText (subTaskId nodeId error : String) : List Char :=
  chars "\x7b\"sub_task_id\":" ++ (jsonString subTaskId ++ (chars ",\"node_id\":" ++
    (jsonString nodeId ++ (chars ",\"error\":" ++ (jsonString error ++ ['\x7d'])))))

/-- A part that may be absent. -/
def orNull {α : Type} (text : α → List Char) : Option α → List Char
  | some a => text a
  | none => chars "null"

def ResultMessage.toJsonText (m : ResultMessage) : List Char :=
  chars "\x7b\"sub_task_id\":" ++ (jsonString m.subTaskId ++ (chars ",\"node_id\":" ++
    (jsonString m.nodeId ++ (chars ",\"result_type\":" ++ (jsonString m.resultType ++
    (chars ",\"complex_result\":" ++ (formatGoComplexResultJson ft m.complexResult ++
    (chars ",\"sample_result\":" ++ (orNull formatGoSampleResultJson m.sampleResult ++
    (chars ",\"expectation_result\":" ++
      (orNull (formatGoExpectationResultJson ft) m.expectationResult ++
    (chars ",\"proof\":" ++ (jsonRecord ft (proofFields m.proof) ++
    (chars ",\"work_report\":" ++
      (orNull (fun w => jsonRecord ft (workReportFields w)) m.workReport ++
    (chars ",\"error\":" ++ (orNull jsonString m.error ++ ['\x7d'])))))))))))))))))

end Text

/-! ### The documents -/

def complexDoc (c : ComplexResult) : Document Num :=
  .object [("real", .number (.float c.real)), ("imag", .number (.float c.imag))]

def countMember (e : String × UInt64) : String × Document Num := (e.1, .number (.int e.2.toNat))

def sampleDoc (s : SampleResult) : Document Num :=
  .object [("counts", .object (s.counts.map countMember)), ("shots", .number (.int s.shots.toNat))]

def valueMember (e : String × ComplexResult) : String × Document Num := (e.1, complexDoc e.2)

def expectationDoc (x : ExpectationResult) : Document Num :=
  .object [("values", .object (x.values.map valueMember))]

def failureDoc (subTaskId nodeId error : String) : Document Num :=
  .object [("sub_task_id", .string subTaskId), ("node_id", .string nodeId), ("error", .string error)]

def nullOr {α : Type} (doc : α → Document Num) : Option α → Document Num
  | some a => doc a
  | none => .null

/-- The message as a document. -/
def messageDoc (m : ResultMessage) : Document Num :=
  .object [("sub_task_id", .string m.subTaskId), ("node_id", .string m.nodeId),
    ("result_type", .string m.resultType), ("complex_result", complexDoc m.complexResult),
    ("sample_result", nullOr sampleDoc m.sampleResult),
    ("expectation_result", nullOr expectationDoc m.expectationResult),
    ("proof", record (proofFields m.proof)),
    ("work_report", nullOr (fun w => record (workReportFields w)) m.workReport),
    ("error", nullOr .string m.error)]

/-! ### The text is that of the document -/

/-- The pairs that are pushed end up with commas between them. -/
theorem foldl_pushPair {α : Type} {f : α → List Char} (hf : ∀ a, f a ≠ []) :
    ∀ l : List α, l.foldl (fun pairs a => pushPair pairs (f a)) [] = joined ',' (l.map f)
  | [] => rfl
  | a :: l => by
    have hrest : ∀ (l : List α) (pairs : List Char), pairs ≠ [] →
        l.foldl (fun pairs a => pushPair pairs (f a)) pairs =
          pairs ++ (l.map f).flatMap (',' :: ·) := by
      intro l
      induction l with
      | nil => simp
      | cons b l ih =>
        intro pairs hne
        rw [List.foldl_cons, ih _ (by simp [pushPair, hf b]), pushPair,
          if_neg (by simpa using hne), List.map_cons, List.flatMap_cons]
        simp
    rw [List.foldl_cons, hrest l _ (by simp [pushPair, hf a]), List.map_cons, joined]
    rfl

section Render

variable (ft : FloatText)

theorem renderRaw_complexDoc (c : ComplexResult) :
    renderRaw escape (numText ft) (complexDoc c) = formatGoComplexResultJson ft c := by
  simp [complexDoc, renderRaw, renderRawMembers, rawString, joined, numText,
    formatGoComplexResultJson, chars]

theorem renderRawMembers_map {α : Type} (member : α → String × Document Num) :
    ∀ l : List α, renderRawMembers escape (numText ft) (l.map member) =
      l.map fun a => rawString (member a).1 ++ ':' :: renderRaw escape (numText ft) (member a).2
  | [] => by rw [List.map_nil, List.map_nil, renderRawMembers]
  | a :: l => by
    rw [List.map_cons, List.map_cons, renderRawMembers, renderRawMembers_map member l]

theorem renderRaw_sampleDoc (s : SampleResult) :
    renderRaw escape (numText ft) (sampleDoc s) = formatGoSampleResultJson s := by
  have hcounts : renderRawMembers escape (numText ft) (s.counts.map countMember) =
      s.counts.map fun e => '"' :: (e.1.toList ++ '"' :: ':' :: Nat.toDigits 10 e.2.toNat) := by
    rw [renderRawMembers_map]
    simp [countMember, rawString, renderRaw, numText]
  rw [formatGoSampleResultJson, foldl_pushPair (by simp), ← hcounts]
  simp [sampleDoc, renderRaw, renderRawMembers, rawString, joined, numText, chars]

theorem renderRaw_expectationDoc (x : ExpectationResult) :
    renderRaw escape (numText ft) (expectationDoc x) = formatGoExpectationResultJson ft x := by
  have hvalues : renderRawMembers escape (numText ft) (x.values.map valueMember) =
      x.values.map fun e =>
        '"' :: (e.1.toList ++ '"' :: ':' :: formatGoComplexResultJson ft e.2) := by
    rw [renderRawMembers_map]
    simp [valueMember, rawString, renderRaw_complexDoc]
  rw [formatGoExpectationResultJson, foldl_pushPair (by simp), ← hvalues]
  simp [expectationDoc, renderRaw, renderRawMembers, rawString, joined, chars]

theorem cleanKeys_skipEmpty {text : String} {doc : Document Num} (h : skipEmpty text = some doc) :
    CleanKeys (keys doc) := by
  unfold skipEmpty at h
  split_ifs at h
  cases h
  simp [keys]

theorem cleanKeys_publicInputs (p : PublicInputs) :
    CleanKeys (keys (record (publicInputsFields p))) := by
  refine cleanKeys_record (cleanKeys_of_all ?_) ?_
  · simp only [publicInputsFields, List.map_cons, List.map_nil]
    decide
  · simpa [publicInputsFields, keys] using
      ⟨fun _ => cleanKeys_skipEmpty, fun _ => cleanKeys_skipEmpty⟩

theorem cleanKeys_proof (p : Proof) : CleanKeys (keys (record (proofFields p))) := by
  refine cleanKeys_record (cleanKeys_of_all ?_) ?_
  · simp only [proofFields, List.map_cons, List.map_nil]
    decide
  · simpa [proofFields, keys] using cleanKeys_publicInputs p.publicInputs

theorem cleanKeys_workReport (w : WorkReport) : CleanKeys (keys (record (workReportFields w))) := by
  refine cleanKeys_record (cleanKeys_of_all ?_) ?_
  · simp only [workReportFields, List.map_cons, List.map_nil]
    decide
  · simpa [workReportFields, keys] using fun _ => cleanKeys_skipEmpty

theorem failureJsonText_eq (num : Num → List Char) (subTaskId nodeId error : String) :
    renderRaw escape num (failureDoc subTaskId nodeId error) =
      failureJsonText subTaskId nodeId error := by
  simp [failureDoc, renderRaw, renderRawMembers, rawString, joined, failureJsonText, jsonString,
    chars]

theorem renderRaw_nullOr {α : Type} {doc : α → Document Num} {text : α → List Char}
    (h : ∀ a, renderRaw escape (numText ft) (doc a) = text a) (x : Option α) :
    renderRaw escape (numText ft) (nullOr doc x) = orNull text x := by
  cases x with
  | none => rw [nullOr, orNull, renderRaw]
  | some a => exact h a

/-- **The text of a message is that of its document**, with the keys as they are. -/
theorem toJsonText_eq (m : ResultMessage) :
    m.toJsonText ft = renderRaw escape (numText ft) (messageDoc m) := by
  have hproof : renderRaw escape (numText ft) (record (proofFields m.proof)) =
      jsonRecord ft (proofFields m.proof) := renderRaw_eq escape_plain (cleanKeys_proof _)
  have hreport : ∀ w, renderRaw escape (numText ft) (record (workReportFields w)) =
      jsonRecord ft (workReportFields w) := fun w => renderRaw_eq escape_plain (cleanKeys_workReport w)
  have herror : ∀ e, renderRaw escape (numText ft) (.string e) = jsonString e := fun e => by
    rw [renderRaw, jsonString]
  simp only [messageDoc, renderRaw, renderRawMembers, renderRaw_complexDoc,
    renderRaw_nullOr ft (renderRaw_sampleDoc ft), renderRaw_nullOr ft (renderRaw_expectationDoc ft),
    renderRaw_nullOr ft hreport, renderRaw_nullOr ft herror, hproof]
  simp [ResultMessage.toJsonText, rawString, joined, jsonString, chars]

end Render

/-! ### Reading a message -/

section Reading

variable (ft : FloatText)

def floatOf : Document Decimal → Option F64
  | .number d => some (ft.parse d.text)
  | _ => none

def complexOf (doc : Document Decimal) : Option ComplexResult :=
  match fieldsLast ["real", "imag"] doc with
  | some [real, imag] => do
    return ⟨← required (floatOf ft) real, ← required (floatOf ft) imag⟩
  | _ => none

def sampleOf (doc : Document Decimal) : Option SampleResult :=
  match fieldsLast ["counts", "shots"] doc with
  | some [counts, shots] => do
    return ⟨← required (mapOf u64Of) counts, ← required u64Of shots⟩
  | _ => none

def expectationOf (doc : Document Decimal) : Option ExpectationResult :=
  match fieldsLast ["values"] doc with
  | some [values] => do return ⟨← required (mapOf (complexOf ft)) values⟩
  | _ => none

def publicInputsOf (doc : Document Decimal) : Option PublicInputs :=
  match fieldsLast ["circuit_id", "sub_task_id", "node_id", "slice_id", "output_result_hash",
    "measurement_spec_hash", "security_level"] doc with
  | some [circuitId, subTaskId, nodeId, sliceId, outputResultHash, measurementSpecHash,
      securityLevel] => do
    return ⟨← required textOf circuitId, ← required textOf subTaskId, ← required textOf nodeId,
      ← required textOf sliceId, ← required textOf outputResultHash,
      ← orDefault "" textOf measurementSpecHash, ← orDefault "" textOf securityLevel⟩
  | _ => none

/-- `serde_json::from_value` of a proof. -/
def proofOf (doc : Document Decimal) : Option Proof :=
  match fieldsLast ["public_inputs", "stark_proof_b64"] doc with
  | some [publicInputs, starkProofB64] => do
    return ⟨← required publicInputsOf publicInputs, ← required textOf starkProofB64⟩
  | _ => none

def workReportOf (doc : Document Decimal) : Option WorkReport :=
  match fieldsLast ["trace_rows", "gate_count", "compute_wall_ms", "prove_wall_ms", "proof_bytes",
    "tn_backend", "vram_peak_bytes", "proof_scope"] doc with
  | some [traceRows, gateCount, computeWallMs, proveWallMs, proofBytes, tnBackend, vramPeakBytes,
      proofScope] => do
    return ⟨← required u64Of traceRows, ← required u32Of gateCount, ← required u64Of computeWallMs,
      ← required u64Of proveWallMs, ← required u64Of proofBytes, ← orDefault "" textOf tnBackend,
      ← orDefault 0 u64Of vramPeakBytes, ← orDefault "" textOf proofScope⟩
  | _ => none

/-- The fields of a message. -/
def messageOf (doc : Document Decimal) : Option ResultMessage :=
  match fieldsLast ["sub_task_id", "node_id", "result_type", "complex_result", "sample_result",
    "expectation_result", "proof", "work_report", "error"] doc with
  | some [subTaskId, nodeId, resultType, complexResult, sampleResult, expectationResult, proof,
      workReport, error] => do
    return ⟨← required textOf subTaskId, ← required textOf nodeId, ← required textOf resultType,
      ← required (complexOf ft) complexResult, ← nullable sampleOf sampleResult,
      ← nullable (expectationOf ft) expectationResult, ← required proofOf proof,
      ← nullable workReportOf workReport, ← nullable textOf error⟩
  | _ => none

/-! ### Numbers are read back -/

/-- The numeral a text is. -/
def readNumeral (text : List Char) : Decimal :=
  ((readNumber text).map (·.1)).getD (Decimal.ofNat 0)

def numNumeral : Num → Decimal
  | .int n => .ofNat n
  | .float f => readNumeral (formatGoFloat ft f)

/-- Rust's text of a float is a JSON numeral that is read back; `{:.1}` of a whole number. -/
structure WritesJson (f : F64) : Prop where
  display : ∃ d : Decimal, d.IsJson ∧ ft.display f = d.text ∧ ft.parse d.text = f
  fixedOne : isWhole f = true →
    ∃ d : Decimal, d.IsJson ∧ ft.fixedOne f = d.text ∧ ft.parse d.text = f

variable {ft}

theorem formatGoFloat_numeral {f : F64} (h : WritesJson ft f) :
    formatGoFloat ft f = (numNumeral ft (.float f)).text ∧ (numNumeral ft (.float f)).IsJson ∧
      ft.parse (numNumeral ft (.float f)).text = f := by
  obtain ⟨d, hjson, htext, hparse⟩ :
      ∃ d : Decimal, d.IsJson ∧ formatGoFloat ft f = d.text ∧ ft.parse d.text = f := by
    unfold formatGoFloat
    split_ifs with hwhole
    · exact h.fixedOne hwhole
    · exact h.display
  have hread := readNumber_text hjson (ends_nil _)
  rw [List.append_nil] at hread
  have hnum : numNumeral ft (.float f) = d := by
    rw [numNumeral, readNumeral, htext, hread]
    rfl
  rw [hnum]
  exact ⟨htext, hjson, hparse⟩

/-- A number with a JSON text: every integer, and a float that is not infinite or NaN. -/
def Num.isFinite : Num → Bool
  | .int _ => true
  | .float f => Json.isFinite f

/-- What a numeral is read as. -/
def Num.ReadAs (ft : FloatText) : Num → Decimal → Prop
  | .int n, d => natOf (n + 1) (.number d) = some n
  | .float f, d => ft.parse d.text = f

variable (hft : ∀ f, isFinite f = true → WritesJson ft f)
include hft

theorem numerals_of_finite {ns : List Num} (h : ∀ n ∈ ns, n.isFinite = true) :
    Numerals (numText ft) (numNumeral ft) ns := by
  intro n hn
  cases n with
  | int n => exact ⟨(Decimal.ofNat_text n).symm, Decimal.ofNat_isJson n⟩
  | float f =>
    obtain ⟨htext, hjson, -⟩ := formatGoFloat_numeral (hft f (h _ hn))
    exact ⟨htext, hjson⟩

theorem readAs_numeral {n : Num} (h : n.isFinite = true) : n.ReadAs ft (numNumeral ft n) := by
  cases n with
  | int n => exact natOf_ofNat (Nat.lt_succ_self n)
  | float f => exact (formatGoFloat_numeral (hft f h)).2.2

/-! ### The message is read back -/

/-- Neither part is infinite or NaN. -/
def finiteComplex (c : ComplexResult) : Bool := isFinite c.real && isFinite c.imag

theorem complexOf_complexDoc {c : ComplexResult} (h : finiteComplex c = true) :
    complexOf ft ((complexDoc c).map (numNumeral ft)) = some c := by
  rw [finiteComplex, Bool.and_eq_true] at h
  have hreal := (formatGoFloat_numeral (hft c.real h.1)).2.2
  have himag := (formatGoFloat_numeral (hft c.imag h.2)).2.2
  simp [complexDoc, complexOf, Document.map, mapMembers, fieldsLast, last, required, floatOf, hreal,
    himag]

omit hft in
theorem mapOf_map {α β : Type} (member : α → String × Document Num) (key : α → String × β)
    {read : Document Decimal → Option β} {l : List α}
    (h : ∀ a ∈ l, (member a).1 = (key a).1 ∧
      read ((member a).2.map (numNumeral ft)) = some (key a).2) :
    mapOf read ((Document.object (l.map member)).map (numNumeral ft)) = some (l.map key) := by
  rw [Document.map, mapMembers_eq, mapOf, List.map_map]
  refine mapM_map key fun a ha => ?_
  obtain ⟨hname, hvalue⟩ := h a ha
  simp only [Function.comp_apply, hvalue, Option.map_some, hname]

omit hft in
theorem sampleOf_sampleDoc (s : SampleResult) :
    sampleOf ((sampleDoc s).map (numNumeral ft)) = some s := by
  have hcounts : mapOf u64Of ((Document.object (s.counts.map countMember)).map (numNumeral ft)) =
      some s.counts := by
    rw [mapOf_map countMember id (by simp [countMember, Document.map, numNumeral]), List.map_id]
  rw [Document.map] at hcounts
  simp [sampleDoc, sampleOf, Document.map, mapMembers, fieldsLast, last, required, hcounts,
    numNumeral]

theorem expectationOf_expectationDoc {x : ExpectationResult}
    (h : ∀ e ∈ x.values, finiteComplex e.2 = true) :
    expectationOf ft ((expectationDoc x).map (numNumeral ft)) = some x := by
  have hvalues : mapOf (complexOf ft)
      ((Document.object (x.values.map valueMember)).map (numNumeral ft)) = some x.values := by
    rw [mapOf_map valueMember id fun e he => ⟨rfl, complexOf_complexDoc hft (h e he)⟩, List.map_id]
  rw [Document.map] at hvalues
  simp [expectationDoc, expectationOf, Document.map, mapMembers, fieldsLast, last, required, hvalues]

omit hft in
theorem orDefault_skipEmpty (text : String) :
    orDefault "" textOf ((skipEmpty text).map (Document.map (numNumeral ft))) = some text := by
  unfold skipEmpty
  split_ifs with h
  · exact congrArg some h.symm
  · rfl

omit hft in
theorem publicInputsOf_record (p : PublicInputs) :
    publicInputsOf ((record (publicInputsFields p)).map (numNumeral ft)) = some p := by
  have hfields := fieldsLast_record
    ((publicInputsFields p).map fun e => (e.1, e.2.map (Document.map (numNumeral ft))))
    (by simp [publicInputsFields])
  simp only [publicInputsFields, List.map_cons, List.map_nil, Option.map_some, Document.map] at hfields
  rw [map_record, publicInputsOf]
  simp only [publicInputsFields, List.map_cons, List.map_nil, Option.map_some, Document.map, hfields,
    orDefault_skipEmpty, required, Option.bind_some, textOf]
  rfl

omit hft in
theorem proofOf_record (p : Proof) :
    proofOf ((record (proofFields p)).map (numNumeral ft)) = some p := by
  have hfields := fieldsLast_record
    ((proofFields p).map fun e => (e.1, e.2.map (Document.map (numNumeral ft))))
    (by simp [proofFields])
  simp only [proofFields, List.map_cons, List.map_nil, Option.map_some] at hfields
  rw [map_record, proofOf]
  simp only [proofFields, List.map_cons, List.map_nil, Option.map_some, hfields, required,
    Option.bind_some, publicInputsOf_record]
  rfl

omit hft in
theorem workReportOf_record (w : WorkReport) :
    workReportOf ((record (workReportFields w)).map (numNumeral ft)) = some w := by
  have hfields := fieldsLast_record
    ((workReportFields w).map fun e => (e.1, e.2.map (Document.map (numNumeral ft))))
    (by simp [workReportFields])
  simp only [workReportFields, List.map_cons, List.map_nil, Option.map_some, Document.map, numNumeral]
    at hfields
  rw [map_record, workReportOf]
  simp only [workReportFields, List.map_cons, List.map_nil, Option.map_some, Document.map, numNumeral,
    hfields, orDefault_skipEmpty, required, Option.bind_some, u64Of_ofNat, u32Of_ofNat,
    orDefault_some, textOf]
  rfl

/-- The floats of a message are neither infinite nor NaN. -/
structure ResultMessage.Finite (m : ResultMessage) : Prop where
  complexResult : finiteComplex m.complexResult = true
  expectationResult : ∀ x ∈ m.expectationResult, ∀ e ∈ x.values, finiteComplex e.2 = true

omit hft in
theorem nullable_nullOr {α : Type} (doc : α → Document Num) {read : Document Decimal → Option α}
    {x : Option α} (hnull : ∀ a ∈ x, (doc a).map (numNumeral ft) ≠ .null)
    (h : ∀ a ∈ x, read ((doc a).map (numNumeral ft)) = some a) :
    nullable read (some ((nullOr doc x).map (numNumeral ft))) = some x := by
  cases x with
  | none => rfl
  | some a =>
    have hne := hnull a rfl
    rw [nullOr]
    unfold nullable
    split
    next heq => cases heq
    next heq => exact absurd (Option.some.inj heq) hne
    next doc' _ heq =>
      rw [← Option.some.inj heq, h a rfl]
      rfl

/-- **The fields of a message are read back** from its document. -/
theorem messageOf_messageDoc {m : ResultMessage} (h : m.Finite) :
    messageOf ft ((messageDoc m).map (numNumeral ft)) = some m := by
  have hsample : nullable sampleOf (some ((nullOr sampleDoc m.sampleResult).map (numNumeral ft))) =
      some m.sampleResult :=
    nullable_nullOr sampleDoc (fun _ _ => by simp [sampleDoc, Document.map])
      fun s _ => sampleOf_sampleDoc s
  have hexpect : nullable (expectationOf ft)
      (some ((nullOr expectationDoc m.expectationResult).map (numNumeral ft))) =
      some m.expectationResult :=
    nullable_nullOr expectationDoc (fun _ _ => by simp [expectationDoc, Document.map])
      fun x hx => expectationOf_expectationDoc hft (h.expectationResult x hx)
  have hreport : nullable workReportOf
      (some ((nullOr (fun w => record (workReportFields w)) m.workReport).map (numNumeral ft))) =
      some m.workReport :=
    nullable_nullOr _ (fun _ _ => by simp [record, Document.map]) fun w _ => workReportOf_record w
  have herror : nullable textOf (some ((nullOr .string m.error).map (numNumeral ft))) =
      some m.error := nullable_nullOr _ (fun _ _ => by simp [Document.map]) fun e _ => rfl
  have hcomplex := complexOf_complexDoc hft h.complexResult
  simp [messageDoc, messageOf, Document.map, mapMembers, fieldsLast, last, hsample, hexpect, hreport,
    herror, required, hcomplex, proofOf_record, textOf]

end Reading

/-! ### Numbers and keys of a message -/

theorem finite_complexDoc {c : ComplexResult} (h : finiteComplex c = true) :
    ∀ n ∈ (complexDoc c).numbers, n.isFinite = true := by
  rw [finiteComplex, Bool.and_eq_true] at h
  simpa [complexDoc, Document.numbers, numbersOfMembers, Num.isFinite] using h

theorem finite_record {fields : List (String × Option (Document Num))}
    (h : ∀ f ∈ fields, ∀ doc ∈ f.2, ∀ n ∈ doc.numbers, n.isFinite = true) :
    ∀ n ∈ (record fields).numbers, n.isFinite = true := by
  intro n hn
  rw [record, Document.numbers, mem_numbersOfMembers] at hn
  obtain ⟨e, he, hn⟩ := hn
  obtain ⟨f, hf, hfe⟩ := List.mem_filterMap.mp he
  obtain ⟨doc, hdoc, rfl⟩ := Option.map_eq_some_iff.mp hfe
  exact h f hf doc hdoc n hn

theorem finite_skipEmpty {text : String} {doc : Document Num} (h : skipEmpty text = some doc) :
    ∀ n ∈ doc.numbers, n.isFinite = true := by
  unfold skipEmpty at h
  split_ifs at h
  cases h
  simp [Document.numbers]

theorem finite_proof (p : Proof) : ∀ n ∈ (record (proofFields p)).numbers, n.isFinite = true := by
  refine finite_record ?_
  simp only [proofFields, List.forall_mem_cons, Option.mem_some_iff, forall_eq']
  refine ⟨finite_record ?_, by simp [Document.numbers]⟩
  simpa [publicInputsFields, Document.numbers] using
    ⟨fun _ => finite_skipEmpty, fun _ => finite_skipEmpty⟩

theorem finite_workReport (w : WorkReport) :
    ∀ n ∈ (record (workReportFields w)).numbers, n.isFinite = true := by
  refine finite_record ?_
  simpa [workReportFields, Document.numbers, Num.isFinite] using fun _ => finite_skipEmpty

theorem finite_nullOr {α : Type} {doc : α → Document Num} {x : Option α}
    (h : ∀ a ∈ x, ∀ n ∈ (doc a).numbers, n.isFinite = true) :
    ∀ n ∈ (nullOr doc x).numbers, n.isFinite = true := by
  cases x with
  | none => simp [nullOr, Document.numbers]
  | some a => exact h a rfl

theorem finite_messageDoc {m : ResultMessage} (h : m.Finite) :
    ∀ n ∈ (messageDoc m).numbers, n.isFinite = true := by
  have hsample : ∀ s : SampleResult, ∀ n ∈ (sampleDoc s).numbers, n.isFinite = true := by
    intro s n hn
    simp only [sampleDoc, Document.numbers, numbersOfMembers, List.mem_append, mem_numbersOfMembers,
      List.mem_map, countMember] at hn
    rcases hn with ⟨e, ⟨c, -, rfl⟩, hn⟩ | hn
    · simp only [Document.numbers, List.mem_singleton] at hn
      rw [hn]
      rfl
    · simp only [List.mem_singleton, List.not_mem_nil, or_false] at hn
      rw [hn]
      rfl
  have hexpect : ∀ x ∈ m.expectationResult, ∀ n ∈ (expectationDoc x).numbers,
      n.isFinite = true := by
    intro x hx n hn
    simp only [expectationDoc, Document.numbers, numbersOfMembers, List.mem_append,
      mem_numbersOfMembers, List.mem_map, valueMember, List.not_mem_nil, or_false] at hn
    obtain ⟨e, ⟨v, hv, rfl⟩, hn⟩ := hn
    exact finite_complexDoc (h.expectationResult x hx v hv) n hn
  intro n hn
  simp only [messageDoc, Document.numbers, numbersOfMembers, List.mem_append, List.not_mem_nil,
    or_false, false_or] at hn
  rcases hn with hn | hn | hn | hn | hn | hn
  · exact finite_complexDoc h.complexResult n hn
  · exact finite_nullOr (fun s _ => hsample s) n hn
  · exact finite_nullOr hexpect n hn
  · exact finite_proof _ n hn
  · exact finite_nullOr (fun w _ => finite_workReport w) n hn
  · exact finite_nullOr (fun e _ => by simp [Document.numbers]) n hn

/-- The keys that are put between quotes as they are: the count keys and the expectation ids. -/
def ResultMessage.rawKeys (m : ResultMessage) : List String :=
  (m.sampleResult.toList.flatMap fun s => s.counts.map (·.1)) ++
    m.expectationResult.toList.flatMap fun x => x.values.map (·.1)

theorem keysOfMembers_map {α : Type} {member : α → String × Document Num} {key : α → String}
    (l : List α) (hkey : ∀ a ∈ l, (member a).1 = key a)
    (hvalue : ∀ a ∈ l, CleanKeys (keys (member a).2)) :
    CleanKeys (keysOfMembers (l.map member)) ↔ CleanKeys (l.map key) := by
  induction l with
  | nil => rw [List.map_nil, List.map_nil, keysOfMembers]
  | cons a l ih =>
    rw [List.map_cons, List.map_cons, keysOfMembers, cleanKeys_cons, cleanKeys_cons, cleanKeys_append,
      hkey a (List.mem_cons_self ..), ih (fun b hb => hkey b (List.mem_cons_of_mem _ hb))
      fun b hb => hvalue b (List.mem_cons_of_mem _ hb)]
    simp [hvalue a (List.mem_cons_self ..)]

theorem cleanKeys_string (text : String) : CleanKeys (keys (.string text : Document Num)) := by
  simp [keys]

theorem cleanKeys_complexDoc (c : ComplexResult) : CleanKeys (keys (complexDoc c)) := by
  simp only [complexDoc, keys, keysOfMembers, cleanKeys_cons, cleanKeys_append, cleanKeys_nil]
  decide

theorem cleanKeys_sample (x : Option SampleResult) :
    CleanKeys (keys (nullOr sampleDoc x)) ↔
      CleanKeys (x.toList.flatMap fun s => s.counts.map (·.1)) := by
  cases x with
  | none => simp [nullOr, keys]
  | some s =>
    have hcounts : CleanKeys (keysOfMembers (s.counts.map countMember)) ↔
        CleanKeys (s.counts.map (·.1)) :=
      keysOfMembers_map _ (fun _ _ => rfl) fun _ _ => by simp [countMember, keys]
    have hnames : plainText "counts" = true ∧ plainText "shots" = true := by decide
    simp only [nullOr, sampleDoc, keys, keysOfMembers, cleanKeys_cons, cleanKeys_append,
      cleanKeys_nil, hcounts, Option.toList_some, List.flatMap_singleton]
    simp [hnames]

theorem cleanKeys_expectation (x : Option ExpectationResult) :
    CleanKeys (keys (nullOr expectationDoc x)) ↔
      CleanKeys (x.toList.flatMap fun x => x.values.map (·.1)) := by
  cases x with
  | none => simp [nullOr, keys]
  | some x =>
    have hvalues : CleanKeys (keysOfMembers (x.values.map valueMember)) ↔
        CleanKeys (x.values.map (·.1)) :=
      keysOfMembers_map _ (fun _ _ => rfl) fun _ _ => cleanKeys_complexDoc _
    have hname : plainText "values" = true := by decide
    simp only [nullOr, expectationDoc, keys, keysOfMembers, cleanKeys_cons, cleanKeys_append,
      cleanKeys_nil, hvalues, Option.toList_some, List.flatMap_singleton]
    simp [hname]

theorem cleanKeys_nullOr {α : Type} {doc : α → Document Num} (h : ∀ a, CleanKeys (keys (doc a)))
    (x : Option α) : CleanKeys (keys (nullOr doc x)) := by
  cases x with
  | none => simp [nullOr, keys]
  | some a => exact h a

/-- The names of a message's fields are clean, so its keys are if those are. -/
theorem cleanKeys_messageDoc (m : ResultMessage) :
    CleanKeys (keys (messageDoc m)) ↔ CleanKeys m.rawKeys := by
  have hnames : ["sub_task_id", "node_id", "result_type", "complex_result", "sample_result",
      "expectation_result", "proof", "work_report", "error"].all plainText = true := by decide
  simp only [List.all_cons, List.all_nil, Bool.and_eq_true, and_true] at hnames
  simp only [messageDoc, keys, keysOfMembers, cleanKeys_cons, cleanKeys_append, cleanKeys_nil,
    cleanKeys_complexDoc, cleanKeys_sample, cleanKeys_expectation, cleanKeys_proof,
    cleanKeys_nullOr cleanKeys_workReport, cleanKeys_nullOr fun e => cleanKeys_string e, hnames,
    true_and, and_true, ResultMessage.rawKeys]

end WqcNode.Domain.Result
