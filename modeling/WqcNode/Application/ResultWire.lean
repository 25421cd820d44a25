import WqcNode.Domain.Result
import WqcNode.Domain.Dispatch
import WqcNode.Application.NodeMachine

/-! # The result on the wire (`transport/p2p/result_delivery.rs`, `application/result_outbox.rs`)

The body of a result, and the proof the retry loop takes out of it again.

* `wire_faithful_iff`: a body that is built is one JSON object with the payload's fields, and the
  proof is found in it exactly on success, if and only if no count key and no expectation id needs
  an escape. -/

namespace WqcNode.Application.ResultWire

open WqcNode.Lib WqcNode.Lib.Text WqcNode.Lib.Json WqcNode.Lib.JsonText WqcNode.Lib.Serde
open WqcNode.Lib.JsonKeys
open WqcNode.Domain.Models WqcNode.Domain.Observables WqcNode.Domain.Dispatch WqcNode.Domain.Result
open WqcNode.Application.NodeMachine

/-! ### The source's functions -/

/-- What core answers to `/compute`, as far as the node uses it. -/
structure ComputeResponse where
  resultType : String
  complexResult : ComplexResult
  sampleResult : Option SampleResult
  expectationResult : Option ExpectationResult
  proof : Proof
  workReport : Option WorkReport

/-- What `execute_compute` makes of the answer. -/
def ComputeResponse.intoData (res : ComputeResponse) (executionTimeMs : UInt64) : TaskResultData where
  resultType := if res.resultType = "" then "statevector_scalar" else res.resultType
  complexResult := res.complexResult
  sampleResult := res.sampleResult
  expectationResult := res.expectationResult
  proof := res.proof
  executionTimeMs := executionTimeMs
  workReport := res.workReport

section Build

variable (ft : FloatText)

/-- The message of a success. -/
def successMessage (task : ComputeTask) (payload : TaskResultPayload) (nodeId : String)
    (complexResult : ComplexResult) (proof : Proof) : ResultMessage where
  subTaskId := task.request.taskId
  nodeId := nodeId
  resultType := if payload.resultType = "" then "statevector_scalar" else payload.resultType
  complexResult := complexResult
  sampleResult := payload.sampleResult
  expectationResult := payload.expectationResult
  proof := proof
  workReport := payload.workReport
  error := none

def buildResultWireBody (task : ComputeTask) (payload : TaskResultPayload) (nodeId : String) :
    Except String Bytes :=
  if payload.status ≠ "success" then
    .ok (textBytes (failureJsonText task.request.taskId nodeId
      (payload.error.getD "compute failed")))
  else match payload.complexResult with
    | none => .error "missing complex_result for successful task"
    | some complexResult => match payload.proof with
      | none => .error "missing proof for successful task"
      | some proof =>
        .ok (textBytes ((successMessage task payload nodeId complexResult proof).toJsonText ft))

end Build

/-- `Value::get` of a name. -/
def getMember (value : Document Decimal) (name : String) : Option (Document Decimal) :=
  match value with
  | .object members => last members name
  | _ => none

/-- The proof in a body, `none` being an error of `serde_json`. -/
def extractProofFromResultWire (wireBody : Bytes) : Option (Option Proof) :=
  match fromSlice wireBody with
  | none => none
  | some value =>
    if ((getMember value "error").bind textOf).isSome then some none
    else match getMember value "proof" with
      | none => some none
      | some .null => some none
      | some p => (proofOf p).map some

/-! ### What a faithful body is -/

/-- The answer's floats are neither infinite nor NaN, as in every text `serde_json` parses. -/
structure ComputeResponse.Parsed (res : ComputeResponse) : Prop where
  complexResult : finiteComplex res.complexResult = true
  expectationResult : ∀ x ∈ res.expectationResult, ∀ e ∈ x.values, finiteComplex e.2 = true

/-- The payload the worker makes of an answer. -/
def FromCore (payload : TaskResultPayload) (res : ComputeResponse) : Prop :=
  ∃ taskId ms, payload = resultPayload taskId (.ok (res.intoData ms))

/-- The message with the payload's own fields. -/
def payloadMessage (task : ComputeTask) (nodeId : String) (payload : TaskResultPayload)
    (res : ComputeResponse) : ResultMessage :=
  ⟨task.request.taskId, nodeId, payload.resultType, res.complexResult, payload.sampleResult,
    payload.expectationResult, res.proof, payload.workReport, none⟩

/-- The body is one JSON object with exactly the members of the message, number by number, and its
fields are read back as the message's. -/
def Decodes (ft : FloatText) (body : Bytes) (m : ResultMessage) : Prop :=
  ∃ doc, fromSlice body = some doc ∧ (messageDoc m).Rel (Num.ReadAs ft) doc ∧
    messageOf ft doc = some m

/-- A body is faithful: a success made of an answer is read back, and the proof is found in it
exactly on success. -/
structure Faithful (ft : FloatText) (task : ComputeTask) (nodeId : String)
    (payload : TaskResultPayload) (body : Bytes) : Prop where
  decodes : ∀ res, FromCore payload res → Decodes ft body (payloadMessage task nodeId payload res)
  proof : extractProofFromResultWire body =
    some (if payload.status = "success" then payload.proof else none)

/-- The keys of a payload that are put between quotes as they are. -/
def rawKeys (payload : TaskResultPayload) : List String :=
  (payload.sampleResult.toList.flatMap fun s => s.counts.map (·.1)) ++
    payload.expectationResult.toList.flatMap fun x => x.values.map (·.1)

/-! ### Bodies are read -/

section Read

theorem fromSlice_textBytes (text : List Char) : fromSlice (textBytes text) = parse text := by
  rw [fromSlice, textBytes, ofUtf8_utf8, Option.bind_some, String.toList_ofList]

variable {ft : FloatText} (hft : ∀ f, isFinite f = true → WritesJson ft f)
include hft

theorem decodes_iff {m : ResultMessage} (h : m.Finite) :
    Decodes ft (textBytes (m.toJsonText ft)) m ↔ CleanKeys m.rawKeys := by
  have hnum := numerals_of_finite hft (finite_messageDoc h)
  have hread : ∀ n ∈ (messageDoc m).numbers, n.ReadAs ft (numNumeral ft n) :=
    fun n hn => readAs_numeral hft (finite_messageDoc h n hn)
  have hiff := parse_renderRaw_iff escape_escapes escape_plain hnum hread
  rw [cleanKeys_messageDoc] at hiff
  simp only [Decodes, fromSlice_textBytes, toJsonText_eq]
  constructor
  · rintro ⟨doc, hparse, hrel, -⟩
    exact hiff.mp ⟨doc, hparse, hrel⟩
  · intro hclean
    refine ⟨(messageDoc m).map (numNumeral ft), ?_, Document.rel_map hread,
      messageOf_messageDoc hft h⟩
    rw [renderRaw_eq escape_plain ((cleanKeys_messageDoc m).mpr hclean),
      parse_render escape_escapes hnum]

/-- The proof is found in the body of a success with clean keys. -/
theorem extractProof_success {m : ResultMessage} (h : m.Finite) (hclean : CleanKeys m.rawKeys)
    (herror : m.error = none) :
    extractProofFromResultWire (textBytes (m.toJsonText ft)) = some (some m.proof) := by
  have hnum := numerals_of_finite hft (finite_messageDoc h)
  have hparse : fromSlice (textBytes (m.toJsonText ft)) = some ((messageDoc m).map (numNumeral ft)) := by
    rw [fromSlice_textBytes, toJsonText_eq,
      renderRaw_eq escape_plain ((cleanKeys_messageDoc m).mpr hclean),
      parse_render escape_escapes hnum]
  have hproof : proofOf ((record (proofFields m.proof)).map (numNumeral ft)) = some m.proof :=
    proofOf_record m.proof
  have hrecord : ∀ fields : List (String × Option (Document Domain.Result.Num)),
      ∃ members, (record fields).map (numNumeral ft) = .object members := fun fields =>
    ⟨_, by rw [record, Document.map]⟩
  obtain ⟨members, hmembers⟩ := hrecord (proofFields m.proof)
  rw [hmembers] at hproof
  rw [extractProofFromResultWire, hparse]
  simp [messageDoc, herror, getMember, Document.map, mapMembers, last, nullOr, textOf, hmembers,
    hproof]

omit hft in
/-- There is no proof in the body of a failure. -/
theorem extractProof_failure (subTaskId nodeId error : String) :
    extractProofFromResultWire (textBytes (failureJsonText subTaskId nodeId error)) =
      some none := by
  have hnum : Numerals (fun _ => []) (fun _ => Decimal.ofNat 0)
      (failureDoc subTaskId nodeId error).numbers := by
    simp [Numerals, failureDoc, Document.numbers, numbersOfMembers]
  have hclean : CleanKeys (keys (failureDoc subTaskId nodeId error)) := by
    simp only [failureDoc, keys, keysOfMembers, List.nil_append]
    exact cleanKeys_of_all (by decide)
  have hparse := parse_render escape_escapes hnum
  rw [← renderRaw_eq escape_plain hclean, failureJsonText_eq] at hparse
  rw [extractProofFromResultWire, fromSlice_textBytes, hparse]
  simp [failureDoc, getMember, Document.map, mapMembers, last, textOf]

omit hft in
/-- The message of a success has the payload's own fields. -/
theorem successMessage_eq (task : ComputeTask) (nodeId : String) {payload : TaskResultPayload}
    {res : ComputeResponse} (h : FromCore payload res) :
    payload.status = "success" ∧ payload.complexResult = some res.complexResult ∧
      payload.proof = some res.proof ∧
      successMessage task payload nodeId res.complexResult res.proof =
        payloadMessage task nodeId payload res := by
  obtain ⟨taskId, ms, rfl⟩ := h
  have htype : (res.intoData ms).resultType ≠ "" := by
    simp only [ComputeResponse.intoData]
    split_ifs with hempty
    · decide
    · exact hempty
  refine ⟨rfl, rfl, rfl, ?_⟩
  simp [successMessage, payloadMessage, resultPayload, htype]

omit hft in
theorem payloadMessage_finite (task : ComputeTask) (nodeId : String) {payload : TaskResultPayload}
    {res : ComputeResponse} (h : FromCore payload res) (hres : res.Parsed) :
    (payloadMessage task nodeId payload res).Finite := by
  obtain ⟨taskId, ms, rfl⟩ := h
  exact ⟨hres.complexResult, hres.expectationResult⟩

end Read

/-- **Main result.** A body that is built is faithful if and only if it is not that of a success
with a count key or an expectation id that needs an escape. -/
theorem wire_faithful_iff {ft : FloatText} (hft : ∀ f, isFinite f = true → WritesJson ft f)
    {task : ComputeTask} {payload : TaskResultPayload} {nodeId : String} {body : Bytes}
    (hpayload : payload.status = "success" → ∃ res, res.Parsed ∧ FromCore payload res)
    (hbody : buildResultWireBody ft task payload nodeId = .ok body) :
    Faithful ft task nodeId payload body ↔
      (payload.status = "success" → CleanKeys (rawKeys payload)) := by
  by_cases hstatus : payload.status = "success"
  · obtain ⟨res, hres, hcore⟩ := hpayload hstatus
    obtain ⟨-, hcomplex, hproof, hmessage⟩ := successMessage_eq task nodeId hcore
    rw [buildResultWireBody, if_neg (by simpa using hstatus), hcomplex, hproof] at hbody
    simp only [Except.ok.injEq, hmessage] at hbody
    subst hbody
    have hfinite := payloadMessage_finite task nodeId hcore hres
    constructor
    · intro h _
      exact (decodes_iff hft hfinite).mp (h.decodes res hcore)
    · intro hclean
      refine ⟨fun res' hcore' => ?_, ?_⟩
      · obtain ⟨-, hcomplex', hproof', -⟩ := successMessage_eq task nodeId hcore'
        have hsame : payloadMessage task nodeId payload res' =
            payloadMessage task nodeId payload res := by
          rw [hcomplex] at hcomplex'
          rw [hproof] at hproof'
          simp only [payloadMessage, Option.some.inj hcomplex', Option.some.inj hproof']
        rw [hsame]
        exact (decodes_iff hft hfinite).mpr (hclean hstatus)
      · rw [extractProof_success hft hfinite (hclean hstatus) rfl, if_pos hstatus, hproof]
        rfl
  · rw [buildResultWireBody, if_pos hstatus, Except.ok.injEq] at hbody
    subst hbody
    refine ⟨fun _ h => absurd h hstatus, fun _ => ⟨fun res hcore => ?_, ?_⟩⟩
    · exact absurd (successMessage_eq task nodeId hcore).1 hstatus
    · rw [extractProof_failure, if_neg hstatus]

/-! ### Answers of core -/

theorem numeralOf_isJson (f : F64) : (numeralOf f).IsJson := by
  refine ⟨numeralOf_wellFormed f, ?_⟩
  unfold numeralOf
  split_ifs
  · exact fun _ => rfl
  · simp
  · exact fun h => absurd h (Decimal.head?_toDigits (by omega))

theorem sampleFloats_writesJson (f : F64) : WritesJson sampleCodec.floats f :=
  ⟨⟨numeralOf f, numeralOf_isJson f, rfl, floatOfText_numeralOf f⟩,
    fun _ => ⟨numeralOf f, numeralOf_isJson f, rfl, floatOfText_numeralOf f⟩⟩

/-- A sampled answer with one count. -/
def sampledResponse (key : String) : ComputeResponse where
  resultType := "sample"
  complexResult := ⟨half, one⟩
  sampleResult := some ⟨[("00", 3), (key, 5)], 8⟩
  expectationResult := some ⟨[("ZZ", ⟨one, half⟩)]⟩
  proof := ⟨⟨"circuit", "sub-\"1\"", "node", "slice-0", "hash", "", "high"⟩, "cHJvb2Y="⟩
  workReport := some ⟨4, 1, 2, 3, 128, "cpu", 0, ""⟩

def sampledTask : ComputeTask := ⟨sampleTask.intoComputeRequest "node", "orch", none, 0⟩

def sampledPayload (key : String) : TaskResultPayload :=
  resultPayload "task-sub-0" (.ok ((sampledResponse key).intoData 7))

theorem sampledResponse_parsed (key : String) : (sampledResponse key).Parsed :=
  ⟨show finiteComplex ⟨half, one⟩ = true by decide,
    by simpa [sampledResponse] using (by decide : finiteComplex ⟨one, half⟩ = true)⟩

theorem sampledPayload_fromCore (key : String) :
    FromCore (sampledPayload key) (sampledResponse key) := ⟨_, _, rfl⟩

/-- A success whose keys are bit strings is read back. -/
theorem wire_faithful_iff_bits :
    ∃ body, buildResultWireBody sampleCodec.floats sampledTask (sampledPayload "11") "node" =
        .ok body ∧
      (Faithful sampleCodec.floats sampledTask "node" (sampledPayload "11") body ↔
        ((sampledPayload "11").status = "success" → CleanKeys (rawKeys (sampledPayload "11")))) ∧
      CleanKeys (rawKeys (sampledPayload "11")) :=
  ⟨_, rfl, wire_faithful_iff (fun f _ => sampleFloats_writesJson f)
    (fun _ => ⟨_, sampledResponse_parsed "11", sampledPayload_fromCore "11"⟩) rfl,
    cleanKeys_of_all (by decide)⟩

/-- A count key with a quote: the body is not JSON, and the retry loop finds no proof in it. -/
theorem quoted_key_not_faithful :
    ∃ res payload body, res.Parsed ∧ FromCore payload res ∧
      buildResultWireBody sampleCodec.floats sampledTask payload "node" = .ok body ∧
      fromSlice body = none ∧ extractProofFromResultWire body = none ∧
      ¬ Faithful sampleCodec.floats sampledTask "node" payload body := by
  have hparse : parse ((payloadMessage sampledTask "node" (sampledPayload "1\"1")
      (sampledResponse "1\"1")).toJsonText sampleCodec.floats) = none := by decide +kernel
  have hbody : fromSlice (textBytes ((payloadMessage sampledTask "node" (sampledPayload "1\"1")
      (sampledResponse "1\"1")).toJsonText sampleCodec.floats)) = none := by
    rw [fromSlice_textBytes, hparse]
  have hproof : extractProofFromResultWire (textBytes ((payloadMessage sampledTask "node"
      (sampledPayload "1\"1") (sampledResponse "1\"1")).toJsonText sampleCodec.floats)) = none := by
    rw [extractProofFromResultWire, hbody]
  refine ⟨_, _, _, sampledResponse_parsed "1\"1", sampledPayload_fromCore "1\"1", rfl, hbody, hproof,
    fun h => ?_⟩
  cases hproof.symm.trans h.proof

end WqcNode.Application.ResultWire
