import WqcNode.Lib.Double
import WqcNode.Lib.SerdeShape
import WqcNode.Lib.SerdeValue
import WqcNode.Infra.Storage
import WqcNode.Domain.Dispatch

/-! # Tasks as JSON (`domain/models.rs`, `infra/storage.rs`)

The payload of a `tasks` row is the JSON of the task, read again when the row is loaded. The derived
implementations write the fields in order, leave out a field that is skipped, and write `null` for
another that is absent; they read the fields by name, each at most once, or by position.

* `json_read_back_iff`: a task is read back exactly if its doubles are finite and its gates go no
  deeper than the parser. -/

namespace WqcNode.Infra.TaskJson

open WqcNode.Lib WqcNode.Lib.Json WqcNode.Lib.JsonText WqcNode.Lib.Serde WqcNode.Lib.SerdeValue
open WqcNode.Lib.SerdeShape
open WqcNode.Domain.Models WqcNode.Domain.WorkBudget

/-- The doubles of `serde_json`, and the double that holds the seconds of a budget. -/
structure Codec where
  floats : FloatCodec
  ofSecs : ℚ → F64
  toSecs : F64 → ℚ

/-- The seconds are rounded to the nearest double, whose value is read. -/
structure Codec.Rounds (c : Codec) : Prop where
  ofSecs : c.ofSecs = Double.nearest
  toSecs : c.toSecs = Double.value

/-- A budget as it is held: its estimate is a double. -/
def Codec.round (c : Codec) (b : Budget) : Budget :=
  { b with expectedSecs := c.toSecs (c.ofSecs b.expectedSecs) }

section Round

variable {c : Codec} (hr : c.Rounds) {b : Budget} (hb : 0 ≤ b.expectedSecs)

include hr hb

theorem Codec.Rounds.round_nonneg : 0 ≤ (c.round b).expectedSecs := by
  unfold Codec.round
  rw [hr.ofSecs, hr.toSecs]
  exact Double.value_nearest_nonneg hb

/-- An estimate of at most the longest deadline is held as a finite double, which is written and read
back as it is. -/
theorem Codec.Rounds.round_exact (hle : b.expectedSecs ≤ b.deadlineSecs.toNat) :
    isFinite (c.ofSecs (c.round b).expectedSecs) = true ∧
      c.toSecs (c.ofSecs (c.round b).expectedSecs) = (c.round b).expectedSecs := by
  have hlt : b.expectedSecs < 2 ^ 1023 := by
    have hdeadline : (b.deadlineSecs.toNat : ℚ) < 2 ^ 32 := by exact_mod_cast b.deadlineSecs.toNat_lt
    calc b.expectedSecs ≤ b.deadlineSecs.toNat := hle
      _ < 2 ^ 32 := hdeadline
      _ ≤ 2 ^ 1023 := pow_le_pow_right₀ (by norm_num) (by norm_num)
  unfold Codec.round
  rw [hr.ofSecs, hr.toSecs, Double.nearest_value_nearest hb]
  exact ⟨Double.isFinite_nearest hb hlt, rfl⟩

end Round

/-! ### Writing -/

section Write

abbrev Fields := List (String × Option (Document Literal))

def textDoc (text : String) : Document Literal := .string text

def natDoc (n : ℕ) : Document Literal := .number (.int n)

def u32Doc (n : UInt32) : Document Literal := natDoc n.toNat

def u64Doc (n : UInt64) : Document Literal := natDoc n.toNat

def gateFields (gate : Gate) : Fields :=
  [("type", some (textDoc gate.type)), ("params", some (valueDoc gate.params))]

def sliceAssignmentFields (a : SliceAssignment) : Fields :=
  [("edge_id", some (textDoc a.edgeId)), ("value", some (natDoc a.value.toNat))]

def noiseModelFields (n : NoiseModel) : Fields :=
  [("depolarizing_p", some (orNull floatDoc n.depolarizingP)),
    ("readout_error", some (orNull floatDoc n.readoutError))]

def complexCoeffFields (c : ComplexCoeff) : Fields :=
  [("real", some (floatDoc c.real)), ("imag", some (floatDoc c.imag))]

def pauliTermFields (t : PauliTerm) : Fields :=
  [("label", some (textDoc t.label)), ("coeff", some (record (complexCoeffFields t.coeff)))]

def observableFields (o : ObservableSpec) : Fields :=
  [("id", some (textDoc o.id)),
    ("terms", some (.array (o.terms.map fun t => record (pauliTermFields t))))]

def tensorRefFields (t : TensorRefWire) : Fields :=
  [("ket0", t.ket0.map u32Doc), ("gate", t.gate.map u32Doc), ("node", t.node.map u32Doc),
    ("bra0", t.bra0.map u32Doc), ("control", t.control.map u32Doc), ("target", t.target.map u32Doc)]

def contractNodeFields (n : ContractNodeWire) : Fields :=
  [("op", some (textDoc n.op)), ("left", some (record (tensorRefFields n.left))),
    ("right", some (record (tensorRefFields n.right)))]

def contractionTreeFields (t : ContractionTreeWire) : Fields :=
  [("kind", t.kind.map textDoc),
    ("nodes", some (.array (t.nodes.map fun n => record (contractNodeFields n)))),
    ("peak_bytes", some (u64Doc t.peakBytes))]

def requestFields (r : ComputeRequest) : Fields :=
  [("task_id", some (textDoc r.taskId)), ("parent_task_id", some (orNull textDoc r.parentTaskId)),
    ("circuit_id", some (textDoc r.circuitId)), ("node_id", some (orNull textDoc r.nodeId)),
    ("qubit_count", some (u64Doc r.qubitCount)),
    ("original_qubit_count", some (u64Doc r.originalQubitCount)),
    ("slice_id", some (textDoc r.sliceId)),
    ("slice_assignments",
      some (.array (r.sliceAssignments.map fun a => record (sliceAssignmentFields a)))),
    ("circuit", some (.array (r.circuit.map fun gate => record (gateFields gate)))),
    ("required_votes", some (orNull u32Doc r.requiredVotes)),
    ("mps_max_bond_dim", some (orNull u64Doc r.mpsMaxBondDim)),
    ("mps_site_order", some (orNull (fun order => .array (order.map u64Doc)) r.mpsSiteOrder)),
    ("mps_time_split", r.mpsTimeSplit.map u64Doc),
    ("contraction_tree", r.contractionTree.map fun t => record (contractionTreeFields t)),
    ("output_mode", some (textDoc r.outputMode)),
    ("classical_bit_count", some (orNull u32Doc r.classicalBitCount)),
    ("shots", some (orNull u64Doc r.shots)), ("sample_seed", some (orNull u64Doc r.sampleSeed)),
    ("observables", some (.array (r.observables.map fun o => record (observableFields o)))),
    ("noise_model", some (orNull (fun n => record (noiseModelFields n)) r.noiseModel)),
    ("security_level", some (textDoc r.securityLevel))]

variable (c : Codec)

def budgetFields (b : Budget) : Fields :=
  [("deadline_secs", some (u32Doc b.deadlineSecs)),
    ("expected_secs", some (floatDoc (c.ofSecs b.expectedSecs)))]

def taskFields (t : ComputeTask) : Fields :=
  [("request", some (record (requestFields t.request))),
    ("orchestrator_pubkey", some (textDoc t.orchestratorPubkey)),
    ("budget", t.budget.map fun b => record (budgetFields c b)),
    ("accepted_at_ms", some (u64Doc t.acceptedAtMs))]

end Write

/-! ### Reading -/

section Read

variable (c : Codec)

def u8Of (doc : Document Decimal) : Option UInt8 := (natOf (2 ^ 8) doc).map UInt8.ofNat

/-- A gate whose params may enter `room` more arrays and objects. -/
def gateOf (room : ℕ) (doc : Document Decimal) : Option Gate :=
  match fieldsOnce ["type", "params"] doc with
  | some [type, params] => do
    return ⟨← required textOf type, ← required (valueWithin c.floats room) params⟩
  | _ => none

def sliceAssignmentOf (doc : Document Decimal) : Option SliceAssignment :=
  match fieldsOnce ["edge_id", "value"] doc with
  | some [edgeId, value] => do return ⟨← required textOf edgeId, ← required u8Of value⟩
  | _ => none

def noiseModelOf (doc : Document Decimal) : Option NoiseModel :=
  match fieldsOnce ["depolarizing_p", "readout_error"] doc with
  | some [depolarizingP, readoutError] => do
    return ⟨← nullable (f64Of c.floats) depolarizingP, ← nullable (f64Of c.floats) readoutError⟩
  | _ => none

def complexCoeffOf (doc : Document Decimal) : Option ComplexCoeff :=
  match fieldsOnce ["real", "imag"] doc with
  | some [real, imag] => do
    return ⟨← required (f64Of c.floats) real, ← required (f64Of c.floats) imag⟩
  | _ => none

def pauliTermOf (doc : Document Decimal) : Option PauliTerm :=
  match fieldsOnce ["label", "coeff"] doc with
  | some [label, coeff] => do
    return ⟨← required textOf label, ← required (complexCoeffOf c) coeff⟩
  | _ => none

def observableOf (doc : Document Decimal) : Option ObservableSpec :=
  match fieldsOnce ["id", "terms"] doc with
  | some [id, terms] => do return ⟨← required textOf id, ← required (listOf (pauliTermOf c)) terms⟩
  | _ => none

def tensorRefOf (doc : Document Decimal) : Option TensorRefWire :=
  match fieldsOnce ["ket0", "gate", "node", "bra0", "control", "target"] doc with
  | some [ket0, gate, node, bra0, control, target] => do
    return ⟨← nullable u32Of ket0, ← nullable u32Of gate, ← nullable u32Of node,
      ← nullable u32Of bra0, ← nullable u32Of control, ← nullable u32Of target⟩
  | _ => none

def contractNodeOf (doc : Document Decimal) : Option ContractNodeWire :=
  match fieldsOnce ["op", "left", "right"] doc with
  | some [op, left, right] => do
    return ⟨← required textOf op, ← required tensorRefOf left, ← required tensorRefOf right⟩
  | _ => none

def contractionTreeOf (doc : Document Decimal) : Option ContractionTreeWire :=
  match fieldsOnce ["kind", "nodes", "peak_bytes"] doc with
  | some [kind, nodes, peakBytes] => do
    return ⟨← nullable textOf kind, ← required (listOf contractNodeOf) nodes,
      ← required u64Of peakBytes⟩
  | _ => none

def requestOf (room : ℕ) (doc : Document Decimal) : Option ComputeRequest :=
  if atLeast 10 doc then
    match fieldsOnce ["task_id", "parent_task_id", "circuit_id", "node_id", "qubit_count",
      "original_qubit_count", "slice_id", "slice_assignments", "circuit", "required_votes",
      "mps_max_bond_dim", "mps_site_order", "mps_time_split", "contraction_tree", "output_mode",
      "classical_bit_count", "shots", "sample_seed", "observables", "noise_model",
      "security_level"] doc with
    | some [taskId, parentTaskId, circuitId, nodeId, qubitCount, originalQubitCount, sliceId,
        sliceAssignments, circuit, requiredVotes, mpsMaxBondDim, mpsSiteOrder, mpsTimeSplit,
        contractionTree, outputMode, classicalBitCount, shots, sampleSeed, observables, noiseModel,
        securityLevel] => do
      return {
        taskId := ← required textOf taskId
        parentTaskId := ← nullable textOf parentTaskId
        circuitId := ← required textOf circuitId
        nodeId := ← nullable textOf nodeId
        qubitCount := ← required u64Of qubitCount
        originalQubitCount := ← required u64Of originalQubitCount
        sliceId := ← required textOf sliceId
        sliceAssignments := ← required (listOf sliceAssignmentOf) sliceAssignments
        circuit := ← required (listOf (gateOf c room)) circuit
        requiredVotes := ← nullable u32Of requiredVotes
        mpsMaxBondDim := ← nullable u64Of mpsMaxBondDim
        mpsSiteOrder := ← nullable (listOf u64Of) mpsSiteOrder
        mpsTimeSplit := ← nullable u64Of mpsTimeSplit
        contractionTree := ← nullable contractionTreeOf contractionTree
        outputMode := ← orDefault "" textOf outputMode
        classicalBitCount := ← nullable u32Of classicalBitCount
        shots := ← nullable u64Of shots
        sampleSeed := ← nullable u64Of sampleSeed
        observables := ← orDefault [] (listOf (observableOf c)) observables
        noiseModel := ← nullable (noiseModelOf c) noiseModel
        securityLevel := ← orDefault "" textOf securityLevel }
    | _ => none
  else none

def budgetOf (doc : Document Decimal) : Option Budget :=
  match fieldsOnce ["deadline_secs", "expected_secs"] doc with
  | some [deadlineSecs, expectedSecs] => do
    return ⟨← required u32Of deadlineSecs, c.toSecs (← required (f64Of c.floats) expectedSecs)⟩
  | _ => none

/-- The params of a gate stand in an object of an array of the request's object of the task's. -/
def paramsRoom : ℕ := depthLimit - 4

def taskOf (doc : Document Decimal) : Option ComputeTask :=
  match fieldsOnce ["request", "orchestrator_pubkey", "budget", "accepted_at_ms"] doc with
  | some [request, orchestratorPubkey, budget, acceptedAtMs] => do
    return ⟨← required (requestOf c paramsRoom) request, ← required textOf orchestratorPubkey,
      ← nullable (budgetOf c) budget, ← orDefault 0 u64Of acceptedAtMs⟩
  | _ => none

end Read

/-! ### Shapes -/

def gateShape : Shape := .flat ["type", "params"]

def sliceAssignmentShape : Shape := .flat ["edge_id", "value"]

def noiseModelShape : Shape := .flat ["depolarizing_p", "readout_error"]

def pauliTermShape : Shape := .record [("label", .whole), ("coeff", .flat ["real", "imag"])]

def observableShape : Shape := .record [("id", .whole), ("terms", .list pauliTermShape)]

def tensorRefShape : Shape := .flat ["ket0", "gate", "node", "bra0", "control", "target"]

def contractNodeShape : Shape :=
  .record [("op", .whole), ("left", tensorRefShape), ("right", tensorRefShape)]

def contractionTreeShape : Shape :=
  .record [("kind", .whole), ("nodes", .list contractNodeShape), ("peak_bytes", .whole)]

/-! ### Records are read back -/

section Fields

variable {c : Codec}

theorem textOf_textDoc (f : Literal → Decimal) (text : String) :
    textOf ((textDoc text).map f) = some text := by
  simp only [textDoc, Document.map, textOf]

theorem u8Of_natDoc (n : UInt8) : u8Of ((natDoc n.toNat).map (numeral c.floats)) = some n := by
  simp only [natDoc, Document.map, numeral_nat, u8Of]
  rw [natOf_ofNat n.toNat_lt, Option.map_some, UInt8.ofNat_toNat]

theorem u32Of_u32Doc (n : UInt32) : u32Of ((u32Doc n).map (numeral c.floats)) = some n := by
  simp only [u32Doc, natDoc, Document.map, numeral_nat, u32Of_ofNat]

theorem u64Of_u64Doc (n : UInt64) : u64Of ((u64Doc n).map (numeral c.floats)) = some n := by
  simp only [u64Doc, natDoc, Document.map, numeral_nat, u64Of_ofNat]

end Fields

section Records

variable {c : Codec} (hc : c.floats.RoundTrips)
include hc

theorem gateOf_gateDoc {room : ℕ} {gate : Gate} (hs : Sorted gate.params) :
    gateOf c room ((record (gateFields gate)).map (numeral c.floats)) = some gate ↔
      depth gate.params ≤ room := by
  have hfields := fieldsOnce_map_record (numeral c.floats) (gateFields gate) (by simp [gateFields])
  simp only [gateFields, List.map_cons, List.map_nil, Option.map_some] at hfields
  rw [← valueOf_valueDoc_iff hc hs, gateFields, gateOf, hfields]
  simp only [required, Option.bind_some, textOf_textDoc, Option.bind_eq_bind, Option.bind_eq_some_iff]
  cases gate
  simp

omit hc in
theorem sliceAssignmentOf_doc (a : SliceAssignment) :
    sliceAssignmentOf ((record (sliceAssignmentFields a)).map (numeral c.floats)) = some a := by
  have hfields := fieldsOnce_map_record (numeral c.floats) (sliceAssignmentFields a)
    (by simp [sliceAssignmentFields])
  simp only [sliceAssignmentFields, List.map_cons, List.map_nil, Option.map_some] at hfields
  rw [sliceAssignmentFields, sliceAssignmentOf, hfields]
  simp only [required, Option.bind_some, textOf_textDoc, u8Of_natDoc]
  rfl

theorem complexCoeffOf_doc (x : ComplexCoeff) :
    complexCoeffOf c ((record (complexCoeffFields x)).map (numeral c.floats)) = some x ↔
      isFinite x.real = true ∧ isFinite x.imag = true := by
  have hfields := fieldsOnce_map_record (numeral c.floats) (complexCoeffFields x)
    (by simp [complexCoeffFields])
  simp only [complexCoeffFields, List.map_cons, List.map_nil, Option.map_some] at hfields
  rw [complexCoeffFields, complexCoeffOf, hfields]
  simp only [required, Option.bind_some, Option.bind_eq_bind, Option.bind_eq_some_iff,
    f64Of_floatDoc hc]
  cases x
  simp

theorem pauliTermOf_doc (t : PauliTerm) :
    pauliTermOf c ((record (pauliTermFields t)).map (numeral c.floats)) = some t ↔
      isFinite t.coeff.real = true ∧ isFinite t.coeff.imag = true := by
  have hfields := fieldsOnce_map_record (numeral c.floats) (pauliTermFields t)
    (by simp [pauliTermFields])
  simp only [pauliTermFields, List.map_cons, List.map_nil, Option.map_some] at hfields
  rw [← complexCoeffOf_doc hc, pauliTermFields, pauliTermOf, hfields]
  simp only [required, Option.bind_some, Option.bind_eq_bind, Option.bind_eq_some_iff, textOf_textDoc]
  cases t
  simp

theorem observableOf_doc (o : ObservableSpec) :
    observableOf c ((record (observableFields o)).map (numeral c.floats)) = some o ↔
      ∀ t ∈ o.terms, isFinite t.coeff.real = true ∧ isFinite t.coeff.imag = true := by
  have hterms : listOf (pauliTermOf c) ((Document.array (o.terms.map fun t =>
      record (pauliTermFields t))).map (numeral c.floats)) = some o.terms ↔
      ∀ t ∈ o.terms, pauliTermOf c ((record (pauliTermFields t)).map (numeral c.floats)) = some t :=
    listOf_iff
  have hfields := fieldsOnce_map_record (numeral c.floats) (observableFields o)
    (by simp [observableFields])
  simp only [observableFields, List.map_cons, List.map_nil, Option.map_some] at hfields
  simp only [← pauliTermOf_doc hc]
  rw [← hterms, observableFields, observableOf, hfields]
  simp only [required, Option.bind_some, Option.bind_eq_bind, Option.bind_eq_some_iff, textOf_textDoc]
  cases o
  simp

omit hc in
theorem f64Of_null : f64Of c.floats .null = none := by
  unfold f64Of
  simp

theorem nullable_f64Of (x : Option F64) :
    nullable (f64Of c.floats) (some ((orNull floatDoc x).map (numeral c.floats))) = some x ↔
      ∀ f ∈ x, isFinite f = true := by
  rw [nullable_orNull f64Of_null]
  simp only [f64Of_floatDoc hc, and_true]

theorem noiseModelOf_doc (n : NoiseModel) :
    noiseModelOf c ((record (noiseModelFields n)).map (numeral c.floats)) = some n ↔
      (∀ p ∈ n.depolarizingP, isFinite p = true) ∧ ∀ p ∈ n.readoutError, isFinite p = true := by
  have hfields := fieldsOnce_map_record (numeral c.floats) (noiseModelFields n)
    (by simp [noiseModelFields])
  simp only [noiseModelFields, List.map_cons, List.map_nil, Option.map_some] at hfields
  rw [← nullable_f64Of hc, ← nullable_f64Of hc, noiseModelFields, noiseModelOf, hfields]
  simp only [Option.bind_eq_bind, Option.bind_eq_some_iff]
  cases n
  simp

omit hc in
theorem nullable_u32Of (x : Option UInt32) :
    nullable u32Of ((x.map u32Doc).map (Document.map (numeral c.floats))) = some x :=
  (nullable_skipped rfl).mpr fun _ _ => u32Of_u32Doc _

omit hc in
theorem tensorRefOf_doc (t : TensorRefWire) :
    tensorRefOf ((record (tensorRefFields t)).map (numeral c.floats)) = some t := by
  have hfields := fieldsOnce_map_record (numeral c.floats) (tensorRefFields t)
    (by simp [tensorRefFields])
  simp only [tensorRefFields, List.map_cons, List.map_nil] at hfields
  rw [tensorRefFields, tensorRefOf, hfields]
  simp only [nullable_u32Of]
  rfl

omit hc in
theorem contractNodeOf_doc (n : ContractNodeWire) :
    contractNodeOf ((record (contractNodeFields n)).map (numeral c.floats)) = some n := by
  have hfields := fieldsOnce_map_record (numeral c.floats) (contractNodeFields n)
    (by simp [contractNodeFields])
  simp only [contractNodeFields, List.map_cons, List.map_nil, Option.map_some] at hfields
  rw [contractNodeFields, contractNodeOf, hfields]
  simp only [required, Option.bind_some, textOf_textDoc, tensorRefOf_doc]
  rfl

omit hc in
theorem contractionTreeOf_doc (t : ContractionTreeWire) :
    contractionTreeOf ((record (contractionTreeFields t)).map (numeral c.floats)) = some t := by
  have hkind : nullable textOf ((t.kind.map textDoc).map (Document.map (numeral c.floats))) =
      some t.kind := (nullable_skipped rfl).mpr fun _ _ => textOf_textDoc _ _
  have hnodes : listOf contractNodeOf ((Document.array (t.nodes.map fun n =>
      record (contractNodeFields n))).map (numeral c.floats)) = some t.nodes :=
    listOf_iff.mpr fun n _ => contractNodeOf_doc n
  have hfields := fieldsOnce_map_record (numeral c.floats) (contractionTreeFields t)
    (by simp [contractionTreeFields])
  simp only [contractionTreeFields, List.map_cons, List.map_nil, Option.map_some] at hfields
  rw [contractionTreeFields, contractionTreeOf, hfields]
  simp only [required, Option.bind_some, hkind, hnodes, u64Of_u64Doc]
  rfl

theorem budgetOf_doc (b : Budget) :
    budgetOf c ((record (budgetFields c b)).map (numeral c.floats)) = some b ↔
      isFinite (c.ofSecs b.expectedSecs) = true ∧
        c.toSecs (c.ofSecs b.expectedSecs) = b.expectedSecs := by
  have hfields := fieldsOnce_map_record (numeral c.floats) (budgetFields c b)
    (by simp [budgetFields])
  simp only [budgetFields, List.map_cons, List.map_nil, Option.map_some] at hfields
  rw [budgetFields, budgetOf, hfields]
  simp only [required, Option.bind_some, Option.bind_eq_bind, Option.bind_eq_some_iff, u32Of_u32Doc,
    f64Of_floatDoc hc]
  cases b
  simp

/-! ### Tasks are read back -/

/-- The maps in the gates are `BTreeMap`s. -/
def SortedParams (r : ComputeRequest) : Prop := ∀ gate ∈ r.circuit, Sorted gate.params

/-- What the JSON of a request keeps: finite doubles, and no gate deeper than the parser goes. -/
structure ReadableRequest (room : ℕ) (r : ComputeRequest) : Prop where
  params : ∀ gate ∈ r.circuit, depth gate.params ≤ room
  coeffs : ∀ o ∈ r.observables, ∀ t ∈ o.terms,
    isFinite t.coeff.real = true ∧ isFinite t.coeff.imag = true
  noise : ∀ n ∈ r.noiseModel,
    (∀ p ∈ n.depolarizingP, isFinite p = true) ∧ ∀ p ∈ n.readoutError, isFinite p = true

theorem circuitOf_doc {room : ℕ} {circuit : List Gate} (hs : ∀ gate ∈ circuit, Sorted gate.params) :
    listOf (gateOf c room) ((Document.array (circuit.map fun gate => record (gateFields gate))).map
      (numeral c.floats)) = some circuit ↔ ∀ gate ∈ circuit, depth gate.params ≤ room := by
  rw [listOf_iff]
  exact forall₂_congr fun gate hgate => gateOf_gateDoc hc (hs gate hgate)

theorem observablesOf_doc (l : List ObservableSpec) :
    listOf (observableOf c) ((Document.array (l.map fun o => record (observableFields o))).map
      (numeral c.floats)) = some l ↔ ∀ o ∈ l, ∀ t ∈ o.terms,
        isFinite t.coeff.real = true ∧ isFinite t.coeff.imag = true := by
  rw [listOf_iff]
  exact forall₂_congr fun o _ => observableOf_doc hc o

theorem nullable_noiseModelOf (x : Option NoiseModel) :
    nullable (noiseModelOf c) (some ((orNull (fun n => record (noiseModelFields n)) x).map
      (numeral c.floats))) = some x ↔ ∀ n ∈ x,
        (∀ p ∈ n.depolarizingP, isFinite p = true) ∧ ∀ p ∈ n.readoutError, isFinite p = true := by
  rw [nullable_orNull rfl]
  exact forall₂_congr fun n _ => noiseModelOf_doc hc n

omit hc in
theorem nullable_textOf (x : Option String) :
    nullable textOf (some ((orNull textDoc x).map (numeral c.floats))) = some x :=
  (nullable_orNull rfl).mpr fun _ _ => textOf_textDoc _ _

omit hc in
theorem nullable_u32Of_orNull (x : Option UInt32) :
    nullable u32Of (some ((orNull u32Doc x).map (numeral c.floats))) = some x :=
  (nullable_orNull rfl).mpr fun _ _ => u32Of_u32Doc _

omit hc in
theorem nullable_u64Of_orNull (x : Option UInt64) :
    nullable u64Of (some ((orNull u64Doc x).map (numeral c.floats))) = some x :=
  (nullable_orNull rfl).mpr fun _ _ => u64Of_u64Doc _

omit hc in
theorem nullable_u64Of (x : Option UInt64) :
    nullable u64Of ((x.map u64Doc).map (Document.map (numeral c.floats))) = some x :=
  (nullable_skipped rfl).mpr fun _ _ => u64Of_u64Doc _

omit hc in
theorem nullable_siteOrder (x : Option (List UInt64)) :
    nullable (listOf u64Of) (some ((orNull (fun order => .array (order.map u64Doc)) x).map
      (numeral c.floats))) = some x :=
  (nullable_orNull rfl).mpr fun _ _ => listOf_iff.mpr fun _ _ => u64Of_u64Doc _

omit hc in
theorem nullable_contractionTreeOf (x : Option ContractionTreeWire) :
    nullable contractionTreeOf ((x.map fun t => record (contractionTreeFields t)).map
      (Document.map (numeral c.floats))) = some x :=
  (nullable_skipped rfl).mpr fun _ _ => contractionTreeOf_doc _

omit hc in
theorem sliceAssignmentsOf_doc (l : List SliceAssignment) :
    listOf sliceAssignmentOf ((Document.array (l.map fun a => record (sliceAssignmentFields a))).map
      (numeral c.floats)) = some l :=
  listOf_iff.mpr fun _ _ => sliceAssignmentOf_doc _

/-- **A request is read back** exactly if its JSON keeps it. -/
theorem requestOf_doc {room : ℕ} {r : ComputeRequest} (hs : SortedParams r) :
    requestOf c room ((record (requestFields r)).map (numeral c.floats)) = some r ↔
      ReadableRequest room r := by
  have hfields := fieldsOnce_map_record (numeral c.floats) (requestFields r)
    (by simp [requestFields])
  simp only [requestFields, List.map_cons, List.map_nil, Option.map_some] at hfields
  have hobject : atLeast 10 ((record (requestFields r)).map (numeral c.floats)) = true := by
    rw [record, Document.map, atLeast]
    simp
  have hiff : ReadableRequest room r ↔ (∀ gate ∈ r.circuit, depth gate.params ≤ room) ∧
      (∀ o ∈ r.observables, ∀ t ∈ o.terms,
        isFinite t.coeff.real = true ∧ isFinite t.coeff.imag = true) ∧
      ∀ n ∈ r.noiseModel,
        (∀ p ∈ n.depolarizingP, isFinite p = true) ∧ ∀ p ∈ n.readoutError, isFinite p = true :=
    ⟨fun h => ⟨h.params, h.coeffs, h.noise⟩, fun h => ⟨h.1, h.2.1, h.2.2⟩⟩
  rw [hiff, ← circuitOf_doc hc hs, ← observablesOf_doc hc, ← nullable_noiseModelOf hc, requestOf,
    if_pos hobject, requestFields, hfields]
  simp only [required, orDefault_some, Option.bind_some, Option.bind_eq_bind, textOf_textDoc,
    u64Of_u64Doc, nullable_textOf, nullable_u32Of_orNull, nullable_u64Of_orNull, nullable_u64Of,
    nullable_siteOrder, nullable_contractionTreeOf, sliceAssignmentsOf_doc, Option.bind_eq_some_iff]
  cases r
  simp

/-- What the JSON of a task keeps: what that of its request keeps, and the seconds of its budget. -/
structure ReadableTask (c : Codec) (t : ComputeTask) : Prop where
  request : ReadableRequest paramsRoom t.request
  budget : ∀ b ∈ t.budget, isFinite (c.ofSecs b.expectedSecs) = true ∧
    c.toSecs (c.ofSecs b.expectedSecs) = b.expectedSecs

theorem taskOf_doc {t : ComputeTask} (hs : SortedParams t.request) :
    taskOf c ((record (taskFields c t)).map (numeral c.floats)) = some t ↔ ReadableTask c t := by
  have hfields := fieldsOnce_map_record (numeral c.floats) (taskFields c t) (by simp [taskFields])
  simp only [taskFields, List.map_cons, List.map_nil, Option.map_some] at hfields
  have hbudget : nullable (budgetOf c) ((t.budget.map fun b => record (budgetFields c b)).map
      (Document.map (numeral c.floats))) = some t.budget ↔ ∀ b ∈ t.budget,
        isFinite (c.ofSecs b.expectedSecs) = true ∧
          c.toSecs (c.ofSecs b.expectedSecs) = b.expectedSecs := by
    rw [nullable_skipped rfl]
    exact forall₂_congr fun b _ => budgetOf_doc hc b
  have hiff : ReadableTask c t ↔ ReadableRequest paramsRoom t.request ∧ ∀ b ∈ t.budget,
      isFinite (c.ofSecs b.expectedSecs) = true ∧
        c.toSecs (c.ofSecs b.expectedSecs) = b.expectedSecs :=
    ⟨fun h => ⟨h.request, h.budget⟩, fun h => ⟨h.1, h.2⟩⟩
  rw [hiff, ← hbudget, ← requestOf_doc hc hs, taskFields, taskOf, hfields]
  simp only [required, orDefault_some, Option.bind_some, Option.bind_eq_bind, textOf_textDoc,
    u64Of_u64Doc, Option.bind_eq_some_iff]
  cases t
  simp

end Records

/-! ### `serde_json` on tasks -/

section Texts

variable (c : Codec) (errorText : String → String)

def taskToString (t : ComputeTask) : String :=
  String.ofList (render escape (numText c.floats) (record (taskFields c t)))

def requestToVec (r : ComputeRequest) : Bytes := toVec (numText c.floats) (record (requestFields r))

/-- The text of an error depends on what was read. -/
def orError {α : Type} (text : String) : Option α → Except String α
  | some a => .ok a
  | none => .error (errorText text)

/-- A request by itself stands one object higher than in a task. -/
def serde : Serde where
  taskToString t := .ok (taskToString c t)
  taskFromStr text := orError errorText text ((parse text.toList).bind (taskOf c))
  requestToVec r := .ok (requestToVec c r)
  requestFromSlice bytes := orError errorText ((ofUtf8 bytes).getD "")
    ((fromSlice bytes).bind (requestOf c (paramsRoom + 1)))

variable {c errorText}

theorem orError_eq_ok {α : Type} {text : String} {x : Option α} {a : α} :
    orError errorText text x = .ok a ↔ x = some a := by
  cases x <;> simp [orError]

/-- The JSON of a task is read back as the task exactly if its doubles are finite, the seconds of its
budget are those of a double, and its gates go no deeper than the parser. -/
theorem taskFromStr_iff (hc : c.floats.RoundTrips) {t : ComputeTask} (hs : SortedParams t.request) :
    (serde c errorText).taskFromStr (taskToString c t) = .ok t ↔ ReadableTask c t := by
  have hparse : parse (taskToString c t).toList =
      some ((record (taskFields c t)).map (numeral c.floats)) := by
    rw [taskToString, String.toList_ofList]
    exact parse_render escape_escapes (numerals hc _)
  rw [← taskOf_doc hc hs, serde]
  simp only
  rw [orError_eq_ok, hparse, Option.bind_some]

theorem readsBack_iff (hc : c.floats.RoundTrips) {t : ComputeTask} (hs : SortedParams t.request) :
    (serde c errorText).ReadsBack t ↔ ReadableTask c t := by
  have hread : (serde c errorText).taskFromStr (taskToString c t) = .ok t ↔ ReadableTask c t :=
    taskFromStr_iff hc hs
  rw [← hread]
  constructor
  · rintro ⟨text, htext, hback⟩
    cases htext
    exact hback
  · exact fun h => ⟨_, rfl, h⟩

/-- The JSON of a request is read back one object less deep. -/
theorem requestFromSlice_iff (hc : c.floats.RoundTrips) {r : ComputeRequest} (hs : SortedParams r) :
    (serde c errorText).requestFromSlice (requestToVec c r) = .ok r ↔
      ReadableRequest (paramsRoom + 1) r := by
  have hslice : fromSlice (requestToVec c r) =
      some ((record (requestFields r)).map (numeral c.floats)) := fromSlice_toVec (numerals hc _)
  rw [← requestOf_doc hc hs, serde]
  simp only
  rw [orError_eq_ok, hslice, Option.bind_some]

/-- The JSON of a request determines it. -/
theorem requestToVec_inj (hc : c.floats.RoundTrips) {r r' : ComputeRequest} (hs : SortedParams r)
    (hs' : SortedParams r') (hr : ReadableRequest (paramsRoom + 1) r)
    (hr' : ReadableRequest (paramsRoom + 1) r') (h : requestToVec c r = requestToVec c r') :
    r = r' := by
  have hread : (serde c id).requestFromSlice (requestToVec c r) = .ok r :=
    (requestFromSlice_iff hc hs).mpr hr
  have hread' : (serde c id).requestFromSlice (requestToVec c r') = .ok r' :=
    (requestFromSlice_iff hc hs').mpr hr'
  rw [h, hread'] at hread
  exact (Except.ok.inj hread).symm

/-- **Main result.** A task and its request are each read back from their JSON exactly if they can
be: the doubles are finite, the seconds of the budget are those of a double, and the gates go no
deeper than the parser. -/
theorem json_read_back_iff (hc : c.floats.RoundTrips) {t : ComputeTask} (hs : SortedParams t.request) :
    ((serde c errorText).ReadsBack t ↔ ReadableTask c t) ∧
      ((serde c errorText).requestFromSlice (requestToVec c t.request) = .ok t.request ↔
        ReadableRequest (paramsRoom + 1) t.request) :=
  ⟨readsBack_iff hc hs, requestFromSlice_iff hc hs⟩

end Texts

/-! ### A codec that reads back -/

section Sample

open WqcNode.Domain.Dispatch

/-- `134.0`. -/
def estimate : F64 := Float.Model.ofBits 0x4060C00000000000

/-- `0.5`, `1.0` and `134.0` as they are written, any other float as a number made from its bits. -/
def numeralOfFinite (f : F64) : Decimal :=
  if f = half then ⟨false, ['0'], ['5'], none⟩
  else if f = one then ⟨false, ['1'], ['0'], none⟩
  else if f = estimate then ⟨false, ['1', '3', '4'], ['0'], none⟩
  else ⟨false, Nat.toDigits 10 (f.toBits.toNat + 1000), ['0'], none⟩

def floatOfNumeral (d : Decimal) : F64 :=
  if d.int = ['0'] then half
  else if d.int = ['1'] then one
  else if d.int = ['1', '3', '4'] then estimate
  else floatOfBits (digitsVal d.int - 1000)

def sampleFloats : FloatCodec := ⟨fun f => (numeralOfFinite f).text, floatOfNumeral⟩

def sampleJson : Codec where
  floats := sampleFloats
  ofSecs := Double.nearest
  toSecs := Double.value

theorem floatOfNumeral_numeralOfFinite (f : F64) : floatOfNumeral (numeralOfFinite f) = f := by
  unfold numeralOfFinite
  split_ifs with hhalf hone hestimate
  · exact hhalf.symm
  · exact hone.symm
  · exact hestimate.symm
  · have hlarge : ∀ text, digitsVal text < 1000 → Nat.toDigits 10 (f.toBits.toNat + 1000) ≠ text := by
      rintro text hlt rfl
      rw [digitsVal_toDigits] at hlt
      omega
    unfold floatOfNumeral
    rw [if_neg (hlarge _ (by decide)), if_neg (hlarge _ (by decide)), if_neg (hlarge _ (by decide)),
      digitsVal_toDigits, Nat.add_sub_cancel, floatOfBits_toBits]

theorem numeralOfFinite_isJson (f : F64) : (numeralOfFinite f).IsJson := by
  unfold numeralOfFinite
  split_ifs
  · exact ⟨⟨by simp, List.all_eq_true.mp rfl, List.all_eq_true.mp rfl, by simp⟩, by decide⟩
  · exact ⟨⟨by simp, List.all_eq_true.mp rfl, List.all_eq_true.mp rfl, by simp⟩, by decide⟩
  · exact ⟨⟨by simp, List.all_eq_true.mp rfl, List.all_eq_true.mp rfl, by simp⟩, by decide⟩
  · have hnat := Decimal.ofNat_isJson (f.toBits.toNat + 1000)
    exact ⟨⟨hnat.int_ne, hnat.int, List.forall_mem_singleton.mpr rfl, by simp⟩, hnat.leading⟩

theorem sampleFloats_roundTrips : sampleFloats.RoundTrips := fun f _ =>
  ⟨numeralOfFinite f, numeralOfFinite_isJson f, by unfold numeralOfFinite; split_ifs <;> rfl, rfl,
    floatOfNumeral_numeralOfFinite f⟩

/-- The task of a dispatch with a budget. -/
def storedTask : ComputeTask :=
  ⟨sampleTask.intoComputeRequest "node-a", "orch", some ⟨300, 134⟩, 1700000000000⟩

theorem json_read_back_stored : (serde sampleJson id).ReadsBack storedTask ∧
    (serde sampleJson id).requestFromSlice (requestToVec sampleJson storedTask.request) =
      .ok storedTask.request := by
  have hsorted : SortedParams storedTask.request := by
    intro gate hgate
    obtain rfl := List.mem_singleton.mp hgate
    simp [Sorted, SortedMembers]
  have hreadable : ∀ room, 1 ≤ room → ReadableRequest room storedTask.request := by
    refine fun room hroom => ⟨fun gate hgate => ?_, by decide +kernel, nofun⟩
    obtain rfl := List.mem_singleton.mp hgate
    simpa [depth, depthOfMembers] using hroom
  have hbudget : ∀ b ∈ storedTask.budget, isFinite (sampleJson.ofSecs b.expectedSecs) = true ∧
      sampleJson.toSecs (sampleJson.ofSecs b.expectedSecs) = b.expectedSecs := by
    rintro b hb
    obtain rfl := Option.some.inj hb
    decide +kernel
  have hread : ((serde sampleJson id).ReadsBack storedTask ↔ ReadableTask sampleJson storedTask) ∧ _ :=
    json_read_back_iff sampleFloats_roundTrips hsorted
  exact ⟨hread.1.mpr ⟨hreadable _ (by decide), hbudget⟩, hread.2.mpr (hreadable _ (by decide))⟩

end Sample

end WqcNode.Infra.TaskJson
