import WqcNode.Lib.Serde
import WqcNode.Domain.Dispatch

/-! # The end of the signed dispatch (`serialize_dispatch_payload` in `domain/p2p.rs`)

The contraction tree as `serde_json` writes it (`ContractionTreeWire` in `domain/models.rs`), and
what follows from its shape: the two optional parts at the end of the payload, four bytes of a time
split and the counted JSON of a tree, are never taken for each other.

* `treeFromSlice_treeJson`: a tree is read back from its JSON.
* `payload_tail_determined`: once the ids and the assignments are fixed, the payload determines
  every other signed field. -/

namespace WqcNode.Domain.DispatchTail

open WqcNode.Lib WqcNode.Lib.Text WqcNode.Lib.Json WqcNode.Lib.JsonText WqcNode.Lib.Serde
open WqcNode.Domain.Models WqcNode.Domain.GoFloat WqcNode.Domain.GoJson WqcNode.Domain.Observables
open WqcNode.Domain.Dispatch

/-! ### The tree as JSON -/

def u32Doc (x : UInt32) : Document ℕ := .number x.toNat

/-- `TensorRefWire`: the operands that are set, in the orchestrator's order. -/
def tensorRefFields (r : TensorRefWire) : List (String × Option (Document ℕ)) :=
  [("ket0", r.ket0.map u32Doc), ("gate", r.gate.map u32Doc), ("node", r.node.map u32Doc),
    ("bra0", r.bra0.map u32Doc), ("control", r.control.map u32Doc), ("target", r.target.map u32Doc)]

/-- `ContractNodeWire`. -/
def contractNodeFields (n : ContractNodeWire) : List (String × Option (Document ℕ)) :=
  [("op", some (.string n.op)), ("left", some (record (tensorRefFields n.left))),
    ("right", some (record (tensorRefFields n.right)))]

/-- `ContractionTreeWire`. -/
def treeFields (t : ContractionTreeWire) : List (String × Option (Document ℕ)) :=
  [("kind", t.kind.map .string),
    ("nodes", some (.array (t.nodes.map fun n => record (contractNodeFields n)))),
    ("peak_bytes", some (.number t.peakBytes.toNat))]

/-- `serde_json::to_vec` of a tree. -/
def treeJson (t : ContractionTreeWire) : Bytes := toVec (Nat.toDigits 10) (record (treeFields t))

def tensorRefOf (doc : Document Decimal) : Option TensorRefWire :=
  match fieldsOnce ["ket0", "gate", "node", "bra0", "control", "target"] doc with
  | some [ket0, gate, node, bra0, control, target] => do
    return ⟨← nullable u32Of ket0, ← nullable u32Of gate, ← nullable u32Of node,
      ← nullable u32Of bra0, ← nullable u32Of control, ← nullable u32Of target⟩
  | _ => none

def contractNodeOf (doc : Document Decimal) : Option ContractNodeWire :=
  match fieldsOnce ["op", "left", "right"] doc with
  | some [op, left, right] => do
    return ⟨← required textOf op, ← required tensorRefOf left, ← required tensorRefOf right⟩
  | _ => none

def treeOf (doc : Document Decimal) : Option ContractionTreeWire :=
  match fieldsOnce ["kind", "nodes", "peak_bytes"] doc with
  | some [kind, nodes, peakBytes] => do
    return ⟨← nullable textOf kind, ← required (listOf contractNodeOf) nodes,
      ← required u64Of peakBytes⟩
  | _ => none

/-- `serde_json::from_slice` of a tree. -/
def treeFromSlice (bytes : Bytes) : Option ContractionTreeWire := (fromSlice bytes).bind treeOf

/-! ### The tree is read back -/

theorem nullable_u32 (x : Option UInt32) :
    nullable u32Of ((x.map u32Doc).map (Document.map Decimal.ofNat)) = some x := by
  cases x with
  | none => rfl
  | some x =>
    simp only [Option.map_some, u32Doc, Document.map, nullable, u32Of_ofNat]

theorem tensorRefOf_record (r : TensorRefWire) :
    tensorRefOf ((record (tensorRefFields r)).map Decimal.ofNat) = some r := by
  have hfields := fieldsOnce_record
    ((tensorRefFields r).map fun e => (e.1, e.2.map (Document.map Decimal.ofNat)))
    (by simp [tensorRefFields])
  simp only [tensorRefFields, List.map_cons, List.map_nil] at hfields
  rw [map_record, tensorRefOf]
  simp only [tensorRefFields, List.map_cons, List.map_nil, hfields, nullable_u32]
  rfl

theorem contractNodeOf_record (n : ContractNodeWire) :
    contractNodeOf ((record (contractNodeFields n)).map Decimal.ofNat) = some n := by
  have hfields := fieldsOnce_record
    ((contractNodeFields n).map fun e => (e.1, e.2.map (Document.map Decimal.ofNat)))
    (by simp [contractNodeFields])
  simp only [contractNodeFields, List.map_cons, List.map_nil, Option.map_some] at hfields
  rw [map_record, contractNodeOf]
  simp only [contractNodeFields, List.map_cons, List.map_nil, Option.map_some, hfields, required,
    Option.bind_some, tensorRefOf_record]
  rfl

theorem treeOf_record (t : ContractionTreeWire) :
    treeOf ((record (treeFields t)).map Decimal.ofNat) = some t := by
  have hfields := fieldsOnce_record
    ((treeFields t).map fun e => (e.1, e.2.map (Document.map Decimal.ofNat)))
    (by simp [treeFields])
  simp only [treeFields, List.map_cons, List.map_nil, Option.map_some, Document.map, mapItems_eq,
    List.map_map] at hfields
  have hnodes : (t.nodes.map (Document.map Decimal.ofNat ∘ fun n =>
      record (contractNodeFields n))).mapM contractNodeOf = some t.nodes :=
    (mapM_map id fun n _ => contractNodeOf_record n).trans (congrArg some (List.map_id _))
  have hkind : nullable textOf ((t.kind.map Document.string).map (Document.map Decimal.ofNat)) =
      some t.kind := by
    cases t.kind <;> rfl
  rw [map_record, treeOf]
  simp only [treeFields, List.map_cons, List.map_nil, Option.map_some, Document.map, mapItems_eq,
    List.map_map, hfields, required, Option.bind_some, listOf, hnodes, hkind, u64Of_ofNat]
  rfl

/-- **A tree is read back from its JSON.** -/
theorem treeFromSlice_treeJson (t : ContractionTreeWire) :
    treeFromSlice (treeJson t) = some t := by
  rw [treeFromSlice, treeJson, fromSlice_toVec fun n _ => ⟨(Decimal.ofNat_text n).symm,
    Decimal.ofNat_isJson n⟩, Option.bind_some, treeOf_record]

/-- The JSON of a tree begins with the name of its first field. -/
theorem treeJson_head (t : ContractionTreeWire) :
    ∃ rest, treeJson t = utf8 "\x7b\"kind\":" ++ rest ∨
      treeJson t = utf8 "\x7b\"nodes\":" ++ rest := by
  have hhead : ∀ {text : List Char} {pre : String} {rest : List Char}, text = pre.toList ++ rest →
      utf8 (String.ofList text) = utf8 pre ++ utf8 (String.ofList rest) := by
    intro text pre rest h
    rw [h, String.ofList_append, utf8_append, String.ofList_toList]
  have htext : ∃ rest, render escape (Nat.toDigits 10) (record (treeFields t)) =
        "\x7b\"kind\":".toList ++ rest ∨
      render escape (Nat.toDigits 10) (record (treeFields t)) = "\x7b\"nodes\":".toList ++ rest := by
    cases hkind : t.kind with
    | some kind => exact ⟨_, .inl (by simp [treeFields, hkind, record, present, render, renderMembers,
        renderString, escape, Code.joined]; rfl)⟩
    | none => exact ⟨_, .inr (by simp [treeFields, hkind, record, present, render, renderMembers,
        renderString, escape, Code.joined]; rfl)⟩
  obtain ⟨rest, h | h⟩ := htext
  · exact ⟨_, .inl (hhead h)⟩
  · exact ⟨_, .inr (hhead h)⟩

/-! ### The payload -/

/-- The codec of the code: `serde_json` for trees, with any `ryu` and any float formatting. -/
def serdeCodec (ryu : Ryu) (floats : FloatText) : Codec where
  ryu := ryu
  floats := floats
  treeToVec t := .ok (treeJson t)
  treeFromSlice := treeFromSlice

theorem serdeCodec_readsTrees (ryu : Ryu) (floats : FloatText) :
    (serdeCodec ryu floats).ReadsTrees where
  tree h := by
    cases h
    exact treeFromSlice_treeJson _
  treeHead h := by
    cases h
    exact treeJson_head _

/-- The same ids and assignments. -/
structure SameHead (s t : SubTask) : Prop where
  taskId : s.taskId = t.taskId
  parentTaskId : s.parentTaskId = t.parentTaskId
  circuitId : s.circuitId = t.circuitId
  sliceId : s.sliceId = t.sliceId
  sliceAssignments : s.sliceAssignments = t.sliceAssignments

/-- The same values in every other signed field. -/
structure SameTail (c : Codec) (s t : SubTask) : Prop extends SameSections c s t where
  qubitCount : s.qubitCount = t.qubitCount
  originalQubitCount : s.originalQubitCount = t.originalQubitCount
  requiredVotes : s.requiredVotes = t.requiredVotes

/-- **Main result.** Once the ids and the assignments are fixed, the payload determines every other
signed field. -/
theorem payload_tail_determined {ryu : Ryu} {floats : FloatText} {s t : SubTask} {bytes : Bytes}
    (hs : serializeDispatchPayload (serdeCodec ryu floats) s = .ok bytes)
    (ht : serializeDispatchPayload (serdeCodec ryu floats) t = .ok bytes) (hst : SameHead s t)
    (hss : ShortSections (serdeCodec ryu floats) s) (hts : ShortSections (serdeCodec ryu floats) t) :
    SameTail (serdeCodec ryu floats) s t := by
  obtain ⟨tree, htree⟩ := treeBytes_of_serialize hs
  obtain ⟨tree', htree'⟩ := treeBytes_of_serialize ht
  have h := hs.trans ht.symm
  simp only [serializeDispatchPayload, htree, htree', bind, Except.bind, pure, Except.pure,
    Except.ok.injEq, hst.taskId, hst.parentTaskId, hst.circuitId, hst.sliceId, hst.sliceAssignments,
    List.append_cancel_left_eq] at h
  obtain ⟨hqubits, h⟩ := read_be32 h
  obtain ⟨horiginal, h⟩ := read_be32 h
  obtain ⟨hvotes, h⟩ := read_be32 h
  rw [List.append_cancel_left_eq, List.append_cancel_left_eq] at h
  exact ⟨read_sections (serdeCodec_readsTrees ryu floats) hss hts htree htree' h, hqubits, horiginal,
    hvotes⟩

/-! ### A payload with both optional parts -/

def sampleSerde : Codec := serdeCodec sampleCodec.ryu sampleCodec.floats

def noRef : TensorRefWire := ⟨none, none, none, none, none, none⟩

/-- A dispatch with a time split and a network tree. -/
def treeTask : SubTask :=
  { sampleTask with
    contractionTree := some ⟨some "network",
      [⟨"contract", { noRef with ket0 := some 0 }, { noRef with gate := some 12 }⟩,
        ⟨"contract", { noRef with node := some 0 }, { noRef with bra0 := some 1 }⟩], 4096⟩ }

/-- The same with another spelling of a number and another order of the observables. -/
def respelledTreeTask : SubTask :=
  { treeTask with
    circuit := respelledTask.circuit
    observables := respelledTask.observables }

theorem treeTask_payload :
    ∃ bytes, serializeDispatchPayload sampleSerde treeTask = .ok bytes ∧
      serializeDispatchPayload sampleSerde respelledTreeTask = .ok bytes := by
  refine ⟨_, rfl, ?_⟩
  decide +kernel

theorem treeTask_shortSections : ShortSections sampleSerde treeTask :=
  ⟨by decide +kernel, by decide, by decide +kernel, by decide, by decide⟩

theorem respelledTreeTask_shortSections : ShortSections sampleSerde respelledTreeTask :=
  ⟨by decide +kernel, by decide, by decide +kernel, by decide, by decide⟩

/-- Two spellings of one dispatch with both optional parts. -/
theorem payload_tail_determined_respelled : SameTail sampleSerde treeTask respelledTreeTask := by
  obtain ⟨bytes, hs, ht⟩ := treeTask_payload
  exact payload_tail_determined hs ht ⟨rfl, rfl, rfl, rfl, rfl⟩ treeTask_shortSections
    respelledTreeTask_shortSections

end WqcNode.Domain.DispatchTail
