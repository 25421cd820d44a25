import WqcNode.Lib.Bytes
import WqcNode.Domain.GoJson
import WqcNode.Domain.Observables

/-! # The signed dispatch (`serialize_dispatch_payload` and `into_compute_request` in `domain/p2p.rs`)

The payload begins with four ids one after the other, then come numbers of a fixed width, counted
lists and sections with their length in front, and last two optional parts, the time split and the
contraction tree.

* `signed_requests_agree`: two sub-tasks with one payload make the same compute request, up to the
  order of observables and terms and how numbers are written, and up to the noise model, which the
  payload leaves out. The ids and the edge ids have to end at the same places, and an observable's
  id and labels must not hold the quote that ends them.
* `unsigned_parts_collide`: none of these conditions can be dropped. -/

namespace WqcNode.Domain.Dispatch

open WqcNode.Lib WqcNode.Lib.Text WqcNode.Lib.Json WqcNode.Lib.Code
open WqcNode.Domain.Models WqcNode.Domain.GoFloat WqcNode.Domain.GoJson WqcNode.Domain.Observables

/-! ### The source's functions -/

/-- `SubTask` mirrors the orchestrator dispatch payload. -/
structure SubTask where
  taskId : String
  parentTaskId : String
  circuitId : String
  qubitCount : UInt32
  originalQubitCount : UInt32
  sliceId : String
  sliceAssignments : List SliceAssignment
  circuit : List Gate
  requiredVotes : UInt32
  mpsMaxBondDim : UInt32
  mpsSiteOrder : List UInt32
  /-- Gate index of a scalar time split. 0 means one MPS sweep. -/
  mpsTimeSplit : UInt32
  /-- Exact tree from the orchestrator. Absent on an MPS dispatch. -/
  contractionTree : Option ContractionTreeWire
  outputMode : String
  classicalBitCount : UInt32
  shots : UInt64
  sampleSeed : UInt64
  observables : List ObservableSpec
  noiseModel : Option NoiseModel
  securityLevel : String
deriving Inhabited

/-- What the payload takes from `ryu`, from Rust's float formatting and from `serde_json`. -/
structure Codec where
  ryu : Ryu
  floats : FloatText
  treeToVec : ContractionTreeWire → Except String Bytes
  treeFromSlice : Bytes → Option ContractionTreeWire

/-- `len as u32` and then the bytes. -/
def counted (bytes : Bytes) : Bytes := be32 (UInt32.ofNat bytes.length) ++ bytes

def textBytes (text : List Char) : Bytes := utf8 (String.ofList text)

def assignmentBytes (assignment : SliceAssignment) : Bytes :=
  utf8 assignment.edgeId ++ [assignment.value]

/-- Only present when a time split is set. -/
def splitBytes (split : UInt32) : Bytes := if split = 0 then [] else be32 split

section Payload

variable (c : Codec)

/-- Present only when the orchestrator attached a tree. -/
def treeBytes : Option ContractionTreeWire → Except String Bytes
  | none => .ok []
  | some tree => match c.treeToVec tree with
    | .error e => .error ("marshal contraction tree for dispatch signing: " ++ e)
    | .ok treeJson => .ok (counted treeJson)

/-- Mirrors orchestrator `task.SerializeDispatchPayload` byte layout exactly. -/
def serializeDispatchPayload (s : SubTask) : Except String Bytes := do
  let tree ← treeBytes c s.contractionTree
  return utf8 s.taskId ++ (utf8 s.parentTaskId ++ (utf8 s.circuitId ++ (utf8 s.sliceId ++
    (be32 s.qubitCount ++ (be32 s.originalQubitCount ++ (be32 s.requiredVotes ++
    (be32 (UInt32.ofNat s.sliceAssignments.length) ++
    (s.sliceAssignments.flatMap assignmentBytes ++
    (counted (textBytes (circuitSigningJson c.ryu s.circuit)) ++
    (be32 s.mpsMaxBondDim ++ (counted (utf8 s.outputMode) ++
    (be64 s.shots ++ (be32 s.classicalBitCount ++ (be64 s.sampleSeed ++
    (counted (textBytes (formatObservablesWireJson c.floats s.observables)) ++
    (be32 (UInt32.ofNat s.mpsSiteOrder.length) ++ (s.mpsSiteOrder.flatMap be32 ++
    (counted (utf8 s.securityLevel) ++ (splitBytes s.mpsTimeSplit ++ tree)))))))))))))))))))

end Payload

/-- A number that stands for "absent" when it is 0. -/
def positive {α : Type} [OfNat α 0] [LT α] [DecidableLT α] (n : α) : Option α :=
  if n > 0 then some n else none

def SubTask.intoComputeRequest (s : SubTask) (peerId : String) : ComputeRequest where
  taskId := s.taskId
  parentTaskId := some s.parentTaskId
  circuitId := s.circuitId
  nodeId := some peerId
  qubitCount := s.qubitCount.toUInt64
  originalQubitCount := s.originalQubitCount.toUInt64
  sliceId := s.sliceId
  sliceAssignments := s.sliceAssignments
  circuit := s.circuit
  requiredVotes := some s.requiredVotes
  mpsMaxBondDim := (positive s.mpsMaxBondDim).map UInt32.toUInt64
  mpsSiteOrder := if s.mpsSiteOrder = [] then none else some (s.mpsSiteOrder.map UInt32.toUInt64)
  mpsTimeSplit := (positive s.mpsTimeSplit).map UInt32.toUInt64
  contractionTree := s.contractionTree
  outputMode := s.outputMode
  classicalBitCount := positive s.classicalBitCount
  shots := positive s.shots
  sampleSeed := positive s.sampleSeed
  observables := s.observables
  noiseModel := s.noiseModel
  securityLevel := s.securityLevel

/-! ### What two sub-tasks with one payload must share -/

/-- The documented behaviour of the libraries: floats and trees are read back from their text, and a
tree's JSON begins with its first field. -/
structure Codec.ReadsBack (c : Codec) : Prop where
  ryu : Ryu.ReadsNumbers c.ryu
  floats : ∀ f, c.floats.ReadsBack f
  tree : ∀ {tree json}, c.treeToVec tree = .ok json → c.treeFromSlice json = some tree
  treeHead : ∀ {tree json}, c.treeToVec tree = .ok json →
    ∃ rest, json = utf8 "\x7b\"kind\":" ++ rest ∨ json = utf8 "\x7b\"nodes\":" ++ rest

/-- The part of it that is about trees. -/
structure Codec.ReadsTrees (c : Codec) : Prop where
  tree : ∀ {tree json}, c.treeToVec tree = .ok json → c.treeFromSlice json = some tree
  treeHead : ∀ {tree json}, c.treeToVec tree = .ok json →
    ∃ rest, json = utf8 "\x7b\"kind\":" ++ rest ∨ json = utf8 "\x7b\"nodes\":" ++ rest

theorem Codec.ReadsBack.trees {c : Codec} (hc : c.ReadsBack) : c.ReadsTrees :=
  ⟨hc.tree, hc.treeHead⟩

/-- The ids end at the same places of the payload: they are as long in bytes, and so are the edge
ids at each position. -/
structure SameBoundaries (s t : SubTask) : Prop where
  taskId : (utf8 s.taskId).length = (utf8 t.taskId).length
  parentTaskId : (utf8 s.parentTaskId).length = (utf8 t.parentTaskId).length
  circuitId : (utf8 s.circuitId).length = (utf8 t.circuitId).length
  sliceId : (utf8 s.sliceId).length = (utf8 t.sliceId).length
  edgeId : ∀ (i : ℕ) (a b : SliceAssignment), s.sliceAssignments[i]? = some a →
    t.sliceAssignments[i]? = some b → (utf8 a.edgeId).length = (utf8 b.edgeId).length

/-- Every count and length is below `2^32`, so that `as u32` keeps it, and the observables hold no
quotes. -/
structure WellDelimited (c : Codec) (s : SubTask) : Prop where
  sliceAssignments : s.sliceAssignments.length < 2 ^ 32
  circuit : (textBytes (circuitSigningJson c.ryu s.circuit)).length < 2 ^ 32
  outputMode : (utf8 s.outputMode).length < 2 ^ 32
  observables : (textBytes (formatObservablesWireJson c.floats s.observables)).length < 2 ^ 32
  mpsSiteOrder : s.mpsSiteOrder.length < 2 ^ 32
  securityLevel : (utf8 s.securityLevel).length < 2 ^ 32
  clean : ∀ o ∈ s.observables, Clean o

/-- The same request, up to the order of observables and of their terms and up to the spelling of
numbers inside gate params. -/
structure Agree (r r' : ComputeRequest) : Prop where
  circuit : r.circuit.map gateKey = r'.circuit.map gateKey
  observables : SameObservables r.observables r'.observables
  rest : { r with circuit := [], observables := [] } = { r' with circuit := [], observables := [] }

/-! ### Reading the payload -/

theorem read_be32 {m n : UInt32} {r r' : Bytes} (h : be32 m ++ r = be32 n ++ r') : m = n ∧ r = r' := by
  obtain ⟨hmn, hr⟩ := List.append_inj h (by simp)
  exact ⟨be32_inj hmn, hr⟩

theorem read_be64 {m n : UInt64} {r r' : Bytes} (h : be64 m ++ r = be64 n ++ r') : m = n ∧ r = r' := by
  obtain ⟨hmn, hr⟩ := List.append_inj h (by simp)
  exact ⟨be64_inj hmn, hr⟩

theorem read_utf8 {x y : String} {r r' : Bytes} (hlen : (utf8 x).length = (utf8 y).length)
    (h : utf8 x ++ r = utf8 y ++ r') : x = y ∧ r = r' := by
  obtain ⟨hxy, hr⟩ := List.append_inj h hlen
  exact ⟨utf8_inj hxy, hr⟩

/-- `as u32` keeps a count below `2^32`. -/
theorem ofNat_inj {m n : ℕ} (hm : m < 2 ^ 32) (hn : n < 2 ^ 32) (h : UInt32.ofNat m = UInt32.ofNat n) :
    m = n := by
  have h' := congrArg UInt32.toNat h
  rwa [UInt32.toNat_ofNat', UInt32.toNat_ofNat', Nat.mod_eq_of_lt hm, Nat.mod_eq_of_lt hn] at h'

theorem read_counted {x y r r' : Bytes} (hx : x.length < 2 ^ 32) (hy : y.length < 2 ^ 32)
    (h : counted x ++ r = counted y ++ r') : x = y ∧ r = r' := by
  rw [counted, counted, List.append_assoc, List.append_assoc] at h
  obtain ⟨hlen, h⟩ := read_be32 h
  exact List.append_inj h (ofNat_inj hx hy hlen)

theorem textBytes_inj {x y : List Char} (h : textBytes x = textBytes y) : x = y := by
  have h' := congrArg String.toList (utf8_inj h)
  rwa [String.toList_ofList, String.toList_ofList] at h'

/-- The assignments, as many of them and with edge ids as long in bytes. -/
theorem read_assignments : ∀ {l l' : List SliceAssignment} {r r' : Bytes}, l.length = l'.length →
    (∀ (i : ℕ) (a b : SliceAssignment), l[i]? = some a → l'[i]? = some b →
      (utf8 a.edgeId).length = (utf8 b.edgeId).length) →
    l.flatMap assignmentBytes ++ r = l'.flatMap assignmentBytes ++ r' → l = l' ∧ r = r'
  | [], [], r, r', _, _, h => ⟨rfl, by simpa using h⟩
  | a :: l, b :: l', r, r', hlen, hedge, h => by
    simp only [List.flatMap_cons, assignmentBytes, List.append_assoc, List.cons_append,
      List.nil_append] at h
    obtain ⟨hid, h⟩ := read_utf8 (hedge 0 a b rfl rfl) h
    obtain ⟨hvalue, h⟩ := List.cons.inj h
    obtain ⟨rfl, hr⟩ := read_assignments (by simpa using hlen)
      (fun i a b ha hb => hedge (i + 1) a b ha hb) h
    refine ⟨?_, hr⟩
    cases a
    cases b
    simp_all

theorem read_siteOrder : ∀ {l l' : List UInt32} {r r' : Bytes}, l.length = l'.length →
    l.flatMap be32 ++ r = l'.flatMap be32 ++ r' → l = l' ∧ r = r'
  | [], [], r, r', _, h => ⟨rfl, by simpa using h⟩
  | q :: l, q' :: l', r, r', hlen, h => by
    rw [List.flatMap_cons, List.flatMap_cons, List.append_assoc, List.append_assoc] at h
    obtain ⟨rfl, htail⟩ := read_be32 h
    obtain ⟨rfl, hr⟩ := read_siteOrder (by simpa using hlen) htail
    exact ⟨rfl, hr⟩

/-! ### The optional parts at the end -/

section Tail

variable {c : Codec}

theorem treeBytes_cases {tree : Option ContractionTreeWire} {bs : Bytes}
    (h : treeBytes c tree = .ok bs) :
    (tree = none ∧ bs = []) ∨
      ∃ t json, tree = some t ∧ c.treeToVec t = .ok json ∧ bs = counted json := by
  cases tree with
  | none =>
    cases h
    exact .inl ⟨rfl, rfl⟩
  | some t =>
    unfold treeBytes at h
    cases hvec : c.treeToVec t with
    | error e => simp [hvec] at h
    | ok json =>
      simp only [hvec, Except.ok.injEq] at h
      exact .inr ⟨t, json, rfl, hvec, h.symm⟩

theorem length_counted (bytes : Bytes) : (counted bytes).length = 4 + bytes.length := by
  simp [counted]

variable (hc : c.ReadsTrees)
include hc

/-- The JSON of a tree begins with a brace, and four bytes later there is none. -/
theorem tree_head {t : ContractionTreeWire} {json : Bytes} (h : c.treeToVec t = .ok json) :
    json[0]? = some 0x7b ∧ json[4]? ≠ some 0x7b := by
  obtain ⟨rest, rfl | rfl⟩ := hc.treeHead h
  · have hkind : utf8 "\x7b\"kind\":" = [0x7b, 0x22, 0x6b, 0x69, 0x6e, 0x64, 0x22, 0x3a] := by decide
    rw [hkind]
    simp
  · have hnodes : utf8 "\x7b\"nodes\":" =
        [0x7b, 0x22, 0x6e, 0x6f, 0x64, 0x65, 0x73, 0x22, 0x3a] := by decide
    rw [hnodes]
    simp

theorem treeBytes_inj {tree tree' : Option ContractionTreeWire} {bs : Bytes}
    (h : treeBytes c tree = .ok bs) (h' : treeBytes c tree' = .ok bs) : tree = tree' := by
  obtain ⟨rfl, rfl⟩ | ⟨t, json, rfl, hvec, rfl⟩ := treeBytes_cases h <;>
    obtain ⟨rfl, heq⟩ | ⟨t', json', rfl, hvec', heq⟩ := treeBytes_cases h'
  · rfl
  · exact absurd (congrArg List.length heq) (by rw [length_counted, List.length_nil]; omega)
  · exact absurd (congrArg List.length heq) (by rw [length_counted, List.length_nil]; omega)
  · obtain ⟨-, rfl⟩ := read_be32 heq
    rw [Option.some.inj ((hc.tree hvec).symm.trans (hc.tree hvec'))]

/-- A tree's length is not taken for a time split: the brace of the tree after the split would stand
inside the name of the first tree's first field. -/
theorem treeBytes_ne_split {tree tree' : Option ContractionTreeWire} {bs bs' : Bytes}
    (h : treeBytes c tree = .ok bs) (h' : treeBytes c tree' = .ok bs') (split : UInt32) :
    bs ≠ be32 split ++ bs' := by
  intro heq
  obtain ⟨rfl, rfl⟩ | ⟨t, json, rfl, hvec, rfl⟩ := treeBytes_cases h
  · exact absurd (congrArg List.length heq) (by
      rw [List.length_append, length_be32, List.length_nil]; omega)
  · obtain ⟨-, rfl⟩ := read_be32 heq
    obtain ⟨hhead, hfifth⟩ := tree_head hc hvec
    obtain ⟨rfl, rfl⟩ | ⟨t', json', rfl, hvec', rfl⟩ := treeBytes_cases h'
    · simp at hhead
    · apply hfifth
      rw [counted, List.getElem?_append_right (by simp)]
      simpa using (tree_head hc hvec').1

/-- The end of the payload determines the time split and the tree. -/
theorem read_tail {split split' : UInt32} {tree tree' : Option ContractionTreeWire} {bs bs' : Bytes}
    (hb : treeBytes c tree = .ok bs) (hb' : treeBytes c tree' = .ok bs')
    (h : splitBytes split ++ bs = splitBytes split' ++ bs') : split = split' ∧ tree = tree' := by
  unfold splitBytes at h
  split_ifs at h with hsplit hsplit' hsplit'
  · obtain rfl : bs = bs' := by simpa using h
    exact ⟨hsplit.trans hsplit'.symm, treeBytes_inj hc hb hb'⟩
  · exact absurd h (treeBytes_ne_split hc hb hb' split')
  · exact absurd h.symm (treeBytes_ne_split hc hb' hb split)
  · obtain ⟨rfl, rfl⟩ := read_be32 h
    exact ⟨rfl, treeBytes_inj hc hb hb'⟩

end Tail

/-! ### The sections after the assignments -/

/-- What follows the assignments, with the bytes of the tree. -/
def sectionBytes (c : Codec) (s : SubTask) (tree : Bytes) : Bytes :=
  counted (textBytes (circuitSigningJson c.ryu s.circuit)) ++
    (be32 s.mpsMaxBondDim ++ (counted (utf8 s.outputMode) ++
    (be64 s.shots ++ (be32 s.classicalBitCount ++ (be64 s.sampleSeed ++
    (counted (textBytes (formatObservablesWireJson c.floats s.observables)) ++
    (be32 (UInt32.ofNat s.mpsSiteOrder.length) ++ (s.mpsSiteOrder.flatMap be32 ++
    (counted (utf8 s.securityLevel) ++ (splitBytes s.mpsTimeSplit ++ tree))))))))))

/-- The sections are shorter than `2^32`. -/
structure ShortSections (c : Codec) (s : SubTask) : Prop where
  circuit : (textBytes (circuitSigningJson c.ryu s.circuit)).length < 2 ^ 32
  outputMode : (utf8 s.outputMode).length < 2 ^ 32
  observables : (textBytes (formatObservablesWireJson c.floats s.observables)).length < 2 ^ 32
  mpsSiteOrder : s.mpsSiteOrder.length < 2 ^ 32
  securityLevel : (utf8 s.securityLevel).length < 2 ^ 32

theorem WellDelimited.shortSections {c : Codec} {s : SubTask} (h : WellDelimited c s) :
    ShortSections c s :=
  ⟨h.circuit, h.outputMode, h.observables, h.mpsSiteOrder, h.securityLevel⟩

/-- The same values in the sections; circuit and observables as they are written there. -/
structure SameSections (c : Codec) (s t : SubTask) : Prop where
  circuit : circuitSigningJson c.ryu s.circuit = circuitSigningJson c.ryu t.circuit
  mpsMaxBondDim : s.mpsMaxBondDim = t.mpsMaxBondDim
  outputMode : s.outputMode = t.outputMode
  shots : s.shots = t.shots
  classicalBitCount : s.classicalBitCount = t.classicalBitCount
  sampleSeed : s.sampleSeed = t.sampleSeed
  observables : formatObservablesWireJson c.floats s.observables =
    formatObservablesWireJson c.floats t.observables
  mpsSiteOrder : s.mpsSiteOrder = t.mpsSiteOrder
  securityLevel : s.securityLevel = t.securityLevel
  mpsTimeSplit : s.mpsTimeSplit = t.mpsTimeSplit
  contractionTree : s.contractionTree = t.contractionTree

/-- The sections are read one after the other. -/
theorem read_sections {c : Codec} (hc : c.ReadsTrees) {s t : SubTask} (hs : ShortSections c s)
    (ht : ShortSections c t) {tree tree' : Bytes} (htree : treeBytes c s.contractionTree = .ok tree)
    (htree' : treeBytes c t.contractionTree = .ok tree')
    (h : sectionBytes c s tree = sectionBytes c t tree') : SameSections c s t := by
  unfold sectionBytes at h
  obtain ⟨hcircuit, h⟩ := read_counted hs.circuit ht.circuit h
  obtain ⟨hbond, h⟩ := read_be32 h
  obtain ⟨hmode, h⟩ := read_counted hs.outputMode ht.outputMode h
  obtain ⟨hshots, h⟩ := read_be64 h
  obtain ⟨hbits, h⟩ := read_be32 h
  obtain ⟨hseed, h⟩ := read_be64 h
  obtain ⟨hobs, h⟩ := read_counted hs.observables ht.observables h
  obtain ⟨hsites, h⟩ := read_be32 h
  obtain ⟨horder, h⟩ := read_siteOrder (ofNat_inj hs.mpsSiteOrder ht.mpsSiteOrder hsites) h
  obtain ⟨hlevel, h⟩ := read_counted hs.securityLevel ht.securityLevel h
  obtain ⟨hsplit, htrees⟩ := read_tail hc htree htree' h
  exact ⟨textBytes_inj hcircuit, hbond, utf8_inj hmode, hshots, hbits, hseed, textBytes_inj hobs,
    horder, utf8_inj hlevel, hsplit, htrees⟩

/-! ### The payload determines the request -/

theorem treeBytes_of_serialize {c : Codec} {s : SubTask} {bytes : Bytes}
    (h : serializeDispatchPayload c s = .ok bytes) :
    ∃ tree, treeBytes c s.contractionTree = .ok tree := by
  cases htree : treeBytes c s.contractionTree with
  | error e => simp [serializeDispatchPayload, htree, bind, Except.bind] at h
  | ok tree => exact ⟨tree, rfl⟩

/-- **Main result.** Two sub-tasks with one payload, whose ids end at the same places, make the same
request but for the noise model. -/
theorem signed_requests_agree {c : Codec} (hc : c.ReadsBack) {s t : SubTask} {bytes : Bytes}
    (hs : serializeDispatchPayload c s = .ok bytes) (ht : serializeDispatchPayload c t = .ok bytes)
    (hst : SameBoundaries s t) (hsd : WellDelimited c s) (htd : WellDelimited c t) (peerId : String) :
    Agree { s.intoComputeRequest peerId with noiseModel := none }
      { t.intoComputeRequest peerId with noiseModel := none } := by
  obtain ⟨tree, htree⟩ := treeBytes_of_serialize hs
  obtain ⟨tree', htree'⟩ := treeBytes_of_serialize ht
  have h := hs.trans ht.symm
  simp only [serializeDispatchPayload, htree, htree', bind, Except.bind, pure, Except.pure,
    Except.ok.injEq] at h
  obtain ⟨htask, h⟩ := read_utf8 hst.taskId h
  obtain ⟨hparent, h⟩ := read_utf8 hst.parentTaskId h
  obtain ⟨hcircuitId, h⟩ := read_utf8 hst.circuitId h
  obtain ⟨hslice, h⟩ := read_utf8 hst.sliceId h
  obtain ⟨hqubits, h⟩ := read_be32 h
  obtain ⟨horiginal, h⟩ := read_be32 h
  obtain ⟨hvotes, h⟩ := read_be32 h
  obtain ⟨hcount, h⟩ := read_be32 h
  obtain ⟨hassign, h⟩ := read_assignments
    (ofNat_inj hsd.sliceAssignments htd.sliceAssignments hcount) hst.edgeId h
  have hrest := read_sections hc.trees hsd.shortSections htd.shortSections htree htree' h
  refine ⟨circuitSigningJson_inj hc.ryu hrest.circuit,
    formatObservablesWireJson_inj hc.floats hsd.clean htd.clean hrest.observables, ?_⟩
  simp only [SubTask.intoComputeRequest, htask, hparent, hcircuitId, hslice, hqubits, horiginal,
    hvotes, hassign, hrest.mpsMaxBondDim, hrest.outputMode, hrest.shots, hrest.classicalBitCount,
    hrest.sampleSeed, hrest.mpsSiteOrder, hrest.securityLevel, hrest.mpsTimeSplit,
    hrest.contractionTree]

/-! ### A codec that reads back -/

def half : F64 := Float.Model.ofBits 0x3FE0000000000000

def one : F64 := Float.Model.ofBits 0x3FF0000000000000

/-- `0.5` and `1.0` as ryu and Rust write them, any other float as a number made from its bits. -/
def numeralOf (f : F64) : Decimal :=
  if f = half then ⟨false, ['0'], ['5'], none⟩
  else if f = one then ⟨false, ['1'], ['0'], none⟩
  else ⟨false, Nat.toDigits 10 (f.toBits.toNat + 1000), [], none⟩

instance decidableValid (b : BitVec Float.Model.Format.binary64.numBits) :
    Decidable (Float.Model.Format.binary64.Valid b) :=
  decidable_of_iff
    (Float.Model.UnpackedFloat.unpackExponent b = -1#_ →
      Float.Model.UnpackedFloat.unpackMantissa b ≠ 0#_ →
      b = Float.Model.UnpackedFloat.packedNaN Float.Model.Format.binary64)
    ⟨fun h => ⟨h⟩, fun h => h.eq_packedNaN⟩

def floatOfBits (n : ℕ) : F64 :=
  if h : Float.Model.Format.binary64.Valid (UInt64.ofNat n).toBitVec then ⟨UInt64.ofNat n, h⟩ else one

def floatOfMagnitude (q : ℚ) : F64 :=
  if q = 1 / 2 then half else if q = 1 then one else floatOfBits (q.num.toNat - 1000)

def floatOfText (text : List Char) : F64 :=
  if text = ['0', '.', '5'] then half
  else if text = ['1', '.', '0'] then one
  else floatOfBits (digitsVal text - 1000)

def leafTree : ContractionTreeWire := ⟨none, [], 0⟩

def leafJson : Bytes := utf8 "\x7b\"nodes\":[],\"peak_bytes\":0\x7d"

/-- The libraries on the sub-tasks below: the texts of `0.5` and `1.0` and the JSON of the tree
without nodes. -/
def sampleCodec : Codec where
  ryu := ⟨fun f => (numeralOf f).text, fun _ q => floatOfMagnitude q⟩
  floats := ⟨fun f => (numeralOf f).text, fun f => (numeralOf f).text, floatOfText⟩
  treeToVec tree := if tree = leafTree then .ok leafJson else .error "unknown tree"
  treeFromSlice bytes := if bytes = leafJson then some leafTree else none

theorem floatOfBits_toBits (f : F64) : floatOfBits f.toBits.toNat = f := by
  obtain ⟨bits, hvalid⟩ := f
  have hbits : UInt64.ofNat bits.toNat = bits := UInt64.ofNat_toNat
  rw [← hbits] at hvalid
  rw [floatOfBits, dif_pos hvalid]
  congr

theorem numeralOf_wellFormed (f : F64) : (numeralOf f).WellFormed := by
  unfold numeralOf
  split_ifs
  · exact ⟨by simp, List.forall_mem_singleton.mpr rfl, List.forall_mem_singleton.mpr rfl, by simp⟩
  · exact ⟨by simp, List.forall_mem_singleton.mpr rfl, List.forall_mem_singleton.mpr rfl, by simp⟩
  · exact ⟨Nat.toDigits_ne_nil,
      fun _ => Nat.isDigit_of_mem_toDigits (by norm_num) (by norm_num), by simp, by simp⟩

theorem floatOfMagnitude_numeralOf (f : F64) :
    0 < (numeralOf f).magnitude ∧ floatOfMagnitude (numeralOf f).magnitude = f := by
  unfold numeralOf
  split_ifs with hhalf hone
  · have hmag : (⟨false, ['0'], ['5'], none⟩ : Decimal).magnitude = 1 / 2 := by
      simp [Decimal.magnitude, Decimal.expVal, digitsVal, Nat.ofDigitChars]
      norm_num
    rw [hmag, hhalf]
    exact ⟨by norm_num, by simp [floatOfMagnitude]⟩
  · have hmag : (⟨false, ['1'], ['0'], none⟩ : Decimal).magnitude = 1 := by
      simp [Decimal.magnitude, Decimal.expVal, digitsVal, Nat.ofDigitChars]
    rw [hmag, hone]
    exact ⟨by norm_num, by norm_num [floatOfMagnitude]⟩
  · have hmag : (⟨false, Nat.toDigits 10 (f.toBits.toNat + 1000), [], none⟩ : Decimal).magnitude =
        ((f.toBits.toNat + 1000 : ℕ) : ℚ) := by
      simp [Decimal.magnitude, Decimal.expVal]
    have hlarge : (1000 : ℚ) ≤ ((f.toBits.toNat + 1000 : ℕ) : ℚ) := by
      exact_mod_cast Nat.le_add_left ..
    rw [hmag, floatOfMagnitude, if_neg (by linarith), if_neg (by linarith), Rat.num_natCast,
      Int.toNat_natCast, Nat.add_sub_cancel, floatOfBits_toBits]
    exact ⟨by linarith, rfl⟩

theorem floatOfText_numeralOf (f : F64) : floatOfText (numeralOf f).text = f := by
  unfold numeralOf
  split_ifs with hhalf hone
  · exact hhalf.symm
  · exact hone.symm
  · have htext : (⟨false, Nat.toDigits 10 (f.toBits.toNat + 1000), [], none⟩ : Decimal).text =
        Nat.toDigits 10 (f.toBits.toNat + 1000) := by
      simp [Decimal.text, Decimal.mantissa, Decimal.signText, Decimal.fracText, Decimal.expText]
    have hpoint : '.' ∉ Nat.toDigits 10 (f.toBits.toNat + 1000) := fun h =>
      absurd (Nat.isDigit_of_mem_toDigits (by norm_num) (by norm_num) h) (by decide)
    have hne : ∀ text, '.' ∈ text → Nat.toDigits 10 (f.toBits.toNat + 1000) ≠ text := by
      rintro _ hmem rfl
      exact hpoint hmem
    rw [htext, floatOfText, if_neg (hne _ (by simp)), if_neg (hne _ (by simp)), digitsVal_toDigits,
      Nat.add_sub_cancel, floatOfBits_toBits]

theorem isFloatChar_numeralOf (f : F64) : ∀ x ∈ (numeralOf f).text, isFloatChar x = true := by
  intro x hx
  have hnum := Decimal.isNumeral_text (numeralOf_wellFormed f) x hx
  simp only [isFloatChar, Bool.and_eq_true, bne_iff_ne, ne_eq]
  exact ⟨by rintro rfl; exact absurd hnum (by decide), by rintro rfl; exact absurd hnum (by decide)⟩

theorem sampleCodec_readsBack : sampleCodec.ReadsBack where
  ryu n _ := by
    obtain ⟨hpos, hparse⟩ := floatOfMagnitude_numeralOf n.asF64
    refine ⟨numeralOf n.asF64, numeralOf_wellFormed _, ?_, hpos, rfl, hparse⟩
    unfold numeralOf
    split_ifs <;> simp
  floats f :=
    ⟨isFloatChar_numeralOf f, floatOfText_numeralOf f, fun _ => isFloatChar_numeralOf f,
      fun _ => floatOfText_numeralOf f⟩
  tree := by
    intro tree json h
    simp only [sampleCodec] at h ⊢
    split_ifs at h with htree
    cases h
    rw [if_pos rfl, htree]
  treeHead := by
    intro tree json h
    simp only [sampleCodec] at h
    split_ifs at h with htree
    cases h
    exact ⟨utf8 "[],\"peak_bytes\":0\x7d", .inr (by decide)⟩

/-! ### Sub-tasks with one payload -/

def sampleTask : SubTask where
  taskId := "task-sub-0"
  parentTaskId := "task"
  circuitId := "circuit"
  qubitCount := 2
  originalQubitCount := 3
  sliceId := "slice-0"
  sliceAssignments := [⟨"edge-1", 1⟩, ⟨"e2", 0⟩]
  circuit := [⟨"H", .object [("target", .number (.posInt 1))]⟩]
  requiredVotes := 2
  mpsMaxBondDim := 64
  mpsSiteOrder := [1, 0]
  mpsTimeSplit := 3
  contractionTree := some leafTree
  outputMode := "expectation"
  classicalBitCount := 0
  shots := 0
  sampleSeed := 7
  observables := [⟨"zz", [⟨"ZZ", ⟨half, one⟩⟩, ⟨"XX", ⟨one, half⟩⟩]⟩, ⟨"x", []⟩]
  noiseModel := none
  securityLevel := "standard"

/-- Another spelling of a number, another order of observables and terms, and a noise model. -/
def respelledTask : SubTask :=
  { sampleTask with
    circuit := [⟨"H", .object [("target", .number (.float ⟨one, by decide⟩))]⟩]
    observables := [⟨"x", []⟩, ⟨"zz", [⟨"XX", ⟨one, half⟩⟩, ⟨"ZZ", ⟨half, one⟩⟩]⟩]
    noiseModel := some ⟨some half, none⟩ }

theorem sample_payload :
    ∃ bytes, serializeDispatchPayload sampleCodec sampleTask = .ok bytes ∧
      serializeDispatchPayload sampleCodec respelledTask = .ok bytes := by
  refine ⟨_, rfl, ?_⟩
  decide +kernel

theorem sampleTask_wellDelimited : WellDelimited sampleCodec sampleTask where
  sliceAssignments := by decide
  circuit := by decide +kernel
  outputMode := by decide
  observables := by decide +kernel
  mpsSiteOrder := by decide
  securityLevel := by decide
  clean := by
    intro o ho
    simp only [sampleTask, List.mem_cons, List.not_mem_nil, or_false] at ho
    rcases ho with rfl | rfl <;> exact ⟨by decide, by decide⟩

theorem respelledTask_wellDelimited : WellDelimited sampleCodec respelledTask where
  sliceAssignments := by decide
  circuit := by decide +kernel
  outputMode := by decide
  observables := by decide +kernel
  mpsSiteOrder := by decide
  securityLevel := by decide
  clean := by
    intro o ho
    simp only [respelledTask, List.mem_cons, List.not_mem_nil, or_false] at ho
    rcases ho with rfl | rfl <;> exact ⟨by decide, by decide⟩

/-- Two spellings of one dispatch. -/
theorem signed_requests_agree_respelled :
    Agree { sampleTask.intoComputeRequest "peer" with noiseModel := none }
      { respelledTask.intoComputeRequest "peer" with noiseModel := none } := by
  obtain ⟨bytes, hs, ht⟩ := sample_payload
  have hst : SameBoundaries sampleTask respelledTask :=
    ⟨rfl, rfl, rfl, rfl, fun i a b ha hb => by rw [Option.some.inj (ha.symm.trans hb)]⟩
  exact signed_requests_agree sampleCodec_readsBack hs ht hst sampleTask_wellDelimited
    respelledTask_wellDelimited "peer"

/-! ### Sub-tasks that collide -/

/-- One payload, and requests that differ. -/
def Collide (c : Codec) (s t : SubTask) : Prop :=
  (∃ bytes, serializeDispatchPayload c s = .ok bytes ∧ serializeDispatchPayload c t = .ok bytes) ∧
    ¬ Agree (s.intoComputeRequest "peer") (t.intoComputeRequest "peer")

/-- A sub-task with a site order of `n` zeros. -/
def longOrder (n : ℕ) : SubTask := { (default : SubTask) with mpsSiteOrder := List.replicate n 0 }

/-- A sub-task with a security level of `n` null characters. -/
def longLevel (n : ℕ) : SubTask :=
  { (default : SubTask) with securityLevel := String.ofList (List.replicate n '\x00') }

theorem flatMap_be32_zeros (n : ℕ) :
    (List.replicate n 0).flatMap be32 = List.replicate (4 * n) 0 := by
  induction n with
  | zero => rfl
  | succ n ih =>
    rw [List.replicate_succ, List.flatMap_cons, ih, Nat.mul_succ, Nat.add_comm,
      List.replicate_add]
    rfl

theorem utf8_nulls (n : ℕ) :
    utf8 (String.ofList (List.replicate n '\x00')) = List.replicate n 0 := by
  induction n with
  | zero => rfl
  | succ n ih =>
    have hcons : String.ofList (List.replicate (n + 1) '\x00') =
        String.ofList ['\x00'] ++ String.ofList (List.replicate n '\x00') := by
      rw [List.replicate_succ, ← String.ofList_append]
      rfl
    rw [hcons, utf8_append, ih, List.replicate_succ]
    rfl

/-- Where a count is written as 0, that many zeros of the site order are taken for a level. -/
theorem counts_collide (c : Codec) {n : ℕ} (hpos : n ≠ 0) (hn : UInt32.ofNat n = 0)
    (hn' : UInt32.ofNat (4 * n) = 0) : Collide c (longOrder n) (longLevel (4 * n)) := by
  have hzeros : be32 0 = List.replicate 4 0 := rfl
  have hempty : counted (utf8 "") = List.replicate 4 0 := rfl
  have htail : be32 (UInt32.ofNat (List.replicate n (0 : UInt32)).length) ++
      ((List.replicate n 0).flatMap be32 ++ (counted (utf8 "") ++ [])) =
      be32 0 ++ ([] ++ (counted (utf8 (String.ofList (List.replicate (4 * n) '\x00'))) ++ [])) := by
    rw [hempty, counted, List.length_replicate, hn, flatMap_be32_zeros, utf8_nulls,
      List.length_replicate, hn', hzeros]
    simp only [List.replicate_append_replicate, List.append_nil, List.nil_append]
    rw [Nat.add_comm (4 * n)]
  refine ⟨⟨_, rfl, congrArg Except.ok ?_⟩, ?_⟩
  · simp only [longOrder, longLevel, List.append_cancel_left_eq]
    exact htail.symm
  · intro h
    have hlevel : "" = String.ofList (List.replicate (4 * n) '\x00') :=
      congrArg ComputeRequest.securityLevel h.rest
    have hlength := congrArg (fun level => level.toList.length) hlevel
    simp only [String.toList_ofList, List.length_replicate] at hlength
    exact hpos (by simpa using hlength)

/-- **None of the conditions can be dropped.** The noise model is not in the payload; ids and edge
ids can end elsewhere; an observable's id can hold the text of another one; and a count wraps
around. -/
theorem unsigned_parts_collide :
    Collide sampleCodec sampleTask { sampleTask with noiseModel := some ⟨some half, none⟩ } ∧
    Collide sampleCodec { sampleTask with taskId := "ab", parentTaskId := "c" }
      { sampleTask with taskId := "a", parentTaskId := "bc" } ∧
    Collide sampleCodec { sampleTask with sliceAssignments := [⟨"a", 98⟩, ⟨"c", 100⟩] }
      { sampleTask with sliceAssignments := [⟨"", 97⟩, ⟨"bc", 100⟩] } ∧
    Collide sampleCodec
      { sampleTask with observables := [⟨"a\",\"terms\":[]\x7d,\x7b\"id\":\"b", []⟩] }
      { sampleTask with observables := [⟨"a", []⟩, ⟨"b", []⟩] } ∧
    Collide sampleCodec (longOrder (2 ^ 32)) (longLevel (4 * 2 ^ 32)) := by
  refine ⟨⟨⟨_, rfl, rfl⟩, ?_⟩, ⟨⟨_, rfl, ?_⟩, ?_⟩, ⟨⟨_, rfl, ?_⟩, ?_⟩, ⟨⟨_, rfl, ?_⟩, ?_⟩,
    counts_collide _ (by norm_num) rfl rfl⟩
  · intro h
    exact absurd (congrArg ComputeRequest.noiseModel h.rest) (by decide)
  · decide +kernel
  · intro h
    exact absurd (congrArg ComputeRequest.taskId h.rest) (by decide)
  · decide +kernel
  · intro h
    exact absurd (congrArg ComputeRequest.sliceAssignments h.rest) (by decide)
  · decide +kernel
  · intro h
    obtain ⟨m, m', hm, hmm, hm'⟩ := h.observables
    exact absurd (hm.length_eq.trans (hmm.length_eq.trans hm'.length_eq)) (by decide)

end WqcNode.Domain.Dispatch
