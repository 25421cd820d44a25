import WqcNode.Infra.TaskJson
import WqcNode.Domain.Dispatch
import WqcNode.Domain.Announcement
import WqcNode.Lib.Fallible

/-! # Dispatches from the orchestrator (`transport/p2p/dispatch_handler.rs`, `domain/p2p.rs`)

A dispatch is the JSON of a sub-task and a signature. The sub-task becomes a compute request, which
is stored as JSON again.

* `request_readable`: whatever JSON a dispatch is, its request is one whose JSON is read back. -/

namespace WqcNode.Transport.DispatchHandler

open WqcNode.Lib WqcNode.Lib.Json WqcNode.Lib.JsonText WqcNode.Lib.Serde WqcNode.Lib.SerdeValue
open WqcNode.Domain.Models WqcNode.Domain.Dispatch WqcNode.Domain.Announcement
open WqcNode.Lib.SerdeShape
open WqcNode.Infra WqcNode.Infra.TaskJson

/-! ### The source's functions -/

structure TaskDispatchMessage where
  subTask : SubTask
  signature : String

section Wire

variable (json : TaskJson.Codec)

/-- `SubTask`; its gates stand as deep in a message as in a stored task. -/
def subTaskOf (doc : Document Decimal) : Option SubTask :=
  match fieldsOnce ["task_id", "parent_task_id", "circuit_id", "qubit_count",
    "original_qubit_count", "slice_id", "slice_assignments", "circuit", "required_votes",
    "mps_max_bond_dim", "mps_site_order", "mps_time_split", "contraction_tree", "output_mode",
    "classical_bit_count", "shots", "sample_seed", "observables", "noise_model",
    "security_level"] doc with
  | some [taskId, parentTaskId, circuitId, qubitCount, originalQubitCount, sliceId,
      sliceAssignments, circuit, requiredVotes, mpsMaxBondDim, mpsSiteOrder, mpsTimeSplit,
      contractionTree, outputMode, classicalBitCount, shots, sampleSeed, observables, noiseModel,
      securityLevel] => do
    return {
      taskId := ← required textOf taskId
      parentTaskId := ← required textOf parentTaskId
      circuitId := ← required textOf circuitId
      qubitCount := ← required u32Of qubitCount
      originalQubitCount := ← required u32Of originalQubitCount
      sliceId := ← required textOf sliceId
      sliceAssignments := ← orDefault [] (listOf sliceAssignmentOf) sliceAssignments
      circuit := ← orDefault [] (listOf (gateOf json paramsRoom)) circuit
      requiredVotes := ← required u32Of requiredVotes
      mpsMaxBondDim := ← orDefault 0 u32Of mpsMaxBondDim
      mpsSiteOrder := ← orDefault [] (listOf u32Of) mpsSiteOrder
      mpsTimeSplit := ← orDefault 0 u32Of mpsTimeSplit
      contractionTree := ← nullable contractionTreeOf contractionTree
      outputMode := ← orDefault "" textOf outputMode
      classicalBitCount := ← orDefault 0 u32Of classicalBitCount
      shots := ← orDefault 0 u64Of shots
      sampleSeed := ← orDefault 0 u64Of sampleSeed
      observables := ← orDefault [] (listOf (observableOf json)) observables
      noiseModel := ← nullable (noiseModelOf json) noiseModel
      securityLevel := ← orDefault "" textOf securityLevel }
  | _ => none

def messageOf (doc : Document Decimal) : Option TaskDispatchMessage :=
  match fieldsOnce ["sub_task", "signature"] doc with
  | some [subTask, signature] => do
    return ⟨← required (subTaskOf json) subTask, ← required textOf signature⟩
  | _ => none

def subTaskShape : Shape :=
  .record [("task_id", .whole), ("parent_task_id", .whole), ("circuit_id", .whole),
    ("qubit_count", .whole), ("original_qubit_count", .whole), ("slice_id", .whole),
    ("slice_assignments", .list sliceAssignmentShape), ("circuit", .list gateShape),
    ("required_votes", .whole), ("mps_max_bond_dim", .whole), ("mps_site_order", .whole),
    ("mps_time_split", .whole), ("contraction_tree", contractionTreeShape), ("output_mode", .whole),
    ("classical_bit_count", .whole), ("shots", .whole), ("sample_seed", .whole),
    ("observables", .list observableShape), ("noise_model", noiseModelShape),
    ("security_level", .whole)]

def messageShape : Shape := .record [("sub_task", subTaskShape), ("signature", .whole)]

/-- `serde_json::from_slice` of a message. -/
def messageFromSlice (payload : Bytes) : Option TaskDispatchMessage :=
  (fromSliceAs messageShape payload).bind (messageOf json)

end Wire

/-- What the handler takes from the node's configuration, the texts of `serde_json`'s errors, and
the libraries. -/
structure Config where
  orchestratorPublicKey : Option String
  peerId : String
  serdeError : Bytes → String
  json : TaskJson.Codec
  payload : Domain.Dispatch.Codec

variable (api : Crypto) (config : Config)

def verifyDispatchSignature (subTask : SubTask) (signatureB64 orchestratorPublicKeyB64 : String) :
    Except String Unit := do
  let payload ← serializeDispatchPayload config.payload subTask
  verifyOrchestratorSignature api payload signatureB64 orchestratorPublicKeyB64 "dispatch"

/-- What the handler makes of the bytes of a stream, up to the call of `accept_compute_task`: the
verified sub-task and the key it was verified under, or an error. -/
def handleDispatchStream (payload : Bytes) : Except String (SubTask × String) := do
  let some message := messageFromSlice config.json payload | .error (config.serdeError payload)
  let some orchestratorPubkey := config.orchestratorPublicKey
    | .error "orchestrator public key not configured"
  (verifyDispatchSignature api config message.subTask message.signature
    orchestratorPubkey).mapError fun e => s!"dispatch rejected: {e}"
  return (message.subTask, orchestratorPubkey)

/-! ### What a message holds -/

section Read

variable {json : TaskJson.Codec}

theorem mem_listOf {α : Type} {read : Document Decimal → Option α} {doc : Document Decimal}
    {l : List α} (h : listOf read doc = some l) : ∀ a ∈ l, ∃ d, read d = some a := by
  unfold listOf at h
  split at h
  case h_2 => cases h
  case h_1 items =>
    induction items generalizing l with
    | nil =>
      cases h
      simp
    | cons d items ih =>
      rw [List.mapM_cons] at h
      obtain ⟨b, hb, h⟩ := Option.bind_eq_some_iff.mp h
      obtain ⟨bs, hbs, h⟩ := Option.bind_eq_some_iff.mp h
      cases h
      intro a ha
      rcases List.mem_cons.mp ha with rfl | ha
      · exact ⟨d, hb⟩
      · exact ih hbs a ha

theorem mem_orDefault {α : Type} {read : Document Decimal → Option α} {x : Option (Document Decimal)}
    {l : List α} (h : orDefault [] (listOf read) x = some l) : ∀ a ∈ l, ∃ d, read d = some a := by
  cases x with
  | none =>
    cases h
    simp
  | some doc => exact mem_listOf h

theorem of_nullable {α : Type} {read : Document Decimal → Option α} {x : Option (Document Decimal)}
    {y : Option α} (h : nullable read x = some y) : ∀ a ∈ y, ∃ d, read d = some a := by
  unfold nullable at h
  rintro a rfl
  split at h
  · cases h
  · cases h
  · obtain ⟨b, hb, hab⟩ := Option.map_eq_some_iff.mp h
    cases hab
    exact ⟨_, hb⟩

theorem isFinite_of_f64Of {fc : FloatCodec} {doc : Document Decimal} {f : F64}
    (h : f64Of fc doc = some f) : isFinite f = true := by
  unfold f64Of at h
  split at h
  · obtain ⟨g, -, rfl⟩ := Option.map_eq_some_iff.mp h
    exact g.2
  · cases h

theorem gateOf_sound {room : ℕ} {doc : Document Decimal} {gate : Gate}
    (h : gateOf json room doc = some gate) : Sorted gate.params ∧ depth gate.params ≤ room := by
  unfold gateOf at h
  split at h
  · obtain ⟨type, -, h⟩ := Option.bind_eq_some_iff.mp h
    obtain ⟨params, hparams, h⟩ := Option.bind_eq_some_iff.mp h
    cases h
    obtain ⟨d, -, hd⟩ := Option.bind_eq_some_iff.mp hparams
    exact valueWithin_sound hd
  · cases h

theorem complexCoeffOf_sound {doc : Document Decimal} {x : ComplexCoeff}
    (h : complexCoeffOf json doc = some x) : isFinite x.real = true ∧ isFinite x.imag = true := by
  unfold complexCoeffOf at h
  split at h
  · obtain ⟨real, hreal, h⟩ := Option.bind_eq_some_iff.mp h
    obtain ⟨imag, himag, h⟩ := Option.bind_eq_some_iff.mp h
    cases h
    obtain ⟨d, -, hd⟩ := Option.bind_eq_some_iff.mp hreal
    obtain ⟨e, -, he⟩ := Option.bind_eq_some_iff.mp himag
    exact ⟨isFinite_of_f64Of hd, isFinite_of_f64Of he⟩
  · cases h

theorem pauliTermOf_sound {doc : Document Decimal} {t : PauliTerm} (h : pauliTermOf json doc = some t) :
    isFinite t.coeff.real = true ∧ isFinite t.coeff.imag = true := by
  unfold pauliTermOf at h
  split at h
  · obtain ⟨label, -, h⟩ := Option.bind_eq_some_iff.mp h
    obtain ⟨coeff, hcoeff, h⟩ := Option.bind_eq_some_iff.mp h
    cases h
    obtain ⟨d, -, hd⟩ := Option.bind_eq_some_iff.mp hcoeff
    exact complexCoeffOf_sound hd
  · cases h

theorem observableOf_sound {doc : Document Decimal} {o : ObservableSpec}
    (h : observableOf json doc = some o) :
    ∀ t ∈ o.terms, isFinite t.coeff.real = true ∧ isFinite t.coeff.imag = true := by
  unfold observableOf at h
  split at h
  · obtain ⟨id, -, h⟩ := Option.bind_eq_some_iff.mp h
    obtain ⟨terms, hterms, h⟩ := Option.bind_eq_some_iff.mp h
    cases h
    obtain ⟨d, -, hd⟩ := Option.bind_eq_some_iff.mp hterms
    intro t ht
    obtain ⟨e, he⟩ := mem_listOf hd t ht
    exact pauliTermOf_sound he
  · cases h

theorem noiseModelOf_sound {doc : Document Decimal} {n : NoiseModel}
    (h : noiseModelOf json doc = some n) :
    (∀ p ∈ n.depolarizingP, isFinite p = true) ∧ ∀ p ∈ n.readoutError, isFinite p = true := by
  have hfinite : ∀ {x : Option (Document Decimal)} {y : Option F64},
      nullable (f64Of json.floats) x = some y → ∀ p ∈ y, isFinite p = true := by
    intro x y hy p hp
    obtain ⟨d, hd⟩ := of_nullable hy p hp
    exact isFinite_of_f64Of hd
  unfold noiseModelOf at h
  split at h
  · obtain ⟨depolarizingP, hp, h⟩ := Option.bind_eq_some_iff.mp h
    obtain ⟨readoutError, hr, h⟩ := Option.bind_eq_some_iff.mp h
    cases h
    exact ⟨hfinite hp, hfinite hr⟩
  · cases h

/-- **What a sub-task that is read holds.** -/
theorem subTaskOf_sound {doc : Document Decimal} {s : SubTask} (h : subTaskOf json doc = some s) :
    (∀ gate ∈ s.circuit, Sorted gate.params ∧ depth gate.params ≤ paramsRoom) ∧
      (∀ o ∈ s.observables, ∀ t ∈ o.terms,
        isFinite t.coeff.real = true ∧ isFinite t.coeff.imag = true) ∧
      ∀ n ∈ s.noiseModel,
        (∀ p ∈ n.depolarizingP, isFinite p = true) ∧ ∀ p ∈ n.readoutError, isFinite p = true := by
  unfold subTaskOf at h
  split at h
  case h_2 => cases h
  case h_1 =>
    iterate 7 obtain ⟨_, -, h⟩ := Option.bind_eq_some_iff.mp h
    obtain ⟨circuit, hcircuit, h⟩ := Option.bind_eq_some_iff.mp h
    iterate 9 obtain ⟨_, -, h⟩ := Option.bind_eq_some_iff.mp h
    obtain ⟨observables, hobservables, h⟩ := Option.bind_eq_some_iff.mp h
    obtain ⟨noiseModel, hnoise, h⟩ := Option.bind_eq_some_iff.mp h
    obtain ⟨_, -, h⟩ := Option.bind_eq_some_iff.mp h
    cases h
    refine ⟨fun gate hgate => ?_, fun o ho => ?_, fun n hn => ?_⟩
    · obtain ⟨d, hd⟩ := mem_orDefault hcircuit gate hgate
      exact gateOf_sound hd
    · obtain ⟨d, hd⟩ := mem_orDefault hobservables o ho
      exact observableOf_sound hd
    · obtain ⟨d, hd⟩ := of_nullable hnoise n hn
      exact noiseModelOf_sound hd

/-- **The request of a dispatch** is one whose JSON is read back in a task. -/
theorem request_readable {payload : Bytes} {message : TaskDispatchMessage}
    (h : messageFromSlice json payload = some message) (peerId : String) :
    SortedParams (message.subTask.intoComputeRequest peerId) ∧
      ReadableRequest paramsRoom (message.subTask.intoComputeRequest peerId) := by
  obtain ⟨doc, -, hdoc⟩ := Option.bind_eq_some_iff.mp h
  unfold messageOf at hdoc
  split at hdoc
  case h_2 => cases hdoc
  case h_1 =>
    obtain ⟨s, hs, hdoc⟩ := Option.bind_eq_some_iff.mp hdoc
    obtain ⟨signature, -, hdoc⟩ := Option.bind_eq_some_iff.mp hdoc
    cases hdoc
    obtain ⟨d, -, hd⟩ := Option.bind_eq_some_iff.mp hs
    obtain ⟨hcircuit, hobservables, hnoise⟩ := subTaskOf_sound hd
    exact ⟨fun gate hgate => (hcircuit gate hgate).1,
      ⟨fun gate hgate => (hcircuit gate hgate).2, hobservables, hnoise⟩⟩

end Read

variable {api config}

/-- **What the handler goes on with**: a sub-task of a message whose payload verifies. -/
theorem handleDispatchStream_ok {payload : Bytes} {s : SubTask} {pubkey : String}
    (h : handleDispatchStream api config payload = .ok (s, pubkey)) :
    ∃ message signed, messageFromSlice config.json payload = some message ∧ message.subTask = s ∧
      config.orchestratorPublicKey = some pubkey ∧
      serializeDispatchPayload config.payload s = .ok signed ∧
      verifyOrchestratorSignature api signed message.signature pubkey "dispatch" = .ok () := by
  unfold handleDispatchStream at h
  cases hm : messageFromSlice config.json payload with
  | none => simp [hm] at h
  | some message =>
    cases hk : config.orchestratorPublicKey with
    | none => simp [hm, hk] at h
    | some key =>
      simp only [hm, hk] at h
      obtain ⟨u, hverify, h⟩ := Fallible.bind_eq_ok.mp h
      cases h
      obtain ⟨signed, hsigned, hverify⟩ :=
        Fallible.bind_eq_ok.mp (Fallible.mapError_eq_ok.mp hverify)
      exact ⟨message, signed, rfl, rfl, rfl, hsigned, hverify⟩

theorem handleDispatchStream_of {payload signed : Bytes} {message : TaskDispatchMessage}
    {pubkey : String} (hkey : config.orchestratorPublicKey = some pubkey)
    (hread : messageFromSlice config.json payload = some message)
    (hsigned : serializeDispatchPayload config.payload message.subTask = .ok signed)
    (hverify : verifyOrchestratorSignature api signed message.signature pubkey "dispatch" = .ok ()) :
    handleDispatchStream api config payload = .ok (message.subTask, pubkey) := by
  have hok : verifyDispatchSignature api config message.subTask message.signature pubkey = .ok () :=
    Fallible.bind_eq_ok.mpr ⟨signed, hsigned, hverify⟩
  unfold handleDispatchStream
  simp only [hkey, hread, hok]
  rfl

end WqcNode.Transport.DispatchHandler
