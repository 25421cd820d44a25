import WqcNode.Infra.PcsStorage
import WqcNode.Domain.Result
import WqcNode.Lib.SerdeValue

/-! # Jobs and bundles as JSON (`domain/pcs.rs`, `infra/storage.rs`)

A row of `pending_pcs` holds a job, and the bundle goes out as a message; both are records with
derived implementations. Rows that were written before a field was added lack it.

* `job_read_back`: a job that is stored is read back, and so is one without some of the fields that
  have a default, its own or those of its records; the other rows stay as they were. -/

namespace WqcNode.Infra.PcsJobJson

open WqcNode.Lib WqcNode.Lib.Json WqcNode.Lib.JsonText WqcNode.Lib.Serde
open WqcNode.Lib.SerdeValue (fieldsOnce_map_record nullable_eq_some nullable_skipped)
open WqcNode.Domain.Models WqcNode.Domain.Pcs WqcNode.Domain.Result

/-! ### Writing -/

section Write

abbrev Fields := List (String × Option (Document Domain.Result.Num))

/-- A job and a message have no floats. -/
def intText : Domain.Result.Num → List Char
  | .int n => Nat.toDigits 10 n
  | .float _ => []

def openCallFields (source : OpenCallPcsSource) : Fields :=
  [("leaf_proof_hash", some (.string source.leafProofHash)),
    ("cas_presigned_url", some (.string source.casPresignedUrl)),
    ("leaf_proof_bytes", some (.number (.int source.leafProofBytes.toNat))),
    ("slice_id", some (.string source.sliceId))]

def jobFields (job : PendingPcsJob) : Fields :=
  [("sub_task_id", some (.string job.subTaskId)), ("proof", some (record (proofFields job.proof))),
    ("requested", some (.bool job.requested)), ("leaf_pcs_b64", job.leafPcsB64.map .string),
    ("leaf_pcs_bytes", job.leafPcsBytes.map fun n => .number (.int n.toNat)),
    ("open_call", job.openCall.map fun source => record (openCallFields source))]

def messageFields (m : PcsMessage) : Fields :=
  [("sub_task_id", some (.string m.subTaskId)), ("node_id", some (.string m.nodeId)),
    ("leaf_pcs_b64", skipEmpty m.leafPcsB64),
    ("refused", if m.refused then some (.bool true) else none),
    ("refuse_reason", m.refuseReason.map .string)]

def jobToVec (job : PendingPcsJob) : Bytes := toVec intText (record (jobFields job))

/-- `to_json_bytes`. -/
def toJsonBytes (m : PcsMessage) : Bytes := toVec intText (record (messageFields m))

end Write

/-! ### Reading -/

section Read

def boolOf {ν : Type} : Document ν → Option Bool
  | .bool b => some b
  | _ => none

def publicInputsOf (doc : Document Decimal) : Option PublicInputs :=
  match fieldsOnce ["circuit_id", "sub_task_id", "node_id", "slice_id", "output_result_hash",
    "measurement_spec_hash", "security_level"] doc with
  | some [circuitId, subTaskId, nodeId, sliceId, outputResultHash, measurementSpecHash,
      securityLevel] => do
    return ⟨← required textOf circuitId, ← required textOf subTaskId, ← required textOf nodeId,
      ← required textOf sliceId, ← required textOf outputResultHash,
      ← orDefault "" textOf measurementSpecHash, ← orDefault "" textOf securityLevel⟩
  | _ => none

def proofOf (doc : Document Decimal) : Option Proof :=
  match fieldsOnce ["public_inputs", "stark_proof_b64"] doc with
  | some [publicInputs, starkProofB64] => do
    return ⟨← required publicInputsOf publicInputs, ← required textOf starkProofB64⟩
  | _ => none

def openCallOf (doc : Document Decimal) : Option OpenCallPcsSource :=
  match fieldsOnce ["leaf_proof_hash", "cas_presigned_url", "leaf_proof_bytes", "slice_id"] doc with
  | some [leafProofHash, casPresignedUrl, leafProofBytes, sliceId] => do
    return ⟨← required textOf leafProofHash, ← required textOf casPresignedUrl,
      ← orDefault 0 u64Of leafProofBytes, ← orDefault "" textOf sliceId⟩
  | _ => none

def jobOf (doc : Document Decimal) : Option PendingPcsJob :=
  match fieldsOnce ["sub_task_id", "proof", "requested", "leaf_pcs_b64", "leaf_pcs_bytes",
    "open_call"] doc with
  | some [subTaskId, proof, requested, leafPcsB64, leafPcsBytes, openCall] => do
    return {
      subTaskId := ← required textOf subTaskId
      proof := ← required proofOf proof
      requested := ← orDefault false boolOf requested
      leafPcsB64 := ← nullable textOf leafPcsB64
      leafPcsBytes := ← nullable u64Of leafPcsBytes
      openCall := ← nullable openCallOf openCall }
  | _ => none

def messageOf (doc : Document Decimal) : Option PcsMessage :=
  match fieldsOnce ["sub_task_id", "node_id", "leaf_pcs_b64", "refused", "refuse_reason"] doc with
  | some [subTaskId, nodeId, leafPcsB64, refused, refuseReason] => do
    return {
      subTaskId := ← required textOf subTaskId
      nodeId := ← required textOf nodeId
      leafPcsB64 := ← orDefault "" textOf leafPcsB64
      refused := ← orDefault false boolOf refused
      refuseReason := ← nullable textOf refuseReason }
  | _ => none

/-- `serde_json` on jobs; reading gives the error of a text. -/
def jobSerde (errorText : Bytes → String) : JobSerde where
  toVec job := .ok (jobToVec job)
  fromSlice bytes :=
    match (fromSlice bytes).bind jobOf with
    | some job => .ok job
    | none => .error (errorText bytes)

end Read

/-! ### Records are read back -/

section RoundTrip

/-- The numeral of an integer. -/
def intNumeral : Domain.Result.Num → Decimal
  | .int n => .ofNat n
  | .float _ => .ofNat 0

/-- A document without floats. -/
def Ints (doc : Document Domain.Result.Num) : Prop := ∀ n ∈ doc.numbers, ∃ k, n = .int k

theorem ints_record {fields : Fields} (h : ∀ f ∈ fields, ∀ doc ∈ f.2, Ints doc) :
    Ints (record fields) := by
  intro n hn
  rw [record, Document.numbers, mem_numbersOfMembers] at hn
  obtain ⟨m, hm, hn⟩ := hn
  obtain ⟨f, hf, hfm⟩ := List.mem_filterMap.mp hm
  obtain ⟨doc, hdoc, rfl⟩ := Option.map_eq_some_iff.mp hfm
  exact h f hf doc hdoc n hn

theorem fromSlice_ints {doc : Document Domain.Result.Num} (h : Ints doc) :
    fromSlice (toVec intText doc) = some (doc.map intNumeral) := by
  refine fromSlice_toVec fun n hn => ?_
  obtain ⟨k, rfl⟩ := h n hn
  exact ⟨(Decimal.ofNat_text k).symm, Decimal.ofNat_isJson k⟩

theorem ints_string (text : String) : Ints (.string text) := by simp [Ints, Document.numbers]

theorem ints_bool (b : Bool) : Ints (.bool b) := by simp [Ints, Document.numbers]

theorem ints_int (n : ℕ) : Ints (.number (.int n)) := by simp [Ints, Document.numbers]

theorem ints_skipEmpty {text : String} : ∀ doc ∈ skipEmpty text, Ints doc := by
  intro doc hdoc
  unfold skipEmpty at hdoc
  split_ifs at hdoc
  · cases hdoc
  · cases hdoc
    exact ints_string text

theorem ints_map {α : Type} {write : α → Document Domain.Result.Num} (h : ∀ a, Ints (write a))
    (x : Option α) : ∀ doc ∈ x.map write, Ints doc := by
  intro doc hdoc
  obtain ⟨a, -, rfl⟩ := Option.map_eq_some_iff.mp hdoc
  exact h a

theorem ints_publicInputs (p : PublicInputs) : ∀ f ∈ publicInputsFields p, ∀ doc ∈ f.2, Ints doc := by
  simp only [publicInputsFields, List.forall_mem_cons, Option.mem_some_iff, forall_eq']
  exact ⟨ints_string _, ints_string _, ints_string _, ints_string _, ints_string _, ints_skipEmpty,
    ints_skipEmpty, by simp⟩

theorem ints_openCall (source : OpenCallPcsSource) :
    ∀ f ∈ openCallFields source, ∀ doc ∈ f.2, Ints doc := by
  simp only [openCallFields, List.forall_mem_cons, Option.mem_some_iff, forall_eq']
  exact ⟨ints_string _, ints_string _, ints_int _, ints_string _, by simp⟩

theorem ints_message (m : PcsMessage) : Ints (record (messageFields m)) := by
  refine ints_record ?_
  simp only [messageFields, List.forall_mem_cons, Option.mem_some_iff, forall_eq']
  refine ⟨ints_string _, ints_string _, ints_skipEmpty, ?_, ints_map ints_string _, by simp⟩
  intro doc hdoc
  split_ifs at hdoc
  · cases hdoc
    exact ints_bool true
  · cases hdoc

theorem orDefault_skipped (text : String) :
    orDefault "" textOf ((skipEmpty text).map (Document.map intNumeral)) = some text := by
  unfold skipEmpty
  split_ifs with h
  · exact congrArg some h.symm
  · rw [Option.map_some, Document.map]
    rfl

theorem u64Of_int (n : UInt64) :
    u64Of ((Document.number (Domain.Result.Num.int n.toNat)).map intNumeral) = some n := by
  rw [Document.map, intNumeral, u64Of_ofNat]

/-! ### Fields that are missing -/

/-- The fields without those that are dropped. -/
def without (drop : String → Bool) (fields : Fields) : Fields :=
  fields.map fun f => (f.1, if drop f.1 then none else f.2)

theorem without_nil (drop : String → Bool) : without drop [] = [] := rfl

theorem without_cons (drop : String → Bool) (name : String) (field : Option (Document Domain.Result.Num))
    (fields : Fields) : without drop ((name, field) :: fields) =
      (name, if drop name then none else field) :: without drop fields := rfl

/-- The names an older row lacks: of the job, of its open call, of the public inputs of its proof. -/
structure Missing where
  job : String → Bool
  openCall : String → Bool
  publicInputs : String → Bool

/-- Nothing is missing. -/
def Missing.nothing : Missing := ⟨fun _ => false, fun _ => false, fun _ => false⟩

/-- Only fields with a default are missing. -/
structure Missing.Optional (m : Missing) : Prop where
  job : ∀ name ∈ ["sub_task_id", "proof"], m.job name = false
  openCall : ∀ name ∈ ["leaf_proof_hash", "cas_presigned_url"], m.openCall name = false
  publicInputs : ∀ name ∈ ["circuit_id", "sub_task_id", "node_id", "slice_id", "output_result_hash"],
    m.publicInputs name = false

def olderProofFields (m : Missing) (p : Proof) : Fields :=
  [("public_inputs", some (record (without m.publicInputs (publicInputsFields p.publicInputs)))),
    ("stark_proof_b64", some (.string p.starkProofB64))]

/-- The job in the form of an older row. -/
def olderFields (m : Missing) (job : PendingPcsJob) : Fields :=
  without m.job [("sub_task_id", some (.string job.subTaskId)),
    ("proof", some (record (olderProofFields m job.proof))),
    ("requested", some (.bool job.requested)), ("leaf_pcs_b64", job.leafPcsB64.map .string),
    ("leaf_pcs_bytes", job.leafPcsBytes.map fun n => .number (.int n.toNat)),
    ("open_call", job.openCall.map fun source => record (without m.openCall (openCallFields source)))]

/-- What is missing at its default. -/
def inputsWithDefaults (drop : String → Bool) (p : PublicInputs) : PublicInputs :=
  { p with
    measurementSpecHash := if drop "measurement_spec_hash" then "" else p.measurementSpecHash
    securityLevel := if drop "security_level" then "" else p.securityLevel }

def callWithDefaults (drop : String → Bool) (source : OpenCallPcsSource) : OpenCallPcsSource :=
  { source with
    leafProofBytes := if drop "leaf_proof_bytes" then 0 else source.leafProofBytes
    sliceId := if drop "slice_id" then "" else source.sliceId }

def withDefaults (m : Missing) (job : PendingPcsJob) : PendingPcsJob where
  subTaskId := job.subTaskId
  proof := { job.proof with publicInputs := inputsWithDefaults m.publicInputs job.proof.publicInputs }
  requested := if m.job "requested" then false else job.requested
  leafPcsB64 := if m.job "leaf_pcs_b64" then none else job.leafPcsB64
  leafPcsBytes := if m.job "leaf_pcs_bytes" then none else job.leafPcsBytes
  openCall := if m.job "open_call" then none else job.openCall.map (callWithDefaults m.openCall)

theorem without_nothing (fields : Fields) : without (fun _ => false) fields = fields := by
  simp [without]

theorem olderFields_nothing (job : PendingPcsJob) : olderFields .nothing job = jobFields job := by
  simp only [olderFields, olderProofFields, Missing.nothing, without_nothing]
  rfl

theorem withDefaults_nothing (job : PendingPcsJob) : withDefaults .nothing job = job := by
  have hcall : callWithDefaults (fun _ => false) = id := by
    funext source
    simp [callWithDefaults]
  simp [withDefaults, Missing.nothing, inputsWithDefaults, hcall]

theorem ints_without {drop : String → Bool} {fields : Fields} (h : ∀ f ∈ fields, ∀ doc ∈ f.2, Ints doc) :
    ∀ f ∈ without drop fields, ∀ doc ∈ f.2, Ints doc := by
  intro f hf doc hdoc
  obtain ⟨g, hg, rfl⟩ := List.mem_map.mp hf
  simp only at hdoc
  split_ifs at hdoc
  · cases hdoc
  · exact h g hg doc hdoc

theorem ints_older (m : Missing) (job : PendingPcsJob) : Ints (record (olderFields m job)) := by
  refine ints_record (ints_without ?_)
  simp only [List.forall_mem_cons, Option.mem_some_iff, forall_eq']
  refine ⟨ints_string _, ints_record ?_, ints_bool _, ints_map ints_string _,
    ints_map (fun n : UInt64 => ints_int n.toNat) _,
    ints_map (fun source => ints_record (ints_without (ints_openCall source))) _, by simp⟩
  simp only [olderProofFields, List.forall_mem_cons, Option.mem_some_iff, forall_eq']
  exact ⟨ints_record (ints_without (ints_publicInputs _)), ints_string _, by simp⟩

/-- A dropped field is read as its default, another as it is. -/
theorem orDefault_without {α : Type} {default : α} {read : Document Decimal → Option α}
    {field : Option (Document Domain.Result.Num)} {a : α}
    (hread : orDefault default read (field.map (Document.map intNumeral)) = some a) (drop : Bool) :
    orDefault default read ((if drop then none else field).map (Document.map intNumeral)) =
      some (if drop then default else a) := by
  cases drop with
  | true => rfl
  | false => exact hread

theorem nullable_without {α : Type} {write : α → Document Domain.Result.Num} {f : α → α}
    {read : Document Decimal → Option α} (hnull : read .null = none)
    (hread : ∀ a, read ((write a).map intNumeral) = some (f a)) (drop : Bool) (x : Option α) :
    nullable read ((if drop then none else x.map write).map (Document.map intNumeral)) =
      some (if drop then none else x.map f) := by
  cases drop with
  | true => rfl
  | false =>
    cases x with
    | none => rfl
    | some a =>
      show nullable read (some ((write a).map intNumeral)) = some (some (f a))
      rw [nullable_eq_some hnull]
      exact hread a

theorem textOf_string (text : String) :
    textOf ((Document.string text).map intNumeral) = some text := by
  rw [Document.map, textOf]

theorem publicInputsOf_without {drop : String → Bool}
    (hdrop : ∀ name ∈ ["circuit_id", "sub_task_id", "node_id", "slice_id", "output_result_hash"],
      drop name = false) (p : PublicInputs) :
    publicInputsOf ((record (without drop (publicInputsFields p))).map intNumeral) =
      some (inputsWithDefaults drop p) := by
  have hfields := fieldsOnce_map_record intNumeral (without drop (publicInputsFields p))
    (by simp [without, publicInputsFields])
  simp only [List.forall_mem_cons] at hdrop
  obtain ⟨hcircuit, hid, hnode, hslice, hhash, -⟩ := hdrop
  have hspec := orDefault_without (orDefault_skipped p.measurementSpecHash) (drop "measurement_spec_hash")
  have hlevel := orDefault_without (orDefault_skipped p.securityLevel) (drop "security_level")
  simp only [without, publicInputsFields, List.map_cons, List.map_nil, hcircuit, hid, hnode, hslice,
    hhash, Bool.false_eq_true, if_false, Option.map_some] at hfields
  rw [publicInputsOf, without, publicInputsFields]
  simp only [List.map_cons, List.map_nil, hcircuit, hid, hnode, hslice, hhash, Bool.false_eq_true,
    if_false, hfields, hspec, hlevel, required, Option.bind_some, Document.map, textOf]
  rfl

theorem openCallOf_without {drop : String → Bool}
    (hdrop : ∀ name ∈ ["leaf_proof_hash", "cas_presigned_url"], drop name = false)
    (source : OpenCallPcsSource) :
    openCallOf ((record (without drop (openCallFields source))).map intNumeral) =
      some (callWithDefaults drop source) := by
  have hfields := fieldsOnce_map_record intNumeral (without drop (openCallFields source))
    (by simp [without, openCallFields])
  simp only [List.forall_mem_cons] at hdrop
  obtain ⟨hhash, hurl, -⟩ := hdrop
  have hbytes : orDefault 0 u64Of ((if drop "leaf_proof_bytes" then none
      else some (.number (.int source.leafProofBytes.toNat))).map (Document.map intNumeral)) =
      some (if drop "leaf_proof_bytes" then 0 else source.leafProofBytes) := by
    refine orDefault_without ?_ _
    exact u64Of_int source.leafProofBytes
  have hslice : orDefault "" textOf ((if drop "slice_id" then none
      else some (.string source.sliceId)).map (Document.map intNumeral)) =
      some (if drop "slice_id" then "" else source.sliceId) := by
    refine orDefault_without ?_ _
    exact textOf_string source.sliceId
  simp only [without, openCallFields, List.map_cons, List.map_nil, hhash, hurl, Bool.false_eq_true,
    if_false, Option.map_some] at hfields
  rw [openCallOf, without, openCallFields]
  simp only [List.map_cons, List.map_nil, hhash, hurl, Bool.false_eq_true, if_false, hfields, hbytes,
    hslice, required, Option.bind_some, Document.map, textOf]
  rfl

theorem proofOf_older {m : Missing} (hm : m.Optional) (p : Proof) :
    proofOf ((record (olderProofFields m p)).map intNumeral) =
      some { p with publicInputs := inputsWithDefaults m.publicInputs p.publicInputs } := by
  have hinputs := publicInputsOf_without hm.publicInputs p.publicInputs
  have hfields := fieldsOnce_map_record intNumeral (olderProofFields m p) (by simp [olderProofFields])
  simp only [olderProofFields, List.map_cons, List.map_nil, Option.map_some] at hfields
  rw [proofOf, olderProofFields, hfields]
  simp only [required, Option.bind_some, hinputs, textOf_string]
  rfl

/-- **A job is read back**, whichever of the fields with a default are missing. -/
theorem jobOf_older {m : Missing} (hm : m.Optional) (job : PendingPcsJob) :
    jobOf ((record (olderFields m job)).map intNumeral) = some (withDefaults m job) := by
  have hfields := fieldsOnce_map_record intNumeral (olderFields m job)
    (by simp [olderFields, without])
  have hkept := hm.job
  simp only [List.forall_mem_cons] at hkept
  obtain ⟨hid, hproof, -⟩ := hkept
  simp only [olderFields, without_cons, without_nil, List.map_cons, List.map_nil, hid, hproof,
    Bool.false_eq_true, if_false, Option.map_some] at hfields
  have hrequested : orDefault false boolOf ((if m.job "requested" then none
      else some (Document.bool job.requested)).map (Document.map intNumeral)) =
      some (if m.job "requested" then false else job.requested) := by
    refine orDefault_without ?_ _
    rw [Option.map_some, Document.map]
    rfl
  have hopen := nullable_without rfl (openCallOf_without hm.openCall) (m.job "open_call") job.openCall
  have hbytes := nullable_without rfl u64Of_int (m.job "leaf_pcs_bytes") job.leafPcsBytes
  have hbundle := nullable_without rfl textOf_string (m.job "leaf_pcs_b64") job.leafPcsB64
  rw [jobOf, olderFields]
  simp only [without_cons, without_nil, hid, hproof, Bool.false_eq_true, if_false, hfields, hrequested,
    hbundle, hbytes, hopen, proofOf_older hm, required, Option.bind_some, textOf_string]
  simp [withDefaults]

/-- **A message is read back.** -/
theorem messageOf_record (m : PcsMessage) :
    messageOf ((record (messageFields m)).map intNumeral) = some m := by
  have hfields := fieldsOnce_map_record intNumeral (messageFields m) (by simp [messageFields])
  simp only [messageFields, List.map_cons, List.map_nil, Option.map_some, Document.map] at hfields
  have hrefused : orDefault false boolOf ((if m.refused = true then
      some (Document.bool true) else none).map (Document.map intNumeral)) = some m.refused := by
    split_ifs with h
    · rw [Option.map_some, Document.map, h]
      rfl
    · simp [orDefault, h]
  have hreason : nullable textOf ((m.refuseReason.map Document.string).map
      (Document.map intNumeral)) = some m.refuseReason :=
    (nullable_skipped rfl).mpr fun text _ => by rw [Document.map, textOf]
  rw [messageOf, messageFields, hfields]
  simp only [required, Option.bind_some, orDefault_skipped, hrefused, hreason, textOf]
  rfl

end RoundTrip

/-! ### The table -/

section Table

variable (errorText : Bytes → String)

/-- The JSON of a job, also without some of the fields that have a default. -/
theorem fromSlice_older {m : Missing} (hm : m.Optional) (job : PendingPcsJob) :
    (jobSerde errorText).fromSlice (toVec intText (record (olderFields m job))) =
      .ok (withDefaults m job) := by
  simp only [jobSerde, fromSlice_ints (ints_older m job), Option.bind_some, jobOf_older hm]

theorem jobSerde_roundTrips : (jobSerde errorText).RoundTrips := by
  intro job bytes hbytes
  have hnothing : Missing.nothing.Optional := ⟨fun _ _ => rfl, fun _ _ => rfl, fun _ _ => rfl⟩
  have hread := fromSlice_older errorText hnothing job
  rw [olderFields_nothing, withDefaults_nothing, ← jobToVec, Except.ok.inj hbytes] at hread
  exact hread

/-- What an upsert stores. -/
theorem upsert_get {serde : JobSerde} {job : PendingPcsJob} {bytes : Bytes}
    (h : serde.toVec job = .ok bytes) (st : PcsStorage) (key : Key) (now : ℤ) :
    ∃ st' entry, st.upsertPendingPcs serde key job now = .ok st' ∧
      st'.getPendingPcs key = some entry ∧ entry.attempts = 0 ∧ entry.jobJson = bytes ∧
      ∀ key' ≠ key, st'.getPendingPcs key' = st.getPendingPcs key' := by
  obtain ⟨st', hst⟩ := PcsStorage.exists_upsert h st key now
  obtain ⟨row, hrow⟩ := PcsStorage.upserted hst
  have hjson : row.jobJson = bytes := Except.ok.inj (hrow.json.symm.trans h)
  refine ⟨st', ⟨row.id, key, row.jobJson, row.attempts, row.createdAt⟩, hst, ?_, hrow.attempts, hjson,
    fun key' hne => ?_⟩
  · rw [PcsStorage.getPendingPcs, hrow.rows, Table.lookup_insert_if, if_pos rfl, Option.map_some]
  · rw [PcsStorage.getPendingPcs, hrow.rows, Table.lookup_insert_if, if_neg hne,
      PcsStorage.getPendingPcs]

/-- **Main result.** A job can always be stored, it is then read back from its row, with the row's
attempts at zero, and the other rows are as before; a row that lacks any of the fields with a default,
of the job, of its open call or of its proof's public inputs, is read as the job with these at their
defaults; and a message to the orchestrator is read back. -/
theorem job_read_back (st : PcsStorage) (key : Key) (job : PendingPcsJob) (now : ℤ) :
    (∃ st' entry, st.upsertPendingPcs (jobSerde errorText) key job now = .ok st' ∧
        st'.getPendingPcs key = some entry ∧ entry.attempts = 0 ∧
        (jobSerde errorText).fromSlice entry.jobJson = .ok job ∧
        ∀ key' ≠ key, st'.getPendingPcs key' = st.getPendingPcs key') ∧
      (∀ m : Missing, m.Optional →
        (jobSerde errorText).fromSlice (toVec intText (record (olderFields m job))) =
          .ok (withDefaults m job)) ∧
      ∀ m : PcsMessage, (fromSlice (toJsonBytes m)).bind messageOf = some m := by
  refine ⟨?_, fun m hm => fromSlice_older errorText hm job, fun m => ?_⟩
  · obtain ⟨st', entry, hst, hentry, hattempts, hjson, hothers⟩ :=
      upsert_get (rfl : (jobSerde errorText).toVec job = .ok (jobToVec job)) st key now
    refine ⟨st', entry, hst, hentry, hattempts, ?_, hothers⟩
    rw [hjson]
    exact jobSerde_roundTrips errorText job (jobToVec job) rfl
  · rw [toJsonBytes, fromSlice_ints (ints_message m), Option.bind_some, messageOf_record]

end Table

end WqcNode.Infra.PcsJobJson
