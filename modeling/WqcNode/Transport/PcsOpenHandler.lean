import WqcNode.Application.PcsOpenCalls
import WqcNode.Transport.PcsRequestHandler

/-! # Open calls from the orchestrator (`transport/p2p/pcs_open_handler.rs`)

What arrives on the two PCS streams reaches the outbox only after its signature was verified.

* `bundles_signed`: in every run of the outbox behind the two streams, each bundle of an open-call
  job was built from bytes with the hash that a verified open call and a verified request name
  together with the sub-task. -/

namespace WqcNode.Transport.PcsOpenHandler

open WqcNode.Lib WqcNode.Lib.Json WqcNode.Lib.JsonText WqcNode.Lib.Serde WqcNode.Lib.Machine
open WqcNode.Lib.SerdeShape
open WqcNode.Infra
open WqcNode.Domain.Models WqcNode.Domain.Pcs WqcNode.Domain.PcsSigning WqcNode.Domain.Announcement
open WqcNode.Domain.AnnouncementAuth
open WqcNode.Application.PcsMachine WqcNode.Application.PcsRequests
open WqcNode.Application.PcsOpenCalls
open WqcNode.Transport.PcsRequestHandler

/-! ### The source's functions -/

structure PcsOpenCallMessage where
  openCall : PcsOpenCall
  signature : String
deriving DecidableEq

/-- `PcsOpenCall`; the refused builders default to none. -/
def openCallOf (doc : Document Decimal) : Option PcsOpenCall :=
  match fieldsOnce ["parent_task_id", "sub_task_id", "slice_id", "leaf_proof_hash",
    "leaf_proof_bytes", "cas_presigned_url", "r_pcs_planck", "deadline_unix", "issued_at_unix",
    "refused_builders"] doc with
  | some [parentTaskId, subTaskId, sliceId, leafProofHash, leafProofBytes, casPresignedUrl,
      rPcsPlanck, deadlineUnix, issuedAtUnix, refusedBuilders] => do
    return ⟨← required textOf parentTaskId, ← required textOf subTaskId, ← required textOf sliceId,
      ← required textOf leafProofHash, ← required u64Of leafProofBytes,
      ← required textOf casPresignedUrl, ← required textOf rPcsPlanck, ← required i64Of deadlineUnix,
      ← required i64Of issuedAtUnix, ← orDefault [] (listOf textOf) refusedBuilders⟩
  | _ => none

def openMessageOf (doc : Document Decimal) : Option PcsOpenCallMessage :=
  match fieldsOnce ["open_call", "signature"] doc with
  | some [openCall, signature] => do
    return ⟨← required openCallOf openCall, ← required textOf signature⟩
  | _ => none

def openCallShape : Shape :=
  .flat ["parent_task_id", "sub_task_id", "slice_id", "leaf_proof_hash", "leaf_proof_bytes",
    "cas_presigned_url", "r_pcs_planck", "deadline_unix", "issued_at_unix", "refused_builders"]

def openMessageShape : Shape := .record [("open_call", openCallShape), ("signature", .whole)]

/-- `serde_json::from_slice` of a message. -/
def openMessageFromSlice (payload : Bytes) : Option PcsOpenCallMessage :=
  (fromSliceAs openMessageShape payload).bind openMessageOf

variable (api : Crypto) (config : Config)

/-- What the handler makes of the bytes of a stream, up to the cache: the verified call, or an
error. -/
def handlePcsOpenStream (payload : Bytes) : Except String PcsOpenCall := do
  let some message := openMessageFromSlice payload | .error (config.serdeError payload)
  let some orchestratorPubkey := config.orchestratorPublicKey
    | .error "orchestrator public key not configured"
  (verifyPcsOpenCallSignature api message.openCall message.signature orchestratorPubkey).mapError
    fun e => s!"pcs open call rejected: {e}"
  return message.openCall

/-! ### An open call on the wire -/

def openCallFields (call : PcsOpenCall) : List (String × Option (Document ℤ)) :=
  [("parent_task_id", some (.string call.parentTaskId)), ("sub_task_id", some (.string call.subTaskId)),
    ("slice_id", some (.string call.sliceId)), ("leaf_proof_hash", some (.string call.leafProofHash)),
    ("leaf_proof_bytes", some (.number call.leafProofBytes.toNat)),
    ("cas_presigned_url", some (.string call.casPresignedUrl)),
    ("r_pcs_planck", some (.string call.rPcsPlanck)),
    ("deadline_unix", some (.number call.deadlineUnix.toInt)),
    ("issued_at_unix", some (.number call.issuedAtUnix.toInt)),
    ("refused_builders", some (.array (call.refusedBuilders.map .string)))]

def openMessageFields (m : PcsOpenCallMessage) : List (String × Option (Document ℤ)) :=
  [("open_call", some (Serde.record (openCallFields m.openCall))), ("signature", some (.string m.signature))]

/-- A message as an orchestrator may write it. -/
def openMessageWire (m : PcsOpenCallMessage) : Bytes :=
  toVec (fun i => (Decimal.ofInt i).text) (Serde.record (openMessageFields m))

theorem ofInt_natCast (n : ℕ) : Decimal.ofInt n = Decimal.ofNat n := by
  simp [Decimal.ofInt, Decimal.ofNat]

theorem openCallOf_record (call : PcsOpenCall) :
    openCallOf ((Serde.record (openCallFields call)).map Decimal.ofInt) = some call := by
  have hfields := fieldsOnce_record
    ((openCallFields call).map fun e => (e.1, e.2.map (Document.map Decimal.ofInt)))
    (by simp [openCallFields])
  have hrefused : listOf textOf (.array (mapItems Decimal.ofInt
      (call.refusedBuilders.map Document.string))) = some call.refusedBuilders := by
    have hitems : (call.refusedBuilders.map (Document.map Decimal.ofInt ∘ Document.string)).mapM
        textOf = some (call.refusedBuilders.map id) := mapM_map id fun _ _ => rfl
    rw [listOf, mapItems_eq, List.map_map, hitems, List.map_id]
  rw [map_record, openCallOf]
  simp only [openCallFields, List.map_cons, List.map_nil, Option.map_some, Document.map] at hfields ⊢
  rw [hfields]
  simp [required, textOf, ofInt_natCast, hrefused]

theorem openMessageOf_record (m : PcsOpenCallMessage) :
    openMessageOf ((Serde.record (openMessageFields m)).map Decimal.ofInt) = some m := by
  have hfields := fieldsOnce_record
    ((openMessageFields m).map fun e => (e.1, e.2.map (Document.map Decimal.ofInt)))
    (by simp [openMessageFields])
  rw [map_record, openMessageOf]
  simp only [openMessageFields, List.map_cons, List.map_nil, Option.map_some, Document.map]
    at hfields ⊢
  rw [hfields]
  simp [required, textOf, openCallOf_record]

theorem restrict_openMessageFields (m : PcsOpenCallMessage) :
    restrict openMessageShape (Serde.record (openMessageFields m)) =
      Serde.record (openMessageFields m) := by
  have hcall : restrict openCallShape (Serde.record (openCallFields m.openCall)) =
      Serde.record (openCallFields m.openCall) := restrict_flat (by simp [openCallFields])
  refine restrict_record ?_
  simp [openMessageFields, Shape.member, hcall, restrict]

/-- The handler takes the open call of a message whose signature verifies. -/
theorem handle_openMessageWire {m : PcsOpenCallMessage} {key : String}
    (hkey : config.orchestratorPublicKey = some key)
    (hverify : verifyPcsOpenCallSignature api m.openCall m.signature key = .ok ()) :
    handlePcsOpenStream api config (openMessageWire m) = .ok m.openCall := by
  have hnum : Numerals (fun i => (Decimal.ofInt i).text) Decimal.ofInt
      (Serde.record (openMessageFields m)).numbers := fun i _ => ⟨rfl, Decimal.ofInt_isJson i⟩
  have hread : openMessageFromSlice (openMessageWire m) = some m := by
    rw [openMessageFromSlice, openMessageWire,
      fromSliceAs_of_whole hnum (restrict_openMessageFields m), Option.bind_some,
      openMessageOf_record]
  simp [handlePcsOpenStream, hread, hkey, hverify, Except.mapError, bind, Except.bind, pure,
    Except.pure]

/-! ### The outbox behind its streams -/

/-- What the outbox is driven by: the two streams, the result delivery and the scheduler. -/
inductive Input
  /-- the bytes of an open-call stream, and whether core's memory policy is `spill` -/
  | openStream (payload : Bytes) (spill : Bool)
  | requestStream (payload : Bytes)
  | retain (key : Key) (proof : Proof)
  | thread (i : ℕ) (c : Choice)
  | retry (c : Choice)
  | crash

/-- What the outbox does on it; a message that is rejected, or an open call that is not cached, does
nothing. -/
def actOf : Input → Option Act
  | .openStream payload spill =>
    match handlePcsOpenStream api config payload with
    | .ok call => if spill then some (.announce call) else none
    | .error _ => none
  | .requestStream payload =>
    match handlePcsRequestStream api config payload, config.orchestratorPublicKey with
    | .ok request, some orchestratorPubkey => some (.request orchestratorPubkey request)
    | _, _ => none
  | .retain key proof => some (.retain key proof)
  | .thread i c => some (.thread i c)
  | .retry c => some (.retry c)
  | .crash => some .crash

theorem actOf_openStream {api : Crypto} {config : Config} {payload : Bytes} {call : PcsOpenCall}
    (h : handlePcsOpenStream api config payload = .ok call) :
    actOf api config (.openStream payload true) = some (.announce call) := by
  simp [actOf, h]

theorem actOf_requestStream {api : Crypto} {config : Config} {payload : Bytes} {request : PcsRequest}
    {key : String} (h : handlePcsRequestStream api config payload = .ok request)
    (hkey : config.orchestratorPublicKey = some key) :
    actOf api config (.requestStream payload) = some (.request key request) := by
  simp [actOf, h, hkey]

/-! ### What has arrived was signed -/

/-- The announcements and the requests of the log were verified with the configured key. -/
structure Verified (log : List Event) : Prop where
  calls : ∀ call, .announced call ∈ log → ∃ key, config.orchestratorPublicKey = some key ∧
    ∃ signature, verifyPcsOpenCallSignature api call signature key = .ok ()
  requests : ∀ pubkey request, .requested pubkey request ∈ log →
    config.orchestratorPublicKey = some pubkey ∧
      ∃ signature, verifyPcsRequestSignature api request signature pubkey = .ok ()

variable {api config} {env : Env} {s s' : State} {key : String}

theorem verified_of_open {payload : Bytes} {call : PcsOpenCall}
    (h : handlePcsOpenStream api config payload = .ok call) :
    ∃ key, config.orchestratorPublicKey = some key ∧
      ∃ signature, verifyPcsOpenCallSignature api call signature key = .ok () := by
  cases hread : openMessageFromSlice payload with
  | none => simp [handlePcsOpenStream, hread] at h
  | some message =>
    cases hkey : config.orchestratorPublicKey with
    | none => simp [handlePcsOpenStream, hread, hkey] at h
    | some key =>
      cases hv : verifyPcsOpenCallSignature api message.openCall message.signature key with
      | error e =>
        simp [handlePcsOpenStream, hread, hkey, hv, Except.mapError, bind, Except.bind] at h
      | ok u =>
        simp only [handlePcsOpenStream, hread, hkey, hv, Except.mapError, bind, Except.bind, pure,
          Except.pure, Except.ok.injEq] at h
        exact ⟨key, rfl, message.signature, h ▸ hv⟩

theorem verified_of_request {payload : Bytes} {request : PcsRequest}
    (hkey : config.orchestratorPublicKey = some key)
    (h : handlePcsRequestStream api config payload = .ok request) :
    ∃ signature, verifyPcsRequestSignature api request signature key = .ok () := by
  cases hread : messageFromSlice payload with
  | none => simp [handlePcsRequestStream, hread] at h
  | some message =>
    cases hv : verifyPcsRequestSignature api message.request message.signature key with
    | error e =>
      simp [handlePcsRequestStream, hread, hkey, hv, Except.mapError, bind, Except.bind] at h
    | ok u =>
      simp only [handlePcsRequestStream, hread, hkey, hv, Except.mapError, bind, Except.bind, pure,
        Except.pure] at h
      split_ifs at h
      cases h
      exact ⟨message.signature, hv⟩

/-- A request or an announcement arrived. -/
def isArrival : Event → Bool
  | .announced _ | .requested _ _ => true
  | _ => false

/-- The log of arrivals grows by arrivals alone. -/
def KeepsArrivals (s s' : State) : Prop := ∀ e ∈ s'.log, isArrival e = true → e ∈ s.log

theorem keepsArrivals_store {k : Key} {job : PendingPcsJob} {asked : Bool} {c : Choice}
    (h : storeJob env s k job asked c = .ok s') : KeepsArrivals s s' := by
  obtain ⟨-, -, -, -, -, -, hlog⟩ := storeJob_ok h
  intro e he harrival
  rcases hlog with hlog | hlog <;> rw [hlog] at he
  · exact he
  · rcases List.mem_cons.mp he with rfl | he
    · cases harrival
    · exact he

theorem keepsArrivals_record (s : State) {e : Event} (he : isArrival e = false) :
    KeepsArrivals s (record s e) := by
  intro e' he' harrival
  rcases List.mem_cons.mp he' with rfl | hmem
  · simp [he] at harrival
  · exact hmem

theorem keepsArrivals_deliver {c : Choice} {d d' : Deliver} (h : DeliverMove env s c d s' d') :
    KeepsArrivals s s' := by
  cases h with
  | asked | fetched | built | proved | acked | refused => exact keepsArrivals_record s rfl
  | persisted pc store =>
    exact fun e he harrival =>
      keepsArrivals_store store e (keepsArrivals_record _ rfl e he harrival) harrival
  | _ => exact fun e he _ => he

theorem keepsArrivals_thread {c : Choice} {t t' : Thread} (h : ThreadMove env s c t s' t') :
    KeepsArrivals s s' := by
  cases h with
  | retained store | marked store | replaced store => exact keepsArrivals_store store
  | deliver move => exact keepsArrivals_deliver move
  | _ => exact fun e he _ => he

theorem keepsArrivals_retry {c : Choice} {r r' : RetryPc} (h : RetryMove env s c r s' r') :
    KeepsArrivals s s' := by
  cases h with
  | deliver move => exact keepsArrivals_deliver move
  | _ => exact fun e he _ => he

theorem Verified.keep (h : Verified api config s.log) (hkeep : KeepsArrivals s s') :
    Verified api config s'.log :=
  ⟨fun call hcall => h.calls call (hkeep _ hcall rfl),
    fun pubkey request hrequest => h.requests pubkey request (hkeep _ hrequest rfl)⟩

theorem step_verified (hv : Verified api config s.log) {input : Input} {a : Act}
    (ha : actOf api config input = some a) (h : step env s a = some s') :
    Verified api config s'.log := by
  cases input with
  | openStream payload spill =>
    simp only [actOf] at ha
    split at ha
    case h_1 call hcall =>
      split_ifs at ha
      cases ha
      cases h
      refine ⟨fun call' hmem => ?_, fun pubkey request hmem => ?_⟩
      · rcases List.mem_cons.mp hmem with heq | hmem
        · cases heq
          exact verified_of_open hcall
        · exact hv.calls call' hmem
      · rcases List.mem_cons.mp hmem with heq | hmem
        · cases heq
        · exact hv.requests pubkey request hmem
    case h_2 => cases ha
  | requestStream payload =>
    simp only [actOf] at ha
    split at ha
    case h_1 request pubkey hrequest hpubkey =>
      cases ha
      cases h
      refine ⟨fun call hmem => ?_, fun pubkey' request' hmem => ?_⟩
      · rcases List.mem_cons.mp hmem with heq | hmem
        · cases heq
        · exact hv.calls call hmem
      · rcases List.mem_cons.mp hmem with heq | hmem
        · cases heq
          exact ⟨hpubkey, verified_of_request hpubkey hrequest⟩
        · exact hv.requests pubkey' request' hmem
    case h_2 => cases ha
  | retain k proof =>
    cases ha
    cases h
    exact hv
  | thread i c =>
    cases ha
    simp only [step, Option.bind_eq_bind, Option.bind_eq_some_iff] at h
    obtain ⟨t, -, ⟨s₁, t₁⟩, ht, heq⟩ := h
    cases heq
    have hv₁ : Verified api config s₁.log := hv.keep (keepsArrivals_thread (threadStep_move ht))
    exact hv₁
  | retry c =>
    cases ha
    obtain ⟨s₁, hmove, heq, -⟩ := retryStep_move h
    have hv₁ : Verified api config s₁.log := hv.keep (keepsArrivals_retry hmove)
    rw [heq]
    exact hv₁
  | crash =>
    cases ha
    cases h
    exact hv

/-! ### Every open-call bundle -/

/-- The bundle was built from bytes with the source's hash, and that hash and the sub-task are
together in an open call and in a request that were verified. -/
structure SignedSource (api : Crypto) (env : Env) (log : List Event) (key : Key)
    (source : OpenCallPcsSource) (bundle : String) : Prop where
  built : BuiltFrom env log key source bundle
  call : ∃ call signature, verifyPcsOpenCallSignature api call signature key.1 = .ok () ∧
    .announced call ∈ log ∧ call.subTaskId = key.2 ∧ call.leafProofHash = source.leafProofHash
  request : ∃ request signature, verifyPcsRequestSignature api request signature key.1 = .ok () ∧
    .requested key.1 request ∈ log ∧ request.subTaskId = key.2 ∧
      request.leafProofHash = source.leafProofHash

/-- Every bundle of an open-call job, in a row or about to be sent, has a signed source. -/
structure BundlesSigned (api : Crypto) (env : Env) (s : State) : Prop where
  rows : ∀ key job source bundle, jobAt env s.storage key = some job →
    job.openCall = some source → job.leafPcsB64 = some bundle →
    SignedSource api env s.log key source bundle
  sends : ∀ d source bundle, Delivering s d → d.pc = .send bundle → d.job.openCall = some source →
    SignedSource api env s.log d.key source bundle

theorem signed_of_nominated {k : Key} {source : OpenCallPcsSource} {bundle : String}
    (hv : Verified api config s.log) (hbuilt : BuiltFrom env s.log k source bundle)
    (hnamed : Nominated s.log k source.leafProofHash) : SignedSource api env s.log k source bundle := by
  obtain ⟨⟨call, hcall, hid, hhash⟩, ⟨request, hrequest, hid', hhash'⟩⟩ := hnamed
  obtain ⟨hpubkey, signature, hverify⟩ := hv.requests _ _ hrequest
  obtain ⟨key, hkey, signature', hverify'⟩ := hv.calls _ hcall
  obtain rfl : k.1 = key := Option.some.inj (hpubkey.symm.trans hkey)
  exact ⟨hbuilt, ⟨call, signature', hverify', hcall, hid, hhash⟩,
    ⟨request, signature, hverify, hrequest, hid', hhash'⟩⟩

theorem run_verified {inputs : List Input} (hv : Verified api config s.log)
    (h : run (step env) s (inputs.filterMap (actOf api config)) = some s') :
    Verified api config s'.log := by
  induction inputs generalizing s with
  | nil =>
    cases h
    exact hv
  | cons input inputs ih =>
    cases ha : actOf api config input with
    | none =>
      rw [List.filterMap_cons_none ha] at h
      exact ih hv h
    | some a =>
      rw [List.filterMap_cons_some ha] at h
      obtain ⟨s₁, hs₁, hrun⟩ := run_cons_some.mp h
      exact ih (step_verified hv ha hs₁) hrun

/-- **Main result.** Whatever arrives on the two streams, in any interleaving with results, builds,
retries and restarts: in every state reached, every bundle of an open-call job was built from bytes
with the hash that a verified open call and a verified request name for the sub-task. -/
theorem bundles_signed (hserde : env.serde.RoundTrips) {inputs : List Input}
    (h : run (step env) init (inputs.filterMap (actOf api config)) = some s) :
    BundlesSigned api env s := by
  have hv : Verified api config s.log := run_verified ⟨by simp [init], by simp [init]⟩ h
  have hsourced := sourced hserde h
  refine ⟨fun k job source bundle hjob hs hb => ?_, fun d source bundle hd hpc hs => ?_⟩
  · obtain ⟨hbuilt, hnamed⟩ := hsourced.rows k job source bundle hjob hs hb
    exact signed_of_nominated hv hbuilt hnamed
  · obtain ⟨hbuilt, hnamed⟩ := hsourced.sends d source bundle hd hpc hs
    exact signed_of_nominated hv hbuilt hnamed

/-! ### A nominated builder, with the orchestrator's key of 32 sevens -/

def blob : Bytes := utf8 "leaf proof"

def blobHash : String := "4793b16e78f00d22ace29a5c0694ed3ebedbc67af90de61d80695741635b13c5"

def openCall : PcsOpenCall :=
  ⟨"parent", "sub-1", "01", blobHash, 10, "https://s3.example/blob", "400000000000", 1700001800,
    1700000000, ["node-b"]⟩

def nomination : PcsRequest :=
  ⟨"sub-1", "parent", "01", "node-a", 1700000100, "open_call", blobHash⟩

def openCallMessage : PcsOpenCallMessage :=
  ⟨openCall, "Nzxq+rW7X3+RNOSMSK0p/jEHNUyT/sMsTn2PXIjky7pKzZJbBU/ex0dUKq5K0y66mnv6BbPBBFZqBxvCYDzIAw=="⟩

def nominationMessage : PcsRequestMessage :=
  ⟨nomination, "z4MuCAP2PdjySTKt/lw+G/IIzAif99SefeCN9fjq9Jkesh02XMdU9vO96jipnaEcCZNRJZXXlnBXSH9hPjF7Ag=="⟩

/-- base64, Ed25519 and the orchestrator's two messages. -/
def orchestratorCrypto : Crypto :=
  tableCrypto [
    (openCallMessage.signature, be 64
      0x373c6afab5bb5f7f9134e48c48ad29fe3107354c93fec32c4e7d8f5c88e4cbba4acd925b054fdec747542aae4ad32eba9a7bfa05b3c104566a071bc2603cc803,
      serializePcsOpenCallPayload openCall),
    (nominationMessage.signature, be 64
      0xcf832e0803f63dd8f24932adfe5c3e1bf208cc089ff7d49e7de08df5f8eaf4991eb21d365cc754f6f3bdea38a99da11c0993512595d7967057487f613e317b02,
      serializePcsRequestPayload nomination)]

def builder : Config := ⟨some goldenKey, "node-a", fun _ => "expected value at line 1 column 1"⟩

def nominated : PendingPcsJob :=
  ⟨"sub-1", placeholderProof "sub-1" "node-a" "01", true, none, none,
    some ⟨blobHash, "https://s3.example/blob", 10, "01"⟩⟩

def nominatedBuilt : PendingPcsJob :=
  { nominated with leafPcsB64 := some "cGNz", leafPcsBytes := some 3 }

/-- The JSON of the builder's job, with what stands before the source. -/
def nominatedJson (bundle : String) : Bytes :=
  utf8 ("\x7b\"sub_task_id\":\"sub-1\",\"proof\":\x7b\"public_inputs\":\x7b\"circuit_id\":\"\"," ++
    "\"sub_task_id\":\"sub-1\",\"node_id\":\"node-a\",\"slice_id\":\"01\"," ++
    "\"output_result_hash\":\"\"\x7d,\"stark_proof_b64\":\"\"\x7d,\"requested\":true," ++ bundle ++
    "\"open_call\":\x7b\"leaf_proof_hash\":\"" ++ blobHash ++
    "\",\"cas_presigned_url\":\"https://s3.example/blob\",\"leaf_proof_bytes\":10," ++
    "\"slice_id\":\"01\"\x7d\x7d")

def nominatedTexts : List (PendingPcsJob × Bytes) :=
  [(nominated, nominatedJson ""),
    (nominatedBuilt, nominatedJson "\"leaf_pcs_b64\":\"cGNz\",\"leaf_pcs_bytes\":3,")]

/-- `nodeA` with serde's JSON of the builder's jobs and the SHA-256 of the blob. -/
def builderNode : Env :=
  { nodeA with
    serde := tableSerde nominatedTexts
    sha256Hex := fun data => if data = blob then blobHash else "" }

theorem builderNode_roundTrips : builderNode.serde.RoundTrips :=
  tableSerde_roundTrips nominatedTexts (by decide +kernel)

theorem openCall_verifies : verifyPcsOpenCallSignature orchestratorCrypto openCallMessage.openCall
    openCallMessage.signature goldenKey = .ok () := by decide +kernel

theorem nomination_verifies : verifyPcsRequestSignature orchestratorCrypto nominationMessage.request
    nominationMessage.signature goldenKey = .ok () := by decide +kernel

/-- The open call and the request arrive, the proof is fetched, built and stored. -/
def nominatedInputs : List Input :=
  [.openStream (openMessageWire openCallMessage) true,
    .requestStream (messageWire nominationMessage), .thread 0 {}, .thread 0 {}, .thread 0 {},
    .thread 0 {}, .thread 0 { cas := .ok blob }, .thread 0 { core := .ok ⟨"cGNz", 3⟩ }, .thread 0 {}]

def nominatedActs : List Act :=
  [.announce openCall, .request goldenKey nomination, .thread 0 {}, .thread 0 {}, .thread 0 {},
    .thread 0 {}, .thread 0 { cas := .ok blob }, .thread 0 { core := .ok ⟨"cGNz", 3⟩ }, .thread 0 {}]

theorem nominatedInputs_acts :
    nominatedInputs.filterMap (actOf orchestratorCrypto builder) = nominatedActs := by
  have hopen := handle_openMessageWire orchestratorCrypto builder rfl openCall_verifies
  have hrequest : handlePcsRequestStream orchestratorCrypto builder
      (messageWire nominationMessage) = .ok nominationMessage.request :=
    handle_of_verify rfl (messageFromSlice_messageWire _) nomination_verifies (.inr rfl)
  rw [nominatedInputs, List.filterMap_cons_some (actOf_openStream hopen),
    List.filterMap_cons_some (actOf_requestStream hrequest rfl)]
  rfl

theorem bundles_signed_nominated :
    ∃ s, run (step builderNode) init
        (nominatedInputs.filterMap (actOf orchestratorCrypto builder)) = some s ∧
      jobAt builderNode s.storage (goldenKey, "sub-1") = some nominatedBuilt ∧
      BundlesSigned orchestratorCrypto builderNode s := by
  have hrun : (run (step builderNode) init nominatedActs).any (fun s =>
      decide (jobAt builderNode s.storage (goldenKey, "sub-1") = some nominatedBuilt)) = true := by
    decide +kernel
  obtain ⟨s, hs, hp⟩ := (Option.any_eq_true _ _).mp hrun
  rw [← nominatedInputs_acts] at hs
  exact ⟨s, hs, of_decide_eq_true hp, bundles_signed builderNode_roundTrips hs⟩

end WqcNode.Transport.PcsOpenHandler
