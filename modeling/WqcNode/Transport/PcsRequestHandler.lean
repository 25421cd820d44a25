import WqcNode.Lib.SerdeShape
import WqcNode.Domain.PcsSigning
import WqcNode.Domain.AnnouncementAuth

/-! # PCS requests from the orchestrator (`transport/p2p/pcs_request_handler.rs`)

A request names the node it is for, and the node rejects one that names another node. But the signed
bytes do not say where the name begins, and a request without a name is for every node: a request
for another node is obeyed once its name is moved into the slice id.

* `rejectedElsewhere_iff`: whatever the request for another node is, the node obeys a message that
  verifies because of it alone, unless a second request has the same signed bytes. -/

namespace WqcNode.Transport.PcsRequestHandler

open WqcNode.Lib WqcNode.Lib.Json WqcNode.Lib.JsonText WqcNode.Lib.Serde
open WqcNode.Lib.SerdeShape
open WqcNode.Domain.Pcs WqcNode.Domain.PcsSigning
open WqcNode.Domain.Announcement WqcNode.Domain.AnnouncementAuth

/-! ### The source's functions -/

structure PcsRequestMessage where
  request : PcsRequest
  signature : String
deriving DecidableEq

/-- What the handler takes from the node's configuration, and the texts of `serde_json`'s errors. -/
structure Config where
  orchestratorPublicKey : Option String
  peerId : String
  serdeError : Bytes → String

/-- `PcsRequest`; every field but the first has a default. -/
def requestOf (doc : Document Decimal) : Option PcsRequest :=
  match fieldsOnce ["sub_task_id", "parent_task_id", "slice_id", "node_id", "issued_at_unix",
    "request_kind", "leaf_proof_hash"] doc with
  | some [subTaskId, parentTaskId, sliceId, nodeId, issuedAtUnix, requestKind, leafProofHash] => do
    return ⟨← required textOf subTaskId, ← orDefault "" textOf parentTaskId,
      ← orDefault "" textOf sliceId, ← orDefault "" textOf nodeId, ← orDefault 0 i64Of issuedAtUnix,
      ← orDefault "" textOf requestKind, ← orDefault "" textOf leafProofHash⟩
  | _ => none

def requestShape : Shape :=
  .flat ["sub_task_id", "parent_task_id", "slice_id", "node_id", "issued_at_unix", "request_kind",
    "leaf_proof_hash"]

def messageShape : Shape := .record [("request", requestShape), ("signature", .whole)]

def messageOf (doc : Document Decimal) : Option PcsRequestMessage :=
  match fieldsOnce ["request", "signature"] doc with
  | some [request, signature] => do
    return ⟨← required requestOf request, ← required textOf signature⟩
  | _ => none

/-- `serde_json::from_slice` of a message. -/
def messageFromSlice (payload : Bytes) : Option PcsRequestMessage :=
  (fromSliceAs messageShape payload).bind messageOf

variable (api : Crypto) (config : Config)

/-- What the handler makes of the bytes of a stream: the request `handle_pcs_request` is called
with, or an error. -/
def handlePcsRequestStream (payload : Bytes) : Except String PcsRequest := do
  let some message := messageFromSlice payload | .error (config.serdeError payload)
  let some orchestratorPubkey := config.orchestratorPublicKey
    | .error "orchestrator public key not configured"
  (verifyPcsRequestSignature api message.request message.signature orchestratorPubkey).mapError
    fun e => s!"pcs request rejected: {e}"
  if message.request.nodeId ≠ "" ∧ message.request.nodeId ≠ config.peerId then
    .error s!"pcs request addressed to {message.request.nodeId}, not this node"
  return message.request

/-! ### A message on the wire -/

def requestFields (r : PcsRequest) : List (String × Option (Document ℤ)) :=
  [("sub_task_id", some (.string r.subTaskId)), ("parent_task_id", some (.string r.parentTaskId)),
    ("slice_id", some (.string r.sliceId)), ("node_id", some (.string r.nodeId)),
    ("issued_at_unix", some (.number r.issuedAtUnix.toInt)),
    ("request_kind", some (.string r.requestKind)),
    ("leaf_proof_hash", some (.string r.leafProofHash))]

def messageFields (m : PcsRequestMessage) : List (String × Option (Document ℤ)) :=
  [("request", some (record (requestFields m.request))), ("signature", some (.string m.signature))]

/-- A message with all its fields, as an orchestrator may write it. -/
def messageWire (m : PcsRequestMessage) : Bytes :=
  toVec (fun i => (Decimal.ofInt i).text) (record (messageFields m))

theorem requestOf_record (r : PcsRequest) :
    requestOf ((record (requestFields r)).map Decimal.ofInt) = some r := by
  have hfields := fieldsOnce_record
    ((requestFields r).map fun e => (e.1, e.2.map (Document.map Decimal.ofInt))) (by simp [requestFields])
  rw [map_record, requestOf]
  simp only [requestFields, List.map_cons, List.map_nil, Option.map_some, Document.map] at hfields ⊢
  rw [hfields]
  simp [required, textOf]

theorem messageOf_record (m : PcsRequestMessage) :
    messageOf ((record (messageFields m)).map Decimal.ofInt) = some m := by
  have hfields := fieldsOnce_record
    ((messageFields m).map fun e => (e.1, e.2.map (Document.map Decimal.ofInt))) (by simp [messageFields])
  rw [map_record, messageOf]
  simp only [messageFields, List.map_cons, List.map_nil, Option.map_some, Document.map] at hfields ⊢
  rw [hfields]
  simp [required, textOf, requestOf_record]

theorem restrict_messageFields (m : PcsRequestMessage) :
    restrict messageShape (record (messageFields m)) = record (messageFields m) := by
  have hrequest : restrict requestShape (record (requestFields m.request)) =
      record (requestFields m.request) := restrict_flat (by simp [requestFields])
  refine restrict_record ?_
  simp [messageFields, Shape.member, hrequest, restrict]

theorem messageFromSlice_messageWire (m : PcsRequestMessage) :
    messageFromSlice (messageWire m) = some m := by
  have hnum : Numerals (fun i => (Decimal.ofInt i).text) Decimal.ofInt
      (record (messageFields m)).numbers := fun i _ => ⟨rfl, Decimal.ofInt_isJson i⟩
  rw [messageFromSlice, messageWire, fromSliceAs_of_whole hnum (restrict_messageFields m),
    Option.bind_some, messageOf_record]

/-! ### Requests for another node -/

/-- What the orchestrator signs when it issues the requests of `issued`. -/
def signedRequests (issued : Set PcsRequest) : Set Bytes := serializePcsRequestPayload '' issued

/-- Every message that verifies because of `r` and of no other request is rejected. -/
def RejectedElsewhere (issued : Set PcsRequest) (key : String) (r : PcsRequest) : Prop :=
  ∀ payload message, messageFromSlice payload = some message →
    verifyPcsRequestSignature api message.request message.signature key = .ok () →
    (∀ r' ∈ issued, serializePcsRequestPayload r' = serializePcsRequestPayload message.request →
      r' = r) →
    ∃ e, handlePcsRequestStream api config payload = .error e

/-- The node id moved into the slice id: the same bytes, for every node. -/
def unaddressed (r : PcsRequest) : PcsRequest :=
  { r with sliceId := r.sliceId ++ r.nodeId, nodeId := "" }

theorem serialize_unaddressed (r : PcsRequest) :
    serializePcsRequestPayload (unaddressed r) = serializePcsRequestPayload r := by
  have hempty : utf8 "" = [] := rfl
  simp only [serializePcsRequestPayload, unaddressed, utf8_append, hempty, List.nil_append,
    List.append_assoc]

variable {api config} {issued : Set PcsRequest} {key : String} {r : PcsRequest}

/-- The handler goes on with a request that verifies and names no other node. -/
theorem handle_of_verify {payload : Bytes} {message : PcsRequestMessage}
    (hconfig : config.orchestratorPublicKey = some key)
    (hread : messageFromSlice payload = some message)
    (hverify : verifyPcsRequestSignature api message.request message.signature key = .ok ())
    (hnode : message.request.nodeId = "" ∨ message.request.nodeId = config.peerId) :
    handlePcsRequestStream api config payload = .ok message.request := by
  have hhere : ¬ (message.request.nodeId ≠ "" ∧ message.request.nodeId ≠ config.peerId) := by tauto
  simp only [handlePcsRequestStream, hread, hconfig, hverify, hhere, Except.mapError, bind,
    Except.bind, pure, Except.pure, if_false]

/-- A message for every node verifies because of `r`. -/
theorem exists_unaddressed (hi : Ideal api key (signedRequests issued))
    (hconfig : config.orchestratorPublicKey = some key) (hr : r ∈ issued) :
    ∃ signature, verifyPcsRequestSignature api (unaddressed r) signature key = .ok () ∧
      handlePcsRequestStream api config (messageWire ⟨unaddressed r, signature⟩) =
        .ok (unaddressed r) := by
  have hsigned : serializePcsRequestPayload (unaddressed r) ∈ signedRequests issued :=
    ⟨r, hr, (serialize_unaddressed r).symm⟩
  obtain ⟨signature, hverify⟩ := exists_verify hi hsigned
  exact ⟨signature, hverify _, handle_of_verify hconfig (messageFromSlice_messageWire _) (hverify _)
    (.inl rfl)⟩

/-- **Main result.** No request is safe from being obeyed here, and so none that names another node:
the messages that verify because of it alone are all rejected exactly if there is no such message,
some other issued request having the same signed bytes. -/
theorem rejectedElsewhere_iff (hi : Ideal api key (signedRequests issued))
    (hconfig : config.orchestratorPublicKey = some key) (hr : r ∈ issued) :
    RejectedElsewhere api config issued key r ↔
      ∃ r' ∈ issued, r' ≠ r ∧ serializePcsRequestPayload r' = serializePcsRequestPayload r := by
  constructor
  · intro h
    by_contra hno
    push Not at hno
    obtain ⟨signature, hverify, hobey⟩ := exists_unaddressed hi hconfig hr
    have honly : ∀ r' ∈ issued,
        serializePcsRequestPayload r' = serializePcsRequestPayload (unaddressed r) → r' = r := by
      intro r' hr' hsame
      by_contra hne
      exact hno r' hr' hne (hsame.trans (serialize_unaddressed r))
    obtain ⟨e, he⟩ := h _ _ (messageFromSlice_messageWire ⟨unaddressed r, signature⟩) hverify honly
    rw [hobey] at he
    cases he
  · rintro ⟨r', hr', hne, hsame⟩ payload message hread hverify honly
    obtain ⟨r'', hr'', hbytes⟩ := signed_of_verify hi hverify
    obtain rfl := honly r'' hr'' hbytes
    exact absurd (honly r' hr' (hsame.trans hbytes)) hne

/-! ### A request for another node, signed with the key of 32 sevens -/

def namedRequest : PcsRequest :=
  ⟨"parent_01-sub", "parent", "01", "12D3KooWnode", 1700000000, "", ""⟩

def namedSignature : String :=
  "+WBBSPlAvscN+dsWB/dxP2WrJc9pd/WTWtoflb6UC70Bc+K50Fz8/B4oRCHNIFihWW0ym65RJxJbM71D/gcuBA=="

def namedSignatureBytes : Bytes :=
  be 64
    0xf9604148f940bec70df9db1607f7713f65ab25cf6977f5935ada1f95be940bbd0173e2b9d05cfcfc1e284421cd2058a1596d329bae5127125b33bd43fe072e04

def namedCrypto : Crypto :=
  tableCrypto [(namedSignature, namedSignatureBytes, serializePcsRequestPayload namedRequest)]

def otherNode : Config := ⟨some goldenKey, "12D3KooWbuilder", fun _ => "expected value"⟩

theorem named_ideal : Ideal namedCrypto goldenKey (signedRequests {namedRequest}) := by
  refine ⟨goldenKeyBytes, goldenKeyBytes, by decide +kernel, by decide +kernel, rfl, ?_, ?_⟩
  · intro p signature h
    refine ⟨namedRequest, rfl, ?_⟩
    simp only [namedCrypto, tableCrypto, List.any_cons, List.any_nil, Bool.or_false,
      Bool.and_eq_true, beq_iff_eq] at h
    exact (Prod.mk.inj h.2).2
  · rintro p ⟨r, rfl, rfl⟩
    exact ⟨namedSignature, namedSignatureBytes, namedSignatureBytes, by decide +kernel, rfl,
      by decide +kernel⟩

theorem rejectedElsewhere_iff_named :
    RejectedElsewhere namedCrypto otherNode {namedRequest} goldenKey namedRequest ↔
      ∃ r' ∈ ({namedRequest} : Set PcsRequest), r' ≠ namedRequest ∧
        serializePcsRequestPayload r' = serializePcsRequestPayload namedRequest :=
  rejectedElsewhere_iff named_ideal rfl rfl

/-- The message a relay makes of it. -/
def namedRelayed : PcsRequestMessage := ⟨unaddressed namedRequest, namedSignature⟩

theorem namedRelayed_obeyed : Ideal namedCrypto goldenKey (signedRequests {namedRequest}) ∧
    namedRequest.nodeId ≠ "" ∧ namedRequest.nodeId ≠ otherNode.peerId ∧
    handlePcsRequestStream namedCrypto otherNode (messageWire namedRelayed) =
      .ok (unaddressed namedRequest) ∧
    ¬ RejectedElsewhere namedCrypto otherNode {namedRequest} goldenKey namedRequest := by
  have hread := messageFromSlice_messageWire namedRelayed
  have hverify : verifyPcsRequestSignature namedCrypto namedRelayed.request namedRelayed.signature
      goldenKey = .ok () := by decide +kernel
  have hobey := handle_of_verify (show otherNode.orchestratorPublicKey = some goldenKey from rfl)
    hread hverify (.inl rfl)
  refine ⟨named_ideal, by decide, by decide, hobey, fun h => ?_⟩
  obtain ⟨e, he⟩ := h _ _ hread hverify fun r' hr' _ => hr'
  rw [hobey] at he
  cases he

end WqcNode.Transport.PcsRequestHandler
