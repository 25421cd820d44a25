import WqcNode.Domain.Pcs
import WqcNode.Domain.Announcement
import Mathlib.Data.List.Sort

/-! # Signed PCS messages (`domain/pcs.rs`)

The orchestrator signs a request as six texts and a number one after the other, without lengths, and
an open call in the same way but for the builders it refuses, which are sorted and counted. -/

namespace WqcNode.Domain.PcsSigning

open WqcNode.Lib WqcNode.Domain.Pcs WqcNode.Domain.Announcement

/-- Mirrors orchestrator `task.SerializePcsRequestPayload` byte layout exactly. -/
def serializePcsRequestPayload (request : PcsRequest) : Bytes :=
  utf8 request.subTaskId ++ (utf8 request.parentTaskId ++ (utf8 request.sliceId ++
    (utf8 request.nodeId ++ (be64 request.issuedAtUnix.toUInt64 ++ (utf8 request.requestKind ++
    utf8 request.leafProofHash)))))

/-- `len as u32` and then the bytes of a text. -/
def countedText (text : String) : Bytes := be32 (UInt32.ofNat (utf8 text).length) ++ utf8 text

/-- Mirrors orchestrator `task.SerializePcsOpenCallPayload` byte layout exactly. -/
def serializePcsOpenCallPayload (call : PcsOpenCall) : Bytes :=
  let refused := call.refusedBuilders.insertionSort (· ≤ ·)
  utf8 call.parentTaskId ++ (utf8 call.subTaskId ++ (utf8 call.sliceId ++
    (utf8 call.leafProofHash ++ (be64 call.leafProofBytes ++ (utf8 call.casPresignedUrl ++
    (utf8 call.rPcsPlanck ++ (be64 call.deadlineUnix.toUInt64 ++ (be64 call.issuedAtUnix.toUInt64 ++
    (be32 (UInt32.ofNat refused.length) ++ refused.flatMap countedText)))))))))

/-- Mirrors orchestrator `task.SerializePcsBidPayload` byte layout exactly. -/
def serializePcsBidPayload (bid : PcsBid) : Bytes :=
  utf8 bid.subTaskId ++ (utf8 bid.nodeId ++ (utf8 bid.leafProofHash ++ (utf8 bid.pcsMemoryPolicy ++
    be64 bid.issuedAtUnix.toUInt64)))

variable (api : Crypto)

def verifyPcsRequestSignature (request : PcsRequest) (signatureB64 orchestratorPublicKeyB64 : String) :
    Except String Unit :=
  verifyOrchestratorSignature api (serializePcsRequestPayload request) signatureB64
    orchestratorPublicKeyB64 "pcs request"

def verifyPcsOpenCallSignature (call : PcsOpenCall) (signatureB64 orchestratorPublicKeyB64 : String) :
    Except String Unit :=
  verifyOrchestratorSignature api (serializePcsOpenCallPayload call) signatureB64
    orchestratorPublicKeyB64 "pcs open call"

end WqcNode.Domain.PcsSigning
