import WqcNode.Lib.Text
import WqcNode.Domain.Models

/-! # Leaf PCS messages and jobs (`domain/pcs.rs`)

The orchestrator asks one node for the leaf PCS of a sub-task: the proof winner, which binds it to
the proof it retained, or the builder nominated in an open call, which fetches the proof from the
content-addressed store. -/

namespace WqcNode.Domain.Pcs

open WqcNode.Lib.Text WqcNode.Domain.Models

/-- Core's memory gate: a refusing core must not bid on open calls. -/
inductive PcsMemoryPolicy
  | refuse
  | spill
deriving DecidableEq, Repr

namespace PcsMemoryPolicy

def fromEnvStr (raw : Option String) : PcsMemoryPolicy :=
  if (raw.map trim).map toAsciiLowercase = some "spill" then .spill else .refuse

def asStr : PcsMemoryPolicy → String
  | .refuse => "refuse"
  | .spill => "spill"

def isSpill (policy : PcsMemoryPolicy) : Bool := policy == .spill

theorem fromEnvStr_spill_iff {s : String} :
    fromEnvStr (some s) = .spill ↔ toAsciiLowercase (trim s) = "spill" := by
  unfold fromEnvStr
  by_cases h : toAsciiLowercase (trim s) = "spill" <;> simp [h]

end PcsMemoryPolicy

/-- PCS follow-up message: a bundle, or a refusal with its reason. -/
structure PcsMessage where
  subTaskId : String
  nodeId : String
  leafPcsB64 : String
  refused : Bool
  refuseReason : Option String
deriving DecidableEq

/-- Orchestrator to nominated node or open-call builder. -/
structure PcsRequest where
  subTaskId : String
  parentTaskId : String
  sliceId : String
  nodeId : String
  issuedAtUnix : Int64
  /-- Empty for the nominated winner, `open_call` for the builder. -/
  requestKind : String
  leafProofHash : String
deriving DecidableEq

def PcsRequest.isOpenCall (r : PcsRequest) : Bool := r.requestKind == "open_call"

/-- Open-call announcement. -/
structure PcsOpenCall where
  parentTaskId : String
  subTaskId : String
  sliceId : String
  leafProofHash : String
  leafProofBytes : UInt64
  casPresignedUrl : String
  rPcsPlanck : String
  deadlineUnix : Int64
  issuedAtUnix : Int64
  refusedBuilders : List String
deriving DecidableEq

def PcsOpenCall.isExpiredAt (call : PcsOpenCall) (nowUnix : Int64) : Bool :=
  call.deadlineUnix > 0 && nowUnix ≥ call.deadlineUnix

def PcsOpenCall.refusesBuilder (call : PcsOpenCall) (nodeId : String) : Bool :=
  call.refusedBuilders.any (· == nodeId)

/-- Offer to build from the proof in the store. -/
structure PcsBid where
  subTaskId : String
  nodeId : String
  leafProofHash : String
  pcsMemoryPolicy : String
  issuedAtUnix : Int64
deriving DecidableEq

def PcsBid.isSpillPolicy (bid : PcsBid) : Bool := bid.pcsMemoryPolicy == "spill"

structure PcsBidMessage where
  bid : PcsBid
  signature : String
deriving DecidableEq

/-- Where an open-call builder fetches the proof. -/
structure OpenCallPcsSource where
  leafProofHash : String
  casPresignedUrl : String
  leafProofBytes : UInt64
  sliceId : String
deriving DecidableEq

/-- The job stored after a result was delivered, or for an open call. -/
structure PendingPcsJob where
  subTaskId : String
  proof : Proof
  /-- The orchestrator has asked this node for the bundle. -/
  requested : Bool
  /-- The bundle, once built. -/
  leafPcsB64 : Option String
  leafPcsBytes : Option UInt64
  openCall : Option OpenCallPcsSource
deriving DecidableEq

def PendingPcsJob.isOpenCall (job : PendingPcsJob) : Bool := job.openCall.isSome

/-- Core's answer to `/leaf_pcs`. -/
structure LeafPcsResponse where
  leafPcsB64 : String
  bytes : UInt64
deriving DecidableEq

end WqcNode.Domain.Pcs
