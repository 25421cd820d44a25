import WqcNode.Lib.Bytes
import WqcNode.Lib.Text
import WqcNode.Domain.Features
import WqcNode.Domain.WorkBudget

/-! # Task announcements (`domain/p2p.rs`)

The orchestrator signs an announcement twice: the v1 layout is the task id followed by 24 bytes of
numbers, the v2 layout is the v1 layout followed by the deadline and the two work counts. The node
checks the v2 signature when the announcement carries work and the v1 signature otherwise. -/

namespace WqcNode.Domain.Announcement

open WqcNode.Lib WqcNode.Lib.Text WqcNode.Domain.Features WqcNode.Domain.WorkBudget

/-- The signed gossip payload. -/
structure TaskAnnouncement where
  taskId : String
  globalQubitCount : UInt32
  requiredFeatures : UInt32
  bidDifficulty : UInt32
  requiredVotes : UInt32
  nonce : UInt64
  /-- Sub-task deadline the orchestrator enforces, from dispatch. -/
  deadlineSecs : Option UInt32
  work : Option Work
deriving DecidableEq, Repr

structure TaskAnnouncementMessage where
  announcement : TaskAnnouncement
  signature : String
  /-- Covers the v1 layout plus `deadlineSecs` and `work`. -/
  signatureV2 : Option String
deriving DecidableEq, Repr

/-! ### Layouts -/

/-- The numbers of the v1 layout. -/
def fieldBytes (a : TaskAnnouncement) : Bytes :=
  be32 a.globalQubitCount ++ be32 a.requiredFeatures ++ be32 a.bidDifficulty ++
    be32 a.requiredVotes ++ be64 a.nonce

def serializeAnnouncementPayload (a : TaskAnnouncement) : Bytes := utf8 a.taskId ++ fieldBytes a

/-- The numbers the v2 layout appends. -/
def workBytes (deadlineSecs : UInt32) (work : Work) : Bytes :=
  be32 deadlineSecs ++ be64 work.trafficBytes ++ be64 work.flops

def serializeAnnouncementPayloadV2 (a : TaskAnnouncement) : Option Bytes := do
  let work ← a.work
  let deadlineSecs ← a.deadlineSecs
  pure (serializeAnnouncementPayload a ++ workBytes deadlineSecs work)

/-! ### Signatures -/

/-- The `base64` and `ed25519-dalek` calls of the signature check; an error carries the crate's
text. -/
structure Crypto where
  Signature : Type
  VerifyingKey : Type
  /-- `STANDARD.decode`. -/
  decode : String → Except String Bytes
  /-- `Signature::from_slice`. -/
  signatureFromSlice : Bytes → Except String Signature
  /-- `VerifyingKey::from_bytes`, of 32 bytes. -/
  keyFromBytes : Bytes → Except String VerifyingKey
  /-- `VerifyingKey::verify` succeeds. -/
  verify : VerifyingKey → Bytes → Signature → Bool

variable (api : Crypto)

def verifyOrchestratorSignature (payload : Bytes) (signatureB64 orchestratorPublicKeyB64 label : String) :
    Except String Unit := do
  let signatureBytes ← (api.decode (trim signatureB64)).mapError fun e =>
    s!"invalid {label} signature base64: {e}"
  let signature ← (api.signatureFromSlice signatureBytes).mapError fun e =>
    s!"invalid {label} signature bytes: {e}"
  let publicKeyBytes ← (api.decode (trim orchestratorPublicKeyB64)).mapError fun e =>
    s!"invalid orchestrator public key base64: {e}"
  if publicKeyBytes.length ≠ 32 then .error "orchestrator public key must be 32 bytes"
  let verifyingKey ← (api.keyFromBytes publicKeyBytes).mapError fun e =>
    s!"invalid orchestrator public key: {e}"
  if api.verify verifyingKey payload signature then .ok ()
  else .error s!"{label} signature verification failed"

def verifyAnnouncementMessage (message : TaskAnnouncementMessage)
    (orchestratorPublicKeyB64 : String) : Except String Unit :=
  let a := message.announcement
  if asksWorkBudget a.requiredFeatures ∧ (a.work.isNone ∨ a.deadlineSecs.isNone) then
    .error "announcement asks for the work budget without work"
  else if a.work.isSome then
    match serializeAnnouncementPayloadV2 a with
    | none => .error "announcement work has no deadline"
    | some signedPayload =>
      match message.signatureV2 with
      | none => .error "announcement work is not signed"
      | some signature =>
        verifyOrchestratorSignature api signedPayload signature orchestratorPublicKeyB64
          "announcement v2"
  else
    verifyOrchestratorSignature api (serializeAnnouncementPayload a) message.signature
      orchestratorPublicKeyB64 "announcement"

end WqcNode.Domain.Announcement
