import WqcNode.Lib.Json
import WqcNode.Domain.WorkBudget

/-! # The data model (`domain/models.rs`)

Compute requests, tasks and results. `usize` is 64 bits wide. -/

namespace WqcNode.Domain.Models

open WqcNode.Lib.Json WqcNode.Domain.WorkBudget

structure Gate where
  type : String
  params : Value

structure SliceAssignment where
  edgeId : String
  value : UInt8
deriving DecidableEq

structure NoiseModel where
  depolarizingP : Option F64
  readoutError : Option F64
deriving DecidableEq

/-- One operand of a contraction. -/
structure TensorRefWire where
  ket0 : Option UInt32
  gate : Option UInt32
  node : Option UInt32
  bra0 : Option UInt32
  control : Option UInt32
  target : Option UInt32
deriving DecidableEq

structure ContractNodeWire where
  op : String
  left : TensorRefWire
  right : TensorRefWire
deriving DecidableEq

/-- Exact scalar tree; the node forwards it and does not build another plan. -/
structure ContractionTreeWire where
  kind : Option String
  nodes : List ContractNodeWire
  peakBytes : UInt64
deriving DecidableEq

structure ComplexCoeff where
  real : F64
  imag : F64
deriving DecidableEq

structure PauliTerm where
  label : String
  coeff : ComplexCoeff
deriving DecidableEq

structure ObservableSpec where
  id : String
  terms : List PauliTerm
deriving DecidableEq

structure ComputeRequest where
  taskId : String
  parentTaskId : Option String
  circuitId : String
  nodeId : Option String
  qubitCount : UInt64
  originalQubitCount : UInt64
  sliceId : String
  sliceAssignments : List SliceAssignment
  circuit : List Gate
  requiredVotes : Option UInt32
  mpsMaxBondDim : Option UInt64
  mpsSiteOrder : Option (List UInt64)
  mpsTimeSplit : Option UInt64
  contractionTree : Option ContractionTreeWire
  outputMode : String
  classicalBitCount : Option UInt32
  shots : Option UInt64
  sampleSeed : Option UInt64
  observables : List ObservableSpec
  noiseModel : Option NoiseModel
  securityLevel : String

structure ComputeTask where
  request : ComputeRequest
  orchestratorPubkey : String
  /-- The work budget this node bid with, when the announcement carried one. -/
  budget : Option Budget
  /-- Unix milliseconds when the node accepted the dispatch, 0 on a task stored before this field
  existed. -/
  acceptedAtMs : UInt64

/-- The key of a task in the tables: `(orchestrator_pubkey, task_id)`. -/
def ComputeTask.key (t : ComputeTask) : String × String := (t.orchestratorPubkey, t.request.taskId)

structure PublicInputs where
  circuitId : String
  subTaskId : String
  nodeId : String
  sliceId : String
  outputResultHash : String
  measurementSpecHash : String
  securityLevel : String
deriving DecidableEq

structure Proof where
  publicInputs : PublicInputs
  starkProofB64 : String
deriving DecidableEq

structure WorkReport where
  traceRows : UInt64
  gateCount : UInt32
  computeWallMs : UInt64
  proveWallMs : UInt64
  proofBytes : UInt64
  tnBackend : String
  vramPeakBytes : UInt64
  proofScope : String
deriving DecidableEq

structure ComplexResult where
  real : F64
  imag : F64
deriving DecidableEq

structure SampleResult where
  counts : List (String × UInt64)
  shots : UInt64
deriving DecidableEq

structure ExpectationResult where
  values : List (String × ComplexResult)
deriving DecidableEq

/-- What core answers to a successful compute. -/
structure TaskResultData where
  resultType : String
  complexResult : ComplexResult
  sampleResult : Option SampleResult
  expectationResult : Option ExpectationResult
  proof : Proof
  executionTimeMs : UInt64
  workReport : Option WorkReport
deriving DecidableEq

structure TaskResultPayload where
  taskId : String
  status : String
  resultType : String
  complexResult : Option ComplexResult
  sampleResult : Option SampleResult
  expectationResult : Option ExpectationResult
  proof : Option Proof
  error : Option String
  executionTimeMs : Option UInt64
  workReport : Option WorkReport
deriving DecidableEq

end WqcNode.Domain.Models
