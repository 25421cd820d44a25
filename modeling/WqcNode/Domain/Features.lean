import Mathlib.Data.UInt

/-! # Feature masks (`domain/features.rs`)

A node's mask is derived from the gate names its core lists, plus bit 4 when it can judge announced
work. An announcement asks for a set of bits; the node bids only if its mask covers them. No gate
feature has bit 4, so a node without rates covers no announcement that asks for the work budget
(`not_supports_workBudget`). -/

namespace WqcNode.Domain.Features

/-- `FEATURE_STANDARD_GATES`. -/
def featureStandardGates : UInt32 := (1 : UInt32) <<< 0

/-- `FEATURE_CUSTOM_UNITARY`. -/
def featureCustomUnitary : UInt32 := (1 : UInt32) <<< 1

/-- `FEATURE_NETWORK_GATE_SPLIT`. -/
def featureNetworkGateSplit : UInt32 := (1 : UInt32) <<< 3

/-- `FEATURE_WORK_BUDGET`: the node judges announced work against its own speed and timeout. -/
def featureWorkBudget : UInt32 := (1 : UInt32) <<< 4

/-- The feature one gate name of `GET /gates` stands for. -/
def gateFeature (gate : String) : UInt32 :=
  if gate ∈ ["H", "X", "Y", "Z", "S", "T", "CNOT", "CZ", "CCNOT"] then featureStandardGates
  else if gate ∈ ["RX", "RY", "RZ"] then featureCustomUnitary
  else if gate = "NETWORK_GATE_SPLIT" then featureNetworkGateSplit
  else 0

def applyGateFeature (features : UInt32) (gate : String) : UInt32 := features ||| gateFeature gate

/-- Maps gate names to the orchestrator feature mask. -/
def featuresFromGates (gates : List String) : UInt32 := gates.foldl applyGateFeature 0

/-- The node's bid mask. -/
def nodeFeatures (gates : List String) (judgesWork : Bool) : UInt32 :=
  if judgesWork then featuresFromGates gates ||| featureWorkBudget else featuresFromGates gates

/-- `supported` covers every bit in `required`. -/
def supportsRequiredFeatures (supported required : UInt32) : Bool :=
  supported &&& required == required

/-- The mask has bit 4. -/
def asksWorkBudget (features : UInt32) : Prop := features &&& featureWorkBudget ≠ 0

instance (features : UInt32) : Decidable (asksWorkBudget features) :=
  inferInstanceAs (Decidable (_ ≠ _))

/-! ### Bit 4 of the mask -/

theorem gateFeature_workBudget (gate : String) : gateFeature gate &&& featureWorkBudget = 0 := by
  unfold gateFeature
  split_ifs <;> decide

theorem or_and_right (a b c : UInt32) : (a ||| b) &&& c = a &&& c ||| b &&& c :=
  UInt32.toBitVec_inj.mp (by simp [BitVec.and_or_distrib_right])

theorem foldl_workBudget : ∀ (gates : List String) (features : UInt32),
    features &&& featureWorkBudget = 0 →
      gates.foldl applyGateFeature features &&& featureWorkBudget = 0
  | [], _, h => h
  | gate :: gates, features, h => by
    refine foldl_workBudget gates _ ?_
    rw [applyGateFeature, or_and_right, h, gateFeature_workBudget]
    rfl

theorem nodeFeatures_false (gates : List String) :
    nodeFeatures gates false &&& featureWorkBudget = 0 :=
  foldl_workBudget gates 0 (by decide)

/-- A mask that covers a requirement has bit 4 if the requirement has it. -/
theorem asksWorkBudget_of_supports {supported required : UInt32}
    (h : supportsRequiredFeatures supported required = true) (hr : asksWorkBudget required) :
    asksWorkBudget supported := by
  intro hs
  apply hr
  have hcover : supported &&& required = required := by simpa [supportsRequiredFeatures] using h
  rw [← hcover, UInt32.and_comm supported, UInt32.and_assoc, hs, UInt32.and_zero]

/-- Without rates the node covers no announcement that asks for the work budget. -/
theorem not_supports_workBudget {gates : List String} {required : UInt32}
    (hr : asksWorkBudget required) :
    supportsRequiredFeatures (nodeFeatures gates false) required = false := by
  by_contra hne
  exact asksWorkBudget_of_supports (by simpa using hne) hr (nodeFeatures_false gates)

end WqcNode.Domain.Features
