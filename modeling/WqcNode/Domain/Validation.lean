import WqcNode.Domain.Models

/-! # Circuit validation (`domain/validation.rs`)

A circuit is checked gate by gate, through nested `IF` gates, and its params are then normalised: an
array of one element becomes that element. -/

namespace WqcNode.Domain.Validation

open WqcNode.Lib.Json WqcNode.Domain.Models

/-! ### Normalisation -/

mutual

/-- Flattens an array of one element; in an object, the params of its nested gate. -/
def normalizeGateValue : Value → Value
  | .array [item] => item
  | .object map => .object (normalizeGateMember map)
  | params => params

def normalizeGateMember : List (String × Value) → List (String × Value)
  | [] => []
  | (key, value) :: rest =>
    if key = "gate" then (key, normalizeNestedGate value) :: rest
    else (key, value) :: normalizeGateMember rest

def normalizeNestedGate : Value → Value
  | .object map => .object (normalizeParamsMember map)
  | nested => nested

def normalizeParamsMember : List (String × Value) → List (String × Value)
  | [] => []
  | (key, value) :: rest =>
    if key = "params" then (key, normalizeGateValue value) :: rest
    else (key, value) :: normalizeParamsMember rest

end

def normalizeGateParams (circuit : List Gate) : List Gate :=
  circuit.map fun gate => { gate with params := normalizeGateValue gate.params }

/-! ### Qubit indices -/

/-- The qubit index a JSON number carries; a number that is not an integer carries none. -/
def qubitIndex (value : Value) : Except String (Option UInt64) :=
  match asI64 value with
  | some q => if q < 0 then .error s!"negative qubit index {q}" else .ok (some q.toUInt64)
  | none => .ok (asU64 value)

def ensureInRange (q qubitCount : UInt64) (idx : ℕ) : Except String Unit :=
  if q ≥ qubitCount then .error s!"Qubit index {q} out of range at gate {idx}" else .ok ()

def requireQubit (value : Value) (qubitCount : UInt64) (idx : ℕ) : Except String Unit :=
  match qubitIndex value with
  | .ok (some q) => ensureInRange q qubitCount idx
  | .ok none => .error s!"gate {idx} has a non-integer qubit index"
  | .error msg => .error s!"{msg} at gate {idx}"

/-- The rotation angle is the second parameter and is not a qubit index. -/
def validateRotationQubit (params : Value) (idx : ℕ) (qubitCount : UInt64) : Except String Unit :=
  match params with
  | .array [] => .error s!"rotation gate at index {idx} is missing a qubit"
  | .array (qubit :: _) => requireQubit qubit qubitCount idx
  | qubit => requireQubit qubit qubitCount idx

mutual

def checkQubitValues (idx : ℕ) (qubitCount : UInt64) : Value → Except String Unit
  | .array items => checkQubitItems idx qubitCount items
  | .number n => do
    -- the text of a negative index has no gate number here
    match ← qubitIndex (.number n) with
    | some q => ensureInRange q qubitCount idx
    | none => .error s!"gate {idx} has a non-integer qubit index"
  | .object map =>
    match get? map "qubit" with
    | some q => requireQubit q qubitCount idx
    | none => .ok ()
  | _ => .ok ()

def checkQubitItems (idx : ℕ) (qubitCount : UInt64) : List Value → Except String Unit
  | [] => .ok ()
  | item :: items => do
    checkQubitValues idx qubitCount item
    checkQubitItems idx qubitCount items

end

def validateQubitParams (type : String) (params : Value) (idx : ℕ) (qubitCount : UInt64) :
    Except String Unit :=
  if type ∈ ["RX", "RY", "RZ"] then validateRotationQubit params idx qubitCount
  else checkQubitValues idx qubitCount params

/-! ### Gates -/

section

variable (serdeError : Value → String) (idx : ℕ) (qubitCount : UInt64) (supportedGates : List String)

mutual

/-- `validate_gate`, of the gate with this type and these params. -/
def validateGate (type : String) (params : Value) : Except String Unit :=
  if type ∉ supportedGates then .error s!"Gate '{type}' at index {idx} not supported"
  else if type = "IF" then
    match params with
    | .object map => validateGateMember map
    | _ => .error s!"IF gate at index {idx} requires object params"
  else validateQubitParams type params idx qubitCount

/-- The member `gate` of the params of an `IF` gate. -/
def validateGateMember : List (String × Value) → Except String Unit
  | [] => .error s!"IF gate at index {idx} missing nested gate"
  | (key, value) :: rest =>
    if key = "gate" then validateNestedGate value else validateGateMember rest

/-- `serde_json::from_value::<Gate>` and `validate_gate` of what it gives. Serde reads a struct from
an object with its fields or from the array of their values, and has the text `serdeError` for any
other value. -/
def validateNestedGate : Value → Except String Unit
  | .object map =>
    match get? map "type" with
    | some (.string type) => validateParamsMember (serdeError (.object map)) type map
    | _ =>
      let e := serdeError (.object map)
      .error s!"IF gate at index {idx} has invalid nested gate: {e}"
  | .array [.string type, params] => validateGate type params
  | nested =>
    let e := serdeError nested
    .error s!"IF gate at index {idx} has invalid nested gate: {e}"

/-- The member `params` of a nested gate. -/
def validateParamsMember (e type : String) : List (String × Value) → Except String Unit
  | [] => .error s!"IF gate at index {idx} has invalid nested gate: {e}"
  | (key, value) :: rest =>
    if key = "params" then validateGate type value else validateParamsMember e type rest

end

/-- Checks the gates in order; the first error is returned. -/
def validateCircuitFrom (serdeError : Value → String) (qubitCount : UInt64)
    (supportedGates : List String) : ℕ → List Gate → Except String Unit
  | _, [] => .ok ()
  | idx, gate :: circuit => do
    validateGate serdeError idx qubitCount supportedGates gate.type gate.params
    validateCircuitFrom serdeError qubitCount supportedGates (idx + 1) circuit

def validateCircuitLogic (circuit : List Gate) : Except String Unit :=
  validateCircuitFrom serdeError qubitCount supportedGates 0 circuit

end

end WqcNode.Domain.Validation
