import WqcNode.Lib.Fallible
import WqcNode.Domain.Validation

/-! # What validation gives (`domain/validation.rs`)

`accept_compute_task` validates a circuit and then normalises it, and the normalised one goes to
core. The two recursions meet in the params of an `IF` gate: both look for the member `gate` of the
params and the member `params` of that gate. So what was validated is validated again after it was
normalised (`validateGate_normalize`), and a validated circuit has its gates among the supported
ones and its qubits in range, at every depth (`placed_of_validate`). -/

namespace WqcNode.Domain.ValidatedCircuit

open WqcNode.Lib.Json WqcNode.Lib.Fallible WqcNode.Domain.Models WqcNode.Domain.Validation

/-! ### The property -/

/-- An integer in `[0, qubitCount)`. -/
def IsQubit (qubitCount : UInt64) (value : Value) : Prop :=
  ∃ n : UInt64, value = .number (.posInt n) ∧ n < qubitCount

/-- `serde_json::from_value::<Gate>`. -/
def gateOfValue : Value → Option Gate
  | .object map =>
    match get? map "type", get? map "params" with
    | some (.string type), some params => some ⟨type, params⟩
    | _, _ => none
  | .array [.string type, params] => some ⟨type, params⟩
  | _ => none

/-- The gate in the params of an `IF` gate. -/
def nestedGate (gate : Gate) : Option Gate :=
  match gate.params with
  | .object map => (get? map "gate").bind gateOfValue
  | _ => none

/-- The gate itself, and those in its params, at every depth of `IF` nesting. -/
inductive Within : Gate → Gate → Prop
  | self (g : Gate) : Within g g
  | nested {g g' g'' : Gate} : g.type = "IF" → nestedGate g = some g' → Within g' g'' → Within g g''

/-- The value itself, and those reached through nested arrays. -/
inductive Reached : Value → Value → Prop
  | self (v : Value) : Reached v v
  | item {items : List Value} {item v : Value} :
    item ∈ items → Reached item v → Reached (.array items) v

/-- The qubit of a rotation gate: the first of its params, or its only one. -/
def rotationQubit : Value → Option Value
  | .array items => items.head?
  | params => some params

def IsRotation (gate : Gate) : Prop := gate.type ∈ ["RX", "RY", "RZ"]

/-- The gate is supported and its qubits are in range. -/
structure Placed (qubitCount : UInt64) (supportedGates : List String) (gate : Gate) : Prop where
  supported : gate.type ∈ supportedGates
  rotation : IsRotation gate → ∃ q, rotationQubit gate.params = some q ∧ IsQubit qubitCount q
  numbers : ¬ IsRotation gate → gate.type ≠ "IF" → ∀ n, Reached gate.params (.number n) →
    IsQubit qubitCount (.number n)
  qubits : ¬ IsRotation gate → gate.type ≠ "IF" → ∀ map q, Reached gate.params (.object map) →
    get? map "qubit" = some q → IsQubit qubitCount q

/-! ### Qubit indices -/

section Qubits

variable {qubitCount : UInt64} {idx : ℕ}

theorem qubitIndex_posInt (n : UInt64) : qubitIndex (.number (.posInt n)) = .ok (some n) := by
  by_cases hn : n.toNat < 2 ^ 63
  · have hint : n.toInt64.toInt = n.toNat := by
      have hlt : 2 * n.toBitVec.toNat < 2 ^ 64 := by
        rw [UInt64.toNat_toBitVec]
        omega
      exact BitVec.toInt_eq_toNat_of_lt hlt
    have hneg : ¬ n.toInt64 < 0 := by
      rw [Int64.lt_iff_toInt_lt, hint]
      have hzero : (0 : Int64).toInt = 0 := rfl
      omega
    simp only [qubitIndex, asI64, if_pos hn, if_neg hneg, UInt64.toUInt64_toInt64]
  · simp only [qubitIndex, asI64, if_neg hn, asU64]

theorem ensureInRange_ok_iff {q : UInt64} : ensureInRange q qubitCount idx = .ok () ↔ q < qubitCount := by
  unfold ensureInRange
  split_ifs with hge
  · simp only [false_iff]
    exact UInt64.not_lt.mpr hge
  · exact iff_of_true rfl (UInt64.not_le.mp hge)

/-- Only an integer that is not negative carries an index. -/
theorem qubitIndex_some {value : Value} {q : UInt64} (h : qubitIndex value = .ok (some q)) :
    value = .number (.posInt q) := by
  unfold qubitIndex at h
  cases value with
  | number n =>
    cases n with
    | posInt n =>
      have hidx := qubitIndex_posInt n
      unfold qubitIndex at hidx
      rw [hidx] at h
      cases h
      rfl
    | negInt i =>
      have hneg : i.val < 0 := i.property
      simp [asI64, hneg] at h
    | float f => simp [asI64, asU64] at h
  | _ => simp [asI64, asU64] at h

theorem requireQubit_ok_iff {value : Value} :
    requireQubit value qubitCount idx = .ok () ↔ IsQubit qubitCount value := by
  constructor
  · intro h
    unfold requireQubit at h
    split at h
    · rename_i q hq
      exact ⟨q, qubitIndex_some hq, ensureInRange_ok_iff.mp h⟩
    · cases h
    · cases h
  · rintro ⟨n, rfl, hn⟩
    simp only [requireQubit, qubitIndex_posInt]
    exact ensureInRange_ok_iff.mpr hn

theorem isQubit_of_number {n : Number}
    (h : checkQubitValues idx qubitCount (.number n) = .ok ()) : IsQubit qubitCount (.number n) := by
  rw [checkQubitValues] at h
  obtain ⟨q, hq, h⟩ := bind_eq_ok.mp h
  cases q with
  | none => cases h
  | some q => exact ⟨q, qubitIndex_some hq, ensureInRange_ok_iff.mp h⟩

theorem check_of_mem {items : List Value} (h : checkQubitItems idx qubitCount items = .ok ()) :
    ∀ item ∈ items, checkQubitValues idx qubitCount item = .ok () := by
  induction items with
  | nil => exact fun item hitem => absurd hitem List.not_mem_nil
  | cons first items ih =>
    rw [checkQubitItems] at h
    obtain ⟨_, hfirst, hrest⟩ := bind_eq_ok.mp h
    intro item hitem
    rcases List.mem_cons.mp hitem with rfl | hitem
    · exact hfirst
    · exact ih hrest item hitem

theorem check_of_reached {v w : Value} (hr : Reached v w) :
    checkQubitValues idx qubitCount v = .ok () → checkQubitValues idx qubitCount w = .ok () := by
  induction hr with
  | self v => exact id
  | item hmem _ ih =>
    intro h
    rw [checkQubitValues] at h
    exact ih (check_of_mem h _ hmem)

/-- A rotation whose params pass has its qubit in range. -/
theorem rotation_of_validate {params : Value}
    (h : validateRotationQubit params idx qubitCount = .ok ()) :
    ∃ q, rotationQubit params = some q ∧ IsQubit qubitCount q := by
  unfold validateRotationQubit at h
  split at h
  · cases h
  · exact ⟨_, rfl, requireQubit_ok_iff.mp h⟩
  · rename_i hnil hcons
    refine ⟨params, ?_, requireQubit_ok_iff.mp h⟩
    unfold rotationQubit
    split
    · rename_i items
      cases items with
      | nil => exact absurd rfl hnil
      | cons item items => exact absurd rfl (hcons item items)
    · rfl

end Qubits

/-! ### Gates -/

section Gates

variable {serdeError : Value → String} {idx : ℕ} {qubitCount : UInt64} {supportedGates : List String}

theorem get?_cons (key : String) (e : String × Value) (map : List (String × Value)) :
    get? (e :: map) key = if e.1 = key then some e.2 else get? map key := by
  unfold get?
  rw [List.find?_cons]
  by_cases h : e.1 = key
  · simp [h]
  · simp [h]

theorem validateGateMember_ok_iff {map : List (String × Value)} :
    validateGateMember serdeError idx qubitCount supportedGates map = .ok () ↔
      ∃ value, get? map "gate" = some value ∧
        validateNestedGate serdeError idx qubitCount supportedGates value = .ok () := by
  induction map with
  | nil => simp [validateGateMember, get?]
  | cons e map ih =>
    obtain ⟨key, value⟩ := e
    rw [validateGateMember, get?_cons]
    by_cases hkey : key = "gate"
    · simp [hkey]
    · simp [hkey, ih]

theorem validateParamsMember_ok_iff {e type : String} {map : List (String × Value)} :
    validateParamsMember serdeError idx qubitCount supportedGates e type map = .ok () ↔
      ∃ params, get? map "params" = some params ∧
        validateGate serdeError idx qubitCount supportedGates type params = .ok () := by
  induction map with
  | nil => simp [validateParamsMember, get?]
  | cons m map ih =>
    obtain ⟨key, value⟩ := m
    rw [validateParamsMember, get?_cons]
    by_cases hkey : key = "params"
    · simp [hkey]
    · simp [hkey, ih]

theorem gateOfValue_object (map : List (String × Value)) : gateOfValue (.object map) =
    match get? map "type" with
    | some (.string type) => (get? map "params").map (⟨type, ·⟩)
    | _ => none := by
  rw [gateOfValue]
  cases get? map "type" with
  | none => rfl
  | some t => cases t <;> cases get? map "params" <;> rfl

theorem gateOfValue_eq_none {value : Value} (hmap : ∀ map, value ≠ .object map)
    (harray : ∀ type params, value ≠ .array [.string type, params]) : gateOfValue value = none := by
  unfold gateOfValue
  split
  · exact absurd rfl (hmap _)
  · exact absurd rfl (harray _ _)
  · rfl

/-- A nested gate passes if it is a gate and that passes. -/
theorem validateNestedGate_ok_iff {value : Value} :
    validateNestedGate serdeError idx qubitCount supportedGates value = .ok () ↔
      ∃ g, gateOfValue value = some g ∧
        validateGate serdeError idx qubitCount supportedGates g.type g.params = .ok () := by
  unfold validateNestedGate
  split
  · rename_i map
    rw [gateOfValue_object]
    cases get? map "type" with
    | none => simp
    | some t =>
      cases t with
      | string type => simp [validateParamsMember_ok_iff]
      | _ => simp
  · simp [gateOfValue]
  · rename_i hmap harray
    rw [gateOfValue_eq_none hmap harray]
    simp

/-- **A gate passes** if it is supported and its params pass: those of an `IF` gate hold a gate that
passes, those of any other gate have their qubits in range. -/
theorem validateGate_ok_iff {gate : Gate} :
    validateGate serdeError idx qubitCount supportedGates gate.type gate.params = .ok () ↔
      gate.type ∈ supportedGates ∧
      (gate.type = "IF" → ∃ g, nestedGate gate = some g ∧
        validateGate serdeError idx qubitCount supportedGates g.type g.params = .ok ()) ∧
      (gate.type ≠ "IF" → validateQubitParams gate.type gate.params idx qubitCount = .ok ()) := by
  obtain ⟨type, params⟩ := gate
  rw [validateGate.eq_def]
  by_cases hsup : type ∈ supportedGates
  · by_cases hif : type = "IF"
    · subst hif
      rw [if_neg (not_not.mpr hsup), if_pos rfl]
      simp only [hsup, true_and, ne_eq, not_true_eq_false, false_implies, and_true, forall_const]
      split
      · rename_i map
        simp only [validateGateMember_ok_iff, validateNestedGate_ok_iff, nestedGate,
          Option.bind_eq_some_iff]
        constructor
        · rintro ⟨value, hvalue, g, hg, hok⟩
          exact ⟨g, ⟨value, hvalue, hg⟩, hok⟩
        · rintro ⟨g, ⟨value, hvalue, hg⟩, hok⟩
          exact ⟨value, hvalue, g, hg, hok⟩
      · rename_i hmap
        have hnone : nestedGate ⟨"IF", params⟩ = none := by
          unfold nestedGate
          split
          · rename_i map hobj
            exact absurd hobj (hmap map)
          · rfl
        simp [hnone]
    · simp [hsup, hif]
  · simp [hsup]

/-- **A gate that passes is placed**, and so are the gates in it. -/
theorem placed_of_validate {g g' : Gate} (hw : Within g g') :
    validateGate serdeError idx qubitCount supportedGates g.type g.params = .ok () →
      Placed qubitCount supportedGates g' := by
  induction hw with
  | nested hif hn _ ih =>
    intro h
    obtain ⟨g₁, hg₁, hok⟩ := (validateGate_ok_iff.mp h).2.1 hif
    obtain rfl := Option.some.inj (hn.symm.trans hg₁)
    exact ih hok
  | self g =>
    intro h
    obtain ⟨hsup, -, hparams⟩ := validateGate_ok_iff.mp h
    unfold validateQubitParams at hparams
    refine ⟨hsup, fun hrot => ?_, fun hrot hif n hn => ?_, fun hrot hif map q hr hq => ?_⟩
    · have hif : g.type ≠ "IF" := by
        intro hif
        unfold IsRotation at hrot
        rw [hif] at hrot
        exact absurd hrot (by decide)
      have hqubit := hparams hif
      rw [if_pos (show g.type ∈ _ from hrot)] at hqubit
      exact rotation_of_validate hqubit
    · have hcheck := hparams hif
      rw [if_neg (show ¬ g.type ∈ _ from hrot)] at hcheck
      exact isQubit_of_number (check_of_reached hn hcheck)
    · have hcheck := hparams hif
      rw [if_neg (show ¬ g.type ∈ _ from hrot)] at hcheck
      have hobj := check_of_reached hr hcheck
      rw [checkQubitValues, hq] at hobj
      exact requireQubit_ok_iff.mp hobj

/-! ### Normalisation -/

/-- A function that changes the first member under a name, on a lookup. -/
theorem get?_firstMember {member : List (String × Value) → List (String × Value)} {name : String}
    {change : Value → Value} (hnil : member [] = [])
    (hcons : ∀ k v rest, member ((k, v) :: rest) =
      if k = name then (k, change v) :: rest else (k, v) :: member rest)
    (map : List (String × Value)) (key : String) :
    get? (member map) key = if key = name then (get? map key).map change else get? map key := by
  induction map with
  | nil =>
    rw [hnil]
    split_ifs <;> rfl
  | cons e map ih =>
    obtain ⟨k, value⟩ := e
    rw [hcons]
    by_cases hk : k = name
    · rw [if_pos hk, get?_cons, get?_cons]
      by_cases hkey : key = name
      · simp [hk, hkey]
      · simp [hk, hkey, Ne.symm hkey]
    · rw [if_neg hk, get?_cons, get?_cons, ih]
      by_cases hkk : k = key
      · simp [hkk, hkk ▸ hk]
      · simp [hkk]

theorem get?_normalizeGateMember (map : List (String × Value)) (key : String) :
    get? (normalizeGateMember map) key =
      if key = "gate" then (get? map key).map normalizeNestedGate else get? map key :=
  get?_firstMember (by rw [normalizeGateMember]) (fun _ _ _ => by rw [normalizeGateMember]) map key

theorem get?_normalizeParamsMember (map : List (String × Value)) (key : String) :
    get? (normalizeParamsMember map) key =
      if key = "params" then (get? map key).map normalizeGateValue else get? map key :=
  get?_firstMember (by rw [normalizeParamsMember]) (fun _ _ _ => by rw [normalizeParamsMember])
    map key

theorem validateRotationQubit_normalize {params : Value}
    (h : validateRotationQubit params idx qubitCount = .ok ()) :
    validateRotationQubit (normalizeGateValue params) idx qubitCount = .ok () := by
  rw [normalizeGateValue.eq_def]
  split
  · obtain ⟨n, rfl, hn⟩ := requireQubit_ok_iff.mp h
    exact requireQubit_ok_iff.mpr ⟨n, rfl, hn⟩
  · -- an object is no qubit
    obtain ⟨q, hq, n, rfl, -⟩ := rotation_of_validate h
    cases Option.some.inj hq
  · exact h

theorem checkQubitValues_normalize {params : Value}
    (h : checkQubitValues idx qubitCount params = .ok ()) :
    checkQubitValues idx qubitCount (normalizeGateValue params) = .ok () := by
  rw [normalizeGateValue.eq_def]
  split
  · rename_i item
    rw [checkQubitValues] at h
    exact check_of_mem h item (List.mem_singleton_self item)
  · rename_i map
    have hkey : get? (normalizeGateMember map) "qubit" = get? map "qubit" := by
      rw [get?_normalizeGateMember, if_neg (by decide)]
    rw [checkQubitValues] at h ⊢
    rwa [hkey]
  · exact h

/-- The params of a gate other than `IF` pass again. -/
theorem validateQubitParams_normalize {type : String} {params : Value}
    (h : validateQubitParams type params idx qubitCount = .ok ()) :
    validateQubitParams type (normalizeGateValue params) idx qubitCount = .ok () := by
  unfold validateQubitParams at h ⊢
  split_ifs at h ⊢ with hrot
  · exact validateRotationQubit_normalize h
  · exact checkQubitValues_normalize h

mutual

/-- **A gate that passes does so with its params normalised.** -/
theorem validateGate_normalize : ∀ {type : String} {params : Value},
    validateGate serdeError idx qubitCount supportedGates type params = .ok () →
      validateGate serdeError idx qubitCount supportedGates type (normalizeGateValue params) = .ok ()
  | type, params, h => by
    rw [validateGate.eq_def] at h ⊢
    split_ifs at h ⊢ with hsup hif
    · cases params with
      | object map =>
        rw [normalizeGateValue]
        exact validateGateMember_normalize h
      | _ => cases h
    · exact validateQubitParams_normalize h

theorem validateGateMember_normalize : ∀ {map : List (String × Value)},
    validateGateMember serdeError idx qubitCount supportedGates map = .ok () →
      validateGateMember serdeError idx qubitCount supportedGates (normalizeGateMember map) = .ok ()
  | [], h => h
  | (key, value) :: map, h => by
    rw [normalizeGateMember]
    rw [validateGateMember] at h
    split_ifs at h ⊢ with hkey
    · rw [validateGateMember, if_pos hkey]
      exact validateNestedGate_normalize h
    · rw [validateGateMember, if_neg hkey]
      exact validateGateMember_normalize h

theorem validateNestedGate_normalize : ∀ {value : Value},
    validateNestedGate serdeError idx qubitCount supportedGates value = .ok () →
      validateNestedGate serdeError idx qubitCount supportedGates (normalizeNestedGate value) = .ok ()
  | .object map, h => by
    rw [normalizeNestedGate, validateNestedGate, get?_normalizeParamsMember, if_neg (by decide)]
    rw [validateNestedGate] at h
    split at h
    · exact validateParamsMember_normalize h
    · cases h
  | .null, h => h
  | .bool _, h => h
  | .number _, h => h
  | .string _, h => h
  | .array _, h => h

/-- The texts of the errors of a gate that passes do not matter. -/
theorem validateParamsMember_normalize : ∀ {e e' type : String} {map : List (String × Value)},
    validateParamsMember serdeError idx qubitCount supportedGates e type map = .ok () →
      validateParamsMember serdeError idx qubitCount supportedGates e' type
        (normalizeParamsMember map) = .ok ()
  | _, _, _, [], h => by cases h
  | _, _, _, (key, value) :: map, h => by
    rw [normalizeParamsMember]
    rw [validateParamsMember] at h
    split_ifs at h ⊢ with hkey
    · rw [validateParamsMember, if_pos hkey]
      exact validateGate_normalize h
    · rw [validateParamsMember, if_neg hkey]
      exact validateParamsMember_normalize h

end

/-! ### Circuits -/

theorem validateCircuitFrom_normalize : ∀ {idx : ℕ} {circuit : List Gate},
    validateCircuitFrom serdeError qubitCount supportedGates idx circuit = .ok () →
      validateCircuitFrom serdeError qubitCount supportedGates idx (normalizeGateParams circuit) = .ok ()
  | _, [], h => h
  | idx, gate :: circuit, h => by
    rw [validateCircuitFrom] at h
    obtain ⟨_, hgate, hrest⟩ := bind_eq_ok.mp h
    refine bind_eq_ok.mpr ⟨(), validateGate_normalize hgate, ?_⟩
    exact validateCircuitFrom_normalize hrest

/-- Every gate of a circuit that passes has passed, at its index. -/
theorem validateGate_of_mem : ∀ {idx : ℕ} {circuit : List Gate},
    validateCircuitFrom serdeError qubitCount supportedGates idx circuit = .ok () →
      ∀ gate ∈ circuit, ∃ idx', validateGate serdeError idx' qubitCount supportedGates gate.type
        gate.params = .ok ()
  | _, [], _, _, hmem => absurd hmem List.not_mem_nil
  | idx, first :: circuit, h, gate, hmem => by
    rw [validateCircuitFrom] at h
    obtain ⟨_, hfirst, hrest⟩ := bind_eq_ok.mp h
    rcases List.mem_cons.mp hmem with rfl | hmem
    · exact ⟨idx, hfirst⟩
    · exact validateGate_of_mem hrest gate hmem

/-- **Main result.** A circuit that is accepted is accepted again once it is normalised, and then
every gate in it, at every depth of `IF` nesting, is supported and has its qubits in range. -/
theorem validated_after_normalize (serdeError : Value → String) (circuit : List Gate)
    (qubitCount : UInt64) (supportedGates : List String)
    (h : validateCircuitLogic serdeError qubitCount supportedGates circuit = .ok ()) :
    validateCircuitLogic serdeError qubitCount supportedGates (normalizeGateParams circuit) = .ok () ∧
      ∀ gate ∈ normalizeGateParams circuit, ∀ g, Within gate g → Placed qubitCount supportedGates g := by
  have hnorm := validateCircuitFrom_normalize h
  refine ⟨hnorm, fun gate hmem g hw => ?_⟩
  obtain ⟨idx, hgate⟩ := validateGate_of_mem hnorm gate hmem
  exact placed_of_validate hw hgate

end Gates

/-! ### A circuit with a nested gate -/

/-- An `X` gate inside two `IF` gates, its params an array of one. -/
def nestedCircuit : List Gate :=
  [⟨"IF", .object [("cbit", .number (.posInt 0)), ("gate", .object [("type", .string "IF"),
    ("params", .object [("gate", .object [("type", .string "X"),
      ("params", .array [.number (.posInt 1)])])])])]⟩,
   ⟨"RY", .array [.number (.posInt 0), .number (.posInt 3)]⟩]

theorem validated_after_normalize_nested :
    validateCircuitLogic (fun _ => "") 2 ["X", "RY", "IF"] (normalizeGateParams nestedCircuit) =
        .ok () ∧
      ∀ gate ∈ normalizeGateParams nestedCircuit, ∀ g, Within gate g →
        Placed 2 ["X", "RY", "IF"] g :=
  validated_after_normalize (fun _ => "") nestedCircuit 2 ["X", "RY", "IF"] (by decide +kernel)

end WqcNode.Domain.ValidatedCircuit
