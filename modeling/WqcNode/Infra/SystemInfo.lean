import WqcNode.Lib.SerdeShape
import WqcNode.Lib.SerdeValue
import WqcNode.Domain.Pcs

/-! # What core says of itself (`CoreSystemInfo` in `domain/models.rs`, `infra/core_client.rs`)

Core's answer to `/sysinfo`. An older core leaves out what it does not know, and then bids on no open
call: its memory gate counts as refusing. -/

namespace WqcNode.Infra.SystemInfo

open WqcNode.Lib WqcNode.Lib.Json WqcNode.Lib.JsonText WqcNode.Lib.Serde WqcNode.Lib.SerdeValue
open WqcNode.Lib.SerdeShape WqcNode.Lib.Text WqcNode.Domain.Pcs

structure CoreSystemInfo where
  systemMemoryUsedKb : UInt64
  systemMemoryTotalKb : UInt64
  /-- The double the `f32` is converted from. -/
  cpuUsagePercent : F64
  tnBackendRequested : String
  tnBackendActive : String
  tnBackendNote : Option String
  mpsMaxBondDim : UInt64
  pcsMemoryPolicy : String
  /-- Adapter `max_buffer_size` when core WebGPU is active. -/
  vramBudgetBytes : Option UInt64
  /-- Contraction rates measured by core at startup. -/
  tnSecondsPerByte : Option F64
  tnSecondsPerFlop : Option F64
deriving DecidableEq

namespace CoreSystemInfo

/-- `pcs_memory_policy`. -/
def policy (info : CoreSystemInfo) : PcsMemoryPolicy := .fromEnvStr (some info.pcsMemoryPolicy)

end CoreSystemInfo

variable (fc : FloatCodec)

def coreSystemInfoShape : Shape :=
  .flat ["system_memory_used_kb", "system_memory_total_kb", "cpu_usage_percent",
    "tn_backend_requested", "tn_backend_active", "tn_backend_note", "mps_max_bond_dim",
    "pcs_memory_policy", "vram_budget_bytes", "tn_seconds_per_byte", "tn_seconds_per_flop"]

def coreSystemInfoOf (doc : Document Decimal) : Option CoreSystemInfo :=
  match fieldsOnce ["system_memory_used_kb", "system_memory_total_kb", "cpu_usage_percent",
    "tn_backend_requested", "tn_backend_active", "tn_backend_note", "mps_max_bond_dim",
    "pcs_memory_policy", "vram_budget_bytes", "tn_seconds_per_byte", "tn_seconds_per_flop"] doc with
  | some [systemMemoryUsedKb, systemMemoryTotalKb, cpuUsagePercent, tnBackendRequested,
      tnBackendActive, tnBackendNote, mpsMaxBondDim, pcsMemoryPolicy, vramBudgetBytes,
      tnSecondsPerByte, tnSecondsPerFlop] => do
    return {
      systemMemoryUsedKb := ← required u64Of systemMemoryUsedKb
      systemMemoryTotalKb := ← required u64Of systemMemoryTotalKb
      cpuUsagePercent := ← required (f64Of fc) cpuUsagePercent
      tnBackendRequested := ← orDefault "" textOf tnBackendRequested
      tnBackendActive := ← orDefault "" textOf tnBackendActive
      tnBackendNote := ← nullable textOf tnBackendNote
      mpsMaxBondDim := ← orDefault 0 u64Of mpsMaxBondDim
      pcsMemoryPolicy := ← orDefault "refuse" textOf pcsMemoryPolicy
      vramBudgetBytes := ← nullable u64Of vramBudgetBytes
      tnSecondsPerByte := ← nullable (f64Of fc) tnSecondsPerByte
      tnSecondsPerFlop := ← nullable (f64Of fc) tnSecondsPerFlop }
  | _ => none

/-- The answer to `/sysinfo`, with its body if that can be read, or the error of the request. -/
abbrev Answer := Except String (Option Bytes)

/-- The status of the answer is not looked at. -/
def getSystemInfo (baseUrl : String) : Answer → Except String CoreSystemInfo
  | .error _ => .error s!"Could not connect to wqc-core at {baseUrl}/sysinfo"
  | .ok body =>
    match (body.bind (fromSliceAs coreSystemInfoShape)).bind (coreSystemInfoOf fc) with
    | some info => .ok info
    | none => .error "Failed to parse system info from core"

/-- `fetch_core_pcs_memory_policy` (`application/pcs_open_call.rs`). -/
def fetchCorePcsMemoryPolicy (baseUrl : String) (answer : Answer) : PcsMemoryPolicy :=
  match getSystemInfo fc baseUrl answer with
  | .ok info => info.policy
  | .error _ => .refuse

variable {fc} {baseUrl : String} {answer : Answer}

theorem getSystemInfo_ok {info : CoreSystemInfo} (h : getSystemInfo fc baseUrl answer = .ok info) :
    ∃ body doc, answer = .ok (some body) ∧ fromSliceAs coreSystemInfoShape body = some doc ∧
      coreSystemInfoOf fc doc = some info := by
  unfold getSystemInfo at h
  split at h
  · cases h
  · next body =>
    split at h
    · next info' hread =>
      cases h
      obtain ⟨doc, hdoc, hinfo⟩ := Option.bind_eq_some_iff.mp hread
      obtain ⟨bytes, rfl, hslice⟩ := Option.bind_eq_some_iff.mp hdoc
      exact ⟨bytes, doc, rfl, hslice, hinfo⟩
    · cases h

/-- **A node bids on open calls** only on the word of a core that answers: what it says of its gate
is `spill`, whatever the case of the letters and the blanks around it. -/
theorem spill_of_fetch (h : fetchCorePcsMemoryPolicy fc baseUrl answer = .spill) :
    ∃ body doc info, answer = .ok (some body) ∧ fromSliceAs coreSystemInfoShape body = some doc ∧
      coreSystemInfoOf fc doc = some info ∧ toAsciiLowercase (trim info.pcsMemoryPolicy) = "spill" := by
  unfold fetchCorePcsMemoryPolicy at h
  split at h
  · next info hinfo =>
    obtain ⟨body, doc, hanswer, hslice, hread⟩ := getSystemInfo_ok hinfo
    exact ⟨body, doc, info, hanswer, hslice, hread, PcsMemoryPolicy.fromEnvStr_spill_iff.mp h⟩
  · cases h

end WqcNode.Infra.SystemInfo
