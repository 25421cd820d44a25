import WqcNode.Lib.Saturate
import WqcNode.Lib.Text
import Mathlib.Data.Nat.Log

/-! # The memory budget and the widths it advertises (`memory_budget.rs`)

A dense state of `n` qubits takes `2 ^ n * 16` bytes, a compact one of `n` qubits
`n * 128 ^ 2 * 32`. The budget is what the operator requests, at most the host's RAM less a reserve,
and at most the adapter's VRAM less another one if the core computes on WebGPU (`config.rs`,
`apply_core_sysinfo`).

* `maxQubitsFromDense_eq_log`: the search loop finds a logarithm, for every budget the caps let
  through.
* `advertised_widths`: the two widths fit the budget, are the largest that do, and never decrease
  when the host's RAM, the request or the VRAM grows. -/

namespace WqcNode.MemoryBudget

open WqcNode.Lib.Saturate WqcNode.Lib.Text

/-! ### The source's functions -/

def denseAmplitudeBytes : UInt64 := 16
def mpsBondDim : UInt64 := 128
def mpsSiteFactorBytes : UInt64 := 32
def gib : UInt64 := 1024 * 1024 * 1024
def hostMemoryReserveThresholdGib : UInt64 := 16
def hostMemoryReserveSmallGib : UInt64 := 1
def hostMemoryReserveLargeGib : UInt64 := 2
def vramMemoryReserveGib : UInt64 := 1

/-- Which envelope limited the budget. -/
inductive MemoryCapSource
  | ram
  | vram
deriving DecidableEq, Repr

def hostMemoryReserveGib (totalGib : UInt64) : UInt64 :=
  if totalGib ≥ hostMemoryReserveThresholdGib then hostMemoryReserveLargeGib
  else hostMemoryReserveSmallGib

def maxWqcMemoryGibFromTotal (totalGib : UInt64) : UInt64 :=
  if totalGib = 0 then 1
  else max (u64SaturatingSub totalGib (hostMemoryReserveGib totalGib)) 1

def maxWqcMemoryBytesFromTotal (totalBytes : UInt64) : UInt64 :=
  u64SaturatingMul (maxWqcMemoryGibFromTotal (totalBytes / gib)) gib

/-- The compact width; the bid field is a `u32`. -/
def maxQubitsFromMpsMemoryBudget (budgetBytes : UInt64) : ℕ :=
  let perQubit := u64SaturatingMul (u64SaturatingMul mpsBondDim mpsBondDim) mpsSiteFactorBytes
  if perQubit = 0 ∨ budgetBytes < perQubit then 0
  else min (budgetBytes / perQubit).toNat (2 ^ 32 - 1)

/-- The search for the first width from `n` on that does not fit; `fuel` is what is left of `63`. -/
def denseSearch (budgetBytes : UInt64) : ℕ → ℕ → ℕ
  | 0, n => n
  | fuel + 1, n =>
    if u64SaturatingMul denseAmplitudeBytes (1 <<< UInt64.ofNat n) ≤ budgetBytes then
      denseSearch budgetBytes fuel (n + 1)
    else n

def maxQubitsFromDenseMemoryBudget (budgetBytes : UInt64) : ℕ :=
  if budgetBytes < denseAmplitudeBytes then 0 else denseSearch budgetBytes 63 0 - 1

/-- The RAM budget: the request, given as the bytes its GiB convert to, within the cap. -/
def effectiveMemoryBytes (requested : Option UInt64) (totalPhysicalBytes : UInt64) : UInt64 :=
  let cap := maxWqcMemoryBytesFromTotal totalPhysicalBytes
  match requested with
  | none => cap
  | some bytes => min bytes cap

/-- The widths, and the budget they are for. -/
structure Widths where
  dense : ℕ
  mps : ℕ
  bytes : UInt64
deriving DecidableEq, Repr

def resolveMaxQubitsFromMemoryGb (requested : Option UInt64) (totalPhysicalBytes : UInt64) :
    Widths :=
  let bytes := effectiveMemoryBytes requested totalPhysicalBytes
  ⟨maxQubitsFromDenseMemoryBudget bytes, maxQubitsFromMpsMemoryBudget bytes, bytes⟩

/-- The smaller of the RAM budget and what the adapter's VRAM leaves, if any VRAM is reported. -/
def cappedBytes (ramBudgetBytes : UInt64) (vramBudgetBytes : Option UInt64) :
    UInt64 × MemoryCapSource :=
  match vramBudgetBytes.filter (· > 0) with
  | some vram =>
    let vramUsable :=
      max (u64SaturatingSub vram (u64SaturatingMul vramMemoryReserveGib gib)) denseAmplitudeBytes
    if vramUsable < ramBudgetBytes then (vramUsable, .vram) else (ramBudgetBytes, .ram)
  | none => (ramBudgetBytes, .ram)

def resolveMaxQubitsWithOptionalVram (ramBudgetBytes : UInt64) (vramBudgetBytes : Option UInt64) :
    Widths × MemoryCapSource :=
  let (bytes, source) := cappedBytes ramBudgetBytes vramBudgetBytes
  (⟨maxQubitsFromDenseMemoryBudget bytes, maxQubitsFromMpsMemoryBudget bytes, bytes⟩, source)

/-- The fields of `NodeConfig` that the budget is kept in, with budgets in bytes. -/
structure MemoryConfig where
  requestedMemory : Option UInt64
  hostTotalMemoryBytes : UInt64
  vramBudget : Option UInt64
  widths : Widths
  memoryCapSource : MemoryCapSource

/-- What `from_env` sets. -/
def MemoryConfig.fromEnv (requested : Option UInt64) (total : UInt64) : MemoryConfig :=
  ⟨requested, total, none, resolveMaxQubitsFromMemoryGb requested total, .ram⟩

/-- The fields of core's `/sysinfo` that the budget depends on. -/
structure CoreSystemInfo where
  tnBackendActive : String
  vramBudgetBytes : Option UInt64

def MemoryConfig.applyCoreSysinfo (config : MemoryConfig) (info : CoreSystemInfo) : MemoryConfig :=
  let ramBytes := effectiveMemoryBytes config.requestedMemory config.hostTotalMemoryBytes
  let vramRaw := if eqIgnoreAsciiCase info.tnBackendActive "webgpu" then
    info.vramBudgetBytes.filter (· > 0) else none
  let (widths, source) := resolveMaxQubitsWithOptionalVram ramBytes vramRaw
  { config with vramBudget := vramRaw, widths := widths, memoryCapSource := source }

/-! ### The RAM budget -/

variable {total total' : UInt64} {requested requested' vram vram' : Option UInt64}

theorem toNat_max (a b : UInt64) : (max a b).toNat = max a.toNat b.toNat := by
  show (if a ≤ b then b else a).toNat = _
  simp only [UInt64.le_iff_toNat_le]
  split_ifs <;> omega

theorem toNat_min (a b : UInt64) : (min a b).toNat = min a.toNat b.toNat := by
  show (if a ≤ b then a else b).toNat = _
  simp only [UInt64.le_iff_toNat_le]
  split_ifs <;> omega

/-- The cap in GiB, over the integers. -/
theorem toNat_maxWqcMemoryGib (totalGib : UInt64) : (maxWqcMemoryGibFromTotal totalGib).toNat =
    max (totalGib.toNat - if 16 ≤ totalGib.toNat then 2 else 1) 1 := by
  unfold maxWqcMemoryGibFromTotal hostMemoryReserveGib
  by_cases hzero : totalGib = 0
  · subst hzero
    rfl
  · have hthreshold : hostMemoryReserveThresholdGib.toNat = 16 := rfl
    rw [if_neg hzero, toNat_max, toNat_u64SaturatingSub]
    simp only [ge_iff_le, UInt64.le_iff_toNat_le, hthreshold]
    split_ifs <;> rfl

/-- The cap in bytes: the product with a GiB never saturates. -/
theorem toNat_maxWqcMemoryBytes (total : UInt64) : (maxWqcMemoryBytesFromTotal total).toNat =
    max (total.toNat / 2 ^ 30 - if 16 ≤ total.toNat / 2 ^ 30 then 2 else 1) 1 * 2 ^ 30 := by
  have hgib : gib.toNat = 2 ^ 30 := rfl
  have htotal := total.toNat_lt
  rw [maxWqcMemoryBytesFromTotal, toNat_u64SaturatingMul, toNat_maxWqcMemoryGib, UInt64.toNat_div,
    hgib]
  omega

theorem toNat_effectiveMemoryBytes : (effectiveMemoryBytes requested total).toNat =
    match requested with
    | none => (maxWqcMemoryBytesFromTotal total).toNat
    | some bytes => min bytes.toNat (maxWqcMemoryBytesFromTotal total).toNat := by
  cases requested with
  | none => rfl
  | some bytes => exact toNat_min ..

/-- No RAM budget comes near the range of a `u64`. -/
theorem effectiveMemoryBytes_lt : (effectiveMemoryBytes requested total).toNat < 2 ^ 64 - 1 := by
  have hcap := toNat_maxWqcMemoryBytes total
  have htotal := total.toNat_lt
  rw [toNat_effectiveMemoryBytes]
  cases requested <;> dsimp only <;> omega

theorem maxWqcMemoryBytes_mono (h : total ≤ total') :
    (maxWqcMemoryBytesFromTotal total).toNat ≤ (maxWqcMemoryBytesFromTotal total').toNat := by
  have hle : total.toNat ≤ total'.toNat := UInt64.le_iff_toNat_le.mp h
  rw [toNat_maxWqcMemoryBytes, toNat_maxWqcMemoryBytes]
  split_ifs <;> omega

/-- A request that is no smaller; without one the cap is requested. -/
def RequestLe : Option UInt64 → Option UInt64 → Prop
  | some bytes, some bytes' => bytes ≤ bytes'
  | none, some _ => False
  | _, none => True

theorem effectiveMemoryBytes_mono (htotal : total ≤ total')
    (hrequested : RequestLe requested requested') :
    (effectiveMemoryBytes requested total).toNat ≤
      (effectiveMemoryBytes requested' total').toNat := by
  have hcap := maxWqcMemoryBytes_mono htotal
  rw [toNat_effectiveMemoryBytes, toNat_effectiveMemoryBytes]
  cases requested <;> cases requested' <;>
    simp only [RequestLe, UInt64.le_iff_toNat_le] at hrequested <;> dsimp only <;> omega

/-! ### The budget -/

/-- What a non-zero VRAM budget leaves. -/
def vramUsable (vram : UInt64) : ℕ := max (vram.toNat - 2 ^ 30) 16

theorem toNat_cappedBytes (ram : UInt64) (vram : Option UInt64) : (cappedBytes ram vram).1.toNat =
    match vram.filter (· > 0) with
    | some vram => min (vramUsable vram) ram.toNat
    | none => ram.toNat := by
  rw [cappedBytes]
  cases vram.filter (· > 0) with
  | none => rfl
  | some vram =>
    have husable : (max (u64SaturatingSub vram (u64SaturatingMul vramMemoryReserveGib gib))
        denseAmplitudeBytes).toNat = vramUsable vram := by
      rw [toNat_max, toNat_u64SaturatingSub, toNat_u64SaturatingMul]
      rfl
    dsimp only
    simp only [UInt64.lt_iff_toNat_lt, husable]
    split_ifs with hlt
    · exact husable.trans (min_eq_left hlt.le).symm
    · exact (min_eq_right (not_lt.mp hlt)).symm

theorem cappedBytes_le_ram (ram : UInt64) (vram : Option UInt64) :
    (cappedBytes ram vram).1.toNat ≤ ram.toNat := by
  rw [toNat_cappedBytes]
  cases vram.filter (· > 0) with
  | none => exact le_rfl
  | some bytes => exact min_le_right _ _

theorem toNat_cappedBytes_some (ram : UInt64) {bytes : UInt64} (hne : bytes ≠ 0) :
    (cappedBytes ram (some bytes)).1.toNat = min (vramUsable bytes) ram.toNat := by
  have hpos : 0 < bytes := UInt64.pos_iff_ne_zero.mpr hne
  rw [toNat_cappedBytes]
  simp only [Option.filter_some, gt_iff_lt, hpos, decide_true, if_true]

/-- The same VRAM budget, or a non-zero one and one that is no smaller. -/
def VramLe (vram vram' : Option UInt64) : Prop :=
  vram = vram' ∨
    ∃ bytes bytes', vram = some bytes ∧ vram' = some bytes' ∧ bytes ≠ 0 ∧ bytes ≤ bytes'

theorem cappedBytes_mono {ram ram' : UInt64} (hram : ram.toNat ≤ ram'.toNat)
    (hvram : VramLe vram vram') :
    (cappedBytes ram vram).1.toNat ≤ (cappedBytes ram' vram').1.toNat := by
  rw [toNat_cappedBytes, toNat_cappedBytes]
  rcases hvram with rfl | ⟨bytes, bytes', rfl, rfl, hne, hle⟩
  · cases vram.filter (· > 0) with
    | none => exact hram
    | some bytes => exact min_le_min le_rfl hram
  · have hpos : 0 < bytes := UInt64.pos_iff_ne_zero.mpr hne
    have hpos' : 0 < bytes' := UInt64.lt_of_lt_of_le hpos hle
    have hle : bytes.toNat ≤ bytes'.toNat := UInt64.le_iff_toNat_le.mp hle
    simp only [Option.filter_some, gt_iff_lt, hpos, hpos', decide_true, if_true, vramUsable]
    exact min_le_min (max_le_max (by omega) le_rfl) hram

/-! ### The widths -/

theorem toNat_denseBytes {n : ℕ} (hn : n < 63) :
    (u64SaturatingMul denseAmplitudeBytes (1 <<< UInt64.ofNat n)).toNat =
      min (16 * 2 ^ n) (2 ^ 64 - 1) := by
  have hpow : 2 ^ n < 2 ^ 64 := Nat.pow_lt_pow_right (by omega) (by omega)
  have hshift : (1 <<< UInt64.ofNat n : UInt64).toNat = 2 ^ n := by
    have hsize : n < 2 ^ 64 := by omega
    have hmod : n % 64 = n := Nat.mod_eq_of_lt (by omega)
    rw [UInt64.toNat_shiftLeft, UInt64.toNat_ofNat_of_lt' hsize, hmod, UInt64.toNat_one,
      Nat.shiftLeft_eq, one_mul, Nat.mod_eq_of_lt hpow]
  rw [toNat_u64SaturatingMul, hshift]
  rfl

/-- The search stops at the first width that does not fit. -/
theorem denseSearch_spec {budget : UInt64} (hbudget : budget.toNat < 2 ^ 64 - 1) :
    ∀ fuel n : ℕ, n + fuel = 63 →
      n ≤ denseSearch budget fuel n ∧ denseSearch budget fuel n ≤ 63 ∧
        (∀ k, n ≤ k → k < denseSearch budget fuel n → 16 * 2 ^ k ≤ budget.toNat) ∧
        (denseSearch budget fuel n < 63 → budget.toNat < 16 * 2 ^ denseSearch budget fuel n) := by
  intro fuel
  induction fuel with
  | zero =>
    intro n hn
    rw [denseSearch]
    exact ⟨le_rfl, by omega, fun k hk hk' => by omega, fun h => by omega⟩
  | succ fuel ih =>
    intro n hn
    have hfits := toNat_denseBytes (n := n) (by omega)
    rw [denseSearch]
    simp only [UInt64.le_iff_toNat_le, hfits]
    split_ifs with hle
    · obtain ⟨hstart, hend, hall, hstop⟩ := ih (n + 1) (by omega)
      refine ⟨by omega, hend, fun k hk hk' => ?_, hstop⟩
      rcases Nat.lt_or_eq_of_le hk with hk | rfl
      · exact hall k hk hk'
      · omega
    · exact ⟨le_rfl, by omega, fun k hk hk' => by omega, fun _ => by omega⟩

/-- **The dense width is a logarithm**, for every budget a cap lets through. -/
theorem maxQubitsFromDense_eq_log {budget : UInt64} (hbudget : budget.toNat < 2 ^ 64 - 1) :
    maxQubitsFromDenseMemoryBudget budget = Nat.log 2 (budget.toNat / 16) := by
  have hsixteen : denseAmplitudeBytes.toNat = 16 := rfl
  unfold maxQubitsFromDenseMemoryBudget
  simp only [UInt64.lt_iff_toNat_lt, hsixteen]
  split_ifs with hsmall
  · rw [Nat.div_eq_of_lt hsmall, Nat.log_zero_right]
  · obtain ⟨-, -, hall, hstop⟩ := denseSearch_spec hbudget 63 0 rfl
    generalize denseSearch budget 63 0 = m at *
    -- `16 * 2 ^ 60` is already out of range
    have hrange : m ≤ 60 := by
      by_contra hlt
      have := hall 60 (by omega) (by omega)
      omega
    have hstop := hstop (by omega)
    have hpos : m ≠ 0 := by
      rintro rfl
      omega
    obtain ⟨n, rfl⟩ := Nat.exists_eq_succ_of_ne_zero hpos
    have hfits := hall n (by omega) (by omega)
    symm
    rw [Nat.succ_sub_one]
    refine Nat.log_eq_of_pow_le_of_lt_pow ?_ ?_ <;> omega

theorem maxQubitsFromMps_eq (budget : UInt64) : maxQubitsFromMpsMemoryBudget budget =
    min (budget.toNat / (128 ^ 2 * 32)) (2 ^ 32 - 1) := by
  have hper :
      u64SaturatingMul (u64SaturatingMul mpsBondDim mpsBondDim) mpsSiteFactorBytes = 524288 := rfl
  have hval : (524288 : UInt64).toNat = 128 ^ 2 * 32 := rfl
  unfold maxQubitsFromMpsMemoryBudget
  simp only [hper, UInt64.lt_iff_toNat_lt, UInt64.toNat_div, hval]
  split_ifs with h
  · have hlt : budget.toNat < 128 ^ 2 * 32 := h.resolve_left (by decide)
    rw [Nat.div_eq_of_lt hlt]
    rfl
  · rfl

/-! ### The widths of a host -/

/-- The widths and the budget of a host, given the request and the VRAM. -/
def advertised (total : UInt64) (requested vram : Option UInt64) : Widths :=
  (resolveMaxQubitsWithOptionalVram (effectiveMemoryBytes requested total) vram).1

theorem fromEnv_widths (requested : Option UInt64) (total : UInt64) :
    (MemoryConfig.fromEnv requested total).widths = advertised total requested none := rfl

/-- Each `/sysinfo` sets the widths anew, from what the node was configured with. -/
theorem applyCoreSysinfo_widths (config : MemoryConfig) (info : CoreSystemInfo) :
    let config' := config.applyCoreSysinfo info
    config'.widths =
        advertised config.hostTotalMemoryBytes config.requestedMemory config'.vramBudget ∧
      config'.hostTotalMemoryBytes = config.hostTotalMemoryBytes ∧
      config'.requestedMemory = config.requestedMemory := ⟨rfl, rfl, rfl⟩

theorem advertised_dense (total : UInt64) (requested vram : Option UInt64) :
    (advertised total requested vram).dense =
      Nat.log 2 ((advertised total requested vram).bytes.toNat / 16) := by
  refine maxQubitsFromDense_eq_log ?_
  have hram : (effectiveMemoryBytes requested total).toNat < 2 ^ 64 - 1 := effectiveMemoryBytes_lt
  exact (cappedBytes_le_ram (effectiveMemoryBytes requested total) vram).trans_lt hram

theorem advertised_mps (total : UInt64) (requested vram : Option UInt64) :
    (advertised total requested vram).mps =
      min ((advertised total requested vram).bytes.toNat / (128 ^ 2 * 32)) (2 ^ 32 - 1) :=
  maxQubitsFromMps_eq _

/-- **Main result.** With `B` the budget that the code uses: it is the RAM budget, or the smaller of it
and what a non-zero VRAM leaves; the two widths are the largest whose states fit it, up to what the
bid can carry, and those of the configuration at startup and after each `/sysinfo`; and neither
decreases when the host's RAM, the request or a non-zero VRAM grows. -/
theorem advertised_widths (total : UInt64) (requested vram : Option UInt64) :
    let ram := effectiveMemoryBytes requested total
    let B := (cappedBytes ram vram).1
    let w := advertised total requested vram
    w.bytes = B ∧ B.toNat ≤ ram.toNat ∧
      (vram = none ∨ vram = some 0 → B = ram) ∧
      (∀ bytes, vram = some bytes → bytes ≠ 0 →
        (B.toNat : ℤ) ≤ max ((bytes.toNat : ℤ) - 2 ^ 30) 16 ∧
          (B.toNat : ℤ) = min (max ((bytes.toNat : ℤ) - 2 ^ 30) 16) (ram.toNat : ℤ)) ∧
      (16 ≤ B.toNat → 16 * 2 ^ w.dense ≤ B.toNat ∧ B.toNat < 16 * 2 ^ (w.dense + 1)) ∧
      (B.toNat < 16 → w.dense = 0) ∧
      w.mps = min (B.toNat / (128 ^ 2 * 32)) (2 ^ 32 - 1) ∧
      (vram = none → (MemoryConfig.fromEnv requested total).widths = w) ∧
      (∀ (config : MemoryConfig) info, config.hostTotalMemoryBytes = total →
        config.requestedMemory = requested → (config.applyCoreSysinfo info).vramBudget = vram →
        (config.applyCoreSysinfo info).widths = w) ∧
      ∀ total' requested' vram', total ≤ total' → RequestLe requested requested' →
        VramLe vram vram' → w.dense ≤ (advertised total' requested' vram').dense ∧
          w.mps ≤ (advertised total' requested' vram').mps := by
  intro ram B w
  have hdense : w.dense = Nat.log 2 (B.toNat / 16) := advertised_dense total requested vram
  refine ⟨rfl, cappedBytes_le_ram _ vram, fun hnone => ?_, ?_, fun hbytes => ?_, fun hbytes => ?_,
    advertised_mps total requested vram, ?_, ?_,
    fun total' requested' vram' htotal hrequested hvram => ?_⟩
  · rcases hnone with rfl | rfl <;> rfl
  · rintro bytes rfl hne
    have hB : B.toNat = min (vramUsable bytes) ram.toNat := toNat_cappedBytes_some ram hne
    rw [vramUsable] at hB
    omega
  · have hne : B.toNat / 16 ≠ 0 := by omega
    have hle := Nat.pow_log_le_self 2 hne
    have hlt := Nat.lt_pow_succ_log_self (b := 2) (by omega) (B.toNat / 16)
    rw [← hdense] at hle hlt
    omega
  · rw [hdense, Nat.div_eq_of_lt hbytes, Nat.log_zero_right]
  · rintro rfl
    exact fromEnv_widths requested total
  · rintro config info rfl rfl rfl
    exact (applyCoreSysinfo_widths config info).1
  · have hle : B.toNat ≤ (advertised total' requested' vram').bytes.toNat :=
      cappedBytes_mono (effectiveMemoryBytes_mono htotal hrequested) hvram
    have hmps : w.mps = _ := advertised_mps total requested vram
    rw [hdense, hmps, advertised_dense, advertised_mps]
    exact ⟨Nat.log_mono_right (Nat.div_le_div_right hle),
      min_le_min (Nat.div_le_div_right hle) le_rfl⟩

end WqcNode.MemoryBudget
