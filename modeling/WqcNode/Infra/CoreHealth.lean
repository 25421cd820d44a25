import Mathlib.Algebra.Order.Field.Rat
import Mathlib.Data.List.Induction
import Mathlib.Tactic.NormNum
import Mathlib.Tactic.Linarith

/-! # The core health gate (`infra/core_client.rs`)

Requests to core that cannot reach it are counted, and every `failThreshold` of them in a row close
the gate to new requests for `backoff` seconds. The counter goes back to zero when the gate opens
the backoff and when core answers; the end of the backoff resets nothing, and requests that were
under way go on counting. So the gate is described by the failures since core last answered: the
counter is their number modulo the threshold, and the backoff runs from the last of them whose
number is a multiple of it (`gate_of_events`).

A failure whose backoff would end beyond the last instant panics after it was counted, and the gate
stays open with its counter at the threshold; so the description holds exactly as long as every
backoff ends in time (`in_backoff_iff`).

Instants are exact rationals, in seconds. -/

namespace WqcNode.Infra.CoreHealth

/-! ### The source's functions -/

/-- An instant is kept as signed 64-bit seconds with nanoseconds: from here on there is none. -/
def instantEnd : ℚ := 2 ^ 63

/-- `Instant::checked_add`, on which `+` panics if there is no such instant. -/
def checkedAdd (now backoff : ℚ) : Option ℚ :=
  if now + backoff < instantEnd then some (now + backoff) else none

/-- The part of `WqcCoreClient` that the gate is kept in. -/
structure Gate where
  consecutiveFailures : UInt32
  unhealthyUntil : Option ℚ
deriving DecidableEq, Repr

/-- As `WqcCoreClient::new` makes it. -/
def Gate.new : Gate := ⟨0, none⟩

/-- True while the circuit is open. -/
def Gate.isInBackoff (g : Gate) (now : ℚ) : Bool := g.unhealthyUntil.any fun until' => now < until'

def Gate.markHealthy (_ : Gate) : Gate := ⟨0, none⟩

section Threshold

variable (failThreshold : UInt32) (backoff : ℚ)

/-- The gate as the call leaves it, whether it returns or panics. -/
def Gate.recordUnreachable (g : Gate) (now : ℚ) : Gate :=
  let n := g.consecutiveFailures + 1
  if n ≥ failThreshold then
    match checkedAdd now backoff with
    | some until' => ⟨0, some until'⟩
    -- the panic comes after `fetch_add` and before the lock is taken
    | none => ⟨n, g.unhealthyUntil⟩
  else ⟨n, g.unhealthyUntil⟩

end Threshold

/-! ### Histories -/

/-- What a request tells about core. -/
inductive Event
  | healthy (now : ℚ)
  | unreachable (now : ℚ)
deriving DecidableEq, Repr

def Event.time : Event → ℚ
  | .healthy now | .unreachable now => now

def Event.isUnreachable : Event → Bool
  | .healthy _ => false
  | .unreachable _ => true

/-- The times of the failures since core last answered. -/
def failures (events : List Event) : List ℚ :=
  ((events.reverse.takeWhile Event.isUnreachable).map Event.time).reverse

@[simp] theorem failures_nil : failures [] = [] := rfl

@[simp] theorem failures_concat_healthy (events : List Event) (now : ℚ) :
    failures (events ++ [.healthy now]) = [] := by
  simp [failures, Event.isUnreachable]

@[simp] theorem failures_concat_unreachable (events : List Event) (now : ℚ) :
    failures (events ++ [.unreachable now]) = failures events ++ [now] := by
  simp only [failures, List.reverse_append, List.reverse_cons, List.reverse_nil, List.nil_append,
    List.singleton_append]
  rw [List.takeWhile_cons_of_pos rfl, List.map_cons, List.reverse_cons]
  rfl

/-- The failure that opened the gate last: the last whose number is a multiple of `k`. -/
def opening (k : ℕ) (fs : List ℚ) : Option ℚ :=
  if k ≤ fs.length then fs[k * (fs.length / k) - 1]? else none

theorem opening_nil {k : ℕ} (hk : 1 ≤ k) : opening k [] = none := by
  rw [opening, if_neg]
  rw [List.length_nil]
  omega

/-- The counter is at the threshold when one more failure makes a multiple. -/
theorem dvd_succ_iff {k n : ℕ} (hk : 1 ≤ k) : k ∣ n + 1 ↔ n % k + 1 = k := by
  have hlt := Nat.mod_lt n hk
  have hmod : (n + 1) % k = (n % k + 1) % k := (Nat.mod_add_mod ..).symm
  rw [Nat.dvd_iff_mod_eq_zero, hmod]
  constructor
  · intro h
    by_contra hne
    rw [Nat.mod_eq_of_lt (by omega)] at h
    omega
  · intro h
    rw [h, Nat.mod_self]

theorem toNat_succ {n : UInt32} (h : n.toNat + 1 < 2 ^ 32) : (n + 1).toNat = n.toNat + 1 := by
  have hone : (1 : UInt32).toNat = 1 := rfl
  rw [UInt32.toNat_add, hone]
  exact Nat.mod_eq_of_lt h

/-- One more failure opens the gate if its number is a multiple of `k`. -/
theorem opening_concat {k : ℕ} (hk : 1 ≤ k) (fs : List ℚ) (now : ℚ) :
    opening k (fs ++ [now]) = if k ∣ fs.length + 1 then some now else opening k fs := by
  unfold opening
  rw [List.length_append, List.length_singleton]
  by_cases hdvd : k ∣ fs.length + 1
  · rw [if_pos hdvd, if_pos (Nat.le_of_dvd (Nat.succ_pos _) hdvd), Nat.mul_div_cancel' hdvd,
      Nat.add_sub_cancel, List.getElem?_concat_length]
  · rw [if_neg hdvd, Nat.succ_div_of_not_dvd hdvd]
    by_cases hle : k ≤ fs.length
    · have hpos : 0 < fs.length / k := Nat.div_pos hle hk
      have hlast : k * (fs.length / k) ≤ fs.length := Nat.mul_div_le _ _
      have hone : 1 ≤ k * (fs.length / k) := Nat.mul_pos hk hpos
      rw [if_pos hle, if_pos (by omega), List.getElem?_append_left (by omega)]
    · have hne : k ≠ fs.length + 1 := by
        rintro rfl
        exact hdvd dvd_rfl
      rw [if_neg hle, if_neg (by omega)]

/-- What `opening` finds: the last failure whose number `m` is a multiple of `k`. -/
theorem opening_eq_some_iff {k : ℕ} (hk : 1 ≤ k) {fs : List ℚ} {u : ℚ} :
    opening k fs = some u ↔ k ≤ fs.length ∧ ∃ m, 0 < m ∧ k ∣ m ∧ fs[m - 1]? = some u ∧
      ∀ m', k ∣ m' → m' ≤ fs.length → m' ≤ m := by
  unfold opening
  by_cases hle : k ≤ fs.length
  · have hlast : ∀ m', k ∣ m' → m' ≤ fs.length → m' ≤ k * (fs.length / k) := by
      rintro _ ⟨q, rfl⟩ hq
      exact Nat.mul_le_mul_left k ((Nat.le_div_iff_mul_le hk).mpr (by rwa [Nat.mul_comm]))
    rw [if_pos hle]
    constructor
    · intro hu
      exact ⟨hle, _, Nat.mul_pos hk (Nat.div_pos hle hk), Nat.dvd_mul_right .., hu, hlast⟩
    · rintro ⟨-, m, hpos, hdvd, hu, hmax⟩
      have hm : m - 1 < fs.length := (List.getElem?_eq_some_iff.mp hu).1
      have hself := hmax _ (Nat.dvd_mul_right ..) (Nat.mul_div_le fs.length k)
      rwa [le_antisymm hself (hlast m hdvd (by omega))]
  · rw [if_neg hle]
    exact ⟨fun h => absurd h (by simp), fun h => absurd h.1 hle⟩

/-! ### The gate after a history -/

section Threshold

variable (failThreshold : UInt32) (backoff : ℚ)

def Gate.see (g : Gate) : Event → Gate
  | .healthy _ => g.markHealthy
  | .unreachable now => g.recordUnreachable failThreshold backoff now

/-- The gate after the events, the first of them first. -/
def after (events : List Event) : Gate := events.foldl (Gate.see failThreshold backoff) Gate.new

/-- Every failure that is to open the gate does so early enough for the backoff to end. -/
def OpensInTime (events : List Event) : Prop :=
  ∀ before now, before ++ [.unreachable now] <+: events →
    failThreshold.toNat ∣ (failures before).length + 1 → now + backoff < instantEnd

/-- The counter is below the threshold; and the gate is in backoff exactly if the threshold was
reached since core last answered, and the last failure whose number is a multiple of the threshold
is less than the backoff ago. -/
structure Described (events : List Event) : Prop where
  below : (after failThreshold backoff events).consecutiveFailures < failThreshold
  inBackoff : ∀ t, (after failThreshold backoff events).isInBackoff t = true ↔
    failThreshold.toNat ≤ (failures events).length ∧
      ∃ m u, 0 < m ∧ failThreshold.toNat ∣ m ∧ (failures events)[m - 1]? = some u ∧
        (∀ m', failThreshold.toNat ∣ m' → m' ≤ (failures events).length → m' ≤ m) ∧
        t - u < backoff

variable {failThreshold} {backoff}

theorem after_concat (events : List Event) (e : Event) :
    after failThreshold backoff (events ++ [e]) =
      (after failThreshold backoff events).see failThreshold backoff e := by
  rw [after, List.foldl_append, List.foldl_cons, List.foldl_nil, ← after]

theorem opensInTime_concat {events : List Event} {e : Event} :
    OpensInTime failThreshold backoff (events ++ [e]) ↔ OpensInTime failThreshold backoff events ∧
      ∀ now, e = .unreachable now → failThreshold.toNat ∣ (failures events).length + 1 →
        now + backoff < instantEnd := by
  constructor
  · intro h
    refine ⟨fun before now hpre => h before now (hpre.trans (List.prefix_append _ _)), ?_⟩
    rintro now rfl
    exact h events now (List.prefix_refl _)
  · rintro ⟨hevents, hlast⟩ before now hpre
    rcases List.prefix_concat_iff.mp hpre with heq | hpre
    · obtain ⟨rfl, he⟩ := List.append_inj' heq rfl
      obtain rfl := List.singleton_inj.mp he
      exact hlast now rfl
    · exact hevents before now hpre

theorem gate_of_events (hthreshold : 1 ≤ failThreshold) (events : List Event)
    (hopens : OpensInTime failThreshold backoff events) :
    (after failThreshold backoff events).consecutiveFailures.toNat =
        (failures events).length % failThreshold.toNat ∧
      (after failThreshold backoff events).unhealthyUntil =
        (opening failThreshold.toNat (failures events)).map (· + backoff) := by
  have hk : 1 ≤ failThreshold.toNat := UInt32.le_iff_toNat_le.mp hthreshold
  have hsize := failThreshold.toNat_lt
  induction events using List.reverseRecOn with
  | nil =>
    refine ⟨(Nat.zero_mod _).symm, ?_⟩
    rw [failures_nil, opening_nil hk]
    rfl
  | append_singleton events e ih =>
    obtain ⟨hevents, hlast⟩ := opensInTime_concat.mp hopens
    obtain ⟨hcount, huntil⟩ := ih hevents
    rw [after_concat]
    cases e with
    | healthy now =>
      rw [failures_concat_healthy, opening_nil hk]
      exact ⟨(Nat.zero_mod _).symm, rfl⟩
    | unreachable now =>
      have hlt := Nat.mod_lt (failures events).length hk
      have hn : ((after failThreshold backoff events).consecutiveFailures + 1).toNat =
          (failures events).length % failThreshold.toNat + 1 := by
        rw [toNat_succ (by omega), hcount]
      rw [failures_concat_unreachable, opening_concat hk, List.length_append, List.length_singleton]
      simp only [Gate.see, Gate.recordUnreachable, ge_iff_le, UInt32.le_iff_toNat_le, hn]
      by_cases hreached : failThreshold.toNat ≤ (failures events).length % failThreshold.toNat + 1
      · -- the counter comes back to zero, and this failure is the last to open the gate
        have hdvd : failThreshold.toNat ∣ (failures events).length + 1 :=
          (dvd_succ_iff hk).mpr (by omega)
        rw [if_pos hreached, if_pos hdvd, Nat.mod_eq_zero_of_dvd hdvd, checkedAdd,
          if_pos (hlast now rfl hdvd)]
        exact ⟨rfl, rfl⟩
      · have hdvd : ¬ failThreshold.toNat ∣ (failures events).length + 1 := by
          rw [dvd_succ_iff hk]
          omega
        rw [if_neg hreached, if_neg hdvd, ← Nat.mod_add_mod, Nat.mod_eq_of_lt (by omega)]
        exact ⟨hn, huntil⟩

theorem described_of_opensInTime (hthreshold : 1 ≤ failThreshold) {events : List Event}
    (hopens : OpensInTime failThreshold backoff events) :
    Described failThreshold backoff events := by
  have hk : 1 ≤ failThreshold.toNat := UInt32.le_iff_toNat_le.mp hthreshold
  obtain ⟨hcount, huntil⟩ := gate_of_events hthreshold events hopens
  constructor
  · rw [UInt32.lt_iff_toNat_lt, hcount]
    exact Nat.mod_lt _ hk
  · intro t
    rw [Gate.isInBackoff, huntil, Option.any_map, Option.any_eq_true]
    constructor
    · rintro ⟨u, hu, hlt⟩
      obtain ⟨hle, m, hpos, hdvd, hget, hmax⟩ := (opening_eq_some_iff hk).mp hu
      exact ⟨hle, m, u, hpos, hdvd, hget, hmax, sub_lt_iff_lt_add'.mpr (of_decide_eq_true hlt)⟩
    · rintro ⟨hle, m, u, hpos, hdvd, hget, hmax, hlt⟩
      exact ⟨u, (opening_eq_some_iff hk).mpr ⟨hle, m, hpos, hdvd, hget, hmax⟩,
        decide_eq_true (sub_lt_iff_lt_add'.mp hlt)⟩

/-- A failure that opens the gate too late leaves the counter at the threshold. -/
theorem stuck_of_late (hthreshold : 1 ≤ failThreshold) {events : List Event} {now : ℚ}
    (hopens : OpensInTime failThreshold backoff events)
    (hdvd : failThreshold.toNat ∣ (failures events).length + 1)
    (hlate : ¬ now + backoff < instantEnd) :
    (after failThreshold backoff (events ++ [.unreachable now])).consecutiveFailures =
      failThreshold := by
  have hk : 1 ≤ failThreshold.toNat := UInt32.le_iff_toNat_le.mp hthreshold
  have hsize := failThreshold.toNat_lt
  have hcount := (gate_of_events hthreshold events hopens).1
  have hmod := (dvd_succ_iff hk).mp hdvd
  have hn : (after failThreshold backoff events).consecutiveFailures + 1 = failThreshold := by
    rw [← UInt32.toNat_inj, toNat_succ (by omega), hcount, hmod]
  rw [after_concat]
  simp only [Gate.see, Gate.recordUnreachable, hn, checkedAdd, if_neg hlate]
  split_ifs <;> rfl

/-- **Main result.** For a threshold that is not zero, the gate is as described at every point of a
history exactly if every failure that is to open it does so early enough for the backoff to end. The
times need not be in order; if they are, the last failure is the latest. -/
theorem in_backoff_iff (hthreshold : 1 ≤ failThreshold) (events : List Event) :
    (∀ before, before <+: events → Described failThreshold backoff before) ↔
      OpensInTime failThreshold backoff events := by
  constructor
  · induction events using List.reverseRecOn with
    | nil =>
      intro _ before now hpre
      simp at hpre
    | append_singleton events e ih =>
      intro hall
      have hevents := ih fun before hpre => hall before (hpre.trans (List.prefix_append _ _))
      refine opensInTime_concat.mpr ⟨hevents, ?_⟩
      rintro now rfl hdvd
      by_contra hlate
      have hbelow := (hall _ (List.prefix_refl _)).below
      rw [stuck_of_late hthreshold hevents hdvd hlate] at hbelow
      exact UInt32.lt_irrefl _ hbelow
  · intro hopens before hpre
    exact described_of_opensInTime hthreshold fun before' now hpre' =>
      hopens before' now (hpre'.trans hpre)

end Threshold

/-- Three failures in a row open the gate, and one more that was under way changes nothing. -/
def threeFailures : List Event :=
  [.healthy 0, .unreachable 1, .unreachable 2, .unreachable 3, .unreachable 4]

theorem in_backoff_three : OpensInTime 3 30 threeFailures ∧ Described 3 30 threeFailures ∧
    (after 3 30 threeFailures).isInBackoff 32 = true := by
  have hopens : OpensInTime 3 30 threeFailures := by
    intro before now hpre _
    have hmem : Event.unreachable now ∈ threeFailures := hpre.subset (by simp)
    have hnow : now ≤ 4 := by
      simp only [threeFailures, List.mem_cons, List.not_mem_nil, Event.unreachable.injEq,
        reduceCtorEq, false_or, or_false] at hmem
      rcases hmem with rfl | rfl | rfl | rfl <;> norm_num
    unfold instantEnd
    linarith
  exact ⟨hopens, (in_backoff_iff (by decide) threeFailures).mpr hopens _ (List.prefix_refl _),
    by decide +kernel⟩

/-- **A backoff that ends beyond the last instant leaves the gate open**: the third failure is counted
and panics, the counter stays at the threshold and nothing is in backoff. -/
theorem backoff_overflow_stuck :
    ¬ Described 3 18446744073709551615 [.unreachable 1, .unreachable 2, .unreachable 3] ∧
      (after 3 18446744073709551615
        [.unreachable 1, .unreachable 2, .unreachable 3]).consecutiveFailures = 3 ∧
      ∀ t, (after 3 18446744073709551615
        [.unreachable 1, .unreachable 2, .unreachable 3]).isInBackoff t = false := by
  have hgate : after 3 18446744073709551615 [.unreachable 1, .unreachable 2, .unreachable 3] =
      ⟨3, none⟩ := by decide +kernel
  refine ⟨fun h => ?_, by rw [hgate], fun t => by rw [hgate]; rfl⟩
  have hbelow := h.below
  rw [hgate] at hbelow
  exact UInt32.lt_irrefl _ hbelow

end WqcNode.Infra.CoreHealth
