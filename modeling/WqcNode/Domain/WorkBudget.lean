import WqcNode.Lib.Table
import Mathlib.Algebra.Order.Field.Rat
import Mathlib.Tactic.Linarith
import Mathlib.Tactic.Positivity

/-! # The work budget (`domain/work.rs`)

Whether the node can finish an announced sub-task before both its own timeout and the
orchestrator's deadline. The ledger keeps the budgets bid on by parent task (`announced`), the bids
not yet dispatched (`reserved`, each with the instant it lapses) and the sub-tasks held, and
`decide` admits a newcomer if the queue plus its own work fits the share `margin` of the shorter
limit.

Seconds and instants are exact rationals. `f64` sums over a map depend on its iteration order; the
exact sum does not. -/

namespace WqcNode.Domain.WorkBudget

open WqcNode.Lib

/-- Planner counts for one sub-task. -/
structure Work where
  trafficBytes : UInt64
  flops : UInt64
deriving DecidableEq, Repr

/-- `ANNOUNCED_TTL`, in seconds. -/
def announcedTtl : ℚ := 6 * 60 * 60

/-- `RESERVATION_TTL`, in seconds. -/
def reservationTtl : ℚ := 15

/-- Seconds per byte and per flop of the connected core. -/
structure TnRates where
  secondsPerByte : ℚ
  secondsPerFlop : ℚ
deriving DecidableEq, Repr

namespace TnRates

/-- The bounds `SECONDS_PER_BYTE` of a measured rate. -/
def secondsPerByteBounds : ℚ × ℚ := (1 / 10 ^ 13, 1 / 10 ^ 6)

/-- The bounds `SECONDS_PER_FLOP` of a measured rate. -/
def secondsPerFlopBounds : ℚ × ℚ := (1 / 10 ^ 14, 1 / 10 ^ 6)

/-- A rate is within its bounds. -/
def within (x : ℚ) (b : ℚ × ℚ) : Bool := b.1 ≤ x && x ≤ b.2

/-- Both rates of `/sysinfo`, if core reports both and both are within bounds. -/
def fromSysinfo (perByte perFlop : Option ℚ) : Option TnRates :=
  match perByte, perFlop with
  | some b, some f =>
    if within b secondsPerByteBounds && within f secondsPerFlopBounds then some ⟨b, f⟩ else none
  | _, _ => none

/-- The bounds keep the rates above zero. -/
theorem fromSysinfo_pos {perByte perFlop : Option ℚ} {rates : TnRates}
    (h : fromSysinfo perByte perFlop = some rates) :
    0 < rates.secondsPerByte ∧ 0 < rates.secondsPerFlop := by
  unfold fromSysinfo at h
  split at h
  · split_ifs at h with hwithin
    cases h
    unfold within secondsPerByteBounds secondsPerFlopBounds at hwithin
    simp only [Bool.and_eq_true, decide_eq_true_eq] at hwithin
    obtain ⟨⟨hbyte, -⟩, hflop, -⟩ := hwithin
    have hbounds : (0 : ℚ) < 1 / 10 ^ 13 ∧ (0 : ℚ) < 1 / 10 ^ 14 := by norm_num
    exact ⟨lt_of_lt_of_le hbounds.1 hbyte, lt_of_lt_of_le hbounds.2 hflop⟩
  · cases h

def seconds (r : TnRates) (work : Work) : ℚ :=
  work.trafficBytes.toNat * r.secondsPerByte + work.flops.toNat * r.secondsPerFlop

end TnRates

/-- What the node accepted for one parent task. -/
structure Budget where
  deadlineSecs : UInt32
  expectedSecs : ℚ
deriving DecidableEq, Repr

/-- How long the node may wait for core on a sub-task accepted `waited` ago, `none` when the
deadline has passed. -/
def computeTimeout (ownSecs : UInt64) (budget : Option Budget) (waited : ℚ) : Option ℚ :=
  match budget with
  | none => some ownSecs.toNat
  | some b =>
    -- `checked_sub` fails below zero; a zero rest is refused after it
    let left := (b.deadlineSecs.toNat : ℚ) - waited
    if left < 0 then none else if left = 0 then none else some (min (ownSecs.toNat : ℚ) left)

/-- Settings for `decide`. -/
structure BudgetPolicy where
  rates : TnRates
  overheadSecs : ℚ
  margin : ℚ
  ownTimeoutSecs : UInt64
  unknownSecs : ℚ
deriving DecidableEq, Repr

/-- What `NodeConfig::from_env` and `TnRates::from_sysinfo` let through. -/
structure BudgetPolicy.Admitted (p : BudgetPolicy) : Prop where
  perByte : 0 < p.rates.secondsPerByte
  perFlop : 0 < p.rates.secondsPerFlop
  overhead : 0 ≤ p.overheadSecs
  unknown : 0 ≤ p.unknownSecs
  margin_pos : 0 < p.margin
  margin_le : p.margin ≤ 1

/-- A sub-task the node holds; `expectedSecs` is `none` without work. -/
structure Held where
  expectedSecs : Option ℚ
  started : Option ℚ
deriving DecidableEq, Repr

/-- `Instant::duration_since`, which saturates at zero. -/
def durationSince (now at' : ℚ) : ℚ := max 0 (now - at')

/-- What a held sub-task counts for at `now`. Past its estimate the whole estimate counts again. -/
def Held.counts (h : Held) (now unknownSecs : ℚ) : ℚ :=
  match h.expectedSecs, h.started with
  | none, _ => unknownSecs
  | some expected, none => expected
  | some expected, some at' =>
    let left := expected - durationSince now at'
    if left > 0 then left else expected

structure WorkLedger where
  announced : Table String (Budget × ℚ)
  reserved : Table String (ℚ × ℚ)
  held : Table String Held

namespace WorkLedger

/-- `WorkLedger::default`. -/
def empty : WorkLedger := ⟨∅, ∅, ∅⟩

/-- A reservation that has not lapsed at `now`. -/
def live (now : ℚ) (_ : String) (r : ℚ × ℚ) : Bool := now < r.2

/-- Expected time before a new sub-task would start. -/
def queuedSecs (l : WorkLedger) (now unknownSecs : ℚ) : ℚ :=
  Table.sumOf l.held (fun _ h => h.counts now unknownSecs) +
    Table.sumOf (Table.retain l.reserved (live now)) (fun _ r => r.1)

/-- The estimate `decide` makes of the announced work alone. -/
def own (policy : BudgetPolicy) (work : Work) : ℚ := policy.rates.seconds work + policy.overheadSecs

/-- The limit `decide` compares with: `margin · min(own timeout, deadline)`. -/
def limit (policy : BudgetPolicy) (deadlineSecs : UInt32) : ℚ :=
  policy.margin * (min policy.ownTimeoutSecs.toNat deadlineSecs.toNat : ℕ)

/-- Records the budget and a reservation when the queue plus this work fits the limit; otherwise
returns the expected total. Lapsed reservations are dropped either way. -/
protected def decide (l : WorkLedger) (taskId : String) (work : Work) (deadlineSecs : UInt32)
    (policy : BudgetPolicy) (now : ℚ) : WorkLedger × Except ℚ Budget :=
  let l := { l with reserved := Table.retain l.reserved (live now) }
  let total := l.queuedSecs now policy.unknownSecs + own policy work
  if total > limit policy deadlineSecs then (l, .error total)
  else
    let budget : Budget := ⟨deadlineSecs, own policy work⟩
    ({ l with
        announced := (Table.retain l.announced fun _ a =>
          decide (durationSince now a.2 < announcedTtl)).insert taskId (budget, now)
        reserved := l.reserved.insert taskId (own policy work, now + reservationTtl) },
      .ok budget)

/-- The budget this node bid with on `parentTaskId`. -/
def budget (l : WorkLedger) (parentTaskId : String) : Option Budget :=
  (l.announced.lookup parentTaskId).map (·.1)

/-- Counts an accepted or restored sub-task; its parent's reservation ends here. -/
def hold (l : WorkLedger) (subTaskId : String) (parentTaskId : Option String)
    (budget : Option Budget) : WorkLedger :=
  { l with
    reserved := match parentTaskId with
      | some parent => l.reserved.erase parent
      | none => l.reserved
    held := l.held.insert subTaskId ⟨budget.map (·.expectedSecs), none⟩ }

def start (l : WorkLedger) (subTaskId : String) (now : ℚ) : WorkLedger :=
  { l with held := Table.adjust l.held subTaskId fun h => { h with started := some now } }

def release (l : WorkLedger) (subTaskId : String) : WorkLedger :=
  { l with held := l.held.erase subTaskId }

end WorkLedger

/-! ### What is left of the work

`counts` jumps back to the whole estimate when it has elapsed, `remaining` stays at zero: a held
sub-task never counts for less than what remains of it, and before its estimate has elapsed for
exactly that. -/

/-- What remains of a held sub-task at `now`, by its estimate. -/
def Held.remaining (h : Held) (now unknownSecs : ℚ) : ℚ :=
  match h.expectedSecs, h.started with
  | none, _ => unknownSecs
  | some expected, none => expected
  | some expected, some at' => max 0 (expected - durationSince now at')

/-- The estimate of a started sub-task has elapsed. -/
def Held.Overdue (h : Held) (now : ℚ) : Prop :=
  match h.expectedSecs, h.started with
  | some expected, some at' => expected ≤ durationSince now at'
  | _, _ => False

instance (h : Held) (now : ℚ) : Decidable (h.Overdue now) := by
  unfold Held.Overdue; split <;> infer_instance

/-- The estimate of a held sub-task, if it has one, is not negative. -/
def Held.Sound (h : Held) : Prop := ∀ expected, h.expectedSecs = some expected → 0 ≤ expected

theorem durationSince_self (now : ℚ) : durationSince now now = 0 := by
  unfold durationSince; simp

theorem durationSince_mono {now now' : ℚ} (h : now ≤ now') (at' : ℚ) :
    durationSince now at' ≤ durationSince now' at' :=
  max_le_max le_rfl (by linarith)

namespace Held

variable {h : Held} {now now' u : ℚ}

theorem remaining_le_counts (hs : h.Sound) : h.remaining now u ≤ h.counts now u := by
  obtain ⟨_ | e, _ | t⟩ := h <;> simp only [remaining, counts, le_refl]
  have he : 0 ≤ e := hs e rfl
  split_ifs with hl
  · exact max_le hl.le le_rfl
  · exact max_le he (by linarith)

theorem remaining_eq_counts (hn : ¬ h.Overdue now) : h.remaining now u = h.counts now u := by
  obtain ⟨_ | e, _ | t⟩ := h <;> simp only [remaining, counts]
  have hlt : durationSince now t < e := by
    by_contra hge
    exact hn (not_lt.mp hge)
  rw [if_pos (by linarith), max_eq_right (by linarith)]

theorem remaining_nonneg (hs : h.Sound) (hu : 0 ≤ u) : 0 ≤ h.remaining now u := by
  obtain ⟨_ | e, _ | t⟩ := h
  · exact hu
  · exact hu
  · exact hs e rfl
  · exact le_max_left _ _

theorem remaining_anti (hle : now ≤ now') : h.remaining now' u ≤ h.remaining now u := by
  obtain ⟨_ | e, _ | t⟩ := h <;> simp only [remaining, le_refl]
  have := durationSince_mono hle t
  exact max_le_max le_rfl (by linarith)

/-- Starting a sub-task that waits leaves all of its estimate. -/
theorem remaining_start (hs : h.Sound) (hw : h.started = none) :
    remaining { h with started := some now } now u = h.remaining now u := by
  obtain ⟨_ | e, _ | t⟩ := h <;> simp only [remaining]
  · rw [durationSince_self, sub_zero]
    exact max_eq_right (hs e rfl)
  · cases hw

end Held

namespace WorkLedger

variable (l : WorkLedger) (now u : ℚ)

/-- What the ledger is committed to: the work that remains of the held sub-tasks and the live
reservations. -/
def committed : ℚ :=
  Table.sumOf l.held (fun _ h => h.remaining now u) +
    Table.sumOf (Table.retain l.reserved (live now)) (fun _ r => r.1)

variable {l now u}

theorem sumOf_live_eq (r : Table String (ℚ × ℚ)) (now : ℚ) :
    Table.sumOf (Table.retain r (live now)) (fun _ r => r.1) =
      Table.sumOf r fun _ r => if now < r.2 then r.1 else 0 := by
  rw [Table.sumOf_retain]
  simp only [live, decide_eq_true_eq]

theorem sumOf_live_purge (r : Table String (ℚ × ℚ)) (now : ℚ) :
    Table.sumOf (Table.retain (Table.retain r (live now)) (live now)) (fun _ r => r.1) =
      Table.sumOf (Table.retain r (live now)) fun _ r => r.1 := by
  rw [Table.sumOf_retain, Table.sumOf_retain, Table.sumOf_retain]
  refine Table.sumOf_congr _ fun k r _ => ?_
  by_cases h : live now k r = true
  · rw [if_pos h, if_pos h]
  · rw [if_neg h, if_neg h]

/-- **What a successful `decide` does.** -/
theorem decide_ok {l' : WorkLedger} {taskId : String} {work : Work} {deadlineSecs : UInt32}
    {policy : BudgetPolicy} {b : Budget}
    (h : l.decide taskId work deadlineSecs policy now = (l', .ok b)) :
    l.queuedSecs now policy.unknownSecs + own policy work ≤ limit policy deadlineSecs ∧
      b = ⟨deadlineSecs, own policy work⟩ ∧ l'.held = l.held ∧
      l'.announced = (Table.retain l.announced fun _ a =>
        decide (durationSince now a.2 < announcedTtl)).insert taskId (b, now) ∧
      l'.reserved = (Table.retain l.reserved (live now)).insert taskId
        (own policy work, now + reservationTtl) := by
  unfold WorkLedger.decide at h
  simp only at h
  split_ifs at h with hl
  · cases h
  · obtain ⟨rfl, hb⟩ := Prod.mk.inj h
    cases hb
    refine ⟨?_, rfl, rfl, rfl, rfl⟩
    unfold queuedSecs at hl ⊢
    simp only [sumOf_live_purge] at hl
    exact not_lt.mp hl

/-- **What a refused `decide` does**: it drops the lapsed reservations. -/
theorem decide_error {l' : WorkLedger} {taskId : String} {work : Work} {deadlineSecs : UInt32}
    {policy : BudgetPolicy} {total : ℚ}
    (h : l.decide taskId work deadlineSecs policy now = (l', .error total)) :
    l' = { l with reserved := Table.retain l.reserved (live now) } := by
  unfold WorkLedger.decide at h
  simp only at h
  split_ifs at h with hl
  · exact (Prod.mk.inj h).1.symm
  · cases h

theorem limit_le_own {policy : BudgetPolicy} (hp : policy.Admitted) (deadlineSecs : UInt32) :
    limit policy deadlineSecs ≤ policy.margin * policy.ownTimeoutSecs.toNat := by
  unfold limit
  refine mul_le_mul_of_nonneg_left ?_ hp.margin_pos.le
  exact_mod_cast min_le_left _ _

theorem limit_le_deadline {policy : BudgetPolicy} (hp : policy.Admitted) (deadlineSecs : UInt32) :
    limit policy deadlineSecs ≤ deadlineSecs.toNat := by
  have hmin : ((min policy.ownTimeoutSecs.toNat deadlineSecs.toNat : ℕ) : ℚ) ≤
      deadlineSecs.toNat := by exact_mod_cast min_le_right _ _
  calc limit policy deadlineSecs ≤ 1 * (min policy.ownTimeoutSecs.toNat deadlineSecs.toNat : ℕ) :=
        mul_le_mul_of_nonneg_right hp.margin_le (by positivity)
    _ ≤ deadlineSecs.toNat := by rw [one_mul]; exact hmin

theorem own_nonneg {policy : BudgetPolicy} (hp : policy.Admitted) (work : Work) :
    0 ≤ own policy work := by
  have h1 : 0 ≤ (work.trafficBytes.toNat : ℚ) * policy.rates.secondsPerByte :=
    mul_nonneg (by positivity) hp.perByte.le
  have h2 : 0 ≤ (work.flops.toNat : ℚ) * policy.rates.secondsPerFlop :=
    mul_nonneg (by positivity) hp.perFlop.le
  have h3 := hp.overhead
  unfold own TnRates.seconds
  linarith

end WorkLedger

end WqcNode.Domain.WorkBudget
