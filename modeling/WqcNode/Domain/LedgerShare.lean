import WqcNode.Lib.Machine
import WqcNode.Domain.WorkBudget
import Mathlib.Tactic.Ring

/-! # The ledger's share of the node's timeout

Runs of ledger operations at non-decreasing times. A `hold` is for a sub-task that is not held yet
and whose parent has a live reservation, and uses `budget(parent)`; nothing is asked of the other
operations. The invariant `Inv` ties the three maps together:

* a live reservation has the announced budget of the same `decide`, so `hold` hands over exactly the
  reserved seconds;
* the commitments never exceed `margin · own timeout`.

`queued_within_share` is the bound on `queued_secs`, for runs that start each held sub-task at most
once; `restart_breaks_share` is a run that starts one twice. -/

namespace WqcNode.Domain.LedgerShare

open WqcNode.Lib WqcNode.Lib.Machine WqcNode.Domain.WorkBudget
open WqcNode.Domain.WorkBudget.WorkLedger

/-- A ledger and the time of its last operation. -/
structure State where
  ledger : WorkLedger
  now : ℚ

/-- The ledger at the start of a run. -/
def init : State := ⟨WorkLedger.empty, 0⟩

/-- An operation on the ledger. -/
inductive Op
  | decide (taskId : String) (work : Work) (deadlineSecs : UInt32)
  | hold (subTaskId parentTaskId : String)
  | start (subTaskId : String)
  | release (subTaskId : String)

/-- The parent has a reservation that has not lapsed at `t`. -/
def Reserved (l : WorkLedger) (parentTaskId : String) (t : ℚ) : Prop :=
  ∃ r, l.reserved.lookup parentTaskId = some r ∧ t < r.2

instance (l : WorkLedger) (p : String) (t : ℚ) : Decidable (Reserved l p t) :=
  match h : l.reserved.lookup p with
  | none => isFalse fun ⟨r, hr, _⟩ => by rw [h] at hr; cases hr
  | some r => decidable_of_iff (t < r.2)
      ⟨fun hlt => ⟨r, h, hlt⟩, fun ⟨r', hr, hlt⟩ => by rw [h] at hr; cases hr; exact hlt⟩

/-- The operation `op` at time `t`. -/
def step (policy : BudgetPolicy) (s : State) (a : ℚ × Op) : Option State :=
  if a.1 < s.now then none
  else match a.2 with
    | .decide taskId work deadlineSecs =>
      some ⟨(s.ledger.decide taskId work deadlineSecs policy a.1).1, a.1⟩
    | .hold sub parent =>
      if s.ledger.held.lookup sub = none ∧ Reserved s.ledger parent a.1 then
        some ⟨s.ledger.hold sub (some parent) (s.ledger.budget parent), a.1⟩
      else none
    | .start sub => some ⟨s.ledger.start sub a.1, a.1⟩
    | .release sub => some ⟨s.ledger.release sub, a.1⟩

/-- A `start` is for a sub-task that is not running yet. -/
def StartsOnce (s : State) (a : ℚ × Op) : Prop :=
  match a.2 with
  | .start sub => ∀ h ∈ s.ledger.held.lookup sub, h.started = none
  | _ => True

instance (s : State) (a : ℚ × Op) : Decidable (StartsOnce s a) := by
  unfold StartsOnce; split <;> infer_instance

/-- No started sub-task is still held once its expected seconds have elapsed. -/
def NoneOverdue (l : WorkLedger) (t : ℚ) : Prop :=
  ∀ sub h, l.held.lookup sub = some h → ¬ h.Overdue t

instance (l : WorkLedger) (t : ℚ) : Decidable (NoneOverdue l t) := by
  unfold NoneOverdue; infer_instance

/-! ### The invariant -/

/-- The three maps agree, and the commitments fit the share. -/
structure Inv (policy : BudgetPolicy) (l : WorkLedger) (now : ℚ) : Prop where
  reserved_nonneg : ∀ k r, l.reserved.lookup k = some r → 0 ≤ r.1
  announced : ∀ k r, l.reserved.lookup k = some r → now < r.2 → ∃ b at',
    l.announced.lookup k = some (b, at') ∧ b.expectedSecs = r.1 ∧ r.2 = at' + reservationTtl ∧
      at' ≤ now
  held_sound : ∀ k h, l.held.lookup k = some h → h.Sound ∧ h.expectedSecs.isSome
  share : l.committed now policy.unknownSecs ≤ policy.margin * policy.ownTimeoutSecs.toNat

variable {policy : BudgetPolicy} {l : WorkLedger} {now t : ℚ}

theorem inv_empty (hp : policy.Admitted) (now : ℚ) : Inv policy WorkLedger.empty now where
  reserved_nonneg k r h := by cases h
  announced k r h := by cases h
  held_sound k h hk := by cases hk
  share := by
    have : 0 ≤ policy.margin * policy.ownTimeoutSecs.toNat :=
      mul_nonneg hp.margin_pos.le (by positivity)
    simpa [committed, WorkLedger.empty, sumOf_live_eq] using this

/-- Reserved seconds lapse as time passes, and work runs down. -/
theorem committed_anti {l : WorkLedger} {u : ℚ}
    (hr : ∀ k r, l.reserved.lookup k = some r → 0 ≤ r.1) (hle : now ≤ t) :
    l.committed t u ≤ l.committed now u := by
  unfold committed
  rw [sumOf_live_eq, sumOf_live_eq]
  refine add_le_add (Table.sumOf_le fun k h _ => Held.remaining_anti hle) ?_
  refine Table.sumOf_le fun k r hk => ?_
  have := hr k r hk
  split_ifs with h1 h2
  · exact le_rfl
  · exact absurd (lt_of_le_of_lt hle h1) h2
  · exact this
  · exact le_rfl

theorem Inv.later (hi : Inv policy l now) (hle : now ≤ t) : Inv policy l t where
  reserved_nonneg := hi.reserved_nonneg
  announced k r hk hlt := by
    obtain ⟨b, at', h1, h2, h3, h4⟩ := hi.announced k r hk (lt_of_le_of_lt hle hlt)
    exact ⟨b, at', h1, h2, h3, h4.trans hle⟩
  held_sound := hi.held_sound
  share := (committed_anti hi.reserved_nonneg hle).trans hi.share

/-- Dropping the lapsed reservations changes no commitment. -/
theorem Inv.purge (hi : Inv policy l now) :
    Inv policy { l with reserved := Table.retain l.reserved (live now) } now where
  reserved_nonneg k r hk := by
    rw [Table.lookup_retain, Option.filter_eq_some_iff] at hk
    exact hi.reserved_nonneg k r hk.1
  announced k r hk hlt := by
    rw [Table.lookup_retain, Option.filter_eq_some_iff] at hk
    exact hi.announced k r hk.1 hlt
  held_sound := hi.held_sound
  share := by
    have := hi.share
    unfold committed at this ⊢
    simpa only [sumOf_live_purge] using this

/-- What is committed is at most what `queued_secs` counts. -/
theorem committed_le_queuedSecs (hi : Inv policy l now) (u : ℚ) :
    l.committed now u ≤ l.queuedSecs now u :=
  add_le_add
    (Table.sumOf_le fun k h hk => Held.remaining_le_counts (hi.held_sound k h hk).1) le_rfl

/-- A new reservation adds its own seconds to the commitments at most. -/
theorem committed_insert_le {taskId : String} {e u : ℚ}
    (hr : ∀ k r, l.reserved.lookup k = some r → 0 ≤ r.1) {l' : WorkLedger} (hh : l'.held = l.held)
    (hres : l'.reserved = (Table.retain l.reserved (live now)).insert taskId
      (e, now + reservationTtl)) : l'.committed now u ≤ l.committed now u + e := by
  have hlapse : now < now + reservationTtl := by unfold reservationTtl; linarith
  have hpurged : ∀ k r, (Table.retain l.reserved (live now)).lookup k = some r →
      0 ≤ if now < r.2 then r.1 else 0 := by
    intro k r hk
    rw [Table.lookup_retain, Option.filter_eq_some_iff] at hk
    have := hr k r hk.1
    split_ifs
    · exact this
    · exact le_rfl
  have herase := Table.sumOf_erase_le hpurged taskId
  rw [← sumOf_live_eq (Table.retain l.reserved (live now)), sumOf_live_purge] at herase
  unfold committed
  rw [hh, hres, sumOf_live_eq, Table.sumOf_insert, if_pos hlapse]
  linarith

theorem Inv.decide_ok (hp : policy.Admitted) (hi : Inv policy l now) {l' : WorkLedger}
    {taskId : String} {work : Work} {deadlineSecs : UInt32} {b : Budget}
    (h : l.decide taskId work deadlineSecs policy now = (l', .ok b)) : Inv policy l' now := by
  obtain ⟨hfit, rfl, hh, ha, hr⟩ := WorkLedger.decide_ok h
  have hown := own_nonneg hp work
  refine ⟨fun k r hk => ?_, fun k r hk hlt => ?_, fun k x hk => ?_, ?_⟩
  · rw [hr, Table.lookup_insert_if] at hk
    split_ifs at hk
    · cases hk
      exact hown
    · exact hi.purge.reserved_nonneg k r hk
  · rw [ha, Table.lookup_insert_if]
    rw [hr, Table.lookup_insert_if] at hk
    split_ifs at hk ⊢ with hkt
    · cases hk
      exact ⟨_, now, rfl, rfl, rfl, le_rfl⟩
    · obtain ⟨b', at', h1, h2, h3, h4⟩ := hi.purge.announced k r hk hlt
      refine ⟨b', at', ?_, h2, h3, h4⟩
      -- the reservation is live, so its announcement is far from expiring
      have hyoung : durationSince now at' < announcedTtl := by
        unfold durationSince announcedTtl
        unfold reservationTtl at h3
        exact max_lt (by norm_num) (by linarith)
      rw [Table.lookup_retain, h1]
      simp [hyoung]
  · rw [hh] at hk
    exact hi.held_sound k x hk
  · have hc := committed_insert_le (u := policy.unknownSecs) hi.reserved_nonneg hh hr
    have hq := committed_le_queuedSecs hi policy.unknownSecs
    have hl := limit_le_own hp deadlineSecs
    linarith

theorem Inv.decide (hp : policy.Admitted) (hi : Inv policy l now) (taskId : String) (work : Work)
    (deadlineSecs : UInt32) :
    Inv policy (l.decide taskId work deadlineSecs policy now).1 now := by
  rcases h : l.decide taskId work deadlineSecs policy now with ⟨l', total | b⟩
  · rw [WorkLedger.decide_error h]
    exact hi.purge
  · exact hi.decide_ok hp h

/-- The budget a live reservation was made with. -/
theorem Inv.budget (hi : Inv policy l now) {parent : String} {r : ℚ × ℚ}
    (hr : l.reserved.lookup parent = some r) (hlt : now < r.2) :
    ∃ b, l.budget parent = some b ∧ b.expectedSecs = r.1 := by
  obtain ⟨b, at', h1, h2, -, -⟩ := hi.announced parent r hr hlt
  exact ⟨b, by unfold WorkLedger.budget; rw [h1]; rfl, h2⟩

/-- A dispatch hands its reservation over to the held sub-task. -/
theorem committed_hold {sub parent : String} {r : ℚ × ℚ} {b : Budget} {u : ℚ}
    (hfresh : l.held.lookup sub = none) (hr : l.reserved.lookup parent = some r)
    (hlt : now < r.2) (hb : b.expectedSecs = r.1) :
    (l.hold sub (some parent) (some b)).committed now u = l.committed now u := by
  have hsum := Table.sumOf_erase_add (fun _ (r : ℚ × ℚ) => if now < r.2 then r.1 else 0) hr
  rw [if_pos hlt] at hsum
  have hnew : Held.remaining ⟨(some b).map (·.expectedSecs), none⟩ now u = r.1 := hb
  unfold committed hold
  simp only [sumOf_live_eq]
  rw [Table.sumOf_insert_new _ _ hfresh, ← hsum, hnew]
  ring

theorem Inv.hold (hi : Inv policy l now) {sub parent : String}
    (hfresh : l.held.lookup sub = none) (hres : Reserved l parent now) :
    Inv policy (l.hold sub (some parent) (l.budget parent)) now := by
  obtain ⟨r, hr, hlt⟩ := hres
  obtain ⟨b, hb, hbe⟩ := hi.budget hr hlt
  rw [hb]
  have herase : ∀ k r, (l.reserved.erase parent).lookup k = some r →
      l.reserved.lookup k = some r := by
    intro k r hk
    rw [Table.lookup_erase_if] at hk
    split_ifs at hk
    exact hk
  refine ⟨fun k r' hk => hi.reserved_nonneg k r' (herase k r' hk),
    fun k r' hk hlt' => hi.announced k r' (herase k r' hk) hlt', fun k x hk => ?_, ?_⟩
  · have hk' : (l.held.insert sub ⟨some b.expectedSecs, none⟩).lookup k = some x := hk
    rw [Table.lookup_insert_if] at hk'
    split_ifs at hk'
    · cases hk'
      refine ⟨fun e he => ?_, rfl⟩
      cases he
      rw [hbe]
      exact hi.reserved_nonneg parent r hr
    · exact hi.held_sound k x hk'
  · rw [committed_hold hfresh hr hlt hbe]
    exact hi.share

theorem Inv.start (hi : Inv policy l now) {sub : String}
    (honce : ∀ h, l.held.lookup sub = some h → h.started = none) :
    Inv policy (l.start sub now) now := by
  refine ⟨hi.reserved_nonneg, hi.announced, fun k x hk => ?_, ?_⟩
  · have hk' : (Table.adjust l.held sub fun h => { h with started := some now }).lookup k = some x :=
      hk
    rw [Table.lookup_adjust, Option.map_eq_some_iff] at hk'
    obtain ⟨h, hh, rfl⟩ := hk'
    obtain ⟨h1, h2⟩ := hi.held_sound k h hh
    split_ifs
    · exact ⟨h1, h2⟩
    · exact ⟨h1, h2⟩
  · have hsum : (l.start sub now).committed now policy.unknownSecs =
        l.committed now policy.unknownSecs := by
      unfold committed WorkLedger.start Table.adjust
      simp only [Table.sumOf_updateAll]
      congr 1
      refine Table.sumOf_congr _ fun k h hk => ?_
      split_ifs with hks
      · subst hks
        exact Held.remaining_start (hi.held_sound k h hk).1 (honce h hk)
      · rfl
    rw [hsum]
    exact hi.share

theorem Inv.release (hp : policy.Admitted) (hi : Inv policy l now) (sub : String) :
    Inv policy (l.release sub) now := by
  refine ⟨hi.reserved_nonneg, hi.announced, fun k x hk => ?_, ?_⟩
  · have hk' : (l.held.erase sub).lookup k = some x := hk
    rw [Table.lookup_erase_if] at hk'
    split_ifs at hk'
    exact hi.held_sound k x hk'
  · have hle := Table.sumOf_erase_le (t := l.held)
      (f := fun _ h => h.remaining now policy.unknownSecs)
      (fun k h hk => Held.remaining_nonneg (hi.held_sound k h hk).1 hp.unknown) sub
    refine le_trans ?_ hi.share
    unfold committed WorkLedger.release
    linarith

/-- **One operation** keeps the invariant. -/
theorem step_inv (hp : policy.Admitted) {s s' : State} {a : ℚ × Op} (hi : Inv policy s.ledger s.now)
    (honce : StartsOnce s a) (h : step policy s a = some s') : Inv policy s'.ledger s'.now := by
  obtain ⟨t, op⟩ := a
  unfold step at h
  split_ifs at h with hlt
  have hi' := hi.later (not_lt.mp hlt)
  cases op with
  | decide taskId work deadlineSecs =>
    cases h
    exact hi'.decide hp taskId work deadlineSecs
  | hold sub parent =>
    simp only at h
    split_ifs at h with hg
    cases h
    exact hi'.hold hg.1 hg.2
  | start sub =>
    cases h
    exact hi'.start fun x hx => honce x hx
  | release sub =>
    cases h
    exact hi'.release hp sub

/-- **The ledger stays within its share.** In a run that starts no held sub-task twice, at every
time at which no started sub-task is overdue, `queued_secs` is between `0` and
`margin · own_timeout_secs`. -/
theorem queued_within_share (hp : policy.Admitted) {ops : List (ℚ × Op)} {s : State}
    (hrun : run (step policy) init ops = some s)
    (honce : StepsMeet (step policy) StartsOnce init ops) {t : ℚ} (ht : s.now ≤ t)
    (hdue : NoneOverdue s.ledger t) :
    0 ≤ s.ledger.queuedSecs t policy.unknownSecs ∧
      s.ledger.queuedSecs t policy.unknownSecs ≤ policy.margin * policy.ownTimeoutSecs.toNat := by
  have hinv : Inv policy s.ledger s.now :=
    run_inv_of_stepsMeet (I := fun s => Inv policy s.ledger s.now)
      (fun s a s' hi hok h => step_inv hp hi hok h) (inv_empty hp 0) honce hrun
  have hi := hinv.later ht
  have heq : s.ledger.queuedSecs t policy.unknownSecs = s.ledger.committed t policy.unknownSecs := by
    unfold queuedSecs committed
    congr 1
    refine Table.sumOf_congr _ fun k h hk => ?_
    exact (Held.remaining_eq_counts (hdue k h hk)).symm
  rw [heq]
  refine ⟨?_, hi.share⟩
  unfold committed
  refine add_nonneg (Table.sumOf_nonneg fun k h hk => ?_) (Table.sumOf_nonneg fun k r hk => ?_)
  · exact Held.remaining_nonneg (hi.held_sound k h hk).1 hp.unknown
  · exact hi.purge.reserved_nonneg k r hk

/-! ### A second start -/

/-- One byte per nanosecond, an overhead of 5 s, half of 300 s. -/
def halfOf300 : BudgetPolicy where
  rates := ⟨1 / 10 ^ 9, 1 / 10 ^ 9⟩
  overheadSecs := 5
  margin := 1 / 2
  ownTimeoutSecs := 300
  unknownSecs := 30

theorem halfOf300_admitted : halfOf300.Admitted := by
  constructor <;> norm_num [halfOf300]

/-- Work of 95 s without the overhead. -/
def work95 : Work := ⟨95000000000, 0⟩

/-- `a` is admitted, dispatched and started, `b` admitted 60 s into it, and `a` started again. -/
def restartRun : List (ℚ × Op) :=
  [(0, .decide "a" work95 330), (0, .hold "a_1" "a"), (0, .start "a_1"),
    (60, .decide "b" work95 330), (60, .start "a_1")]

/-- Before the second start `a` has 40 of its 100 s left, and the 140 s fit in 150 s. -/
theorem queued_within_share_before_restart :
    ∃ s, run (step halfOf300) init (restartRun.take 4) = some s ∧
      0 ≤ s.ledger.queuedSecs 60 halfOf300.unknownSecs ∧
      s.ledger.queuedSecs 60 halfOf300.unknownSecs ≤
        halfOf300.margin * halfOf300.ownTimeoutSecs.toNat := by
  obtain ⟨s, hs⟩ : ∃ s, run (step halfOf300) init (restartRun.take 4) = some s :=
    Option.isSome_iff_exists.mp (by decide +kernel)
  have hend : ∀ s ∈ run (step halfOf300) init (restartRun.take 4),
      s.now ≤ 60 ∧ NoneOverdue s.ledger 60 := by decide +kernel
  obtain ⟨hnow, hdue⟩ := hend s hs
  exact ⟨s, hs, queued_within_share halfOf300_admitted hs (by decide +kernel) hnow hdue⟩

/-- **Started twice, a sub-task counts in full again** after a newcomer was admitted on what was
left of it: 200 s are queued where the share is 150 s, although no sub-task is ever overdue. -/
theorem restart_breaks_share :
    ∃ s, run (step halfOf300) init restartRun = some s ∧
      StepsMeet (step halfOf300) (fun s a => NoneOverdue s.ledger a.1) init restartRun ∧
      s.now = 60 ∧ NoneOverdue s.ledger 60 ∧
      ¬ s.ledger.queuedSecs 60 halfOf300.unknownSecs ≤
        halfOf300.margin * halfOf300.ownTimeoutSecs.toNat := by
  obtain ⟨s, hs⟩ : ∃ s, run (step halfOf300) init restartRun = some s :=
    Option.isSome_iff_exists.mp (by decide +kernel)
  have hend : ∀ s ∈ run (step halfOf300) init restartRun,
      s.now = 60 ∧ NoneOverdue s.ledger 60 ∧
        ¬ s.ledger.queuedSecs 60 halfOf300.unknownSecs ≤
          halfOf300.margin * halfOf300.ownTimeoutSecs.toNat := by decide +kernel
  exact ⟨s, hs, by decide +kernel, hend s hs⟩

end WqcNode.Domain.LedgerShare
