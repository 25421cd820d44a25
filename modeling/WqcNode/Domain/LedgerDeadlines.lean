import WqcNode.Domain.LedgerShare

/-! # Deadlines of admitted sub-tasks

The ledger together with the single worker: sub-tasks are admitted by `decide`, dispatched (held)
while the reservation of their parent is live, and run one at a time in the order of their
dispatch, without idling and each for at most its estimate.

`decide` checks the newcomer against what is held and reserved at that time. A later admission may
be dispatched first, and the earlier one then waits for work that its own check did not count:
`overtaken_misses_deadline`. What admission does promise is `finishes_in_time`: a sub-task that no
later admission was dispatched ahead of finishes within its deadline, and every sub-task within
`margin · own timeout`, both counted from its own dispatch.

The invariant has two halves. `Backlog`: for a live reservation, the work admitted before it, held
or still reserved, plus its own fits its limit. `Fits`: run back to back from the start of the
running one, the held sub-tasks all finish within their bounds. -/

namespace WqcNode.Domain.LedgerDeadlines

open WqcNode.Lib WqcNode.Lib.Machine WqcNode.Domain.WorkBudget
open WqcNode.Domain.WorkBudget.WorkLedger
open WqcNode.Domain.LedgerShare (Reserved)

/-- A sub-task in the worker's queue. `admitted` is the number of its parent's admission, and
`overtaken` says that a later admission was in the queue when it was dispatched. -/
structure Entry where
  sub : String
  budget : Budget
  dispatchedAt : ℚ
  admitted : ℕ
  overtaken : Bool
  started : Option ℚ
deriving DecidableEq, Repr

/-- The ledger's record of the sub-task. -/
def Entry.held (q : Entry) : Held := ⟨some q.budget.expectedSecs, q.started⟩

structure State where
  ledger : WorkLedger
  now : ℚ
  /-- First in, first out; only the head runs. -/
  queue : List Entry
  /-- The number of the last successful `decide` of each parent task. -/
  admission : Table String ℕ
  admissions : ℕ

def init : State := ⟨WorkLedger.empty, 0, [], ∅, 0⟩

inductive Act
  | decide (taskId : String) (work : Work) (deadlineSecs : UInt32)
  | dispatch (subTaskId parentTaskId : String)
  | start
  | finish
  | wait (secs : ℚ)
deriving DecidableEq

/-- The steps of the worker, and of time. -/
def Act.ofWorker : Act → Bool
  | .start | .finish | .wait _ => true
  | _ => false

/-- The number of the last admission of a parent task. -/
def numberOf (admission : Table String ℕ) (taskId : String) : ℕ := (admission.lookup taskId).getD 0

/-- The queue entry a dispatch makes. -/
def State.dispatched (s : State) (sub parent : String) : Entry where
  sub := sub
  budget := (s.ledger.budget parent).getD ⟨0, 0⟩
  dispatchedAt := s.now
  admitted := numberOf s.admission parent
  overtaken := s.queue.any fun q => numberOf s.admission parent < q.admitted
  started := none

def step (policy : BudgetPolicy) (s : State) : Act → Option State
  | .decide taskId work deadlineSecs =>
    match s.ledger.decide taskId work deadlineSecs policy s.now with
    | (l, .ok _) => some { s with
        ledger := l
        admission := s.admission.insert taskId s.admissions
        admissions := s.admissions + 1 }
    | (l, .error _) => some { s with ledger := l }
  | .dispatch sub parent =>
    if s.ledger.held.lookup sub = none ∧ Reserved s.ledger parent s.now then
      some { s with
        ledger := s.ledger.hold sub (some parent) (s.ledger.budget parent)
        queue := s.queue ++ [s.dispatched sub parent] }
    else none
  | .start =>
    match s.queue with
    | [] => none
    | q :: rest =>
      if q.started = none then
        some { s with
          ledger := s.ledger.start q.sub s.now
          queue := { q with started := some s.now } :: rest }
      else none
  | .finish =>
    match s.queue with
    | [] => none
    | q :: rest =>
      if q.started = none then none
      else some { s with ledger := s.ledger.release q.sub, queue := rest }
  | .wait secs =>
    if secs < 0 then none
    else match s.queue with
      | [] => some { s with now := s.now + secs }
      | q :: _ =>
        -- the worker never idles while a sub-task is held, and runs it for its estimate at most
        match q.started with
        | none => none
        | some at' =>
          if s.now + secs ≤ at' + q.budget.expectedSecs then some { s with now := s.now + secs }
          else none

/-! ### The queue run back to back -/

/-- Within which time of its dispatch a sub-task finishes. -/
def bound (policy : BudgetPolicy) (q : Entry) : ℚ :=
  if q.overtaken then policy.margin * policy.ownTimeoutSecs.toNat
  else min (limit policy q.budget.deadlineSecs) (policy.margin * policy.ownTimeoutSecs.toNat)

/-- Run back to back from `t`, all sub-tasks finish within their bounds. -/
def Fits (policy : BudgetPolicy) : ℚ → List Entry → Prop
  | _, [] => True
  | t, q :: rest => t + q.budget.expectedSecs ≤ q.dispatchedAt + bound policy q ∧
      Fits policy (t + q.budget.expectedSecs) rest

/-- When the head of the queue was or would be started. -/
def headStart (now : ℚ) : List Entry → ℚ
  | [] => now
  | q :: _ => q.started.getD now

/-- The sum of the estimates. -/
def totalSecs (queue : List Entry) : ℚ := (queue.map fun q => q.budget.expectedSecs).sum

/-- The work that remains of the sub-tasks in the queue satisfying `p`. -/
def leftWhere (now u : ℚ) (p : Entry → Prop) [DecidablePred p] (queue : List Entry) : ℚ :=
  (queue.map fun q => if p q then q.held.remaining now u else 0).sum

/-- The live reservations admitted before number `n`. -/
def reservedBefore (now : ℚ) (admission : Table String ℕ) (reserved : Table String (ℚ × ℚ)) (n : ℕ) :
    ℚ :=
  Table.sumOf reserved fun k r => if now < r.2 ∧ numberOf admission k < n then r.1 else 0

variable {policy : BudgetPolicy}

theorem Fits.anti {t t' : ℚ} (h : t' ≤ t) : ∀ {queue : List Entry},
    Fits policy t queue → Fits policy t' queue
  | [], _ => trivial
  | q :: rest, hf => ⟨by have := hf.1; linarith, Fits.anti (by linarith) hf.2⟩

theorem Fits.append {t : ℚ} {q : Entry} : ∀ {queue : List Entry}, Fits policy t queue →
    t + totalSecs queue + q.budget.expectedSecs ≤ q.dispatchedAt + bound policy q →
      Fits policy t (queue ++ [q])
  | [], _, hq => by
    simp only [totalSecs, List.map_nil, List.sum_nil, add_zero] at hq
    exact ⟨hq, trivial⟩
  | p :: rest, hf, hq => by
    refine ⟨hf.1, Fits.append hf.2 ?_⟩
    simp only [totalSecs, List.map_cons, List.sum_cons] at hq ⊢
    linarith

theorem Fits.mem {t : ℚ} {q : Entry} : ∀ {queue : List Entry}, Fits policy t queue →
    (∀ p ∈ queue, 0 ≤ p.budget.expectedSecs) → q ∈ queue →
      t + q.budget.expectedSecs ≤ q.dispatchedAt + bound policy q
  | p :: rest, hf, h0, hq => by
    rcases List.mem_cons.mp hq with rfl | hq
    · exact hf.1
    · have := Fits.mem hf.2 (fun p hp => h0 p (List.mem_cons_of_mem _ hp)) hq
      have := h0 p List.mem_cons_self
      linarith

/-! ### The invariant -/

/-- The row of the ledger's held map for a queue entry. -/
def Entry.row (q : Entry) : Σ _ : String, Held := ⟨q.sub, q.held⟩

/-- Admission numbers are given out once: a reserved parent has one that no other parent has and
that was not dispatched yet. -/
structure Numbered (s : State) : Prop where
  lt : ∀ k n, s.admission.lookup k = some n → n < s.admissions
  queue_lt : ∀ q ∈ s.queue, q.admitted < s.admissions
  inj : ∀ k k' n, s.admission.lookup k = some n → s.admission.lookup k' = some n → k = k'
  reserved : ∀ k r, s.ledger.reserved.lookup k = some r →
    ∃ n, s.admission.lookup k = some n ∧ ∀ q ∈ s.queue, q.admitted ≠ n

/-- The head of the queue runs within its estimate; the others wait. -/
structure Running (now : ℚ) (queue : List Entry) : Prop where
  waiting : ∀ q ∈ queue.tail, q.started = none
  within : ∀ q ∈ queue, ∀ at', q.started = some at' →
    at' ≤ now ∧ now ≤ at' + q.budget.expectedSecs

/-- What was admitted before number `n` and is not done. -/
def workBefore (u now : ℚ) (queue : List Entry) (admission : Table String ℕ)
    (reserved : Table String (ℚ × ℚ)) (n : ℕ) : ℚ :=
  leftWhere now u (fun q => q.admitted < n) queue + reservedBefore now admission reserved n

/-- The work admitted before a live reservation, plus its own, fits its limit. -/
def Backlog (policy : BudgetPolicy) (l : WorkLedger) (now : ℚ) (queue : List Entry)
    (admission : Table String ℕ) : Prop :=
  ∀ k r b at', l.reserved.lookup k = some r → now < r.2 → l.announced.lookup k = some (b, at') →
    workBefore policy.unknownSecs now queue admission l.reserved (numberOf admission k) + r.1 ≤
      limit policy b.deadlineSecs

structure Inv (policy : BudgetPolicy) (s : State) : Prop where
  ledger : LedgerShare.Inv policy s.ledger s.now
  rows : s.ledger.held.entries.Perm (s.queue.map Entry.row)
  numbered : Numbered s
  running : Running s.now s.queue
  backlog : Backlog policy s.ledger s.now s.queue s.admission
  fits : Fits policy (headStart s.now s.queue) s.queue

theorem inv_init (hp : policy.Admitted) : Inv policy init where
  ledger := LedgerShare.inv_empty hp 0
  rows := List.Perm.nil
  numbered := ⟨fun k n h => (by cases h), fun q h => (by cases h), fun k k' n h => (by cases h),
    fun k r h => (by cases h)⟩
  running := ⟨fun q h => (by cases h), fun q h => (by cases h)⟩
  backlog := fun k r b at' h => by cases h
  fits := trivial

section Left
variable {now now' u : ℚ} {queue : List Entry}

/-- The work that remains of the queue. -/
def left (now u : ℚ) (queue : List Entry) : ℚ := (queue.map fun q => q.held.remaining now u).sum

theorem Entry.remaining_nonneg (now u : ℚ) {q : Entry} (h : 0 ≤ q.budget.expectedSecs) :
    0 ≤ q.held.remaining now u := by
  unfold Held.remaining Entry.held
  cases q.started with
  | none => exact h
  | some at' => exact le_max_left _ _

theorem leftWhere_le_left (now u : ℚ) (queue : List Entry) {p : Entry → Prop} [DecidablePred p]
    (h : ∀ q ∈ queue, 0 ≤ q.budget.expectedSecs) :
    leftWhere now u p queue ≤ left now u queue := by
  refine List.sum_le_sum fun q hq => ?_
  have := Entry.remaining_nonneg now u (h q hq)
  split_ifs
  · exact le_rfl
  · exact this

theorem leftWhere_eq_left {p : Entry → Prop} [DecidablePred p] (h : ∀ q ∈ queue, p q) :
    leftWhere now u p queue = left now u queue := by
  unfold leftWhere left
  congr 1
  exact List.map_congr_left fun q hq => if_pos (h q hq)

theorem leftWhere_anti (u : ℚ) (queue : List Entry) {p : Entry → Prop} [DecidablePred p] (h : now ≤ now') :
    leftWhere now' u p queue ≤ leftWhere now u p queue := by
  refine List.sum_le_sum fun q _ => ?_
  split_ifs
  · exact Held.remaining_anti h
  · exact le_rfl

theorem leftWhere_append {p : Entry → Prop} [DecidablePred p] (q : Entry) :
    leftWhere now u p (queue ++ [q]) =
      leftWhere now u p queue + if p q then q.held.remaining now u else 0 := by
  simp [leftWhere]

theorem leftWhere_cons {p : Entry → Prop} [DecidablePred p] (q : Entry) :
    leftWhere now u p (q :: queue) =
      (if p q then q.held.remaining now u else 0) + leftWhere now u p queue := by
  simp [leftWhere]

/-- Run back to back, the queue takes until what remains of it has been done. -/
theorem headStart_add_totalSecs (hr : Running now queue) :
    headStart now queue + totalSecs queue = now + left now u queue := by
  cases queue with
  | nil => simp [headStart, totalSecs, left]
  | cons q rest =>
    have hrest : ∀ p ∈ rest, p.held.remaining now u = p.budget.expectedSecs := by
      intro p hp
      have hw := hr.waiting p hp
      simp [Entry.held, Held.remaining, hw]
    have hhead : headStart now (q :: rest) + q.budget.expectedSecs =
        now + q.held.remaining now u := by
      have hin := hr.within q List.mem_cons_self
      cases hs : q.started with
      | none => simp [headStart, Entry.held, Held.remaining, hs]
      | some at' =>
        obtain ⟨h1, h2⟩ := hin at' hs
        have hd : durationSince now at' = now - at' := max_eq_right (by linarith)
        simp only [headStart, Entry.held, Held.remaining, hs, Option.getD_some, hd]
        rw [max_eq_right (by linarith)]
        ring
    have hsum : totalSecs rest = left now u rest := by
      unfold totalSecs left
      congr 1
      exact List.map_congr_left fun p hp => (hrest p hp).symm
    simp only [totalSecs, left, List.map_cons, List.sum_cons] at hsum ⊢
    linarith

end Left

section Ledger
variable {s : State} (hi : Inv policy s)
include hi

theorem Inv.lookup {q : Entry} (hq : q ∈ s.queue) : s.ledger.held.lookup q.sub = some q.held :=
  Table.mem_entries.mp (hi.rows.symm.subset (List.mem_map.mpr ⟨q, hq, rfl⟩))

theorem Inv.expected_nonneg {q : Entry} (hq : q ∈ s.queue) : 0 ≤ q.budget.expectedSecs :=
  (hi.ledger.held_sound q.sub q.held (hi.lookup hq)).1 _ rfl

/-- What remains of the queue is what the ledger has of it. -/
theorem Inv.left_eq (u : ℚ) :
    left s.now u s.queue = Table.sumOf s.ledger.held fun _ h => h.remaining s.now u := by
  have h := (hi.rows.map fun e : Σ _ : String, Held => e.2.remaining s.now u).sum_eq
  rw [List.map_map] at h
  exact h.symm

theorem Inv.reserved_dispatchable {parent : String} {r : ℚ × ℚ}
    (hr : s.ledger.reserved.lookup parent = some r) (hlt : s.now < r.2) :
    ∃ b at' n, s.ledger.announced.lookup parent = some (b, at') ∧ b.expectedSecs = r.1 ∧
      s.ledger.budget parent = some b ∧ numberOf s.admission parent = n ∧
      s.admission.lookup parent = some n ∧ ∀ q ∈ s.queue, q.admitted ≠ n := by
  obtain ⟨b, at', h1, h2, -, -⟩ := hi.ledger.announced parent r hr hlt
  obtain ⟨n, hn, hq⟩ := hi.numbered.reserved parent r hr
  refine ⟨b, at', n, h1, h2, ?_, ?_, hn, hq⟩
  · unfold WorkLedger.budget; rw [h1]; rfl
  · unfold numberOf; rw [hn]; rfl

end Ledger

/-! ### What the steps do to the reservations before a number -/

section Before
variable {now now' u : ℚ} {admission : Table String ℕ} {reserved : Table String (ℚ × ℚ)} {n : ℕ}

theorem reservedBefore_anti (admission : Table String ℕ) (n : ℕ)
    (h0 : ∀ k r, reserved.lookup k = some r → 0 ≤ r.1) (h : now ≤ now') :
    reservedBefore now' admission reserved n ≤ reservedBefore now admission reserved n := by
  refine Table.sumOf_le fun k r hk => ?_
  have := h0 k r hk
  by_cases h' : now' < r.2 ∧ numberOf admission k < n
  · rw [if_pos h', if_pos ⟨lt_of_le_of_lt h h'.1, h'.2⟩]
  · rw [if_neg h']
    split_ifs
    · exact this
    · exact le_rfl

theorem reservedBefore_le_live (now : ℚ) (admission : Table String ℕ) (n : ℕ)
    (h0 : ∀ k r, reserved.lookup k = some r → 0 ≤ r.1) :
    reservedBefore now admission reserved n ≤
      Table.sumOf (Table.retain reserved (live now)) fun _ r => r.1 := by
  rw [sumOf_live_eq]
  refine Table.sumOf_le fun k r hk => ?_
  have := h0 k r hk
  by_cases h : now < r.2
  · rw [if_pos h]
    split_ifs
    · exact le_rfl
    · exact this
  · rw [if_neg h, if_neg fun h' => h h'.1]

theorem reservedBefore_purge :
    reservedBefore now admission (Table.retain reserved (live now)) n =
      reservedBefore now admission reserved n := by
  unfold reservedBefore
  rw [Table.sumOf_retain]
  refine Table.sumOf_congr _ fun k r _ => ?_
  by_cases h : now < r.2
  · simp [live, h]
  · simp [live, h]

/-- A dispatch takes its reservation out. -/
theorem reservedBefore_erase (admission : Table String ℕ) (n : ℕ) {k : String} {r : ℚ × ℚ}
    (hr : reserved.lookup k = some r) (hlt : now < r.2) :
    reservedBefore now admission (reserved.erase k) n +
      (if numberOf admission k < n then r.1 else 0) = reservedBefore now admission reserved n := by
  have := Table.sumOf_erase_add (fun k (r : ℚ × ℚ) =>
    if now < r.2 ∧ numberOf admission k < n then r.1 else 0) hr
  simp only [hlt, true_and] at this
  exact this

/-- A new reservation comes after every number given out before. -/
theorem reservedBefore_insert_le (now : ℚ) (admission : Table String ℕ) (taskId : String) {m : ℕ}
    (v : ℚ × ℚ) (h0 : ∀ k r, reserved.lookup k = some r → 0 ≤ r.1) (hn : n ≤ m) :
    reservedBefore now (admission.insert taskId m) (reserved.insert taskId v) n ≤
      reservedBefore now admission reserved n := by
  have hnew : numberOf (admission.insert taskId m) taskId = m := by
    unfold numberOf; rw [AList.lookup_insert]; rfl
  unfold reservedBefore
  rw [Table.sumOf_insert, hnew, if_neg (fun h => absurd h.2 (not_lt.mpr hn)), zero_add]
  -- the other parents keep their numbers
  have hsame : Table.sumOf (reserved.erase taskId) (fun k r =>
      if now < r.2 ∧ numberOf (admission.insert taskId m) k < n then r.1 else 0) =
      Table.sumOf (reserved.erase taskId) fun k r =>
        if now < r.2 ∧ numberOf admission k < n then r.1 else 0 := by
    refine Table.sumOf_congr _ fun k r hk => ?_
    rw [Table.lookup_erase_if] at hk
    split_ifs at hk with hkt
    unfold numberOf
    rw [AList.lookup_insert_ne hkt]
  rw [hsame]
  refine Table.sumOf_erase_le (fun k r hk => ?_) taskId
  have := h0 k r hk
  split_ifs
  · exact this
  · exact le_rfl

end Before

/-! ### One step -/

theorem numberOf_insert_ne {admission : Table String ℕ} {k taskId : String} {m : ℕ}
    (h : k ≠ taskId) : numberOf (admission.insert taskId m) k = numberOf admission k := by
  unfold numberOf; rw [AList.lookup_insert_ne h]

theorem headStart_append {now : ℚ} {q : Entry} (h : q.started = none) :
    ∀ queue : List Entry, headStart now (queue ++ [q]) = headStart now queue
  | [] => by simp [headStart, h]
  | _ :: _ => rfl

/-- A queue whose entries all wait would start now. -/
theorem headStart_waiting {now : ℚ} {queue : List Entry} (h : ∀ q ∈ queue, q.started = none) :
    headStart now queue = now := by
  cases queue with
  | nil => rfl
  | cons q rest => simp [headStart, h q List.mem_cons_self]

section Numbers
variable {s s' : State} (hn : Numbered s)
include hn

/-- Reservations may go, and the queue may keep entries with the numbers there were. -/
theorem Numbered.sub (hadmission : s'.admission = s.admission)
    (hadmissions : s'.admissions = s.admissions)
    (hqueue : ∀ q ∈ s'.queue, ∃ p ∈ s.queue, q.admitted = p.admitted)
    (hreserved : ∀ k r, s'.ledger.reserved.lookup k = some r →
      s.ledger.reserved.lookup k = some r) : Numbered s' := by
  refine ⟨fun k n hk => ?_, fun q hq => ?_, fun k k' n hk hk' => ?_, fun k r hk => ?_⟩
  · rw [hadmission] at hk
    rw [hadmissions]
    exact hn.lt k n hk
  · obtain ⟨p, hp, heq⟩ := hqueue q hq
    rw [heq, hadmissions]
    exact hn.queue_lt p hp
  · rw [hadmission] at hk hk'
    exact hn.inj k k' n hk hk'
  · obtain ⟨n, hk', hne⟩ := hn.reserved k r (hreserved k r hk)
    refine ⟨n, hadmission ▸ hk', fun q hq => ?_⟩
    obtain ⟨p, hp, heq⟩ := hqueue q hq
    rw [heq]
    exact hne p hp

/-- A task that is admitted gets the next number. -/
theorem Numbered.admit {taskId : String}
    (hadmission : s'.admission = s.admission.insert taskId s.admissions)
    (hadmissions : s'.admissions = s.admissions + 1) (hqueue : s'.queue = s.queue)
    (hother : ∀ k r, k ≠ taskId → s'.ledger.reserved.lookup k = some r →
      s.ledger.reserved.lookup k = some r) : Numbered s' := by
  refine ⟨fun k n hk => ?_, fun q hq => ?_, fun k k' n hk hk' => ?_, fun k r hk => ?_⟩
  · rw [hadmission, Table.lookup_insert_if] at hk
    rw [hadmissions]
    split_ifs at hk
    · cases hk
      exact Nat.lt_succ_self _
    · exact (hn.lt k n hk).trans (Nat.lt_succ_self _)
  · rw [hadmissions]
    exact (hn.queue_lt q (hqueue ▸ hq)).trans (Nat.lt_succ_self _)
  · rw [hadmission, Table.lookup_insert_if] at hk hk'
    split_ifs at hk hk' with h1 h2 h2
    · rw [h1, h2]
    · cases hk
      exact absurd (hn.lt k' _ hk') (lt_irrefl _)
    · cases hk'
      exact absurd (hn.lt k _ hk) (lt_irrefl _)
    · exact hn.inj k k' n hk hk'
  · rw [hadmission, hqueue]
    by_cases hkt : k = taskId
    · subst hkt
      exact ⟨s.admissions, AList.lookup_insert _, fun q hq => (hn.queue_lt q hq).ne⟩
    · obtain ⟨n, hk', hne⟩ := hn.reserved k r (hother k r hkt hk)
      exact ⟨n, (AList.lookup_insert_ne hkt).trans hk', hne⟩

/-- The number of a dispatched parent goes to the queue, and its reservation goes. -/
theorem Numbered.dispatch {parent : String} {q : Entry} (hadmission : s'.admission = s.admission)
    (hadmissions : s'.admissions = s.admissions) (hqueue : s'.queue = s.queue ++ [q])
    (hparent : s.admission.lookup parent = some q.admitted)
    (hothers : ∀ k r, s'.ledger.reserved.lookup k = some r →
      k ≠ parent ∧ s.ledger.reserved.lookup k = some r) : Numbered s' := by
  have hin : ∀ p ∈ s'.queue, p ∈ s.queue ∨ p = q := by
    intro p hp
    rw [hqueue, List.mem_append, List.mem_singleton] at hp
    exact hp
  refine ⟨fun k n hk => ?_, fun p hp => ?_, fun k k' n hk hk' => ?_, fun k r hk => ?_⟩
  · rw [hadmission] at hk
    rw [hadmissions]
    exact hn.lt k n hk
  · rw [hadmissions]
    rcases hin p hp with hp | rfl
    · exact hn.queue_lt p hp
    · exact hn.lt parent _ hparent
  · rw [hadmission] at hk hk'
    exact hn.inj k k' n hk hk'
  · obtain ⟨hne, hk⟩ := hothers k r hk
    obtain ⟨n, hk', hqueued⟩ := hn.reserved k r hk
    refine ⟨n, hadmission ▸ hk', fun p hp => ?_⟩
    rcases hin p hp with hp | rfl
    · exact hqueued p hp
    · rintro rfl
      exact hne (hn.inj k parent _ hk' hparent)

end Numbers

section Steps
variable {s : State} (hi : Inv policy s)
include hi

theorem Inv.decide_error {taskId : String} {work : Work} {deadlineSecs : UInt32} {l : WorkLedger}
    {total : ℚ} (h : s.ledger.decide taskId work deadlineSecs policy s.now = (l, .error total)) :
    Inv policy { s with ledger := l } := by
  obtain rfl := WorkLedger.decide_error h
  have hsub : ∀ k r, (Table.retain s.ledger.reserved (live s.now)).lookup k = some r →
      s.ledger.reserved.lookup k = some r := by
    intro k r hk
    rw [Table.lookup_retain, Option.filter_eq_some_iff] at hk
    exact hk.1
  refine ⟨hi.ledger.purge, hi.rows, hi.numbered.sub rfl rfl (fun q hq => ⟨q, hq, rfl⟩) hsub,
    hi.running, ?_, hi.fits⟩
  intro k r b at' hk hlt hb
  have hold := hi.backlog k r b at' (hsub k r hk) hlt hb
  unfold workBefore at hold ⊢
  rw [reservedBefore_purge]
  exact hold

/-- The newcomer's own check covers everything admitted before it. -/
theorem Inv.workBefore_newcomer (n : ℕ) :
    leftWhere s.now policy.unknownSecs (fun q => q.admitted < n) s.queue +
      reservedBefore s.now s.admission (Table.retain s.ledger.reserved (live s.now)) n ≤
        s.ledger.queuedSecs s.now policy.unknownSecs := by
  have h1 := leftWhere_le_left s.now policy.unknownSecs s.queue
    (p := fun q => q.admitted < n) (fun q hq => hi.expected_nonneg hq)
  have h2 := reservedBefore_le_live s.now s.admission n hi.ledger.reserved_nonneg
  have h3 := LedgerShare.committed_le_queuedSecs hi.ledger policy.unknownSecs
  rw [hi.left_eq] at h1
  rw [reservedBefore_purge]
  unfold committed at h3
  linarith

theorem Inv.decide_ok (hp : policy.Admitted) {taskId : String} {work : Work}
    {deadlineSecs : UInt32} {l : WorkLedger} {b : Budget}
    (h : s.ledger.decide taskId work deadlineSecs policy s.now = (l, .ok b)) :
    Inv policy { s with
      ledger := l
      admission := s.admission.insert taskId s.admissions
      admissions := s.admissions + 1 } := by
  obtain ⟨hfit, rfl, hh, ha, hr⟩ := WorkLedger.decide_ok h
  have hpurged := hi.ledger.purge.reserved_nonneg
  -- a reservation other than the new one was there before
  have hother : ∀ k r, k ≠ taskId → l.reserved.lookup k = some r →
      s.ledger.reserved.lookup k = some r := by
    intro k r hk hkr
    rw [hr, AList.lookup_insert_ne hk, Table.lookup_retain, Option.filter_eq_some_iff] at hkr
    exact hkr.1
  refine ⟨hi.ledger.decide_ok hp h, by rw [hh]; exact hi.rows,
    hi.numbered.admit rfl rfl rfl hother, hi.running, ?_, hi.fits⟩
  intro k r b at' hk hlt hb
  unfold workBefore
  by_cases hkt : k = taskId
  · subst hkt
    simp only [hr, ha, AList.lookup_insert, Option.some.injEq] at hk hb ⊢
    subst hk
    cases hb
    have hnum : numberOf (s.admission.insert k s.admissions) k = s.admissions := by
      unfold numberOf; rw [AList.lookup_insert]; rfl
    have h1 := hi.workBefore_newcomer s.admissions
    have h2 := reservedBefore_insert_le s.now s.admission k
      (own policy work, s.now + reservationTtl) hpurged (le_refl s.admissions)
    rw [hnum]
    simp only at hfit ⊢
    linarith
  · have hk' := hother k r hkt hk
    have hb' : s.ledger.announced.lookup k = some (b, at') := by
      simp only [ha, AList.lookup_insert_ne hkt, Table.lookup_retain,
        Option.filter_eq_some_iff] at hb
      exact hb.1
    obtain ⟨n, hn, -⟩ := hi.numbered.reserved k r hk'
    have hnum : numberOf s.admission k = n := by unfold numberOf; rw [hn]; rfl
    have hold := hi.backlog k r b at' hk' hlt hb'
    have h2 := reservedBefore_insert_le s.now s.admission taskId
      (own policy work, s.now + reservationTtl) hpurged (hi.numbered.lt k n hn).le
    unfold workBefore at hold
    rw [reservedBefore_purge] at h2
    simp only [hr, numberOf_insert_ne hkt, hnum] at hold ⊢
    linarith

/-- **A dispatched sub-task fits behind the queue.** -/
theorem Inv.left_add_le_bound (sub : String) {parent : String} {r : ℚ × ℚ}
    (hr : s.ledger.reserved.lookup parent = some r) (hlt : s.now < r.2) :
    left s.now policy.unknownSecs s.queue + r.1 ≤ bound policy (s.dispatched sub parent) := by
  obtain ⟨b, at', n, hann, hbe, hb, hnum, -, hne⟩ := hi.reserved_dispatchable hr hlt
  have hshare : left s.now policy.unknownSecs s.queue + r.1 ≤
      policy.margin * policy.ownTimeoutSecs.toNat := by
    have hsum := Table.sumOf_erase_add (fun _ (r : ℚ × ℚ) => if s.now < r.2 then r.1 else 0) hr
    have hrest : 0 ≤ Table.sumOf (s.ledger.reserved.erase parent)
        fun _ (r : ℚ × ℚ) => if s.now < r.2 then r.1 else 0 := by
      refine Table.sumOf_nonneg fun k r' hk => ?_
      rw [Table.lookup_erase_if] at hk
      split_ifs at hk with hkp
      have := hi.ledger.reserved_nonneg k r' hk
      split_ifs
      · exact this
      · exact le_rfl
    have hc := hi.ledger.share
    rw [if_pos hlt] at hsum
    rw [hi.left_eq]
    unfold committed at hc
    rw [sumOf_live_eq] at hc
    linarith
  have hdl : (s.dispatched sub parent).budget.deadlineSecs = b.deadlineSecs := by
    simp [State.dispatched, hb]
  unfold bound
  by_cases hover : (s.dispatched sub parent).overtaken = true
  · rw [if_pos hover]
    exact hshare
  · rw [if_neg hover, hdl]
    refine le_min ?_ hshare
    -- everything in the queue was admitted before
    have hall : ∀ q ∈ s.queue, q.admitted < n := by
      intro q hq
      have hnot : ¬ n < q.admitted := by
        intro hlt'
        apply hover
        simp only [State.dispatched, hnum, List.any_eq_true, decide_eq_true_eq]
        exact ⟨q, hq, hlt'⟩
      exact lt_of_le_of_ne (not_lt.mp hnot) (hne q hq)
    have hback := hi.backlog parent r b at' hr hlt hann
    have hres : 0 ≤ reservedBefore s.now s.admission s.ledger.reserved n := by
      refine Table.sumOf_nonneg fun k r' hk => ?_
      have := hi.ledger.reserved_nonneg k r' hk
      split_ifs
      · exact this
      · exact le_rfl
    unfold workBefore at hback
    rw [hnum, leftWhere_eq_left hall] at hback
    linarith

theorem Inv.dispatch {sub parent : String}
    (hfresh : s.ledger.held.lookup sub = none) (hres : Reserved s.ledger parent s.now) :
    Inv policy { s with
      ledger := s.ledger.hold sub (some parent) (s.ledger.budget parent)
      queue := s.queue ++ [s.dispatched sub parent] } := by
  have hinv := hi.ledger.hold hfresh hres
  obtain ⟨r, hr, hlt⟩ := hres
  obtain ⟨b, at', n, hann, hbe, hb, hnum, hadm, hne⟩ := hi.reserved_dispatchable hr hlt
  have hbud : (s.dispatched sub parent).budget = b := by simp [State.dispatched, hb]
  have hadmitted : (s.dispatched sub parent).admitted = n := hnum
  have hothers : ∀ k r', (s.ledger.reserved.erase parent).lookup k = some r' →
      k ≠ parent ∧ s.ledger.reserved.lookup k = some r' := by
    intro k r' hk
    rw [Table.lookup_erase_if] at hk
    split_ifs at hk with hkp
    exact ⟨hkp, hk⟩
  have hparent : s.admission.lookup parent = some (s.dispatched sub parent).admitted :=
    hadmitted ▸ hadm
  refine ⟨hinv, ?_, hi.numbered.dispatch rfl rfl rfl hparent hothers, ⟨?_, ?_⟩, ?_, ?_⟩
  · have hnot : sub ∉ s.ledger.held := AList.lookup_eq_none.mp hfresh
    have hrow : (s.dispatched sub parent).row =
        ⟨sub, ⟨(s.ledger.budget parent).map (·.expectedSecs), none⟩⟩ := by
      simp [Entry.row, Entry.held, State.dispatched, hb]
    show (s.ledger.held.insert sub _).entries.Perm _
    rw [AList.entries_insert_of_notMem hnot, List.map_append, List.map_singleton, hrow]
    exact (hi.rows.cons _).trans (List.perm_append_singleton _ _).symm
  · intro q hq
    have hq' : q ∈ s.queue.tail ∨ q = s.dispatched sub parent := by
      cases hqueue : s.queue with
      | nil => simp [hqueue] at hq
      | cons p rest => simpa [hqueue] using hq
    rcases hq' with hq' | rfl
    · exact hi.running.waiting q hq'
    · rfl
  · intro q hq at'' hst
    rcases List.mem_append.mp hq with hq | hq
    · exact hi.running.within q hq at'' hst
    · rw [List.mem_singleton.mp hq] at hst
      cases hst
  · intro k r' b' at'' hk hlt' hb'
    obtain ⟨hkp, hk'⟩ := hothers k r' hk
    have hold := hi.backlog k r' b' at'' hk' hlt' hb'
    have herase := reservedBefore_erase s.admission (numberOf s.admission k) hr hlt
    have hrem : (s.dispatched sub parent).held.remaining s.now policy.unknownSecs = r.1 := by
      rw [← hbe, ← hbud]; rfl
    unfold workBefore at hold ⊢
    simp only [leftWhere_append, hadmitted, hrem, WorkLedger.hold]
    rw [hnum] at herase
    linarith
  · have hstarted : (s.dispatched sub parent).started = none := rfl
    rw [headStart_append hstarted]
    refine Fits.append hi.fits ?_
    have hback := headStart_add_totalSecs (u := policy.unknownSecs) hi.running
    have hbound := hi.left_add_le_bound sub hr hlt
    have hat : (s.dispatched sub parent).dispatchedAt = s.now := rfl
    rw [hbud, hbe, hat]
    linarith

theorem Inv.start {q : Entry} {rest : List Entry} (hq : s.queue = q :: rest)
    (hw : q.started = none) :
    Inv policy { s with
      ledger := s.ledger.start q.sub s.now
      queue := { q with started := some s.now } :: rest } := by
  have hmem : q ∈ s.queue := by rw [hq]; exact List.mem_cons_self
  have hrest : ∀ p ∈ rest, p ∈ s.queue := fun p hp => by rw [hq]; exact List.mem_cons_of_mem _ hp
  have hlook := hi.lookup hmem
  have hnodup : (s.queue.map Entry.row).NodupKeys :=
    (List.perm_nodupKeys hi.rows).mp s.ledger.held.nodupKeys
  have hnumbers : ∀ p ∈ { q with started := some s.now } :: rest,
      ∃ p' ∈ s.queue, p.admitted = p'.admitted := by
    intro p hp
    rcases List.mem_cons.mp hp with rfl | hp
    · exact ⟨q, hmem, rfl⟩
    · exact ⟨p, hrest p hp, rfl⟩
  refine ⟨hi.ledger.start fun h hh => ?_, ?_, hi.numbered.sub rfl rfl hnumbers fun k r hk => hk,
    ⟨fun p hp => hi.running.waiting p (by rw [hq]; exact hp), ?_⟩, ?_, ?_⟩
  · rw [hlook] at hh
    cases hh
    exact hw
  · -- the update touches the row of `q` alone
    have hmap := hi.rows.map fun e : Σ _ : String, Held =>
      (⟨e.1, if e.1 = q.sub then { e.2 with started := some s.now } else e.2⟩ : Σ _ : String, Held)
    refine hmap.trans (List.Perm.of_eq ?_)
    rw [hq, List.map_map, List.map_cons, List.map_cons]
    congr 1
    · simp [Entry.row, Entry.held]
    · refine List.map_congr_left fun p hp => ?_
      have hne : p.sub ≠ q.sub := by
        rw [hq, List.map_cons, List.nodupKeys_cons] at hnodup
        intro he
        apply hnodup.1
        show q.sub ∈ _
        rw [← he]
        exact List.mem_keys.mpr ⟨p.held, List.mem_map.mpr ⟨p, hp, rfl⟩⟩
      simp [Entry.row, hne]
  · intro p hp at' hst
    rcases List.mem_cons.mp hp with rfl | hp
    · cases hst
      have := hi.expected_nonneg hmem
      exact ⟨le_rfl, by simp only; linarith⟩
    · exact hi.running.within p (hrest p hp) at' hst
  · intro k r b at' hk hlt hb
    have hold := hi.backlog k r b at' hk hlt hb
    have hsame : (Entry.held { q with started := some s.now }).remaining s.now policy.unknownSecs =
        q.held.remaining s.now policy.unknownSecs :=
      Held.remaining_start (hi.ledger.held_sound q.sub q.held hlook).1 hw
    unfold workBefore at hold ⊢
    rw [hq, leftWhere_cons] at hold
    simp only [leftWhere_cons, hsame, WorkLedger.start]
    exact hold
  · have hfits := hi.fits
    rw [hq] at hfits
    have h0 : headStart s.now (q :: rest) = s.now := by simp [headStart, hw]
    rw [h0] at hfits
    exact hfits

theorem Inv.finish {q : Entry} {rest : List Entry} {at' : ℚ} (hq : s.queue = q :: rest)
    (hst : q.started = some at') (hp : policy.Admitted) :
    Inv policy { s with ledger := s.ledger.release q.sub, queue := rest } := by
  have hmem : q ∈ s.queue := by rw [hq]; exact List.mem_cons_self
  have hrest : ∀ p ∈ rest, p ∈ s.queue := fun p hp => by rw [hq]; exact List.mem_cons_of_mem _ hp
  have hwait : ∀ p ∈ rest, p.started = none :=
    fun p hp => hi.running.waiting p (by rw [hq]; exact hp)
  refine ⟨hi.ledger.release hp q.sub, ?_,
    hi.numbered.sub rfl rfl (fun p hp => ⟨p, hrest p hp, rfl⟩) fun k r hk => hk, ⟨?_, ?_⟩, ?_, ?_⟩
  · have herase := hi.rows.kerase (a := q.sub) s.ledger.held.nodupKeys
    rw [hq, List.map_cons, List.kerase_cons_eq (show q.sub = q.row.1 from rfl)] at herase
    exact herase
  · exact fun p hp => hwait p (List.mem_of_mem_tail hp)
  · exact fun p hp => hi.running.within p (hrest p hp)
  · intro k r b at'' hk hlt hb
    have hold := hi.backlog k r b at'' hk hlt hb
    have hpos := Entry.remaining_nonneg s.now policy.unknownSecs
      (hi.expected_nonneg hmem)
    unfold workBefore at hold ⊢
    rw [hq, leftWhere_cons] at hold
    refine le_trans ?_ hold
    simp only [WorkLedger.release]
    split_ifs
    · linarith
    · linarith
  · have hfits := hi.fits
    rw [hq] at hfits
    have hwithin := (hi.running.within q hmem at' hst).2
    have h0 : headStart s.now (q :: rest) = at' := by simp [headStart, hst]
    rw [h0] at hfits
    show Fits policy (headStart s.now rest) rest
    rw [headStart_waiting hwait]
    exact Fits.anti hwithin hfits.2

theorem Inv.wait {secs : ℚ} (h0 : 0 ≤ secs)
    (hrun : ∀ q rest, s.queue = q :: rest → ∃ at', q.started = some at' ∧
      s.now + secs ≤ at' + q.budget.expectedSecs) :
    Inv policy { s with now := s.now + secs } := by
  have hle : s.now ≤ s.now + secs := by linarith
  refine ⟨hi.ledger.later hle, hi.rows,
    hi.numbered.sub rfl rfl (fun q hq => ⟨q, hq, rfl⟩) fun k r hk => hk,
    ⟨hi.running.waiting, ?_⟩, ?_, ?_⟩
  · intro q hq at' hst
    refine ⟨(hi.running.within q hq at' hst).1.trans hle, ?_⟩
    cases hqueue : s.queue with
    | nil => rw [hqueue] at hq; cases hq
    | cons p rest =>
      obtain ⟨at'', hst', hlt⟩ := hrun p rest hqueue
      rcases List.mem_cons.mp (hqueue ▸ hq) with rfl | hq'
      · rw [hst] at hst'
        cases hst'
        exact hlt
      · have hw := hi.running.waiting q (by rw [hqueue]; exact hq')
        rw [hw] at hst
        cases hst
  · intro k r b at' hk hlt hb
    have hold := hi.backlog k r b at' hk (lt_of_le_of_lt hle hlt) hb
    have h1 := leftWhere_anti policy.unknownSecs s.queue
      (p := fun q => q.admitted < numberOf s.admission k) hle
    have h2 := reservedBefore_anti s.admission (numberOf s.admission k) hi.ledger.reserved_nonneg hle
    unfold workBefore at hold ⊢
    linarith
  · have hsame : headStart (s.now + secs) s.queue = headStart s.now s.queue ∨ s.queue = [] := by
      cases hqueue : s.queue with
      | nil => exact Or.inr rfl
      | cons p rest =>
        obtain ⟨at', hst, -⟩ := hrun p rest hqueue
        exact Or.inl (by simp [headStart, hst])
    show Fits policy (headStart (s.now + secs) s.queue) s.queue
    rcases hsame with hsame | hnil
    · rw [hsame]
      exact hi.fits
    · rw [hnil]
      trivial

end Steps

/-- **One step** keeps the invariant. -/
theorem step_inv (hp : policy.Admitted) {s s' : State} {a : Act} (hi : Inv policy s)
    (h : step policy s a = some s') : Inv policy s' := by
  cases a with
  | decide taskId work deadlineSecs =>
    simp only [step] at h
    rcases hd : s.ledger.decide taskId work deadlineSecs policy s.now with ⟨l, total | b⟩
    · rw [hd] at h
      cases h
      exact hi.decide_error hd
    · rw [hd] at h
      cases h
      exact hi.decide_ok hp hd
  | dispatch sub parent =>
    simp only [step] at h
    split_ifs at h with hg
    cases h
    exact hi.dispatch hg.1 hg.2
  | start =>
    simp only [step] at h
    split at h
    · cases h
    · next q rest hq =>
      split_ifs at h with hw
      cases h
      exact hi.start hq hw
  | finish =>
    simp only [step] at h
    split at h
    · cases h
    · next q rest hq =>
      split_ifs at h with hw
      obtain ⟨at', hst⟩ := Option.ne_none_iff_exists'.mp hw
      cases h
      exact hi.finish hq hst hp
  | wait secs =>
    simp only [step] at h
    split_ifs at h with hneg
    have h0 := not_lt.mp hneg
    split at h
    · next hq =>
      cases h
      exact hi.wait h0 fun q rest hq' => by rw [hq] at hq'; cases hq'
    · next q rest hq =>
      split at h
      · cases h
      · next at' hst =>
        split_ifs at h with hlt
        cases h
        refine hi.wait h0 fun q' rest' hq' => ?_
        rw [hq] at hq'
        cases hq'
        exact ⟨at', hst, hlt⟩

theorem run_inv (hp : policy.Admitted) {acts : List Act} {s : State}
    (hrun : run (step policy) init acts = some s) : Inv policy s :=
  Machine.run_inv (I := Inv policy) (fun _ _ _ hi h => step_inv hp hi h) (inv_init hp) hrun

/-! ### Finishing -/

/-- A sub-task that is still held has not passed its bound. -/
theorem Inv.now_le_bound {s : State} (hi : Inv policy s) {q : Entry} (hq : q ∈ s.queue) :
    s.now ≤ q.dispatchedAt + bound policy q := by
  have hfits := hi.fits
  cases hqueue : s.queue with
  | nil => rw [hqueue] at hq; cases hq
  | cons p rest =>
    have hp : p ∈ s.queue := by rw [hqueue]; exact List.mem_cons_self
    have hexp : ∀ p' ∈ rest, 0 ≤ p'.budget.expectedSecs := fun p' hp' =>
      hi.expected_nonneg (by rw [hqueue]; exact List.mem_cons_of_mem _ hp')
    have h0 := hi.expected_nonneg hp
    -- the head is not done before now
    have hhead : s.now ≤ headStart s.now (p :: rest) + p.budget.expectedSecs := by
      cases hst : p.started with
      | none => simpa [headStart, hst] using h0
      | some at' => simpa [headStart, hst] using (hi.running.within p hp at' hst).2
    rw [hqueue] at hfits
    rcases List.mem_cons.mp (hqueue ▸ hq) with rfl | hq'
    · exact hhead.trans hfits.1
    · have := Fits.mem hfits.2 hexp hq'
      have := hexp q hq'
      linarith

/-- The worker can always go on until nothing is held. -/
theorem exists_drain (policy : BudgetPolicy) : ∀ (queue : List Entry) (s : State),
    s.queue = queue → (∀ q ∈ queue.tail, q.started = none) →
      ∃ acts s', (∀ a ∈ acts, a.ofWorker = true) ∧ run (step policy) s acts = some s' ∧ s'.queue = []
  | [], s, hq, _ => ⟨[], s, by simp, rfl, hq⟩
  | q :: rest, s, hq, hw => by
    have hrest : ∀ p ∈ rest.tail, p.started = none := fun p hp => hw p (List.mem_of_mem_tail hp)
    -- finish the head, once it has been started
    have hfinish : ∀ (p : Entry) (t : State), t.queue = p :: rest → p.started ≠ none →
        ∃ acts s', (∀ a ∈ acts, a.ofWorker = true) ∧ run (step policy) t acts = some s' ∧
          s'.queue = [] := by
      intro p t ht hp
      have hstep : step policy t .finish =
          some { t with ledger := t.ledger.release p.sub, queue := rest } := by
        simp only [step, ht, if_neg hp]
      obtain ⟨acts, s', h1, h2, h3⟩ := exists_drain policy rest
        { t with ledger := t.ledger.release p.sub, queue := rest } rfl hrest
      refine ⟨.finish :: acts, s', ?_, run_cons_some.mpr ⟨_, hstep, h2⟩, h3⟩
      simpa [Act.ofWorker] using h1
    by_cases hst : q.started = none
    · have hstep : step policy s .start = some { s with
          ledger := s.ledger.start q.sub s.now
          queue := { q with started := some s.now } :: rest } := by
        simp only [step, hq, if_pos hst]
      obtain ⟨acts, s', h1, h2, h3⟩ := hfinish { q with started := some s.now } { s with
          ledger := s.ledger.start q.sub s.now
          queue := { q with started := some s.now } :: rest } rfl (by simp)
      refine ⟨.start :: acts, s', ?_, run_cons_some.mpr ⟨_, hstep, h2⟩, h3⟩
      simpa [Act.ofWorker] using h1
    · exact hfinish q s hq hst

/-- **What admission promises.** In every run, a sub-task is held for at most `margin · own timeout`
from its dispatch, and for at most its own deadline if no later admission was dispatched ahead of
it; and the worker can always finish everything that is held. -/
theorem finishes_in_time (hp : policy.Admitted) {acts : List Act} {s : State}
    (hrun : run (step policy) init acts = some s) :
    (∀ q ∈ s.queue,
      s.now ≤ q.dispatchedAt + policy.margin * policy.ownTimeoutSecs.toNat ∧
        (q.overtaken = false → s.now ≤ q.dispatchedAt + q.budget.deadlineSecs.toNat)) ∧
      ∃ ws s', (∀ a ∈ ws, a.ofWorker = true) ∧ run (step policy) s ws = some s' ∧ s'.queue = [] := by
  have hi := run_inv hp hrun
  refine ⟨fun q hq => ?_, exists_drain policy s.queue s rfl hi.running.waiting⟩
  have hb := hi.now_le_bound hq
  have hdl := limit_le_deadline hp q.budget.deadlineSecs
  unfold bound at hb
  constructor
  · split_ifs at hb
    · exact hb
    · exact hb.trans (by gcongr; exact min_le_right _ _)
  · intro hover
    rw [hover, if_neg (by decide)] at hb
    exact hb.trans (by gcongr; exact (min_le_left _ _).trans hdl)

/-! ### A sub-task that is overtaken -/

/-- One byte per nanosecond, no overhead, all of 300 s. -/
def allOf300 : BudgetPolicy where
  rates := ⟨1 / 10 ^ 9, 1 / 10 ^ 9⟩
  overheadSecs := 0
  margin := 1
  ownTimeoutSecs := 300
  unknownSecs := 30

theorem allOf300_admitted : allOf300.Admitted := by
  constructor <;> norm_num [allOf300]

/-- `a` needs 5 s within 10 s, `b` 50 s within 100 s; `a` is admitted first. -/
def admitBoth : List Act := [.decide "a" ⟨5000000000, 0⟩ 10, .decide "b" ⟨50000000000, 0⟩ 100]

/-- Dispatched in the order of their admission, both finish in time. -/
theorem finishes_in_time_in_order :
    ∃ s, run (step allOf300) init (admitBoth ++
        [.dispatch "a_1" "a", .dispatch "b_1" "b", .start, .wait 5, .finish, .start, .wait 50]) =
          some s ∧
      s.queue.map (fun q => (q.sub, q.overtaken)) = [("b_1", false)] ∧
      ∀ q ∈ s.queue,
        s.now ≤ q.dispatchedAt + allOf300.margin * allOf300.ownTimeoutSecs.toNat ∧
          (q.overtaken = false → s.now ≤ q.dispatchedAt + q.budget.deadlineSecs.toNat) := by
  obtain ⟨s, hs⟩ : ∃ s, run (step allOf300) init (admitBoth ++
      [.dispatch "a_1" "a", .dispatch "b_1" "b", .start, .wait 5, .finish, .start, .wait 50]) =
        some s := Option.isSome_iff_exists.mp (by decide +kernel)
  have hend : ∀ s ∈ run (step allOf300) init (admitBoth ++
      [.dispatch "a_1" "a", .dispatch "b_1" "b", .start, .wait 5, .finish, .start, .wait 50]),
      s.queue.map (fun q => (q.sub, q.overtaken)) = [("b_1", false)] := by decide +kernel
  exact ⟨s, hs, hend s hs, (finishes_in_time allOf300_admitted hs).1⟩

/-- **Overtaken, `a` misses its deadline**: `b` is dispatched first, and `a`, due 10 s after its
dispatch, is done after 55 s. -/
theorem overtaken_misses_deadline :
    ∃ s, run (step allOf300) init (admitBoth ++
        [.dispatch "b_1" "b", .dispatch "a_1" "a", .start, .wait 50, .finish, .start, .wait 5]) =
          some s ∧ s.now = 55 ∧
      ∃ q ∈ s.queue, q.sub = "a_1" ∧ q.dispatchedAt + q.budget.deadlineSecs.toNat < s.now ∧
        step allOf300 s .finish ≠ none := by
  obtain ⟨s, hs⟩ : ∃ s, run (step allOf300) init (admitBoth ++
      [.dispatch "b_1" "b", .dispatch "a_1" "a", .start, .wait 50, .finish, .start, .wait 5]) =
        some s := Option.isSome_iff_exists.mp (by decide +kernel)
  have hend : ∀ s ∈ run (step allOf300) init (admitBoth ++
      [.dispatch "b_1" "b", .dispatch "a_1" "a", .start, .wait 50, .finish, .start, .wait 5]),
      s.now = 55 ∧ ∃ q ∈ s.queue, q.sub = "a_1" ∧
        q.dispatchedAt + q.budget.deadlineSecs.toNat < s.now ∧
          (step allOf300 s .finish).isSome = true := by decide +kernel
  obtain ⟨hnow, q, hq, hsub, hlt, hfin⟩ := hend s hs
  exact ⟨s, hs, hnow, q, hq, hsub, hlt, Option.isSome_iff_ne_none.mp hfin⟩

end WqcNode.Domain.LedgerDeadlines
