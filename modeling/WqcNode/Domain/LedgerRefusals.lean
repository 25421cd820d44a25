import WqcNode.Lib.Machine
import WqcNode.Domain.WorkBudget

/-! # What a refused bid leaves behind (`domain/work.rs`)

`decide` drops the lapsed reservations before it looks whether the newcomer fits, so a refused call
changes the ledger. Nobody sees it: from the time of the call on, the dropped reservations count for
nothing in any answer. Two ledgers agree from a time on if they differ in reservations only that
have lapsed by then; every call keeps that and answers the same on both (`AgreeFrom.answer`). -/

namespace WqcNode.Domain.LedgerRefusals

open WqcNode.Lib WqcNode.Lib.Machine WqcNode.Domain.WorkBudget
open WqcNode.Domain.WorkBudget.WorkLedger

/-! ### Calls -/

/-- A call of one of the ledger's functions. -/
inductive Call
  | decide (taskId : String) (work : Work) (deadlineSecs : UInt32) (policy : BudgetPolicy) (now : ℚ)
  | budget (parentTaskId : String)
  | hold (subTaskId : String) (parentTaskId : Option String) (budget : Option Budget)
  | start (subTaskId : String) (now : ℚ)
  | release (subTaskId : String)
  | queuedSecs (now unknownSecs : ℚ)

/-- The time a call is made with is `t` or later. -/
def Call.NotBefore (t : ℚ) : Call → Prop
  | .decide _ _ _ _ now | .start _ now | .queuedSecs now _ => t ≤ now
  | _ => True

/-- What a call returns. -/
inductive Answer
  | decided (result : Except ℚ Budget)
  | budget (budget : Option Budget)
  | queuedSecs (secs : ℚ)
  | unit

def perform (l : WorkLedger) : Call → WorkLedger × Answer
  | .decide taskId work deadlineSecs policy now =>
    let (l', result) := l.decide taskId work deadlineSecs policy now
    (l', .decided result)
  | .budget parentTaskId => (l, .budget (l.budget parentTaskId))
  | .hold subTaskId parentTaskId budget => (l.hold subTaskId parentTaskId budget, .unit)
  | .start subTaskId now => (l.start subTaskId now, .unit)
  | .release subTaskId => (l.release subTaskId, .unit)
  | .queuedSecs now unknownSecs => (l, .queuedSecs (l.queuedSecs now unknownSecs))

/-- `decide` as it would be if it dropped no reservation. -/
def decideKeeping (l : WorkLedger) (taskId : String) (work : Work) (deadlineSecs : UInt32)
    (policy : BudgetPolicy) (now : ℚ) : WorkLedger × Except ℚ Budget :=
  let total := l.queuedSecs now policy.unknownSecs + own policy work
  if total > limit policy deadlineSecs then (l, .error total)
  else
    let budget : Budget := ⟨deadlineSecs, own policy work⟩
    ({ l with
        announced := (Table.retain l.announced fun _ a =>
          decide (durationSince now a.2 < announcedTtl)).insert taskId (budget, now)
        reserved := l.reserved.insert taskId (own policy work, now + reservationTtl) },
      .ok budget)

/-! ### Ledgers that agree -/

/-- The ledgers differ only in reservations that have lapsed at `t`. -/
structure AgreeFrom (t : ℚ) (l l' : WorkLedger) : Prop where
  announced : l'.announced = l.announced
  held : l'.held = l.held
  reserved : ∀ id,
    (l'.reserved.lookup id).filter (live t id) = (l.reserved.lookup id).filter (live t id)

variable {l l' : WorkLedger} {t now : ℚ}

theorem live_of_le {id : String} {r : ℚ × ℚ} (hle : t ≤ now) (h : live now id r = true) :
    live t id r = true := by
  simp only [live, decide_eq_true_eq] at h ⊢
  exact lt_of_le_of_lt hle h

/-- What is live later is live before. -/
theorem filter_live_live {id : String} (r : Option (ℚ × ℚ)) (hle : t ≤ now) :
    (r.filter (live t id)).filter (live now id) = r.filter (live now id) := by
  rw [Option.filter_filter]
  congr 1
  funext x
  by_cases h : live now id x = true
  · rw [h, live_of_le hle h, Bool.and_true]
  · rw [Bool.not_eq_true] at h
    rw [h, Bool.and_false]

theorem AgreeFrom.later (h : AgreeFrom t l l') (hle : t ≤ now) : AgreeFrom now l l' := by
  refine ⟨h.announced, h.held, fun id => ?_⟩
  rw [← filter_live_live _ hle, h.reserved, filter_live_live _ hle]

/-- The queue is the same at every time from `t` on. -/
theorem AgreeFrom.queuedSecs (h : AgreeFrom t l l') (hle : t ≤ now) (unknownSecs : ℚ) :
    l'.queuedSecs now unknownSecs = l.queuedSecs now unknownSecs := by
  unfold WorkLedger.queuedSecs
  rw [h.held]
  congr 1
  refine Table.sumOf_eq_of_lookup _ fun id => ?_
  rw [Table.lookup_retain, Table.lookup_retain, (h.later hle).reserved]

/-- The ledger without the reservations that have lapsed at `now`. -/
def purged (l : WorkLedger) (now : ℚ) : WorkLedger :=
  { l with reserved := Table.retain l.reserved (live now) }

theorem decide_eq (l : WorkLedger) (taskId : String) (work : Work) (deadlineSecs : UInt32)
    (policy : BudgetPolicy) (now : ℚ) : l.decide taskId work deadlineSecs policy now =
      decideKeeping (purged l now) taskId work deadlineSecs policy now := rfl

theorem agreeFrom_purged (l : WorkLedger) (now : ℚ) : AgreeFrom now l (purged l now) := by
  refine ⟨rfl, rfl, fun id => ?_⟩
  rw [purged, Table.lookup_retain, filter_live_live _ le_rfl]

theorem AgreeFrom.purged (h : AgreeFrom t l l') (hle : t ≤ now) :
    AgreeFrom t (purged l now) (purged l' now) := by
  refine ⟨h.announced, h.held, fun id => ?_⟩
  show ((Table.retain l'.reserved (live now)).lookup id).filter (live t id) =
    ((Table.retain l.reserved (live now)).lookup id).filter (live t id)
  rw [Table.lookup_retain, Table.lookup_retain, (h.later hle).reserved]

/-! ### Calls on ledgers that agree -/

section Decide

variable (taskId : String) (work : Work) (deadlineSecs : UInt32) (policy : BudgetPolicy)

theorem AgreeFrom.decideKeeping (h : AgreeFrom t l l') (hle : t ≤ now) :
    (decideKeeping l taskId work deadlineSecs policy now).2 =
        (decideKeeping l' taskId work deadlineSecs policy now).2 ∧
      AgreeFrom t (decideKeeping l taskId work deadlineSecs policy now).1
        (decideKeeping l' taskId work deadlineSecs policy now).1 := by
  unfold LedgerRefusals.decideKeeping
  simp only [h.queuedSecs hle]
  split_ifs with hlimit
  · exact ⟨rfl, h⟩
  · refine ⟨rfl, ?_, h.held, fun id => ?_⟩
    · show AList.insert _ _ _ = AList.insert _ _ _
      rw [h.announced]
    · show ((l'.reserved.insert _ _).lookup id).filter _ =
        ((l.reserved.insert _ _).lookup id).filter _
      rw [Table.lookup_insert_if, Table.lookup_insert_if]
      split_ifs
      · rfl
      · exact h.reserved id

theorem AgreeFrom.decide (h : AgreeFrom t l l') (hle : t ≤ now) :
    (l.decide taskId work deadlineSecs policy now).2 =
        (l'.decide taskId work deadlineSecs policy now).2 ∧
      AgreeFrom t (l.decide taskId work deadlineSecs policy now).1
        (l'.decide taskId work deadlineSecs policy now).1 := by
  rw [decide_eq, decide_eq]
  exact (h.purged hle).decideKeeping taskId work deadlineSecs policy hle

/-- Dropping the lapsed reservations first leaves the answer as it is, and ledgers that agree. -/
theorem decide_agrees (l : WorkLedger) (now : ℚ) :
    (LedgerRefusals.decideKeeping l taskId work deadlineSecs policy now).2 =
        (l.decide taskId work deadlineSecs policy now).2 ∧
      AgreeFrom now (LedgerRefusals.decideKeeping l taskId work deadlineSecs policy now).1
        (l.decide taskId work deadlineSecs policy now).1 := by
  rw [decide_eq]
  exact (agreeFrom_purged l now).decideKeeping taskId work deadlineSecs policy le_rfl

end Decide

theorem AgreeFrom.hold (h : AgreeFrom t l l') (subTaskId : String) (parentTaskId : Option String)
    (budget : Option Budget) :
    AgreeFrom t (l.hold subTaskId parentTaskId budget) (l'.hold subTaskId parentTaskId budget) := by
  refine ⟨h.announced, ?_, fun id => ?_⟩
  · show AList.insert _ _ _ = AList.insert _ _ _
    rw [h.held]
  · cases parentTaskId with
    | none => exact h.reserved id
    | some parent =>
      show ((l'.reserved.erase parent).lookup id).filter _ =
        ((l.reserved.erase parent).lookup id).filter _
      rw [Table.lookup_erase_if, Table.lookup_erase_if]
      split_ifs
      · rfl
      · exact h.reserved id

/-- **Every call answers the same on ledgers that agree, and leaves them agreeing.** -/
theorem AgreeFrom.answer (h : AgreeFrom t l l') {c : Call} (hc : c.NotBefore t) :
    (perform l c).2 = (perform l' c).2 ∧ AgreeFrom t (perform l c).1 (perform l' c).1 := by
  cases c with
  | decide taskId work deadlineSecs policy now =>
    obtain ⟨hanswer, hagree⟩ := h.decide taskId work deadlineSecs policy hc
    exact ⟨congrArg Answer.decided hanswer, hagree⟩
  | budget parentTaskId =>
    refine ⟨?_, h⟩
    simp only [LedgerRefusals.perform, WorkLedger.budget, h.announced]
  | hold subTaskId parentTaskId budget => exact ⟨rfl, h.hold subTaskId parentTaskId budget⟩
  | start subTaskId now =>
    refine ⟨rfl, h.announced, ?_, h.reserved⟩
    simp only [LedgerRefusals.perform, WorkLedger.start, h.held]
  | release subTaskId =>
    refine ⟨rfl, h.announced, ?_, h.reserved⟩
    simp only [LedgerRefusals.perform, WorkLedger.release, h.held]
  | queuedSecs now unknownSecs =>
    exact ⟨congrArg Answer.queuedSecs (h.queuedSecs hc unknownSecs).symm, h⟩

theorem AgreeFrom.sameAnswers (h : AgreeFrom t l l') {calls : List Call}
    (hcalls : ∀ c ∈ calls, c.NotBefore t) :
    answers perform l calls = answers perform l' calls := by
  have hstep : ∀ l l' c, AgreeFrom t l l' → c.NotBefore t →
      (perform l c).2 = (perform l' c).2 ∧ AgreeFrom t (perform l c).1 (perform l' c).1 :=
    fun _ _ _ h hc => h.answer hc
  exact answers_eq_of_sim hstep h hcalls

/-- **Main result.** Whatever is called after a refused `decide`, at its time or later, answers as
if the refused call had not been made; and whatever is called after any `decide` answers as if that
call had dropped no reservation, as does the call itself. -/
theorem refusal_leaves_no_trace (l : WorkLedger) (taskId : String) (work : Work)
    (deadlineSecs : UInt32) (policy : BudgetPolicy) (t : ℚ) {calls : List Call}
    (hcalls : ∀ c ∈ calls, c.NotBefore t) :
    (∀ total, (l.decide taskId work deadlineSecs policy t).2 = .error total →
      answers perform (l.decide taskId work deadlineSecs policy t).1 calls =
        answers perform l calls) ∧
    (l.decide taskId work deadlineSecs policy t).2 =
      (decideKeeping l taskId work deadlineSecs policy t).2 ∧
    answers perform (l.decide taskId work deadlineSecs policy t).1 calls =
      answers perform (decideKeeping l taskId work deadlineSecs policy t).1 calls := by
  refine ⟨fun total herror => ?_, ?_⟩
  · have hpurged : (l.decide taskId work deadlineSecs policy t).1 = purged l t :=
      decide_error (Prod.ext rfl herror)
    rw [hpurged]
    exact ((agreeFrom_purged l t).sameAnswers hcalls).symm
  · obtain ⟨hanswer, hagree⟩ := decide_agrees taskId work deadlineSecs policy l t
    exact ⟨hanswer.symm, (hagree.sameAnswers hcalls).symm⟩

/-- A ledger with one bid, which lapses at 3. -/
def oneLapsed : WorkLedger := { empty with reserved := (∅ : Table _ _).insert "parent-1" (5, 3) }

def smallPolicy : BudgetPolicy := ⟨⟨1 / 10 ^ 9, 1 / 10 ^ 9⟩, 5, 1 / 2, 4, 30⟩

/-- A refused call drops the bid; what is asked later is answered as without the call. -/
theorem refusal_leaves_no_trace_lapsed :
    (oneLapsed.decide "parent-2" ⟨0, 0⟩ 60 smallPolicy 4).2 = .error 5 ∧
      (oneLapsed.decide "parent-2" ⟨0, 0⟩ 60 smallPolicy 4).1.reserved.lookup "parent-1" = none ∧
      oneLapsed.reserved.lookup "parent-1" = some (5, 3) ∧
      answers perform (oneLapsed.decide "parent-2" ⟨0, 0⟩ 60 smallPolicy 4).1
          [.hold "sub-1" (some "parent-1") none, .queuedSecs 6 30] =
        answers perform oneLapsed [.hold "sub-1" (some "parent-1") none, .queuedSecs 6 30] := by
  have hrefused : (oneLapsed.decide "parent-2" ⟨0, 0⟩ 60 smallPolicy 4).2 = .error 5 := by
    decide +kernel
  refine ⟨hrefused, by decide +kernel, by decide +kernel, ?_⟩
  refine (refusal_leaves_no_trace oneLapsed "parent-2" ⟨0, 0⟩ 60 smallPolicy 4 ?_).1 5 hrefused
  simp only [List.forall_mem_cons, Call.NotBefore, true_and]
  exact ⟨by norm_num, by simp⟩

end WqcNode.Domain.LedgerRefusals
