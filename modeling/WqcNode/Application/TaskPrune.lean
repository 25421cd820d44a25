import WqcNode.Infra.Storage
import WqcNode.Lib.Decimal
import WqcNode.Lib.Saturate

/-! # Pruning of terminal tasks (`application/task_prune.rs`)

The prune loop takes a retention period in seconds from the environment and deletes, every so often,
the terminal rows of `tasks` created before now less that period. The period is a `u64`, and the
cutoff is computed in `i64`: from `2 ^ 63` seconds on the cast turns it into a negative number, and
the cutoff lies after now.

* `toInt_pruneCutoff`: the cutoff, over the integers.
* `retention_respected_iff`: a pass respects the retention period exactly if the period is under `2
  ^ 63`, or no row it could delete was created between the right cutoff and the one it computes. -/

namespace WqcNode.Application.TaskPrune

open WqcNode.Lib WqcNode.Lib.Decimal WqcNode.Lib.Saturate WqcNode.Infra

/-! ### The source's functions -/

def defaultRetentionSecs : UInt64 := 86400

/-- `str::parse::<u64>`: digits, with a plus sign or without, of a number in range. -/
def parseU64 (text : String) : Option UInt64 :=
  let digits := match text.toList with
    | '+' :: rest => rest
    | cs => cs
  if digits ≠ [] ∧ digits.all Char.isDigit ∧ digitsVal digits < 2 ^ 64 then
    some (UInt64.ofNat (digitsVal digits))
  else none

/-- The retention period, given `WQC_TASK_RETENTION_SECS`; none if pruning is off. -/
def retention (var : Option String) : Option UInt64 :=
  let retentionSecs := (var.bind parseU64).getD defaultRetentionSecs
  if retentionSecs = 0 then none else some retentionSecs

/-- The time now, given the seconds since the epoch; none before the epoch. -/
def unixNow (sinceEpoch : Option UInt64) : Int64 := (sinceEpoch.map (·.toInt64)).getD 0

def pruneCutoff (sinceEpoch : Option UInt64) (retentionSecs : UInt64) : Int64 :=
  i64SaturatingSub (unixNow sinceEpoch) retentionSecs.toInt64

/-- What `run_prune` does to the database. -/
def runPrune (st : Storage) (sinceEpoch : Option UInt64) (retentionSecs : UInt64) : Storage :=
  st.pruneTerminalTasks (pruneCutoff sinceEpoch retentionSecs).toInt

example : retention none = some 86400 ∧ retention (some "1d") = some 86400 ∧
    retention (some "0") = none ∧ retention (some "+60") = some 60 := by decide +kernel

/-! ### The cutoff -/

theorem toInt_pruneCutoff (sinceEpoch : Option UInt64) (retentionSecs : UInt64) :
    (pruneCutoff sinceEpoch retentionSecs).toInt =
      if retentionSecs.toNat < 2 ^ 63 then
        max (-2 ^ 63) ((unixNow sinceEpoch).toInt - retentionSecs.toNat)
      else min (2 ^ 63 - 1) ((unixNow sinceEpoch).toInt + 2 ^ 64 - retentionSecs.toNat) := by
  have hlow := (unixNow sinceEpoch).le_toInt
  have hhigh := (unixNow sinceEpoch).toInt_lt
  have hret := retentionSecs.toNat_lt
  rw [pruneCutoff, toInt_i64SaturatingSub, toInt_toInt64]
  split_ifs <;> omega

/-! ### What a pass deletes -/

variable {st : Storage} {sinceEpoch : Option UInt64} {retentionSecs : UInt64} {key : Key}
  {row : TaskRow}

/-- The row is terminal and no result under its key waits for delivery. -/
def Prunable (st : Storage) (key : Key) (row : TaskRow) : Prop :=
  (row.status = .completed ∨ row.status = .failed) ∧ st.pendingResults.lookup key = none

theorem lookup_runPrune : (runPrune st sinceEpoch retentionSecs).tasks.lookup key =
    (st.tasks.lookup key).filter fun row =>
      !(decide (row.status = .completed ∨ row.status = .failed) &&
        decide (row.createdAt < (pruneCutoff sinceEpoch retentionSecs).toInt) &&
        (st.pendingResults.lookup key).isNone) :=
  Table.lookup_retain ..

theorem runPrune_eq_none_iff (hrow : st.tasks.lookup key = some row) :
    (runPrune st sinceEpoch retentionSecs).tasks.lookup key = none ↔
      Prunable st key row ∧ row.createdAt < (pruneCutoff sinceEpoch retentionSecs).toInt := by
  rw [lookup_runPrune, hrow, Option.filter_eq_none_iff]
  simp only [Option.some.injEq, forall_eq', Bool.not_eq_true', Bool.not_eq_false,
    Bool.and_eq_true, decide_eq_true_eq, Option.isNone_iff_eq_none]
  rw [Prunable, and_right_comm]

/-- A row is deleted or left as it was. -/
theorem runPrune_eq_none_or (st : Storage) (sinceEpoch : Option UInt64) (retentionSecs : UInt64)
    (key : Key) : (runPrune st sinceEpoch retentionSecs).tasks.lookup key = none ∨
      (runPrune st sinceEpoch retentionSecs).tasks.lookup key = st.tasks.lookup key := by
  rw [lookup_runPrune]
  cases st.tasks.lookup key with
  | none => exact .inl rfl
  | some row =>
    rw [Option.filter_some]
    split_ifs
    · exact .inr rfl
    · exact .inl rfl

/-! ### The retention period -/

/-- The times of the rows are values of an `INTEGER` column. -/
def HasTimes (st : Storage) : Prop :=
  ∀ key row, st.tasks.lookup key = some row → -2 ^ 63 ≤ row.createdAt ∧ row.createdAt < 2 ^ 63

/-- A pass respects the retention period: it deletes terminal rows only, with no result to deliver
and older than the period; it changes nothing else; and it deletes no row that a shorter period
keeps. -/
structure Respects (st : Storage) (sinceEpoch : Option UInt64) (retentionSecs : UInt64) : Prop where
  deletes : ∀ key row, st.tasks.lookup key = some row →
    (runPrune st sinceEpoch retentionSecs).tasks.lookup key = none →
    (row.status = .completed ∨ row.status = .failed) ∧ st.pendingResults.lookup key = none ∧
      (retentionSecs.toNat : ℤ) < (unixNow sinceEpoch).toInt - row.createdAt
  keeps : ∀ key, (runPrune st sinceEpoch retentionSecs).tasks.lookup key = none ∨
    (runPrune st sinceEpoch retentionSecs).tasks.lookup key = st.tasks.lookup key
  pendingResults : (runPrune st sinceEpoch retentionSecs).pendingResults = st.pendingResults
  nextIds : (runPrune st sinceEpoch retentionSecs).nextTaskId = st.nextTaskId ∧
    (runPrune st sinceEpoch retentionSecs).nextResultId = st.nextResultId
  mono : ∀ shorter < retentionSecs, ∀ key row,
    (runPrune st sinceEpoch shorter).tasks.lookup key = some row →
    (runPrune st sinceEpoch retentionSecs).tasks.lookup key = some row

/-- No row that could be deleted was created from the right cutoff on and before the one that is
computed for a period of `2 ^ 63` seconds or more. -/
def NoneBetween (st : Storage) (sinceEpoch : Option UInt64) (retentionSecs : UInt64) : Prop :=
  ∀ key row, st.tasks.lookup key = some row → Prunable st key row →
    row.createdAt < (unixNow sinceEpoch).toInt - retentionSecs.toNat ∨
      min (2 ^ 63 - 1) ((unixNow sinceEpoch).toInt + 2 ^ 64 - retentionSecs.toNat) ≤ row.createdAt

/-- What is deleted was created before the right cutoff. -/
theorem older_of_deleted (htimes : HasTimes st)
    (hok : retentionSecs.toNat < 2 ^ 63 ∨ NoneBetween st sinceEpoch retentionSecs)
    (hrow : st.tasks.lookup key = some row)
    (hgone : (runPrune st sinceEpoch retentionSecs).tasks.lookup key = none) :
    row.createdAt < (unixNow sinceEpoch).toInt - retentionSecs.toNat := by
  obtain ⟨hprune, hold⟩ := (runPrune_eq_none_iff hrow).mp hgone
  have hlow := (htimes key row hrow).1
  rw [toInt_pruneCutoff] at hold
  by_cases hsmall : retentionSecs.toNat < 2 ^ 63
  · rw [if_pos hsmall] at hold
    omega
  · rw [if_neg hsmall] at hold
    rcases (hok.resolve_left hsmall) key row hrow hprune with hbefore | hafter
    · exact hbefore
    · omega

/-- A row that was created before the cutoff of a period is deleted under every shorter one. -/
theorem deleted_of_shorter {shorter : UInt64} (hlt : shorter < retentionSecs)
    (hrow : st.tasks.lookup key = some row)
    (hgone : (runPrune st sinceEpoch retentionSecs).tasks.lookup key = none)
    (hold : row.createdAt < (unixNow sinceEpoch).toInt - retentionSecs.toNat) :
    (runPrune st sinceEpoch shorter).tasks.lookup key = none := by
  obtain ⟨hprune, hcut⟩ := (runPrune_eq_none_iff hrow).mp hgone
  have hlt : shorter.toNat < retentionSecs.toNat := UInt64.lt_iff_toNat_lt.mp hlt
  refine (runPrune_eq_none_iff hrow).mpr ⟨hprune, ?_⟩
  rw [toInt_pruneCutoff] at hcut ⊢
  have hhigh := (unixNow sinceEpoch).toInt_lt
  split_ifs at hcut ⊢ <;> omega

/-- **Main result.** A pass respects the retention period exactly if the period is under `2 ^ 63`
seconds, or no row that could be deleted was created from the right cutoff on and before the one
that the cast leads to. -/
theorem retention_respected_iff (htimes : HasTimes st) :
    Respects st sinceEpoch retentionSecs ↔
      retentionSecs.toNat < 2 ^ 63 ∨ NoneBetween st sinceEpoch retentionSecs := by
  constructor
  · intro h
    by_cases hsmall : retentionSecs.toNat < 2 ^ 63
    · exact .inl hsmall
    refine .inr fun key row hrow hprune => ?_
    by_cases hcut : row.createdAt < (pruneCutoff sinceEpoch retentionSecs).toInt
    · obtain ⟨-, -, hold⟩ :=
        h.deletes key row hrow ((runPrune_eq_none_iff hrow).mpr ⟨hprune, hcut⟩)
      omega
    · rw [toInt_pruneCutoff, if_neg hsmall] at hcut
      omega
  · intro hok
    refine ⟨fun key row hrow hgone => ?_, fun key => runPrune_eq_none_or _ _ _ key, rfl, ⟨rfl, rfl⟩,
      fun shorter hlt key row hkept => ?_⟩
    · obtain ⟨⟨hstatus, hnone⟩, -⟩ := (runPrune_eq_none_iff hrow).mp hgone
      have hold := older_of_deleted htimes hok hrow hgone
      exact ⟨hstatus, hnone, by omega⟩
    · have hrow : st.tasks.lookup key = some row := by
        rcases runPrune_eq_none_or st sinceEpoch shorter key with hnone | hsame
        · rw [hnone] at hkept
          cases hkept
        · exact hsame.symm.trans hkept
      rcases runPrune_eq_none_or st sinceEpoch retentionSecs key with hnone | hsame
      · have hold := older_of_deleted htimes hok hrow hnone
        rw [deleted_of_shorter hlt hrow hnone hold] at hkept
        cases hkept
      · exact hsame.trans hrow

/-- One completed task, whose result was delivered. -/
def oneCompleted : Storage :=
  { Storage.new with tasks := (∅ : Table Key TaskRow).insert ("orch", "sub-1") ⟨1, "", .completed, 1000⟩ }

theorem lookup_oneCompleted {key : Key} {row : TaskRow}
    (h : oneCompleted.tasks.lookup key = some row) : row = ⟨1, "", .completed, 1000⟩ := by
  rw [oneCompleted, Table.lookup_insert_if] at h
  split_ifs at h
  · exact (Option.some.inj h).symm
  · cases h

theorem hasTimes_oneCompleted : HasTimes oneCompleted := by
  intro key row h
  rw [lookup_oneCompleted h]
  decide

theorem retention_respected_day : Respects oneCompleted (some 90000) 86400 ∧
    (runPrune oneCompleted (some 90000) 86400).tasks.lookup ("orch", "sub-1") = none :=
  ⟨(retention_respected_iff hasTimes_oneCompleted).mpr (.inl (by decide)), by decide +kernel⟩

/-- **The longest period keeps nothing**: it is read from the environment, cast to an `i64` it is
`-1`, and the task that is completed in this second is deleted. -/
theorem longest_retention_not_respected :
    ¬ ∀ (var : Option String) (st : Storage) (sinceEpoch : Option UInt64) (retentionSecs : UInt64),
      HasTimes st → retentionSecs ≠ 0 → retention var = some retentionSecs →
        Respects st sinceEpoch retentionSecs := by
  intro h
  have hgone : (runPrune oneCompleted (some 1000) 18446744073709551615).tasks.lookup
      ("orch", "sub-1") = none := by decide +kernel
  have hread : retention (some "18446744073709551615") = some 18446744073709551615 := by decide +kernel
  obtain ⟨-, -, hold⟩ := (h (some "18446744073709551615") oneCompleted (some 1000) 18446744073709551615
    hasTimes_oneCompleted (by decide) hread).deletes ("orch", "sub-1") ⟨1, "", .completed, 1000⟩
    (by decide +kernel) hgone
  revert hold
  decide +kernel

end WqcNode.Application.TaskPrune
