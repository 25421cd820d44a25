import WqcNode.Infra.Storage
import WqcNode.Domain.Pcs

/-! # The table `pending_pcs` (`infra/storage.rs`)

One row under each `(orchestrator_pubkey, sub_task_id)`, holding a job as JSON; `id` is the
`AUTOINCREMENT` column. -/

namespace WqcNode.Infra

open WqcNode.Lib WqcNode.Domain.Pcs

structure PcsRow where
  id : ℕ
  jobJson : Bytes
  attempts : ℕ
  createdAt : ℤ
deriving DecidableEq, Repr

structure PendingPcs where
  id : ℕ
  key : Key
  jobJson : Bytes
  attempts : ℕ
  createdAt : ℤ
deriving DecidableEq, Repr

/-- `serde_json` on jobs; an error carries its text. -/
structure JobSerde where
  toVec : PendingPcsJob → Except String Bytes
  fromSlice : Bytes → Except String PendingPcsJob

/-- The JSON of a job is read back as the job it was. -/
def JobSerde.RoundTrips (serde : JobSerde) : Prop :=
  ∀ job bytes, serde.toVec job = .ok bytes → serde.fromSlice bytes = .ok job

structure PcsStorage where
  rows : Table Key PcsRow
  nextId : ℕ

namespace PcsStorage

/-- The table as `Storage::new` creates it. -/
def new : PcsStorage := ⟨∅, 1⟩

/-- On a conflict the row keeps its id and `created_at`, and takes the new job. -/
def upsertPendingPcs (serde : JobSerde) (st : PcsStorage) (key : Key) (job : PendingPcsJob)
    (now : ℤ) : Except String PcsStorage := do
  let jobJson ← serde.toVec job
  match st.rows.lookup key with
  | some row => .ok { st with rows := st.rows.insert key ⟨row.id, jobJson, 0, row.createdAt⟩ }
  | none => .ok { st with
      rows := st.rows.insert key ⟨st.nextId, jobJson, 0, now⟩
      nextId := st.nextId + 1 }

/-- The upsert has put the row under `key`: it holds the job and keeps its id, or has a new one. -/
structure Upserted (serde : JobSerde) (st : PcsStorage) (key : Key) (job : PendingPcsJob)
    (st' : PcsStorage) (row : PcsRow) : Prop where
  json : serde.toVec job = .ok row.jobJson
  attempts : row.attempts = 0
  rows : st'.rows = st.rows.insert key row
  id : (∃ old, st.rows.lookup key = some old ∧ row.id = old.id ∧ st'.nextId = st.nextId) ∨
    st.rows.lookup key = none ∧ row.id = st.nextId ∧ st'.nextId = st.nextId + 1

theorem upserted {serde : JobSerde} {st st' : PcsStorage} {key : Key} {job : PendingPcsJob} {now : ℤ}
    (h : st.upsertPendingPcs serde key job now = .ok st') : ∃ row, Upserted serde st key job st' row := by
  cases hvec : serde.toVec job with
  | error e => simp [upsertPendingPcs, hvec, bind, Except.bind] at h
  | ok bytes =>
    simp only [upsertPendingPcs, hvec, bind, Except.bind] at h
    cases hrow : st.rows.lookup key with
    | some old =>
      rw [hrow] at h
      cases h
      exact ⟨_, hvec, rfl, rfl, .inl ⟨old, hrow, rfl, rfl⟩⟩
    | none =>
      rw [hrow] at h
      cases h
      exact ⟨_, hvec, rfl, rfl, .inr ⟨hrow, rfl, rfl⟩⟩

/-- An upsert goes through if the job can be written. -/
theorem exists_upsert {serde : JobSerde} {job : PendingPcsJob} {bytes : Bytes}
    (h : serde.toVec job = .ok bytes) (st : PcsStorage) (key : Key) (now : ℤ) :
    ∃ st', st.upsertPendingPcs serde key job now = .ok st' := by
  simp only [upsertPendingPcs, h, bind, Except.bind]
  split <;> exact ⟨_, rfl⟩

def deletePendingPcs (st : PcsStorage) (key : Key) : PcsStorage :=
  { st with rows := st.rows.erase key }

def getPendingPcs (st : PcsStorage) (key : Key) : Option PendingPcs :=
  (st.rows.lookup key).map fun row => ⟨row.id, key, row.jobJson, row.attempts, row.createdAt⟩

/-- All rows in the order of `created_at`. -/
def listPendingPcs (st : PcsStorage) : List PendingPcs :=
  (st.rows.entries.insertionSort fun a b =>
      a.2.createdAt < b.2.createdAt ∨ a.2.createdAt = b.2.createdAt ∧ a.2.id ≤ b.2.id).map
    fun e => ⟨e.2.id, e.1, e.2.jobJson, e.2.attempts, e.2.createdAt⟩

def deletePendingPcsById (st : PcsStorage) (id : ℕ) : PcsStorage :=
  { st with rows := Table.retain st.rows fun _ row => row.id != id }

def incrementPendingPcsAttempts (st : PcsStorage) (id : ℕ) : PcsStorage :=
  { st with rows := Table.updateAll st.rows fun _ row =>
      if row.id = id then { row with attempts := row.attempts + 1 } else row }

end PcsStorage

end WqcNode.Infra
