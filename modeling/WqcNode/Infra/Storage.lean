import WqcNode.Lib.Table
import WqcNode.Lib.Bytes
import WqcNode.Domain.Models
import Mathlib.Data.List.Sort

/-! # Storage (`infra/storage.rs`)

The SQLite tables `tasks` and `pending_results`. Both have `UNIQUE(orchestrator_pubkey, task_id)`,
so each is a table of rows under that key; `id` is the `AUTOINCREMENT` column. Each function is one
SQL statement that succeeds; a failing statement changes nothing. -/

namespace WqcNode.Infra

open WqcNode.Lib WqcNode.Domain.Models

/-- `(orchestrator_pubkey, task_id)`. -/
abbrev Key := String × String

/-- The `status` column of `tasks`. -/
inductive Status
  | pending
  | completed
  | failed
deriving DecidableEq, Repr

structure TaskRow where
  id : ℕ
  payload : String
  status : Status
  createdAt : ℤ
deriving DecidableEq, Repr

structure ResultRow where
  id : ℕ
  wireBody : Bytes
  attempts : ℕ
  createdAt : ℤ
deriving DecidableEq, Repr

structure PendingResult where
  id : ℕ
  key : Key
  wireBody : Bytes
  attempts : ℕ
deriving DecidableEq, Repr

structure Storage where
  tasks : Table Key TaskRow
  nextTaskId : ℕ
  pendingResults : Table Key ResultRow
  nextResultId : ℕ

/-- `serde_json` on tasks and requests; an error carries its text. -/
structure Serde where
  taskToString : ComputeTask → Except String String
  taskFromStr : String → Except String ComputeTask
  requestToVec : ComputeRequest → Except String Bytes
  requestFromSlice : Bytes → Except String ComputeRequest

/-- The stored task is read back as it was. -/
def Serde.ReadsBack (serde : Serde) (t : ComputeTask) : Prop :=
  ∃ text, serde.taskToString t = .ok text ∧ serde.taskFromStr text = .ok t

/-- The JSON of the request is read back as it was. -/
def Serde.ReadsBackRequest (serde : Serde) (r : ComputeRequest) : Prop :=
  ∃ bytes, serde.requestToVec r = .ok bytes ∧ serde.requestFromSlice bytes = .ok r

namespace Storage

/-- The database as `Storage::new` creates it. -/
def new : Storage := ⟨∅, 1, ∅, 1⟩

/-- SQLite's text for a second row under one key. -/
def uniqueError : String :=
  "UNIQUE constraint failed: tasks.orchestrator_pubkey, tasks.task_id"

variable (serde : Serde)

/-- Inserts the task as `pending`, under the next id. -/
def saveTask (st : Storage) (task : ComputeTask) (now : ℤ) : Except String Storage := do
  let payload ← serde.taskToString task
  match st.tasks.lookup task.key with
  | some _ => .error uniqueError
  | none => .ok { st with
      tasks := st.tasks.insert task.key ⟨st.nextTaskId, payload, .pending, now⟩
      nextTaskId := st.nextTaskId + 1 }

def loadTask (st : Storage) (key : Key) : Except String (Option ComputeTask) :=
  match st.tasks.lookup key with
  | some row => (serde.taskFromStr row.payload).map some
  | none => .ok none

def updateStatus (st : Storage) (key : Key) (status : Status) : Storage :=
  { st with tasks := Table.adjust st.tasks key fun row => { row with status := status } }

/-- The `pending` rows in the order of `created_at`; rows of one second come out by id, as the index
on `(status, created_at)` lists them. -/
def pendingRows (st : Storage) : List TaskRow :=
  ((st.tasks.entries.map Sigma.snd).filter (·.status = .pending)).insertionSort
    fun a b => a.createdAt < b.createdAt ∨ a.createdAt = b.createdAt ∧ a.id ≤ b.id

/-- The tasks of the `pending` rows, each with the id of its row. -/
def getPendingTasks (st : Storage) : Except String (List (ℕ × ComputeTask)) :=
  st.pendingRows.mapM fun row => (serde.taskFromStr row.payload).map (row.id, ·)

/-- Deletes terminal tasks created before `olderThanUnix` that have no row in `pending_results`. -/
def pruneTerminalTasks (st : Storage) (olderThanUnix : ℤ) : Storage :=
  { st with tasks := Table.retain st.tasks fun key row =>
      !(decide (row.status = .completed ∨ row.status = .failed) &&
        decide (row.createdAt < olderThanUnix) && (st.pendingResults.lookup key).isNone) }

/-- On a conflict the row keeps its id and takes the new body. -/
def upsertPendingResult (st : Storage) (key : Key) (wireBody : Bytes) (now : ℤ) : Storage :=
  match st.pendingResults.lookup key with
  | some row => { st with
      pendingResults := st.pendingResults.insert key ⟨row.id, wireBody, 0, now⟩ }
  | none => { st with
      pendingResults := st.pendingResults.insert key ⟨st.nextResultId, wireBody, 0, now⟩
      nextResultId := st.nextResultId + 1 }

def deletePendingResult (st : Storage) (key : Key) : Storage :=
  { st with pendingResults := st.pendingResults.erase key }

/-- All rows in the order of `created_at`. -/
def listPendingResults (st : Storage) : List PendingResult :=
  (st.pendingResults.entries.insertionSort fun a b =>
      a.2.createdAt < b.2.createdAt ∨ a.2.createdAt = b.2.createdAt ∧ a.2.id ≤ b.2.id).map
    fun e => ⟨e.2.id, e.1, e.2.wireBody, e.2.attempts⟩

def incrementPendingResultAttempts (st : Storage) (id : ℕ) : Storage :=
  { st with pendingResults := Table.updateAll st.pendingResults fun _ row =>
      if row.id = id then { row with attempts := row.attempts + 1 } else row }

def countPendingResults (st : Storage) : ℕ := st.pendingResults.entries.length

end Storage

end WqcNode.Infra
