import WqcNode.Lib.Machine
import WqcNode.Infra.Storage
import WqcNode.Domain.Validation

/-! # The node as a state machine

The tasks of the process (`main`, the accept calls, the worker and the result retry loop) step one
at a time, a step being one SQL statement, one access to a shared counter, ledger or channel, or one
await. What the rest of the world decides in a step is its `Choice`: whether the statement fails,
the clocks, core's answer, what became of a send. The process may stop between any two steps; then
only the database and what is already on the wire survive.

Sources: `main.rs`, `application/accept_task.rs`, `application/worker.rs`,
`application/result_outbox.rs`, `application/task_prune.rs`,
`transport/p2p/result_delivery.rs`. -/

namespace WqcNode.Application.NodeMachine

open WqcNode.Lib WqcNode.Lib.Json WqcNode.Lib.Machine WqcNode.Infra
open WqcNode.Domain.Models WqcNode.Domain.Validation WqcNode.Domain.WorkBudget

/-- Configuration and the code the machine is generic in. -/
structure Env where
  maxQubits : UInt64
  maxMpsQubits : UInt64
  computeTimeoutSecs : UInt64
  peerId : String
  supportedGates : List String
  serde : Serde
  serdeError : Value → String
  buildResultWireBody : ComputeTask → TaskResultPayload → String → Except String Bytes
  extractProofFromResultWire : Bytes → Except String (Option Proof)

/-- The capacity of the worker's channel. -/
def queueCapacity : ℕ := 100

/-- A task with the id of the `tasks` row it was stored as; the channel carries the task alone. -/
structure QueuedTask where
  row : ℕ
  task : ComputeTask

/-! ### Accepting a dispatch -/

inductive AcceptTaskError
  | validation (msg : String)
  | storage (msg : String)
  | queueFull
deriving DecidableEq, Repr

/-- Scalar slices use the MPS width, other modes the dense one. -/
def compactQubitLimit (outputMode : String) (maxQubits maxMpsQubits : UInt64) : UInt64 :=
  if (outputMode = "" ∨ outputMode = "statevector_scalar") ∧ maxMpsQubits > 0 then maxMpsQubits
  else maxQubits

/-- What `accept_compute_task` does before its first statement: the checks, the normalised request
and the task to store. -/
def prepare (env : Env) (request : ComputeRequest) (orchestratorPubkey : String)
    (budget : Option Budget) (nowMs : UInt64) : Except AcceptTaskError ComputeTask := do
  let limit := compactQubitLimit request.outputMode env.maxQubits env.maxMpsQubits
  if request.qubitCount > limit then
    .error (.validation "Requested qubit_count exceeds node limit")
  (validateCircuitLogic env.serdeError request.qubitCount env.supportedGates
    request.circuit).mapError .validation
  .ok
    { request := { request with
        circuit := normalizeGateParams request.circuit
        nodeId := some env.peerId }
      orchestratorPubkey := orchestratorPubkey
      budget := budget
      acceptedAtMs := nowMs }

/-- The request apart from its node. -/
def withoutNode (r : ComputeRequest) : ComputeRequest := { r with nodeId := none }

def dispatchPayloadMatches (serde : Serde) (existing incoming : ComputeTask) : Bool :=
  if existing.orchestratorPubkey ≠ incoming.orchestratorPubkey then false
  else match serde.requestToVec (withoutNode existing.request),
      serde.requestToVec (withoutNode incoming.request) with
    | .ok a, .ok b => a == b
    | _, _ => false

/-- The error's text contains `UNIQUE constraint failed`. -/
def isUniqueViolation (err : String) : Bool :=
  decide ("UNIQUE constraint failed".toList <:+: err.toList)

/-- Where an accept call stands. -/
inductive AcceptPc
  /-- before `load_task` -/
  | lookup
  /-- before `save_task` -/
  | save
  /-- `save_task` failed on the key: before the second `load_task` -/
  | conflict (err : String)
  /-- the row is saved: before `pending_tasks.fetch_add` -/
  | count
  /-- before the ledger's `hold` -/
  | hold
  /-- waiting to send to the worker -/
  | enqueue
  /-- the worker is gone: before `pending_tasks.fetch_sub` -/
  | uncount
  /-- before the ledger's `release` -/
  | release
  | done (result : Except AcceptTaskError Unit)

structure Accept where
  task : ComputeTask
  pc : AcceptPc
  /-- The id of the row this call inserted. -/
  row : Option ℕ

/-! ### Delivering a result -/

/-- Where the worker stands; from `start` on it has a task. -/
inductive WorkerPc
  | unspawned
  | recv
  | start (q : QueuedTask)
  | compute (q : QueuedTask)
  /-- before the `update_status` of `process_task` -/
  | status (q : QueuedTask) (payload : TaskResultPayload)
  | build (q : QueuedTask) (payload : TaskResultPayload)
  | upsert (q : QueuedTask) (payload : TaskResultPayload) (body : Bytes)
  /-- before the `update_status` of `deliver_result` -/
  | deliverStatus (q : QueuedTask) (payload : TaskResultPayload) (body : Bytes)
  | send (q : QueuedTask) (payload : TaskResultPayload) (body : Bytes)
  | delete (q : QueuedTask) (payload : TaskResultPayload) (body : Bytes)
  | retain (q : QueuedTask) (payload : TaskResultPayload)
  | uncount (q : QueuedTask)
  | release (q : QueuedTask)
  | panicked

/-- Where the retry loop stands: in an iteration, with the entries still to handle. -/
inductive RetryPc
  | unspawned
  | sleep
  | send (entries : List PendingResult)
  | delete (entry : PendingResult) (rest : List PendingResult)
  | load (entry : PendingResult) (rest : List PendingResult)
  | retain (task : ComputeTask) (proof : Proof) (rest : List PendingResult)
  | bump (entry : PendingResult) (rest : List PendingResult)

/-- Where `main` stands. -/
inductive MainPc
  /-- the process is not running -/
  | stopped
  /-- restoring: before the ledger's `hold` for the next pending task -/
  | restore (todo : List QueuedTask)
  /-- waiting to send the task to the worker -/
  | send (q : QueuedTask) (todo : List QueuedTask)
  | running

/-- The result stream to the orchestrator. -/
structure Wire where
  inFlight : List Bytes
  received : List Bytes
  lost : List Bytes

/-- What happened so far: the rows taken up by the worker, the bodies built for them, the bodies for
which `send_result_wire` returned `Ok`, and the bodies of the outbox rows deleted. -/
structure History where
  takenUp : List ℕ
  built : List (ℕ × Bytes)
  sentOk : List (Key × Bytes)
  deleted : List Bytes
  enqueued : List ℕ

structure Node where
  storage : Storage
  main : MainPc
  queue : List QueuedTask
  pendingTasks : ℕ
  work : WorkLedger
  accepts : List Accept
  worker : WorkerPc
  retry : RetryPc
  wire : Wire
  history : History

/-- A node that has never run. -/
def init : Node where
  storage := .new
  main := .stopped
  queue := []
  pendingTasks := 0
  work := .empty
  accepts := []
  worker := .unspawned
  retry := .unspawned
  wire := ⟨[], [], []⟩
  history := ⟨[], [], [], [], []⟩

/-! ### Steps -/

/-- What became of a send: `ok` when the bytes are written and the stream is closed locally; an
error may leave the bytes on the wire or not. -/
inductive SendOutcome
  | ok
  | err (arrives : Bool)
deriving DecidableEq, Repr

/-- What the world decides in one step. -/
structure Choice where
  /-- the error the step's statement fails with -/
  sql : Option String := none
  /-- unix seconds -/
  now : ℤ := 0
  /-- unix milliseconds -/
  nowMs : UInt64 := 0
  instant : ℚ := 0
  core : Except String TaskResultData := .error ""
  send : SendOutcome := .ok

inductive Act
  /-- the process starts -/
  | start
  /-- the next step of `main` -/
  | main
  /-- a dispatch arrives -/
  | dispatch (request : ComputeRequest) (orchestratorPubkey : String) (budget : Option Budget)
      (nowMs : UInt64)
  /-- the next step of the `i`-th accept call -/
  | accept (i : ℕ) (c : Choice)
  | worker (c : Choice)
  /-- the worker's task panics and drops the receiving end -/
  | panic
  | retry (c : Choice)
  | prune (olderThanUnix : ℤ)
  /-- the orchestrator receives the `i`-th body in flight -/
  | receive (i : ℕ)
  /-- the connection drops with the `i`-th body in flight -/
  | lose (i : ℕ)
  | crash

/-- `AtomicUsize::fetch_sub(1)`, which wraps. -/
def fetchSub (n : ℕ) : ℕ := if n = 0 then 2 ^ 64 - 1 else n - 1

/-- Starts the process: `main` reads the pending tasks and opens the channel. If the tasks cannot be
read it exits. -/
def startStep (env : Env) (s : Node) : Option Node :=
  match s.main with
  | .stopped =>
    match s.storage.getPendingTasks env.serde with
    | .error _ => some s
    | .ok tasks => some { s with
        main := .restore (tasks.map fun t => ⟨t.1, t.2⟩)
        pendingTasks := tasks.length }
  | _ => none

/-- Holds and sends each pending task, then spawns the worker and the loops. -/
def mainStep (s : Node) : Option Node :=
  match s.main with
  | .restore [] => some { s with main := .running, worker := .recv, retry := .sleep }
  | .restore (q :: todo) => some { s with
      main := .send q todo
      work := s.work.hold q.task.request.taskId q.task.request.parentTaskId q.task.budget }
  | .send q todo =>
    if s.queue.length < queueCapacity then
      some { s with
        main := .restore todo
        queue := s.queue ++ [q]
        history := { s.history with enqueued := s.history.enqueued ++ [q.row] } }
    else none
  | _ => none

def setAccept (s : Node) (i : ℕ) (a : Accept) : Node := { s with accepts := s.accepts.set i a }

/-- The answer to a dispatch whose task is already stored. -/
def duplicateResult (serde : Serde) (existing incoming : ComputeTask) :
    Except AcceptTaskError Unit :=
  if dispatchPayloadMatches serde existing incoming then .ok ()
  else
    let taskId := incoming.request.taskId
    .error (.storage s!"task_id {taskId} already exists with a different payload")

def acceptStep (env : Env) (s : Node) (i : ℕ) (c : Choice) : Option Node := do
  let a ← s.accepts[i]?
  match a.pc with
  | .lookup =>
    match c.sql.elim (s.storage.loadTask env.serde a.task.key) .error with
    | .error e => some (setAccept s i
        { a with pc := .done (.error (.storage s!"task lookup failed: {e}")) })
    | .ok (some existing) =>
      some (setAccept s i { a with pc := .done (duplicateResult env.serde existing a.task) })
    | .ok none => some (setAccept s i { a with pc := .save })
  | .save =>
    match c.sql.elim (s.storage.saveTask env.serde a.task c.now) .error with
    | .error e =>
      if isUniqueViolation e then some (setAccept s i { a with pc := .conflict e })
      else some (setAccept s i { a with pc := .done (.error (.storage s!"storage error: {e}")) })
    | .ok storage =>
      some { setAccept s i { a with pc := .count, row := some s.storage.nextTaskId } with
        storage := storage }
  | .conflict e =>
    match c.sql.elim (s.storage.loadTask env.serde a.task.key) .error with
    | .ok (some existing) =>
      if dispatchPayloadMatches env.serde existing a.task then
        some (setAccept s i { a with pc := .done (.ok ()) })
      else some (setAccept s i { a with pc := .done (.error (.storage s!"storage error: {e}")) })
    | _ => some (setAccept s i { a with pc := .done (.error (.storage s!"storage error: {e}")) })
  | .count => some { setAccept s i { a with pc := .hold } with pendingTasks := s.pendingTasks + 1 }
  | .hold => some { setAccept s i { a with pc := .enqueue } with
      work := s.work.hold a.task.request.taskId a.task.request.parentTaskId a.task.budget }
  | .enqueue =>
    match s.worker with
    | .panicked => some (setAccept s i { a with pc := .uncount })
    | _ =>
      if s.queue.length < queueCapacity then
        some { setAccept s i { a with pc := .done (.ok ()) } with
          queue := s.queue ++ [⟨a.row.getD 0, a.task⟩]
          history := { s.history with enqueued := s.history.enqueued ++ [a.row.getD 0] } }
      else none
  | .uncount => some { setAccept s i { a with pc := .release } with
      pendingTasks := fetchSub s.pendingTasks }
  | .release => some { setAccept s i { a with pc := .done (.error .queueFull) } with
      work := s.work.release a.task.request.taskId }
  | .done _ => none

/-- The payload of an outcome. -/
def resultPayload (taskId : String) : Except String TaskResultData → TaskResultPayload
  | .ok data => ⟨taskId, "success", data.resultType, some data.complexResult, data.sampleResult,
      data.expectationResult, some data.proof, none, some data.executionTimeMs, data.workReport⟩
  | .error e => ⟨taskId, "error", "", none, none, none, none, some e, none, none⟩

/-- The milliseconds a task has waited; 0 on a task stored without its acceptance. -/
def waitedMs (task : ComputeTask) (nowMs : UInt64) : ℕ :=
  if task.acceptedAtMs = 0 then 0 else nowMs.toNat - task.acceptedAtMs.toNat

/-- The payload `process_task` makes: core's answer, unless the deadline has passed. -/
def taskPayload (env : Env) (task : ComputeTask) (c : Choice) : TaskResultPayload :=
  let waited := waitedMs task c.nowMs
  resultPayload task.request.taskId <|
    match computeTimeout env.computeTimeoutSecs task.budget (waited / 1000 : ℚ) with
    | some _ => c.core
    | none =>
      let secs := waited / 1000
      .error s!"deadline passed after {secs}s in the node queue"

def statusOf (payload : TaskResultPayload) : Status :=
  if payload.status = "error" then .failed else .completed

/-- `update_status`, whose failure is only logged. -/
def tryUpdateStatus (storage : Storage) (key : Key) (status : Status) (sql : Option String) :
    Storage :=
  sql.elim (storage.updateStatus key status) fun _ => storage

/-- Bytes put on the wire. -/
def Wire.write (w : Wire) (body : Bytes) : Wire := { w with inFlight := w.inFlight ++ [body] }

/-- The delete of an outbox row, with the body it held. -/
def deleteResult (s : Node) (key : Key) : Node :=
  { s with
    storage := s.storage.deletePendingResult key
    history := { s.history with
      deleted := ((s.storage.pendingResults.lookup key).map (·.wireBody)).toList ++
        s.history.deleted } }

def workerStep (env : Env) (s : Node) (c : Choice) : Option Node :=
  match s.worker with
  | .unspawned | .panicked => none
  | .recv =>
    match s.queue with
    | [] => none
    | q :: queue => some { s with
        queue := queue
        worker := .start q
        history := { s.history with takenUp := q.row :: s.history.takenUp } }
  | .start q => some { s with
      worker := .compute q
      work := s.work.start q.task.request.taskId c.instant }
  | .compute q => some { s with worker := .status q (taskPayload env q.task c) }
  | .status q payload => some { s with
      worker := .build q payload
      storage := tryUpdateStatus s.storage q.task.key (statusOf payload) c.sql }
  | .build q payload =>
    match env.buildResultWireBody q.task payload env.peerId with
    | .error _ => some { s with worker := .uncount q }
    | .ok body => some { s with
        worker := .upsert q payload body
        history := { s.history with built := (q.row, body) :: s.history.built } }
  | .upsert q payload body =>
    match c.sql with
    | some _ => some { s with worker := .uncount q }
    | none => some { s with
        worker := .deliverStatus q payload body
        storage := s.storage.upsertPendingResult q.task.key body c.now }
  | .deliverStatus q payload body => some { s with
      worker := .send q payload body
      storage := tryUpdateStatus s.storage q.task.key (statusOf payload) c.sql }
  | .send q payload body =>
    match c.send with
    | .ok => some { s with
        worker := .delete q payload body
        wire := s.wire.write body
        history := { s.history with sentOk := (q.task.key, body) :: s.history.sentOk } }
    | .err arrives => some { s with
        worker := .uncount q
        wire := if arrives then s.wire.write body else s.wire }
  | .delete q payload _ =>
    match c.sql with
    | some _ => some { s with worker := .uncount q }
    | none => some { deleteResult s q.task.key with worker := .retain q payload }
  | .retain q _ => some { s with worker := .uncount q }
  | .uncount q => some { s with worker := .release q, pendingTasks := fetchSub s.pendingTasks }
  | .release q => some { s with
      worker := .recv
      work := s.work.release q.task.request.taskId }

/-- The panicking worker drops the channel's receiving end and what is in it. -/
def panicStep (s : Node) : Option Node :=
  match s.worker with
  | .unspawned | .panicked => none
  | _ => some { s with worker := .panicked, queue := [] }

def retryStep (env : Env) (s : Node) (c : Choice) : Option Node :=
  match s.retry with
  | .unspawned => none
  | .sleep => some { s with
      retry := c.sql.elim (.send s.storage.listPendingResults) fun _ => .sleep }
  | .send [] => some { s with retry := .sleep }
  | .send (entry :: rest) =>
    match c.send with
    | .ok => some { s with
        retry := .delete entry rest
        wire := s.wire.write entry.wireBody
        history := { s.history with
          sentOk := (entry.key, entry.wireBody) :: s.history.sentOk } }
    | .err arrives => some { s with
        retry := .bump entry rest
        wire := if arrives then s.wire.write entry.wireBody else s.wire }
  | .delete entry rest =>
    some { c.sql.elim (deleteResult s entry.key) (fun _ => s) with retry := .load entry rest }
  | .load entry rest =>
    match c.sql.elim (s.storage.loadTask env.serde entry.key) .error,
        env.extractProofFromResultWire entry.wireBody with
    | .ok (some task), .ok (some proof) => some { s with retry := .retain task proof rest }
    | _, _ => some { s with retry := .send rest }
  | .retain _ _ rest => some { s with retry := .send rest }
  | .bump entry rest => some { s with
      retry := .send rest
      storage := c.sql.elim (s.storage.incrementPendingResultAttempts entry.id) fun _ => s.storage }

/-- The process stops; the database, the wire and the history survive. -/
def crashed (s : Node) : Node :=
  { init with storage := s.storage, wire := s.wire, history := s.history }

def step (env : Env) (s : Node) : Act → Option Node
  | .start => startStep env s
  | .main => mainStep s
  | .dispatch request pubkey budget nowMs =>
    match s.main with
    | .running =>
      match prepare env request pubkey budget nowMs with
      | .error e => some { s with
          accepts := s.accepts ++ [⟨⟨request, pubkey, budget, nowMs⟩, .done (.error e), none⟩] }
      | .ok task => some { s with accepts := s.accepts ++ [⟨task, .lookup, none⟩] }
    | _ => none
  | .accept i c => acceptStep env s i c
  | .worker c => workerStep env s c
  | .panic => panicStep s
  | .retry c => retryStep env s c
  | .prune olderThanUnix =>
    match s.main with
    | .running => some { s with storage := s.storage.pruneTerminalTasks olderThanUnix }
    | _ => none
  | .receive i =>
    match s.wire.inFlight[i]? with
    | some body => some { s with wire := { s.wire with
        inFlight := s.wire.inFlight.eraseIdx i
        received := body :: s.wire.received } }
    | none => none
  | .lose i =>
    match s.wire.inFlight[i]? with
    | some body => some { s with wire := { s.wire with
        inFlight := s.wire.inFlight.eraseIdx i
        lost := body :: s.wire.lost } }
    | none => none
  | .crash =>
    match s.main with
    | .stopped => none
    | _ => some (crashed s)

/-! ### The moves of an accept call -/

section Accepts

variable (env : Env) (s : Node) (i : ℕ) (c : Choice) (acc : Accept)

/-- What `load_task` returns to the call in this step. -/
def loads : Except String (Option ComputeTask) :=
  c.sql.elim (s.storage.loadTask env.serde acc.task.key) .error

/-- What `save_task` returns to the call in this step. -/
def saves : Except String Storage :=
  c.sql.elim (s.storage.saveTask env.serde acc.task c.now) .error

/-- The moves of an accept call, with when each is made and where it leads. -/
inductive AcceptMove : Node → Prop
  | lookupFailed {e : String} (pc : acc.pc = .lookup) (load : loads env s c acc = .error e) :
      AcceptMove (setAccept s i
        { acc with pc := .done (.error (.storage s!"task lookup failed: {e}")) })
  | duplicate {existing : ComputeTask} (pc : acc.pc = .lookup)
      (load : loads env s c acc = .ok (some existing)) :
      AcceptMove (setAccept s i
        { acc with pc := .done (duplicateResult env.serde existing acc.task) })
  | absent (pc : acc.pc = .lookup) (load : loads env s c acc = .ok none) :
      AcceptMove (setAccept s i { acc with pc := .save })
  | inserted {st : Storage} (pc : acc.pc = .save) (save : saves env s c acc = .ok st) :
      AcceptMove { setAccept s i { acc with pc := .count, row := some s.storage.nextTaskId } with
        storage := st }
  | conflict {e : String} (pc : acc.pc = .save) (save : saves env s c acc = .error e)
      (unique : isUniqueViolation e = true) :
      AcceptMove (setAccept s i { acc with pc := .conflict e })
  | saveFailed {e : String} (pc : acc.pc = .save) (save : saves env s c acc = .error e)
      (other : isUniqueViolation e = false) :
      AcceptMove (setAccept s i { acc with pc := .done (.error (.storage s!"storage error: {e}")) })
  | sameTask {e : String} {existing : ComputeTask} (pc : acc.pc = .conflict e)
      (load : loads env s c acc = .ok (some existing))
      (same : dispatchPayloadMatches env.serde existing acc.task = true) :
      AcceptMove (setAccept s i { acc with pc := .done (.ok ()) })
  | otherTask {e : String} (pc : acc.pc = .conflict e)
      (other : ∀ existing, loads env s c acc = .ok (some existing) →
        dispatchPayloadMatches env.serde existing acc.task = false) :
      AcceptMove (setAccept s i { acc with pc := .done (.error (.storage s!"storage error: {e}")) })
  | counted (pc : acc.pc = .count) :
      AcceptMove { setAccept s i { acc with pc := .hold } with pendingTasks := s.pendingTasks + 1 }
  | held (pc : acc.pc = .hold) :
      AcceptMove { setAccept s i { acc with pc := .enqueue } with
        work := s.work.hold acc.task.request.taskId acc.task.request.parentTaskId
          acc.task.budget }
  | enqueued (pc : acc.pc = .enqueue) (live : s.worker ≠ .panicked)
      (room : s.queue.length < queueCapacity) :
      AcceptMove { setAccept s i { acc with pc := .done (.ok ()) } with
        queue := s.queue ++ [⟨acc.row.getD 0, acc.task⟩]
        history := { s.history with enqueued := s.history.enqueued ++ [acc.row.getD 0] } }
  | gone (pc : acc.pc = .enqueue) (dead : s.worker = .panicked) :
      AcceptMove (setAccept s i { acc with pc := .uncount })
  | uncounted (pc : acc.pc = .uncount) :
      AcceptMove { setAccept s i { acc with pc := .release } with
        pendingTasks := fetchSub s.pendingTasks }
  | released (pc : acc.pc = .release) :
      AcceptMove { setAccept s i { acc with pc := .done (.error .queueFull) } with
        work := s.work.release acc.task.request.taskId }

variable {env s i c}

theorem acceptStep_move {s' : Node} (h : acceptStep env s i c = some s') :
    ∃ acc, s.accepts[i]? = some acc ∧ AcceptMove env s i c acc s' := by
  simp only [acceptStep, Option.bind_eq_bind, Option.bind_eq_some_iff] at h
  obtain ⟨acc, hacc, h⟩ := h
  refine ⟨acc, hacc, ?_⟩
  cases hpc : acc.pc with
  | lookup =>
    simp only [hpc] at h
    split at h <;> cases h
    · exact .lookupFailed hpc ‹_›
    · exact .duplicate hpc ‹_›
    · exact .absent hpc ‹_›
  | save =>
    simp only [hpc] at h
    split at h
    · split_ifs at h with huniq <;> cases h
      · exact .conflict hpc ‹_› huniq
      · exact .saveFailed hpc ‹_› (by simpa using huniq)
    · cases h
      exact .inserted hpc ‹_›
  | conflict e =>
    simp only [hpc] at h
    split at h
    case h_1 existing hload =>
      split_ifs at h with hsame <;> cases h
      · exact .sameTask hpc hload hsame
      · refine .otherTask hpc fun existing' hload' => ?_
        obtain rfl : existing = existing' := by
          have := hload.symm.trans hload'
          simpa using this
        simpa using hsame
    case h_2 hnot =>
      cases h
      exact .otherTask hpc fun existing hload => absurd hload (hnot existing)
  | count =>
    simp only [hpc] at h
    cases h
    exact .counted hpc
  | hold =>
    simp only [hpc] at h
    cases h
    exact .held hpc
  | enqueue =>
    simp only [hpc] at h
    split at h
    · cases h
      exact .gone hpc ‹_›
    · split_ifs at h with hroom
      cases h
      exact .enqueued hpc ‹_› hroom
  | uncount =>
    simp only [hpc] at h
    cases h
    exact .uncounted hpc
  | release =>
    simp only [hpc] at h
    cases h
    exact .released hpc
  | done r => simp [hpc] at h

end Accepts

/-! ### The moves of the worker and of the retry loop -/

section Tasks

variable (env : Env) (s : Node) (c : Choice)

/-- The moves of the worker, with when each is made and where it leads. -/
inductive WorkerMove : Node → Prop
  | taken {q : QueuedTask} {queue : List QueuedTask} (pc : s.worker = .recv)
      (waiting : s.queue = q :: queue) :
      WorkerMove { s with
        queue := queue
        worker := .start q
        history := { s.history with takenUp := q.row :: s.history.takenUp } }
  | started {q : QueuedTask} (pc : s.worker = .start q) :
      WorkerMove { s with
        worker := .compute q
        work := s.work.start q.task.request.taskId c.instant }
  | computed {q : QueuedTask} (pc : s.worker = .compute q) :
      WorkerMove { s with worker := .status q (taskPayload env q.task c) }
  | statusSet {q : QueuedTask} {payload : TaskResultPayload} (pc : s.worker = .status q payload) :
      WorkerMove { s with
        worker := .build q payload
        storage := tryUpdateStatus s.storage q.task.key (statusOf payload) c.sql }
  | unbuilt {q : QueuedTask} {payload : TaskResultPayload} {e : String}
      (pc : s.worker = .build q payload)
      (build : env.buildResultWireBody q.task payload env.peerId = .error e) :
      WorkerMove { s with worker := .uncount q }
  | built {q : QueuedTask} {payload : TaskResultPayload} {body : Bytes}
      (pc : s.worker = .build q payload)
      (build : env.buildResultWireBody q.task payload env.peerId = .ok body) :
      WorkerMove { s with
        worker := .upsert q payload body
        history := { s.history with built := (q.row, body) :: s.history.built } }
  | unstored {q : QueuedTask} {payload : TaskResultPayload} {body : Bytes} {e : String}
      (pc : s.worker = .upsert q payload body) (sql : c.sql = some e) :
      WorkerMove { s with worker := .uncount q }
  | stored {q : QueuedTask} {payload : TaskResultPayload} {body : Bytes}
      (pc : s.worker = .upsert q payload body) (sql : c.sql = none) :
      WorkerMove { s with
        worker := .deliverStatus q payload body
        storage := s.storage.upsertPendingResult q.task.key body c.now }
  | deliverStatusSet {q : QueuedTask} {payload : TaskResultPayload} {body : Bytes}
      (pc : s.worker = .deliverStatus q payload body) :
      WorkerMove { s with
        worker := .send q payload body
        storage := tryUpdateStatus s.storage q.task.key (statusOf payload) c.sql }
  | sent {q : QueuedTask} {payload : TaskResultPayload} {body : Bytes}
      (pc : s.worker = .send q payload body) (send : c.send = .ok) :
      WorkerMove { s with
        worker := .delete q payload body
        wire := s.wire.write body
        history := { s.history with sentOk := (q.task.key, body) :: s.history.sentOk } }
  | unsent {q : QueuedTask} {payload : TaskResultPayload} {body : Bytes} {arrives : Bool}
      (pc : s.worker = .send q payload body) (send : c.send = .err arrives) :
      WorkerMove { s with
        worker := .uncount q
        wire := if arrives then s.wire.write body else s.wire }
  | undeleted {q : QueuedTask} {payload : TaskResultPayload} {body : Bytes} {e : String}
      (pc : s.worker = .delete q payload body) (sql : c.sql = some e) :
      WorkerMove { s with worker := .uncount q }
  | deleted {q : QueuedTask} {payload : TaskResultPayload} {body : Bytes}
      (pc : s.worker = .delete q payload body) (sql : c.sql = none) :
      WorkerMove { deleteResult s q.task.key with worker := .retain q payload }
  | retained {q : QueuedTask} {payload : TaskResultPayload} (pc : s.worker = .retain q payload) :
      WorkerMove { s with worker := .uncount q }
  | uncounted {q : QueuedTask} (pc : s.worker = .uncount q) :
      WorkerMove { s with worker := .release q, pendingTasks := fetchSub s.pendingTasks }
  | released {q : QueuedTask} (pc : s.worker = .release q) :
      WorkerMove { s with
        worker := .recv
        work := s.work.release q.task.request.taskId }

/-- The moves of the retry loop. -/
inductive RetryMove : Node → Prop
  | listed (pc : s.retry = .sleep) (sql : c.sql = none) :
      RetryMove { s with retry := .send s.storage.listPendingResults }
  | unlisted {e : String} (pc : s.retry = .sleep) (sql : c.sql = some e) :
      RetryMove { s with retry := .sleep }
  | through (pc : s.retry = .send []) : RetryMove { s with retry := .sleep }
  | sent {entry : PendingResult} {rest : List PendingResult} (pc : s.retry = .send (entry :: rest))
      (send : c.send = .ok) :
      RetryMove { s with
        retry := .delete entry rest
        wire := s.wire.write entry.wireBody
        history := { s.history with
          sentOk := (entry.key, entry.wireBody) :: s.history.sentOk } }
  | unsent {entry : PendingResult} {rest : List PendingResult} {arrives : Bool}
      (pc : s.retry = .send (entry :: rest)) (send : c.send = .err arrives) :
      RetryMove { s with
        retry := .bump entry rest
        wire := if arrives then s.wire.write entry.wireBody else s.wire }
  | deleted {entry : PendingResult} {rest : List PendingResult} (pc : s.retry = .delete entry rest)
      (sql : c.sql = none) : RetryMove { deleteResult s entry.key with retry := .load entry rest }
  | undeleted {entry : PendingResult} {rest : List PendingResult} {e : String}
      (pc : s.retry = .delete entry rest) (sql : c.sql = some e) :
      RetryMove { s with retry := .load entry rest }
  | loaded {entry : PendingResult} {rest : List PendingResult} {task : ComputeTask} {proof : Proof}
      (pc : s.retry = .load entry rest)
      (load : c.sql.elim (s.storage.loadTask env.serde entry.key) .error = .ok (some task))
      (extract : env.extractProofFromResultWire entry.wireBody = .ok (some proof)) :
      RetryMove { s with retry := .retain task proof rest }
  | unloaded {entry : PendingResult} {rest : List PendingResult} (pc : s.retry = .load entry rest) :
      RetryMove { s with retry := .send rest }
  | retained {task : ComputeTask} {proof : Proof} {rest : List PendingResult}
      (pc : s.retry = .retain task proof rest) : RetryMove { s with retry := .send rest }
  | bumped {entry : PendingResult} {rest : List PendingResult} (pc : s.retry = .bump entry rest)
      (sql : c.sql = none) :
      RetryMove { s with
        retry := .send rest
        storage := s.storage.incrementPendingResultAttempts entry.id }
  | unbumped {entry : PendingResult} {rest : List PendingResult} {e : String}
      (pc : s.retry = .bump entry rest) (sql : c.sql = some e) :
      RetryMove { s with retry := .send rest }

variable {env s c}

theorem workerStep_move {s' : Node} (h : workerStep env s c = some s') : WorkerMove env s c s' := by
  cases hpc : s.worker with
  | unspawned | panicked => simp [workerStep, hpc] at h
  | recv =>
    simp only [workerStep, hpc] at h
    split at h <;> cases h
    exact .taken hpc ‹_›
  | start q =>
    simp only [workerStep, hpc] at h
    cases h
    exact .started hpc
  | compute q =>
    simp only [workerStep, hpc] at h
    cases h
    exact .computed hpc
  | status q payload =>
    simp only [workerStep, hpc] at h
    cases h
    exact .statusSet hpc
  | build q payload =>
    simp only [workerStep, hpc] at h
    split at h <;> cases h
    · exact .unbuilt hpc ‹_›
    · exact .built hpc ‹_›
  | upsert q payload body =>
    simp only [workerStep, hpc] at h
    split at h <;> cases h
    · exact .unstored hpc ‹_›
    · exact .stored hpc ‹_›
  | deliverStatus q payload body =>
    simp only [workerStep, hpc] at h
    cases h
    exact .deliverStatusSet hpc
  | send q payload body =>
    simp only [workerStep, hpc] at h
    split at h <;> cases h
    · exact .sent hpc ‹_›
    · exact .unsent hpc ‹_›
  | delete q payload body =>
    simp only [workerStep, hpc] at h
    split at h <;> cases h
    · exact .undeleted hpc ‹_›
    · exact .deleted hpc ‹_›
  | retain q payload =>
    simp only [workerStep, hpc] at h
    cases h
    exact .retained hpc
  | uncount q =>
    simp only [workerStep, hpc] at h
    cases h
    exact .uncounted hpc
  | release q =>
    simp only [workerStep, hpc] at h
    cases h
    exact .released hpc

theorem retryStep_move {s' : Node} (h : retryStep env s c = some s') : RetryMove env s c s' := by
  cases hpc : s.retry with
  | unspawned => simp [retryStep, hpc] at h
  | sleep =>
    simp only [retryStep, hpc] at h
    cases h
    cases hsql : c.sql with
    | none => exact .listed hpc hsql
    | some e => exact .unlisted hpc hsql
  | send entries =>
    cases entries with
    | nil =>
      simp only [retryStep, hpc] at h
      cases h
      exact .through hpc
    | cons entry rest =>
      simp only [retryStep, hpc] at h
      split at h <;> cases h
      · exact .sent hpc ‹_›
      · exact .unsent hpc ‹_›
  | delete entry rest =>
    simp only [retryStep, hpc] at h
    cases h
    cases hsql : c.sql with
    | none => exact .deleted hpc hsql
    | some e => exact .undeleted hpc hsql
  | load entry rest =>
    simp only [retryStep, hpc] at h
    split at h <;> cases h
    · exact .loaded hpc ‹_› ‹_›
    · exact .unloaded hpc
  | retain task proof rest =>
    simp only [retryStep, hpc] at h
    cases h
    exact .retained hpc
  | bump entry rest =>
    simp only [retryStep, hpc] at h
    cases h
    cases hsql : c.sql with
    | none => exact .bumped hpc hsql
    | some e => exact .unbumped hpc hsql

end Tasks

/-! ### The moves of the node -/

/-- What a step can do. -/
inductive Move (env : Env) (s : Node) : Act → Node → Prop
  | unread (main : s.main = .stopped) : Move env s .start s
  | read {tasks : List (ℕ × ComputeTask)} (main : s.main = .stopped)
      (rows : s.storage.getPendingTasks env.serde = .ok tasks) :
      Move env s .start { s with
        main := .restore (tasks.map fun t => ⟨t.1, t.2⟩)
        pendingTasks := tasks.length }
  | spawned (main : s.main = .restore []) :
      Move env s .main { s with main := .running, worker := .recv, retry := .sleep }
  | restored {q : QueuedTask} {todo : List QueuedTask} (main : s.main = .restore (q :: todo)) :
      Move env s .main { s with
        main := .send q todo
        work := s.work.hold q.task.request.taskId q.task.request.parentTaskId q.task.budget }
  | requeued {q : QueuedTask} {todo : List QueuedTask} (main : s.main = .send q todo)
      (room : s.queue.length < queueCapacity) :
      Move env s .main { s with
        main := .restore todo
        queue := s.queue ++ [q]
        history := { s.history with enqueued := s.history.enqueued ++ [q.row] } }
  | refused {request : ComputeRequest} {pubkey : String} {budget : Option Budget} {nowMs : UInt64}
      {e : AcceptTaskError} (main : s.main = .running)
      (prep : prepare env request pubkey budget nowMs = .error e) :
      Move env s (.dispatch request pubkey budget nowMs) { s with
        accepts := s.accepts ++ [⟨⟨request, pubkey, budget, nowMs⟩, .done (.error e), none⟩] }
  | called {request : ComputeRequest} {pubkey : String} {budget : Option Budget} {nowMs : UInt64}
      {task : ComputeTask} (main : s.main = .running)
      (prep : prepare env request pubkey budget nowMs = .ok task) :
      Move env s (.dispatch request pubkey budget nowMs)
        { s with accepts := s.accepts ++ [⟨task, .lookup, none⟩] }
  | accept {i : ℕ} {c : Choice} {acc : Accept} {s' : Node} (call : s.accepts[i]? = some acc)
      (move : AcceptMove env s i c acc s') : Move env s (.accept i c) s'
  | worker {c : Choice} {s' : Node} (move : WorkerMove env s c s') : Move env s (.worker c) s'
  | panicked (spawned : s.worker ≠ .unspawned) (live : s.worker ≠ .panicked) :
      Move env s .panic { s with worker := .panicked, queue := [] }
  | retry {c : Choice} {s' : Node} (move : RetryMove env s c s') : Move env s (.retry c) s'
  | pruned {olderThanUnix : ℤ} (main : s.main = .running) :
      Move env s (.prune olderThanUnix)
        { s with storage := s.storage.pruneTerminalTasks olderThanUnix }
  | received {i : ℕ} {body : Bytes} (bytes : s.wire.inFlight[i]? = some body) :
      Move env s (.receive i) { s with wire := { s.wire with
        inFlight := s.wire.inFlight.eraseIdx i
        received := body :: s.wire.received } }
  | lost {i : ℕ} {body : Bytes} (bytes : s.wire.inFlight[i]? = some body) :
      Move env s (.lose i) { s with wire := { s.wire with
        inFlight := s.wire.inFlight.eraseIdx i
        lost := body :: s.wire.lost } }
  | crashed (started : s.main ≠ .stopped) : Move env s .crash (crashed s)

section Frames

variable {env : Env} {s s' : Node}

theorem mainStep_move (h : mainStep s = some s') : Move env s .main s' := by
  simp only [mainStep] at h
  split at h
  case h_1 hmain =>
    cases h
    exact .spawned hmain
  case h_2 q todo hmain =>
    cases h
    exact .restored hmain
  case h_3 q todo hmain =>
    split_ifs at h with hroom
    cases h
    exact .requeued hmain hroom
  case h_4 => cases h

theorem step_move {a : Act} (h : step env s a = some s') : Move env s a s' := by
  cases a with
  | start =>
    simp only [step, startStep] at h
    split at h
    case h_1 hmain =>
      split at h <;> cases h
      · exact .unread hmain
      · exact .read hmain ‹_›
    case h_2 => cases h
  | main => exact mainStep_move h
  | dispatch request pubkey budget nowMs =>
    simp only [step] at h
    split at h
    · split at h <;> cases h
      · exact .refused ‹_› ‹_›
      · exact .called ‹_› ‹_›
    · cases h
  | accept i c =>
    obtain ⟨acc, hacc, hmove⟩ := acceptStep_move h
    exact .accept hacc hmove
  | worker c => exact .worker (workerStep_move h)
  | panic =>
    simp only [step, panicStep] at h
    split at h <;> cases h
    exact .panicked ‹_› ‹_›
  | retry c => exact .retry (retryStep_move h)
  | prune t =>
    simp only [step] at h
    split at h <;> cases h
    exact .pruned ‹_›
  | receive i =>
    simp only [step] at h
    split at h <;> cases h
    exact .received ‹_›
  | lose i =>
    simp only [step] at h
    split at h <;> cases h
    exact .lost ‹_›
  | crash =>
    simp only [step] at h
    split at h <;> cases h
    exact .crashed ‹_›

/-! ### What a step leaves alone -/

theorem acceptStep_frame {i : ℕ} {c : Choice} (h : acceptStep env s i c = some s') :
    s'.main = s.main ∧ s'.worker = s.worker ∧ s'.retry = s.retry ∧ s'.wire = s.wire := by
  obtain ⟨acc, -, hm⟩ := acceptStep_move h
  cases hm <;> exact ⟨rfl, rfl, rfl, rfl⟩

theorem workerStep_frame {c : Choice} (h : workerStep env s c = some s') :
    s'.main = s.main ∧ s'.accepts = s.accepts ∧ s'.retry = s.retry := by
  cases workerStep_move h <;> exact ⟨rfl, rfl, rfl⟩

/-- The retry loop leaves the tasks, the channel and the counters alone. -/
theorem retryStep_frame {c : Choice} (h : retryStep env s c = some s') :
    s'.main = s.main ∧ s'.accepts = s.accepts ∧ s'.worker = s.worker ∧ s'.queue = s.queue ∧
      s'.pendingTasks = s.pendingTasks ∧ s'.work = s.work ∧
      s'.storage.tasks = s.storage.tasks ∧ s'.storage.nextTaskId = s.storage.nextTaskId ∧
      s'.history.enqueued = s.history.enqueued := by
  cases retryStep_move h <;> exact ⟨rfl, rfl, rfl, rfl, rfl, rfl, rfl, rfl, rfl⟩

/-- A step of neither an accept call nor the worker nor the retry loop. -/
def ofOthers : Act → Bool
  | .accept _ _ | .worker _ | .retry _ => false
  | _ => true

/-- What the other steps do to the database, the worker, the retry loop and the history. -/
structure OthersStep (s : Node) (a : Act) (s' : Node) : Prop where
  storage : s'.storage = s.storage ∨
    ∃ t, a = .prune t ∧ s'.storage = s.storage.pruneTerminalTasks t
  worker : s'.worker = s.worker ∨ s'.worker = .unspawned ∨ s'.worker = .recv ∨
    s'.worker = .panicked
  retry : s'.retry = s.retry ∨ s'.retry = .unspawned ∨ s'.retry = .sleep
  history : s'.history = { s.history with enqueued := s'.history.enqueued }
  wire : s'.wire = s.wire ∨ (∃ i, a = .receive i) ∨ ∃ i, a = .lose i

theorem step_others {a : Act} (ha : ofOthers a = true) (h : step env s a = some s') :
    OthersStep s a s' := by
  cases step_move h with
  | accept | worker | retry => cases ha
  | spawned => exact ⟨.inl rfl, .inr (.inr (.inl rfl)), .inr (.inr rfl), rfl, .inl rfl⟩
  | panicked => exact ⟨.inl rfl, .inr (.inr (.inr rfl)), .inl rfl, rfl, .inl rfl⟩
  | pruned => exact ⟨.inr ⟨_, rfl, rfl⟩, .inl rfl, .inl rfl, rfl, .inl rfl⟩
  | received => exact ⟨.inl rfl, .inl rfl, .inl rfl, rfl, .inr (.inl ⟨_, rfl⟩)⟩
  | lost => exact ⟨.inl rfl, .inl rfl, .inl rfl, rfl, .inr (.inr ⟨_, rfl⟩)⟩
  | crashed => exact ⟨.inl rfl, .inr (.inl rfl), .inr (.inl rfl), rfl, .inl rfl⟩
  | _ => exact ⟨.inl rfl, .inl rfl, .inl rfl, rfl, .inl rfl⟩

end Frames

/-! ### What a step changes in the tables -/

section Changes

variable {env : Env} {s s' : Node} {a : Act}

/-- How a step can change `tasks`: an accept call inserts its task, the worker sets a status, the
prune loop deletes terminal rows. -/
inductive TasksChange (env : Env) (s : Node) : Act → Storage → Prop
  | same {a : Act} {st : Storage} (tasks : st.tasks = s.storage.tasks)
      (next : st.nextTaskId = s.storage.nextTaskId) : TasksChange env s a st
  | insert {i : ℕ} {c : Choice} {acc : Accept} {text : String} (call : s.accepts[i]? = some acc)
      (pc : acc.pc = .save) (sql : c.sql = none)
      (payload : env.serde.taskToString acc.task = .ok text)
      (fresh : s.storage.tasks.lookup acc.task.key = none) :
      TasksChange env s (.accept i c) { s.storage with
        tasks := s.storage.tasks.insert acc.task.key
          ⟨s.storage.nextTaskId, text, .pending, c.now⟩
        nextTaskId := s.storage.nextTaskId + 1 }
  | status {c : Choice} {q : QueuedTask} {payload : TaskResultPayload}
      (pc : s.worker = .status q payload ∨ ∃ body, s.worker = .deliverStatus q payload body)
      (sql : c.sql = none) :
      TasksChange env s (.worker c) (s.storage.updateStatus q.task.key (statusOf payload))
  | prune (olderThanUnix : ℤ) :
      TasksChange env s (.prune olderThanUnix) (s.storage.pruneTerminalTasks olderThanUnix)

theorem saveTask_ok {serde : Serde} {st st' : Storage} {task : ComputeTask} {now : ℤ}
    (h : st.saveTask serde task now = .ok st') :
    ∃ text, serde.taskToString task = .ok text ∧ st.tasks.lookup task.key = none ∧
      st' = { st with
        tasks := st.tasks.insert task.key ⟨st.nextTaskId, text, .pending, now⟩
        nextTaskId := st.nextTaskId + 1 } := by
  cases htext : serde.taskToString task with
  | error e => simp [Storage.saveTask, htext, bind, Except.bind] at h
  | ok text =>
    refine ⟨text, rfl, ?_⟩
    cases hrow : st.tasks.lookup task.key with
    | some row => simp [Storage.saveTask, htext, hrow, bind, Except.bind] at h
    | none =>
      simp only [Storage.saveTask, htext, hrow, bind, Except.bind, Except.ok.injEq] at h
      exact ⟨rfl, h.symm⟩

/-- A row is saved under its key only if none is there, and takes the next id. -/
theorem saves_ok {c : Choice} {acc : Accept} {st : Storage} (h : saves env s c acc = .ok st) :
    c.sql = none ∧ ∃ text, env.serde.taskToString acc.task = .ok text ∧
      s.storage.tasks.lookup acc.task.key = none ∧
      st = { s.storage with
        tasks := s.storage.tasks.insert acc.task.key ⟨s.storage.nextTaskId, text, .pending, c.now⟩
        nextTaskId := s.storage.nextTaskId + 1 } := by
  cases hsql : c.sql with
  | some e => simp [saves, hsql] at h
  | none =>
    rw [saves, hsql] at h
    exact ⟨rfl, saveTask_ok h⟩

theorem acceptStep_tasks {i : ℕ} {c : Choice} (h : acceptStep env s i c = some s') :
    TasksChange env s (.accept i c) s'.storage := by
  obtain ⟨acc, hacc, hm⟩ := acceptStep_move h
  cases hm with
  | inserted pc save =>
    obtain ⟨hsql, text, htext, hfresh, rfl⟩ := saves_ok save
    exact .insert hacc pc hsql htext hfresh
  | _ => exact .same rfl rfl

theorem workerStep_tasks {c : Choice} (h : workerStep env s c = some s') :
    TasksChange env s (.worker c) s'.storage := by
  have hstatus : ∀ {q payload}, (s.worker = .status q payload ∨
      ∃ body, s.worker = .deliverStatus q payload body) →
      TasksChange env s (.worker c)
        (tryUpdateStatus s.storage q.task.key (statusOf payload) c.sql) := by
    intro q payload hw
    cases hsql : c.sql with
    | none => exact .status hw hsql
    | some e => exact .same rfl rfl
  cases workerStep_move h with
  | statusSet pc => exact hstatus (.inl pc)
  | deliverStatusSet pc => exact hstatus (.inr ⟨_, pc⟩)
  | stored pc sql =>
    simp only [Storage.upsertPendingResult]
    split <;> exact .same rfl rfl
  | _ => exact .same rfl rfl

/-- Every step changes `tasks` in one of these ways. -/
theorem step_tasks (h : step env s a = some s') : TasksChange env s a s'.storage := by
  cases a with
  | accept i c => exact acceptStep_tasks h
  | worker c => exact workerStep_tasks h
  | retry c =>
    obtain ⟨-, -, -, -, -, -, ht, hn, -⟩ := retryStep_frame h
    exact .same ht hn
  | _ =>
    rcases (step_others rfl h).storage with hst | ⟨t, hact, hst⟩
    · exact .same (by rw [hst]) (by rw [hst])
    · rw [hact, hst]
      exact .prune t

/-- How a step can change `pending_results`: the worker stores a body, the worker or the retry loop
deletes a row by its key, the retry loop counts an attempt. -/
inductive ResultsChange (s : Node) : Act → Storage → Prop
  | same {a : Act} {st : Storage} (results : st.pendingResults = s.storage.pendingResults) :
      ResultsChange s a st
  | upsert {c : Choice} {q : QueuedTask} {payload : TaskResultPayload} {body : Bytes}
      (pc : s.worker = .upsert q payload body) (sql : c.sql = none) :
      ResultsChange s (.worker c) (s.storage.upsertPendingResult q.task.key body c.now)
  | workerDelete {c : Choice} {q : QueuedTask} {payload : TaskResultPayload} {body : Bytes}
      (pc : s.worker = .delete q payload body) (sql : c.sql = none) :
      ResultsChange s (.worker c) (s.storage.deletePendingResult q.task.key)
  | retryDelete {c : Choice} {entry : PendingResult} {rest : List PendingResult}
      (pc : s.retry = .delete entry rest) (sql : c.sql = none) :
      ResultsChange s (.retry c) (s.storage.deletePendingResult entry.key)
  | bump {c : Choice} {entry : PendingResult} {rest : List PendingResult}
      (pc : s.retry = .bump entry rest) (sql : c.sql = none) :
      ResultsChange s (.retry c) (s.storage.incrementPendingResultAttempts entry.id)

theorem acceptStep_results {i : ℕ} {c : Choice} (h : acceptStep env s i c = some s') :
    s'.storage.pendingResults = s.storage.pendingResults := by
  obtain ⟨acc, -, hm⟩ := acceptStep_move h
  cases hm with
  | inserted pc save =>
    obtain ⟨-, text, -, -, rfl⟩ := saves_ok save
    rfl
  | _ => rfl

theorem workerStep_results {c : Choice} (h : workerStep env s c = some s') :
    ResultsChange s (.worker c) s'.storage := by
  cases workerStep_move h with
  | stored pc sql => exact .upsert pc sql
  | deleted pc sql => exact .workerDelete pc sql
  | statusSet pc | deliverStatusSet pc => cases hsql : c.sql <;> exact .same rfl
  | _ => exact .same rfl

theorem retryStep_results {c : Choice} (h : retryStep env s c = some s') :
    ResultsChange s (.retry c) s'.storage := by
  cases retryStep_move h with
  | deleted pc sql => exact .retryDelete pc sql
  | bumped pc sql => exact .bump pc sql
  | _ => exact .same rfl

/-- Every step changes `pending_results` in one of these ways. -/
theorem step_results (h : step env s a = some s') : ResultsChange s a s'.storage := by
  cases a with
  | accept i c => exact .same (acceptStep_results h)
  | worker c => exact workerStep_results h
  | retry c => exact retryStep_results h
  | _ =>
    rcases (step_others rfl h).storage with hst | ⟨t, -, hst⟩
    all_goals
      rw [hst]
      exact .same rfl

/-- The worker moves by its own steps, or is spawned or stopped. -/
theorem step_worker (h : step env s a = some s') :
    (∃ c, a = .worker c) ∨ s'.worker = s.worker ∨ s'.worker = .unspawned ∨ s'.worker = .recv ∨
      s'.worker = .panicked := by
  cases a with
  | worker c => exact .inl ⟨c, rfl⟩
  | accept i c => exact .inr (.inl (acceptStep_frame h).2.1)
  | retry c => exact .inr (.inl (retryStep_frame h).2.2.1)
  | _ => exact .inr (step_others rfl h).worker

/-- The retry loop moves by its own steps, or is spawned or stopped. -/
theorem step_retry (h : step env s a = some s') :
    (∃ c, a = .retry c) ∨ s'.retry = s.retry ∨ s'.retry = .unspawned ∨ s'.retry = .sleep := by
  cases a with
  | retry c => exact .inl ⟨c, rfl⟩
  | accept i c => exact .inr (.inl (acceptStep_frame h).2.2.1)
  | worker c => exact .inr (.inl (workerStep_frame h).2.2)
  | _ => exact .inr (step_others rfl h).retry

/-- How a step can change the accept calls. -/
inductive AcceptsChange (env : Env) (s : Node) : Act → Node → Prop
  | same {a : Act} {s' : Node} (accepts : s'.accepts = s.accepts) : AcceptsChange env s a s'
  | refused {request : ComputeRequest} {pubkey : String} {budget : Option Budget} {nowMs : UInt64}
      {e : AcceptTaskError} {s' : Node} (prep : prepare env request pubkey budget nowMs = .error e)
      (accepts : s'.accepts =
        s.accepts ++ [⟨⟨request, pubkey, budget, nowMs⟩, .done (.error e), none⟩]) :
      AcceptsChange env s (.dispatch request pubkey budget nowMs) s'
  | called {request : ComputeRequest} {pubkey : String} {budget : Option Budget} {nowMs : UInt64}
      {task : ComputeTask} {s' : Node} (prep : prepare env request pubkey budget nowMs = .ok task)
      (accepts : s'.accepts = s.accepts ++ [⟨task, .lookup, none⟩]) :
      AcceptsChange env s (.dispatch request pubkey budget nowMs) s'
  | moved {i : ℕ} {c : Choice} {acc : Accept} {s' : Node} (call : s.accepts[i]? = some acc)
      (move : AcceptMove env s i c acc s') : AcceptsChange env s (.accept i c) s'
  | cleared {s' : Node} (accepts : s'.accepts = []) : AcceptsChange env s .crash s'

theorem step_accepts (h : step env s a = some s') : AcceptsChange env s a s' := by
  cases step_move h with
  | refused main prep => exact .refused prep rfl
  | called main prep => exact .called prep rfl
  | accept call move => exact .moved call move
  | worker => exact .same (workerStep_frame h).2.1
  | retry => exact .same (retryStep_frame h).2.1
  | crashed => exact .cleared rfl
  | _ => exact .same rfl

/-- A move changes its own call only, keeps its task, and leads to `save` from `lookup` alone. -/
theorem AcceptMove.accepts {i : ℕ} {c : Choice} {acc : Accept} (h : AcceptMove env s i c acc s') :
    ∃ acc', s'.accepts = s.accepts.set i acc' ∧ acc'.task = acc.task ∧ acc'.pc ≠ .lookup ∧
      (acc'.pc = .save → acc.pc = .lookup) := by
  cases h with
  | absent pc => exact ⟨_, rfl, rfl, by simp, fun _ => pc⟩
  | _ => exact ⟨_, rfl, rfl, by simp, by simp⟩

end Changes

end WqcNode.Application.NodeMachine
