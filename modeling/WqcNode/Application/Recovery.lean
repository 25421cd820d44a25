import WqcNode.Application.NodeInvariants

/-! # Startup recovery (`main.rs`)

`main` sends every pending task into a channel of 100 places and spawns the worker that receives
from it only afterwards. The number of pending rows is not bounded by the channel, since an accept
call saves its row before it waits for a place (`exists_run_pending`). So a start gets through
exactly if at most 100 rows are pending (`startup_live_iff`). -/

namespace WqcNode.Application.Recovery

open WqcNode.Lib WqcNode.Lib.Machine WqcNode.Infra WqcNode.Domain.Models
open WqcNode.Application.NodeMachine WqcNode.Application.NodeInvariants

variable {env : Env} {s s' : Node} {a : Act}

/-! ### Startup -/

/-- What can happen while the node starts: the steps of `main`, and the wire. -/
def ofStartup : Act → Bool
  | .start | .main | .receive _ | .lose _ => true
  | _ => false

/-- `main` waits to send on a full channel whose receiving worker has not been started. -/
def Stuck (s : Node) : Prop :=
  (∃ q todo, s.main = .send q todo) ∧ queueCapacity ≤ s.queue.length ∧ s.worker = .unspawned

theorem not_stuck (h : ∀ q todo, s.main ≠ .send q todo) : ¬ Stuck s := by
  rintro ⟨⟨q, todo, hm⟩, -⟩
  exact h q todo hm

/-- Whatever a start does from `s`, it is not stuck and can go on until the worker runs. -/
def StartupLive (env : Env) (s : Node) : Prop :=
  ∀ acts s', (∀ a ∈ acts, ofStartup a = true) → run (step env) s acts = some s' →
    ¬ Stuck s' ∧ ∃ acts' s'', (∀ a ∈ acts', ofStartup a = true) ∧
      run (step env) s' acts' = some s'' ∧ s''.main = .running ∧ s''.worker ≠ .unspawned

theorem mapM_ok {α β : Type} {f : α → Except String β} : ∀ {l : List α},
    (∀ x ∈ l, ∃ y, f x = .ok y) → ∃ ys, l.mapM f = .ok ys ∧ ys.length = l.length
  | [], _ => ⟨[], rfl, rfl⟩
  | x :: l, h => by
    obtain ⟨y, hy⟩ := h x (List.mem_cons_self ..)
    obtain ⟨ys, hys, hlen⟩ := mapM_ok fun z hz => h z (List.mem_cons_of_mem _ hz)
    exact ⟨y :: ys, by simp [List.mapM_cons, hy, hys, bind, Except.bind, pure, Except.pure],
      by simp [hlen]⟩

/-- The pending tasks can be read, one for each pending row. -/
theorem getPendingTasks_ok (hr : Readable env s) :
    ∃ tasks, s.storage.getPendingTasks env.serde = .ok tasks ∧
      tasks.length = s.storage.pendingRows.length := by
  refine mapM_ok fun row hrow => ?_
  simp only [Storage.pendingRows, List.mem_insertionSort, List.mem_filter, List.mem_map] at hrow
  obtain ⟨⟨e, he, rfl⟩, -⟩ := hrow
  obtain ⟨task, htask, -⟩ := hr.rows e.1 e.2 (Table.mem_entries.mp he)
  exact ⟨(e.2.id, task), by simp [htask, Except.map]⟩

/-- How far a start has come from a database with `n` pending rows. -/
inductive Progress (st : Storage) (s : Node) : Prop
  | stopped (storage : s.storage = st) (main : s.main = .stopped) (queue : s.queue = [])
      (worker : s.worker = .unspawned)
  | restore {todo : List QueuedTask} (main : s.main = .restore todo)
      (sent : s.queue.length + todo.length = st.pendingRows.length)
      (worker : s.worker = .unspawned)
  | send {q : QueuedTask} {todo : List QueuedTask} (main : s.main = .send q todo)
      (sent : s.queue.length + (todo.length + 1) = st.pendingRows.length)
      (worker : s.worker = .unspawned)
  | running (main : s.main = .running) (worker : s.worker = .recv)

theorem step_progress {st : Storage} {tasks : List (ℕ × ComputeTask)}
    (htasks : st.getPendingTasks env.serde = .ok tasks)
    (hlen : tasks.length = st.pendingRows.length) (hp : Progress st s) (ha : ofStartup a = true)
    (h : step env s a = some s') : Progress st s' := by
  cases step_move h with
  | unread => exact hp
  | read stopped rows =>
    cases hp with
    | stopped storage main queue worker =>
      rw [storage, htasks] at rows
      cases rows
      exact .restore rfl (by simp [queue, hlen]) worker
    | restore main | send main | running main => rw [stopped] at main; cases main
  | spawned restore => exact .running rfl rfl
  | restored restore =>
    cases hp with
    | restore main sent worker =>
      rw [restore] at main
      cases main
      exact .send rfl (by simpa using sent) worker
    | stopped storage main | send main | running main => rw [restore] at main; cases main
  | requeued send room =>
    cases hp with
    | send main sent worker =>
      rw [send] at main
      cases main
      exact .restore rfl (by simp only [List.length_append, List.length_singleton]; omega) worker
    | stopped storage main | restore main | running main => rw [send] at main; cases main
  | received | lost =>
    cases hp with
    | stopped storage main queue worker => exact .stopped storage main queue worker
    | restore main sent worker => exact .restore main sent worker
    | send main sent worker => exact .send main sent worker
    | running main worker => exact .running main worker
  | _ => simp [ofStartup] at ha

/-- With room for everything, `main` gets through what is left to restore. -/
theorem restore_runs (env : Env) : ∀ (todo : List QueuedTask) (s : Node), s.main = .restore todo →
    s.queue.length + todo.length ≤ queueCapacity →
      ∃ acts s', (∀ a ∈ acts, ofStartup a = true) ∧ run (step env) s acts = some s' ∧
        s'.main = .running ∧ s'.worker ≠ .unspawned
  | [], s, hm, _ => by
    refine ⟨[.main], { s with main := .running, worker := .recv, retry := .sleep }, by simp [ofStartup],
      ?_, rfl, by simp⟩
    simp [run_cons, step, mainStep, hm]
  | q :: todo, s, hm, hroom => by
    rw [List.length_cons] at hroom
    -- hold, then send
    obtain ⟨acts, s', hacts, hrun, hend⟩ := restore_runs env todo { s with
        main := .restore todo
        work := s.work.hold q.task.request.taskId q.task.request.parentTaskId q.task.budget
        queue := s.queue ++ [q]
        history := { s.history with enqueued := s.history.enqueued ++ [q.row] } } rfl
      (by simp only [List.length_append, List.length_singleton]; omega)
    refine ⟨.main :: .main :: acts, s', ?_, ?_, hend⟩
    · simpa [ofStartup] using hacts
    · have hlt : s.queue.length < queueCapacity := by omega
      simp only [run_cons, step, mainStep, hm, hlt, Option.bind_some, if_true]
      exact hrun

theorem send_runs {q : QueuedTask} {todo : List QueuedTask} (hm : s.main = .send q todo)
    (hroom : s.queue.length + (todo.length + 1) ≤ queueCapacity) :
    ∃ acts s', (∀ a ∈ acts, ofStartup a = true) ∧ run (step env) s acts = some s' ∧
      s'.main = .running ∧ s'.worker ≠ .unspawned := by
  obtain ⟨acts, s', hacts, hrun, hend⟩ := restore_runs env todo { s with
      main := .restore todo
      queue := s.queue ++ [q]
      history := { s.history with enqueued := s.history.enqueued ++ [q.row] } } rfl
    (by simp only [List.length_append, List.length_singleton]; omega)
  refine ⟨.main :: acts, s', ?_, ?_, hend⟩
  · simpa [ofStartup] using hacts
  · have hlt : s.queue.length < queueCapacity := by omega
    simp only [run_cons, step, mainStep, hm, hlt, Option.bind_some, if_true]
    exact hrun

/-- Without room for everything, `main` gets stuck. -/
theorem restore_sticks (env : Env) : ∀ (todo : List QueuedTask) (s : Node), s.main = .restore todo →
    s.worker = .unspawned → s.queue.length ≤ queueCapacity →
    queueCapacity < s.queue.length + todo.length →
      ∃ acts s', (∀ a ∈ acts, ofStartup a = true) ∧ run (step env) s acts = some s' ∧ Stuck s'
  | [], s, _, _, hle, hlt => by
    rw [List.length_nil] at hlt
    omega
  | q :: todo, s, hm, hw, hle, hlt => by
    rw [List.length_cons] at hlt
    by_cases hfull : s.queue.length = queueCapacity
    · refine ⟨[.main], { s with
          main := .send q todo
          work := s.work.hold q.task.request.taskId q.task.request.parentTaskId q.task.budget },
        by simp [ofStartup], ?_, ⟨q, todo, rfl⟩, hfull.ge, hw⟩
      simp [run_cons, step, mainStep, hm]
    · obtain ⟨acts, s', hacts, hrun, hend⟩ := restore_sticks env todo { s with
          main := .restore todo
          work := s.work.hold q.task.request.taskId q.task.request.parentTaskId q.task.budget
          queue := s.queue ++ [q]
          history := { s.history with enqueued := s.history.enqueued ++ [q.row] } } rfl hw
        (by simp only [List.length_append, List.length_singleton]; omega)
        (by simp only [List.length_append, List.length_singleton]; omega)
      refine ⟨.main :: .main :: acts, s', ?_, ?_, hend⟩
      · simpa [ofStartup] using hacts
      · have hroom : s.queue.length < queueCapacity := by omega
        simp only [run_cons, step, mainStep, hm, hroom, Option.bind_some, if_true]
        exact hrun

/-- A start of a stopped node, up to the tasks to restore. -/
theorem start_step {tasks : List (ℕ × ComputeTask)} (hm : s.main = .stopped)
    (htasks : s.storage.getPendingTasks env.serde = .ok tasks) :
    step env s .start = some { s with
      main := .restore (tasks.map fun t => ⟨t.1, t.2⟩)
      pendingTasks := tasks.length } := by
  simp [step, startStep, hm, htasks]

/-- **Main result.** In every run that leaves a stopped node, the next start is never stuck and can
always go on until the worker runs exactly if at most 100 rows are pending. -/
theorem startup_live_iff {acts : List Act} (hback : ∀ a ∈ acts, ReadsBack env a)
    (hrun : run (step env) init acts = some s) (hstop : s.main = .stopped) :
    StartupLive env s ↔ s.storage.pendingRows.length ≤ queueCapacity := by
  have hr : Readable env s := run_inv_of_forall (fun _ _ _ => step_readable) readable_init hback hrun
  have hp : Phases s := run_inv (fun _ _ _ => step_phases) phases_init hrun
  obtain ⟨tasks, htasks, hlen⟩ := getPendingTasks_ok hr
  obtain ⟨hqueue, -⟩ := hp.stopped hstop
  have hworker : s.worker = .unspawned := (hp.starting (by simp [hstop])).worker
  constructor
  · intro hlive
    by_contra hmany
    obtain ⟨acts', s', hacts', hrun', hstuck⟩ := restore_sticks env _ { s with
        main := .restore (tasks.map fun t => ⟨t.1, t.2⟩)
        pendingTasks := tasks.length } rfl hworker (by simp [hqueue])
      (by simp [hqueue, hlen]; omega)
    refine (hlive (.start :: acts') s' (by simpa [ofStartup] using hacts') ?_).1 hstuck
    rw [run_cons, start_step hstop htasks]
    exact hrun'
  · intro hfew acts' s' hacts' hrun'
    have hprog : Progress s.storage s' :=
      run_inv_of_forall (I := Progress s.storage) (p := fun a => ofStartup a = true)
        (fun _ _ _ => step_progress htasks hlen) (.stopped rfl hstop hqueue hworker) hacts' hrun'
    cases hprog with
    | stopped storage main queue worker =>
      refine ⟨not_stuck (by simp [main]), ?_⟩
      rw [← storage] at htasks
      obtain ⟨acts'', s'', hacts'', hrun'', hend⟩ := restore_runs env _ { s' with
          main := .restore (tasks.map fun t => ⟨t.1, t.2⟩)
          pendingTasks := tasks.length } rfl (by simp [queue, hlen]; omega)
      refine ⟨.start :: acts'', s'', by simpa [ofStartup] using hacts'', ?_, hend⟩
      rw [run_cons, start_step main htasks]
      exact hrun''
    | restore main sent worker =>
      refine ⟨not_stuck (by simp [main]), ?_⟩
      exact restore_runs env _ s' main (by omega)
    | send main sent worker =>
      refine ⟨fun ⟨_, hfull, _⟩ => ?_, send_runs main (by omega)⟩
      omega
    | running main worker =>
      refine ⟨not_stuck (by simp [main]), ?_⟩
      exact ⟨[], s', by simp, rfl, main, by simp [worker]⟩

/-! ### How many rows a run can leave pending -/

theorem pendingRows_length (st : Storage) : st.pendingRows.length =
    Table.sumOf st.tasks fun _ row => if row.status = .pending then 1 else 0 := by
  simp only [Storage.pendingRows, List.length_insertionSort, Table.sumOf]
  induction st.tasks.entries with
  | nil => rfl
  | cons e entries ih =>
    by_cases hpend : e.2.status = .pending <;> simp_all [Nat.add_comm]

/-- A request without gates, which every node accepts. -/
def emptyRequest (taskId : String) : ComputeRequest where
  taskId := taskId
  parentTaskId := some "parent-1"
  circuitId := "circuit-1"
  nodeId := none
  qubitCount := 0
  originalQubitCount := 0
  sliceId := ""
  sliceAssignments := []
  circuit := []
  requiredVotes := some 1
  mpsMaxBondDim := none
  mpsSiteOrder := none
  mpsTimeSplit := none
  contractionTree := none
  outputMode := ""
  classicalBitCount := none
  shots := none
  sampleSeed := none
  observables := []
  noiseModel := none
  securityLevel := ""

def emptyTask (env : Env) (taskId : String) : ComputeTask :=
  ⟨{ emptyRequest taskId with nodeId := some env.peerId }, "orch", none, 0⟩

theorem prepare_empty (env : Env) (taskId : String) :
    prepare env (emptyRequest taskId) "orch" none 0 = .ok (emptyTask env taskId) := by
  have hlimit : ¬ (0 : UInt64) > compactQubitLimit "" env.maxQubits env.maxMpsQubits := by
    simp [compactQubitLimit]
  simp [prepare, emptyRequest, hlimit, Domain.Validation.validateCircuitLogic,
    Domain.Validation.validateCircuitFrom, Domain.Validation.normalizeGateParams, Except.mapError,
    emptyTask, bind, Except.bind]

/-- A dispatch of a task that is not stored, up to the insert of its row. -/
theorem accept_saves {request : ComputeRequest} {pubkey text : String} {task : ComputeTask}
    (hm : s.main = .running) (hprep : prepare env request pubkey none 0 = .ok task)
    (htext : env.serde.taskToString task = .ok text)
    (hfresh : s.storage.tasks.lookup task.key = none) :
    ∃ s', run (step env) s [.dispatch request pubkey none 0, .accept s.accepts.length {},
        .accept s.accepts.length {}] = some s' ∧ s'.main = .running ∧
      s'.storage.tasks = s.storage.tasks.insert task.key
        ⟨s.storage.nextTaskId, text, .pending, 0⟩ := by
  refine ⟨{ s with
      accepts := s.accepts ++ [⟨task, .count, some s.storage.nextTaskId⟩]
      storage := { s.storage with
        tasks := s.storage.tasks.insert task.key ⟨s.storage.nextTaskId, text, .pending, 0⟩
        nextTaskId := s.storage.nextTaskId + 1 } }, ?_, hm, rfl⟩
  simp [run_cons, step, hm, hprep, acceptStep, Storage.loadTask, hfresh, setAccept,
    Storage.saveTask, htext, bind, Except.bind]

/-- The `i`-th of a series of distinct task ids. -/
def seriesId (i : ℕ) : String := String.ofList (List.replicate i 't')

theorem seriesId_inj {i j : ℕ} (h : seriesId i = seriesId j) : i = j := by
  have := congrArg String.toList h
  simpa [seriesId] using congrArg List.length this

/-- The dispatches of the first `n` tasks of the series, in a process that has just started. -/
theorem exists_run_series
    (hserde : ∀ i, ∃ text, env.serde.taskToString (emptyTask env (seriesId i)) = .ok text) :
    ∀ n : ℕ, ∃ acts s, run (step env) init acts = some s ∧ s.main = .running ∧
      s.storage.pendingRows.length = n ∧
      (∀ key row, s.storage.tasks.lookup key = some row → ∃ i < n, key = ("orch", seriesId i)) ∧
      ∀ a ∈ acts, ∀ request pubkey budget nowMs, a = .dispatch request pubkey budget nowMs →
        ∃ i < n, request = emptyRequest (seriesId i) ∧ pubkey = "orch" ∧ budget = none ∧ nowMs = 0
  | 0 => by
    refine ⟨[.start, .main], { init with main := .running, worker := .recv, retry := .sleep }, ?_, rfl,
      rfl, fun key row h => ?_, by simp⟩
    · simp [run_cons, step, startStep, init, Storage.new, Storage.getPendingTasks,
        Storage.pendingRows, mainStep, pure, Except.pure]
    · simp [init, Storage.new] at h
  | n + 1 => by
    obtain ⟨acts, s, hrun, hm, hcount, hkeys, hacts⟩ := exists_run_series hserde n
    obtain ⟨text, htext⟩ := hserde n
    have hfresh : s.storage.tasks.lookup (emptyTask env (seriesId n)).key = none := by
      by_contra hne
      obtain ⟨row, hrow⟩ := Option.ne_none_iff_exists'.mp hne
      obtain ⟨i, hi, hkey⟩ := hkeys _ row hrow
      have := seriesId_inj (Prod.mk.inj hkey).2
      omega
    obtain ⟨s', hrun', hm', htasks⟩ :=
      accept_saves hm (prepare_empty env (seriesId n)) htext hfresh
    refine ⟨_, s', run_append_some.mpr ⟨s, hrun, hrun'⟩, hm', ?_, fun key row hrow => ?_,
      fun a ha request pubkey budget nowMs heq => ?_⟩
    · rw [pendingRows_length, htasks, Table.sumOf_insert_new _ _ hfresh, ← pendingRows_length, hcount]
      simp [Nat.add_comm]
    · rw [htasks, Table.lookup_insert_if] at hrow
      split_ifs at hrow with hkey
      · exact ⟨n, Nat.lt_succ_self n, hkey⟩
      · obtain ⟨i, hi, hkey'⟩ := hkeys key row hrow
        exact ⟨i, Nat.lt_succ_of_lt hi, hkey'⟩
    · rw [List.mem_append] at ha
      rcases ha with ha | ha
      · obtain ⟨i, hi, hreq⟩ := hacts a ha request pubkey budget nowMs heq
        exact ⟨i, Nat.lt_succ_of_lt hi, hreq⟩
      · subst heq
        simp only [List.mem_cons, Act.dispatch.injEq, List.not_mem_nil, or_false, reduceCtorEq] at ha
        obtain ⟨rfl, rfl, rfl, rfl⟩ := ha
        exact ⟨n, Nat.lt_succ_self n, rfl, rfl, rfl, rfl⟩

/-- **Any number of rows can be left pending**: accept calls save their rows and the process
stops. -/
theorem exists_run_pending
    (hserde : ∀ i, env.serde.ReadsBack (emptyTask env (seriesId i))) (n : ℕ) :
    ∃ acts s, (∀ a ∈ acts, ReadsBack env a) ∧ run (step env) init acts = some s ∧
      s.main = .stopped ∧ s.storage.pendingRows.length = n := by
  obtain ⟨acts, s, hrun, hm, hcount, -, hacts⟩ := exists_run_series
    (fun i => (hserde i).imp fun _ h => h.1) n
  refine ⟨acts ++ [.crash], crashed s, fun a ha => ?_, ?_, rfl, hcount⟩
  · intro request pubkey budget nowMs task heq hprep
    rw [List.mem_append, List.mem_singleton] at ha
    rcases ha with ha | rfl
    · obtain ⟨i, -, rfl, rfl, rfl, rfl⟩ := hacts a ha request pubkey budget nowMs heq
      rw [prepare_empty] at hprep
      cases hprep
      exact hserde i
    · cases heq
  · refine run_append_some.mpr ⟨s, hrun, ?_⟩
    simp [run_cons, step, hm]

/-! ### A concrete node

serde's JSON of the tasks and requests above, and the wire body of a failed one. -/

/-- The text between the task id and the end of a request, for the node in `node`. -/
def requestJsonTail (node : String) : String :=
  "\",\"parent_task_id\":\"parent-1\",\"circuit_id\":\"circuit-1\",\"node_id\":" ++ node ++
    ",\"qubit_count\":0,\"original_qubit_count\":0,\"slice_id\":\"\",\"slice_assignments\":[]," ++
    "\"circuit\":[],\"required_votes\":1,\"mps_max_bond_dim\":null,\"mps_site_order\":null," ++
    "\"output_mode\":\"\",\"classical_bit_count\":null,\"shots\":null,\"sample_seed\":null," ++
    "\"observables\":[],\"noise_model\":null,\"security_level\":\"\"\x7d"

def taskJsonHead : String := "\x7b\"request\":\x7b\"task_id\":\""

def taskJsonTail : String :=
  requestJsonTail "\"node-a\"" ++ ",\"orchestrator_pubkey\":\"orch\",\"accepted_at_ms\":0\x7d"

def requestJson (taskId : String) : String := "\x7b\"task_id\":\"" ++ taskId ++ requestJsonTail "null"

def failureJson (taskId error : String) : String :=
  "\x7b\"sub_task_id\":\"" ++ taskId ++ "\",\"node_id\":\"node-a\",\"error\":\"" ++ error ++ "\"\x7d"

/-- The text without as many characters as `head` at its start and `tail` at its end. -/
def between (head tail text : String) : String :=
  String.ofList ((text.toList.drop head.length).take (text.length - head.length - tail.length))

theorem between_append (head tail id : String) : between head tail (head ++ id ++ tail) = id := by
  have hlen : (head ++ id ++ tail).length - head.length - tail.length = id.toList.length := by
    simp only [String.length_append, String.length_toList]
    omega
  rw [between, hlen, String.toList_append, String.toList_append, List.append_assoc,
    ← String.length_toList, List.drop_left, List.take_left, String.ofList_toList]

def nodeA : Env where
  maxQubits := 28
  maxMpsQubits := 2048
  computeTimeoutSecs := 300
  peerId := "node-a"
  supportedGates := ["H", "CNOT"]
  serdeError _ := "invalid type: null, expected struct Gate"
  serde :=
    { taskToString := fun t => .ok (taskJsonHead ++ t.request.taskId ++ taskJsonTail)
      taskFromStr := fun text =>
        .ok ⟨{ emptyRequest (between taskJsonHead taskJsonTail text) with nodeId := some "node-a" },
          "orch", none, 0⟩
      requestToVec := fun r => .ok (utf8 (requestJson r.taskId))
      requestFromSlice := fun bytes =>
        if bytes = utf8 (requestJson "sub-1") then .ok (emptyRequest "sub-1")
        else .error "expected value at line 1 column 1" }
  buildResultWireBody task payload _ :=
    .ok (utf8 (failureJson task.request.taskId (payload.error.getD "compute failed")))
  extractProofFromResultWire _ := .ok none

theorem nodeA_readsBack (taskId : String) : nodeA.serde.ReadsBack (emptyTask nodeA taskId) := by
  refine ⟨_, rfl, ?_⟩
  simp only [nodeA, emptyTask, emptyRequest, between_append]

theorem nodeA_dispatch_readsBack (taskId : String) :
    ReadsBack nodeA (.dispatch (emptyRequest taskId) "orch" none 0) := by
  intro request pubkey budget nowMs task heq hprep
  cases heq
  rw [prepare_empty] at hprep
  cases hprep
  exact nodeA_readsBack taskId

theorem startup_live_after_one_accept :
    ∃ acts s, run (step nodeA) init acts = some s ∧ s.main = .stopped ∧
      s.storage.pendingRows.length = 1 ∧ StartupLive nodeA s := by
  obtain ⟨acts, s, hback, hrun, hstop, hcount⟩ :=
    exists_run_pending (fun i => nodeA_readsBack (seriesId i)) 1
  exact ⟨acts, s, hrun, hstop, hcount,
    (startup_live_iff hback hrun hstop).mpr (by rw [hcount]; decide)⟩

/-- **A backlog of 101 rows**: the next start is stuck. -/
theorem backlog_sticks :
    ∃ acts s, run (step nodeA) init acts = some s ∧ s.main = .stopped ∧
      s.storage.pendingRows.length = 101 ∧
      ∃ acts' s', (∀ a ∈ acts', ofStartup a = true) ∧ run (step nodeA) s acts' = some s' ∧
        Stuck s' ∧ step nodeA s' .start = none ∧ step nodeA s' .main = none := by
  obtain ⟨acts, s, hback, hrun, hstop, hcount⟩ :=
    exists_run_pending (fun i => nodeA_readsBack (seriesId i)) 101
  have hr : Readable nodeA s :=
    run_inv_of_forall (fun _ _ _ => step_readable) readable_init hback hrun
  have hp : Phases s := run_inv (fun _ _ _ => step_phases) phases_init hrun
  obtain ⟨tasks, htasks, hlen⟩ := getPendingTasks_ok hr
  obtain ⟨acts', s', hacts', hrun', hstuck⟩ := restore_sticks nodeA _ { s with
      main := .restore (tasks.map fun t => ⟨t.1, t.2⟩)
      pendingTasks := tasks.length } rfl (hp.starting (by simp [hstop])).worker
    (by simp [(hp.stopped hstop).1]) (by simp [(hp.stopped hstop).1, hlen, hcount, queueCapacity])
  refine ⟨acts, s, hrun, hstop, hcount, .start :: acts', s', by simpa [ofStartup] using hacts', ?_,
    hstuck, ?_, ?_⟩
  · rw [run_cons, start_step hstop htasks]
    exact hrun'
  · obtain ⟨⟨q, todo, hm⟩, -⟩ := hstuck
    simp [step, startStep, hm]
  · obtain ⟨⟨q, todo, hm⟩, hfull, -⟩ := hstuck
    simp [step, mainStep, hm, Nat.not_lt.mpr hfull]

end WqcNode.Application.Recovery
