import WqcNode.Application.NodeInvariants
import WqcNode.Infra.TaskJson

/-! # A task stays what it was (`application/accept_task.rs`, `infra/storage.rs`, `main.rs`)

A task is prepared from a dispatch once. After that it passes through the database and the channel,
is read and queued again by every restart, and is loaded by the result retry loop. Wherever the node
has a task, it is one that was prepared (`step_everywhere`).

* `step_everywhere`: a property of the tasks that are prepared, if their JSON is read back, is one of
  all the tasks the node has, in a row or in hand, after every step.
* `prepared_readsBack`: a task prepared from a request that was read has such a JSON. -/

namespace WqcNode.Application.TaskIntegrity

open WqcNode.Lib WqcNode.Lib.Json WqcNode.Lib.Machine WqcNode.Lib.SerdeValue WqcNode.Infra
open WqcNode.Infra.TaskJson WqcNode.Domain.Models WqcNode.Domain.Validation WqcNode.Domain.WorkBudget
open WqcNode.Application.NodeMachine WqcNode.Application.NodeInvariants

variable {env : Env} {s s' : Node} {a : Act} {P : ComputeTask → Prop}

/-- The task the worker has in hand. -/
def inHand : WorkerPc → Option QueuedTask
  | .unspawned | .recv | .panicked => none
  | .start q | .compute q | .status q _ | .build q _ | .upsert q _ _ | .deliverStatus q _ _
  | .send q _ _ | .delete q _ _ | .retain q _ | .uncount q | .release q => some q

/-- Every task the node has satisfies `P`. -/
structure Everywhere (P : ComputeTask → Prop) (env : Env) (s : Node) : Prop where
  rows : ∀ key row, s.storage.tasks.lookup key = some row →
    ∃ task, P task ∧ task.key = key ∧ env.serde.taskFromStr row.payload = .ok task
  calls : ∀ acc ∈ s.accepts, (∀ e, acc.pc ≠ .done (.error e)) → P acc.task
  unsaved : ∀ acc ∈ s.accepts, acc.pc = .lookup ∨ acc.pc = .save → env.serde.ReadsBack acc.task
  queue : ∀ q ∈ s.queue, P q.task
  main : ∀ q ∈ restoring s.main, P q.task
  worker : ∀ q ∈ inHand s.worker, P q.task
  retry : ∀ task proof rest, s.retry = .retain task proof rest → P task

/-- What a dispatch prepares satisfies `P` and is read back from its JSON. -/
def Prepares (P : ComputeTask → Prop) (env : Env) (a : Act) : Prop :=
  ∀ request pubkey budget nowMs task, a = .dispatch request pubkey budget nowMs →
    prepare env request pubkey budget nowMs = .ok task → P task ∧ env.serde.ReadsBack task

theorem everywhere_init : Everywhere P env init where
  rows _ _ h := by simp [init, Storage.new] at h
  calls _ h := by simp [init] at h
  unsaved _ h := by simp [init] at h
  queue _ h := by simp [init] at h
  main _ h := by simp [init, restoring] at h
  worker _ h := by simp [init, inHand] at h
  retry _ _ _ h := by simp [init] at h

theorem Everywhere.mono {Q : ComputeTask → Prop} (h : ∀ task, P task → Q task)
    (he : Everywhere P env s) : Everywhere Q env s where
  rows key row hrow := (he.rows key row hrow).imp fun task ht => ⟨h task ht.1, ht.2⟩
  calls acc hacc hpc := h _ (he.calls acc hacc hpc)
  unsaved := he.unsaved
  queue q hq := h _ (he.queue q hq)
  main q hq := h _ (he.main q hq)
  worker q hq := h _ (he.worker q hq)
  retry task proof rest hr := h _ (he.retry task proof rest hr)

/-! ### One step -/

/-- A call that has ended makes no move. -/
theorem AcceptMove.live {i : ℕ} {c : Choice} {acc : Accept} (hm : AcceptMove env s i c acc s') :
    ∀ e, acc.pc ≠ .done (.error e) := by
  intro e hpc
  cases hm with
  | _ pc => rw [hpc] at pc; cases pc

/-- The worker has the task it had, or has taken it from the channel. -/
theorem WorkerMove.inHand {c : Choice} (hm : WorkerMove env s c s') :
    ∀ q ∈ inHand s'.worker, inHand s.worker = some q ∨ q ∈ s.queue := by
  intro q hq
  cases hm with
  | taken pc waiting =>
    cases hq
    exact .inr (by rw [waiting]; exact List.mem_cons_self ..)
  | released pc => cases hq
  | started pc | computed pc | statusSet pc | deliverStatusSet pc | retained pc | uncounted pc =>
    exact .inl (by rw [pc]; exact hq)
  | unbuilt pc _ | built pc _ | unstored pc _ | stored pc _ | sent pc _ | unsent pc _ | undeleted pc _
  | deleted pc _ => exact .inl (by rw [pc]; exact hq)

section Step

variable (he : Everywhere P env s)
include he

/-- What is restored was stored. -/
theorem restored_prepared {tasks : List (ℕ × ComputeTask)}
    (h : s.storage.getPendingTasks env.serde = .ok tasks) : ∀ t ∈ tasks, P t.2 := by
  intro t ht
  obtain ⟨key, row, hrow, -, -, hread⟩ := mem_getPendingTasks h ht
  obtain ⟨task, hP, -, hread'⟩ := he.rows key row hrow
  obtain rfl : task = t.2 := Except.ok.inj (hread'.symm.trans hread)
  exact hP

/-- What is loaded was stored. -/
theorem loaded_prepared {key : Key} {task : ComputeTask}
    (h : s.storage.loadTask env.serde key = .ok (some task)) : P task := by
  unfold Storage.loadTask at h
  split at h
  case h_2 => cases h
  case h_1 row hrow =>
    obtain ⟨task', hP, -, hread⟩ := he.rows key row hrow
    rw [hread] at h
    cases h
    exact hP

theorem step_rows (h : step env s a = some s') {key : Key} {row : TaskRow}
    (hrow : s'.storage.tasks.lookup key = some row) :
    ∃ task, P task ∧ task.key = key ∧ env.serde.taskFromStr row.payload = .ok task := by
  generalize hst : s'.storage = st at hrow
  have hc : TasksChange env s a st := hst ▸ step_tasks h
  cases hc with
  | same tasks => exact he.rows key row (tasks ▸ hrow)
  | @insert i c acc text call pc sql payload fresh =>
    simp only [Table.lookup_insert_if] at hrow
    split_ifs at hrow with hkey
    · cases hrow
      have hmem := List.mem_of_getElem? call
      obtain ⟨text', htext', hback⟩ := he.unsaved acc hmem (.inr pc)
      obtain rfl : text = text' := by simpa [payload] using htext'
      exact ⟨acc.task, he.calls acc hmem (by simp [pc]), hkey.symm, hback⟩
    · exact he.rows key row hrow
  | status pc sql =>
    obtain ⟨row₀, h₀, hpay, -⟩ := lookup_updateStatus hrow
    exact hpay ▸ he.rows key row₀ h₀
  | prune t =>
    simp only [Storage.pruneTerminalTasks, Table.lookup_retain, Option.filter_eq_some_iff] at hrow
    exact he.rows key row hrow.1

theorem step_calls (hp : Prepares P env a) (h : step env s a = some s') :
    ∀ acc ∈ s'.accepts, (∀ e, acc.pc ≠ .done (.error e)) → P acc.task := by
  intro acc hacc hpc
  cases step_accepts h with
  | same accepts => exact he.calls acc (accepts ▸ hacc) hpc
  | refused prep accepts =>
    rw [accepts, List.mem_append, List.mem_singleton] at hacc
    rcases hacc with hacc | rfl
    · exact he.calls acc hacc hpc
    · exact absurd rfl (hpc _)
  | called prep accepts =>
    rw [accepts, List.mem_append, List.mem_singleton] at hacc
    rcases hacc with hacc | rfl
    · exact he.calls acc hacc hpc
    · exact (hp _ _ _ _ _ rfl prep).1
  | @moved i c acc₀ _ call move =>
    obtain ⟨acc', haccepts, htask, -⟩ := move.accepts
    rw [haccepts] at hacc
    rcases List.mem_or_eq_of_mem_set hacc with hacc | rfl
    · exact he.calls acc hacc hpc
    · rw [htask]
      exact he.calls acc₀ (List.mem_of_getElem? call) (AcceptMove.live move)
  | cleared accepts => simp [accepts] at hacc

theorem step_unsaved (hp : Prepares P env a) (h : step env s a = some s') :
    ∀ acc ∈ s'.accepts, acc.pc = .lookup ∨ acc.pc = .save → env.serde.ReadsBack acc.task := by
  have hr : Readable env s :=
    ⟨fun key row hrow => (he.rows key row hrow).imp fun _ ht => ⟨ht.2.2, ht.2.1⟩, he.unsaved⟩
  have hb : ReadsBack env a := fun _ _ _ _ _ ha hprep => (hp _ _ _ _ _ ha hprep).2
  exact (step_readable hr hb h).calls

/-- A task comes into the channel from a call or from `main`. -/
theorem step_queue (h : step env s a = some s') : ∀ q ∈ s'.queue, P q.task := by
  intro q hq
  cases step_move h with
  | @requeued q' todo main room =>
    rcases List.mem_append.mp hq with hq | hq
    · exact he.queue q hq
    · obtain rfl := List.mem_singleton.mp hq
      exact he.main q (by simp [main, restoring])
  | @accept i c acc _ call move =>
    cases move with
    | enqueued pc =>
      rcases List.mem_append.mp hq with hq | hq
      · exact he.queue q hq
      · obtain rfl := List.mem_singleton.mp hq
        exact he.calls acc (List.mem_of_getElem? call) (by simp [pc])
    | _ => exact he.queue q hq
  | worker move =>
    cases move with
    | taken pc waiting => exact he.queue q (by rw [waiting]; exact List.mem_cons_of_mem _ hq)
    | _ => exact he.queue q hq
  | retry => exact he.queue q ((retryStep_frame h).2.2.2.1 ▸ hq)
  | panicked => cases hq
  | crashed => cases hq
  | _ => exact he.queue q hq

theorem step_main (h : step env s a = some s') : ∀ q ∈ restoring s'.main, P q.task := by
  intro q hq
  rcases step_restoring h with hsub | ⟨tasks, htasks, -, hmain⟩
  · exact he.main q (hsub q hq)
  · simp only [hmain, restoring, List.mem_map] at hq
    obtain ⟨t, ht, rfl⟩ := hq
    exact restored_prepared he htasks t ht

theorem step_inHand (h : step env s a = some s') : ∀ q ∈ inHand s'.worker, P q.task := by
  intro q hq
  rcases step_worker h with ⟨c, rfl⟩ | hsame | hnone | hrecv | hpanic
  · rcases WorkerMove.inHand (workerStep_move h) q hq with hold | hnew
    · exact he.worker q hold
    · exact he.queue q hnew
  · exact he.worker q (hsame ▸ hq)
  · rw [hnone] at hq
    cases hq
  · rw [hrecv] at hq
    cases hq
  · rw [hpanic] at hq
    cases hq

theorem step_retry_task (h : step env s a = some s') {task : ComputeTask} {proof : Proof}
    {rest : List PendingResult} (hr : s'.retry = .retain task proof rest) : P task := by
  rcases step_retry h with ⟨c, rfl⟩ | hsame | hnone | hsleep
  · cases retryStep_move h with
    | loaded pc load extract =>
      cases hr
      cases hsql : c.sql with
      | some e =>
        rw [hsql] at load
        cases load
      | none =>
        rw [hsql] at load
        exact loaded_prepared he load
    | _ => cases hr
  · exact he.retry task proof rest (hsame ▸ hr)
  · rw [hnone] at hr
    cases hr
  · rw [hsleep] at hr
    cases hr

/-- **One step** keeps every task what it was. -/
theorem step_everywhere (hp : Prepares P env a) (h : step env s a = some s') :
    Everywhere P env s' where
  rows _ _ := step_rows he h
  calls := step_calls he hp h
  unsaved := step_unsaved he hp h
  queue := step_queue he h
  main := step_main he h
  worker := step_inHand he h
  retry _ _ _ := step_retry_task he h

end Step

/-! ### What a dispatch prepares -/

mutual

/-- The normal form of a value is sorted and no deeper. -/
theorem normalizeGateValue_shape : ∀ {v : Value}, Sorted v →
    Sorted (normalizeGateValue v) ∧ depth (normalizeGateValue v) ≤ depth v
  | .null, h | .bool _, h | .number _, h | .string _, h => by
    simpa only [normalizeGateValue, le_refl, and_true] using h
  | .array items, h => by
    unfold normalizeGateValue
    split
    next item heq =>
      cases heq
      rw [Sorted, SortedItems] at h
      refine ⟨h.1, ?_⟩
      rw [depth, depthOfItems]
      omega
    next heq => cases heq
    next => exact ⟨h, le_rfl⟩
  | .object map, h => by
    rw [Sorted] at h
    obtain ⟨hs, hk, hd⟩ := normalizeGateMember_shape h.2
    rw [normalizeGateValue, Sorted, hk, depth, depth]
    exact ⟨⟨h.1, hs⟩, by omega⟩

theorem normalizeGateMember_shape : ∀ {map : List (String × Value)}, SortedMembers map →
    SortedMembers (normalizeGateMember map) ∧
      (normalizeGateMember map).map (·.1) = map.map (·.1) ∧
      depthOfMembers (normalizeGateMember map) ≤ depthOfMembers map
  | [], h => by
    rw [normalizeGateMember]
    exact ⟨h, rfl, le_rfl⟩
  | (key, value) :: rest, h => by
    rw [SortedMembers] at h
    rw [normalizeGateMember]
    split_ifs with hkey
    · obtain ⟨hs, hd⟩ := normalizeNestedGate_shape h.1
      rw [SortedMembers, depthOfMembers, depthOfMembers]
      exact ⟨⟨hs, h.2⟩, rfl, max_le_max hd le_rfl⟩
    · obtain ⟨hs, hk, hd⟩ := normalizeGateMember_shape h.2
      rw [SortedMembers, depthOfMembers, depthOfMembers, List.map_cons, hk, List.map_cons]
      exact ⟨⟨h.1, hs⟩, rfl, max_le_max le_rfl hd⟩

theorem normalizeNestedGate_shape : ∀ {v : Value}, Sorted v →
    Sorted (normalizeNestedGate v) ∧ depth (normalizeNestedGate v) ≤ depth v
  | .null, h | .bool _, h | .number _, h | .string _, h | .array _, h => by
    simpa only [normalizeNestedGate, le_refl, and_true] using h
  | .object map, h => by
    rw [Sorted] at h
    obtain ⟨hs, hk, hd⟩ := normalizeParamsMember_shape h.2
    rw [normalizeNestedGate, Sorted, hk, depth, depth]
    exact ⟨⟨h.1, hs⟩, by omega⟩

theorem normalizeParamsMember_shape : ∀ {map : List (String × Value)}, SortedMembers map →
    SortedMembers (normalizeParamsMember map) ∧
      (normalizeParamsMember map).map (·.1) = map.map (·.1) ∧
      depthOfMembers (normalizeParamsMember map) ≤ depthOfMembers map
  | [], h => by
    rw [normalizeParamsMember]
    exact ⟨h, rfl, le_rfl⟩
  | (key, value) :: rest, h => by
    rw [SortedMembers] at h
    rw [normalizeParamsMember]
    split_ifs with hkey
    · obtain ⟨hs, hd⟩ := normalizeGateValue_shape h.1
      rw [SortedMembers, depthOfMembers, depthOfMembers]
      exact ⟨⟨hs, h.2⟩, rfl, max_le_max hd le_rfl⟩
    · obtain ⟨hs, hk, hd⟩ := normalizeParamsMember_shape h.2
      rw [SortedMembers, depthOfMembers, depthOfMembers, List.map_cons, hk, List.map_cons]
      exact ⟨⟨h.1, hs⟩, rfl, max_le_max le_rfl hd⟩

end

/-- **What is prepared**: a request within the limit and with a circuit that passes the check; its
circuit is normalised and its node is this one. -/
theorem prepare_ok {request : ComputeRequest} {pubkey : String} {budget : Option Budget}
    {nowMs : UInt64} {task : ComputeTask} (h : prepare env request pubkey budget nowMs = .ok task) :
    request.qubitCount ≤ compactQubitLimit request.outputMode env.maxQubits env.maxMpsQubits ∧
      validateCircuitLogic env.serdeError request.qubitCount env.supportedGates request.circuit =
        .ok () ∧
      task = ⟨{ request with
        circuit := normalizeGateParams request.circuit
        nodeId := some env.peerId }, pubkey, budget, nowMs⟩ := by
  simp only [prepare, bind, Except.bind] at h
  split at h
  · cases h
  · rename_i hlimit
    cases hv : validateCircuitLogic env.serdeError request.qubitCount env.supportedGates
        request.circuit with
    | error msg =>
      rw [hv] at h
      cases h
    | ok u =>
      rw [hv] at h
      cases h
      have hle : ¬ request.qubitCount > compactQubitLimit request.outputMode env.maxQubits
          env.maxMpsQubits := by simpa using hlimit
      exact ⟨UInt64.not_lt.mp hle, rfl, rfl⟩

/-- A request whose JSON is read back is prepared as one. -/
theorem prepared_readable {request : ComputeRequest} {pubkey : String} {budget : Option Budget}
    {nowMs : UInt64} {task : ComputeTask} {room : ℕ} (hs : SortedParams request)
    (hr : ReadableRequest room request)
    (h : prepare env request pubkey budget nowMs = .ok task) :
    SortedParams task.request ∧ ReadableRequest room task.request := by
  obtain ⟨-, -, rfl⟩ := prepare_ok h
  have hgates : ∀ gate ∈ normalizeGateParams request.circuit,
      Sorted gate.params ∧ depth gate.params ≤ room := by
    intro gate hgate
    obtain ⟨gate₀, hgate₀, rfl⟩ := List.mem_map.mp hgate
    obtain ⟨hsorted, hdepth⟩ := normalizeGateValue_shape (hs gate₀ hgate₀)
    exact ⟨hsorted, hdepth.trans (hr.params gate₀ hgate₀)⟩
  exact ⟨fun gate hgate => (hgates gate hgate).1,
    ⟨fun gate hgate => (hgates gate hgate).2, hr.coeffs, hr.noise⟩⟩

/-- A task that is prepared from a request whose JSON is read back is read back from its own. -/
theorem prepared_readsBack {c : Codec} {errorText : String → String} (hc : c.floats.RoundTrips)
    {request : ComputeRequest} {pubkey : String} {budget : Option Budget} {nowMs : UInt64}
    {task : ComputeTask} (hs : SortedParams request) (hr : ReadableRequest paramsRoom request)
    (hb : ∀ b ∈ budget, isFinite (c.ofSecs b.expectedSecs) = true ∧
      c.toSecs (c.ofSecs b.expectedSecs) = b.expectedSecs)
    (h : prepare env request pubkey budget nowMs = .ok task) :
    (serde c errorText).ReadsBack task := by
  obtain ⟨hsorted, hreadable⟩ := prepared_readable hs hr h
  obtain ⟨-, -, rfl⟩ := prepare_ok h
  exact (readsBack_iff hc hsorted).mpr ⟨hreadable, hb⟩

/-- Two requests have the same JSON exactly if they are the same, apart from the node. -/
theorem dispatchPayloadMatches_iff {c : Codec} {errorText : String → String}
    (hc : c.floats.RoundTrips) (henv : env.serde = serde c errorText) {t t' : ComputeTask}
    (hs : SortedParams t.request) (hr : ReadableRequest paramsRoom t.request)
    (hs' : SortedParams t'.request) (hr' : ReadableRequest paramsRoom t'.request) :
    dispatchPayloadMatches env.serde t t' = true ↔
      t.orchestratorPubkey = t'.orchestratorPubkey ∧
        withoutNode t.request = withoutNode t'.request := by
  have hup : ∀ {r : ComputeRequest}, ReadableRequest paramsRoom r →
      ReadableRequest (paramsRoom + 1) (withoutNode r) := fun h =>
    ⟨fun gate hgate => (h.params gate hgate).trans (Nat.le_succ _), h.coeffs, h.noise⟩
  have hvec : ∀ r, env.serde.requestToVec r = .ok (requestToVec c r) := by
    intro r
    rw [henv]
    rfl
  unfold dispatchPayloadMatches
  by_cases hkey : t.orchestratorPubkey = t'.orchestratorPubkey
  · rw [if_neg (not_not.mpr hkey)]
    simp only [hvec, beq_iff_eq, hkey, true_and]
    constructor
    · exact requestToVec_inj hc hs hs' (hup hr) (hup hr')
    · intro h
      rw [h]
  · rw [if_pos hkey]
    simp [hkey]

/-- The rows can all be read, and what is restored satisfies `P`. -/
theorem getPendingTasks_ok (he : Everywhere P env s) :
    ∃ tasks, s.storage.getPendingTasks env.serde = .ok tasks ∧ ∀ t ∈ tasks, P t.2 := by
  have hrows : ∀ rows : List TaskRow, (∀ row ∈ rows, ∃ key, s.storage.tasks.lookup key = some row) →
      ∃ tasks, rows.mapM (fun row => (env.serde.taskFromStr row.payload).map (row.id, ·)) =
        .ok tasks := by
    intro rows
    induction rows with
    | nil => exact fun _ => ⟨[], rfl⟩
    | cons row rows ih =>
      intro hmem
      obtain ⟨key, hkey⟩ := hmem row (List.mem_cons_self ..)
      obtain ⟨task, -, -, hread⟩ := he.rows key row hkey
      obtain ⟨tasks, htasks⟩ := ih fun row' h => hmem row' (List.mem_cons_of_mem _ h)
      exact ⟨(row.id, task) :: tasks, Fallible.mapM_cons_eq_ok.mpr
        ⟨_, _, by rw [hread]; rfl, htasks, rfl⟩⟩
  obtain ⟨tasks, htasks⟩ := hrows s.storage.pendingRows fun row hrow => by
    simp only [Storage.pendingRows, List.mem_insertionSort, List.mem_filter, List.mem_map] at hrow
    obtain ⟨⟨e, he, rfl⟩, -⟩ := hrow
    exact ⟨e.1, Table.mem_entries.mp he⟩
  exact ⟨tasks, htasks, restored_prepared he htasks⟩

end WqcNode.Application.TaskIntegrity
