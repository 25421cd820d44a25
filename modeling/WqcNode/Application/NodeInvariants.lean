import WqcNode.Application.NodeMachine
import WqcNode.Lib.Fallible

/-! # Invariants of the node

What holds in every reachable state of the machine: before `main` is through nothing else runs
(`Phases`), every stored payload is read back as the task of its key (`Readable`), and every row id
in use is below the next one (`Fresh`). -/

namespace WqcNode.Application.NodeInvariants

open WqcNode.Lib WqcNode.Lib.Machine WqcNode.Infra WqcNode.Domain.Models
open WqcNode.Application.NodeMachine

variable {env : Env} {s s' : Node} {a : Act}

/-! ### What runs before `main` is through -/

/-- Nothing but `main` has been spawned. -/
structure Quiescent (s : Node) : Prop where
  worker : s.worker = .unspawned
  retry : s.retry = .unspawned
  accepts : s.accepts = []

/-- Before `main` is through nothing else runs, and a stopped process has no channel. -/
structure Phases (s : Node) : Prop where
  starting : s.main ≠ .running → Quiescent s
  stopped : s.main = .stopped → s.queue = [] ∧ s.pendingTasks = 0

theorem phases_init : Phases init := ⟨fun _ => ⟨rfl, rfl, rfl⟩, fun _ => ⟨rfl, rfl⟩⟩

theorem Quiescent.acceptStep (hq : Quiescent s) (i : ℕ) (c : Choice) :
    acceptStep env s i c = none := by
  simp [NodeMachine.acceptStep, hq.accepts]

theorem Quiescent.workerStep (hq : Quiescent s) (c : Choice) : workerStep env s c = none := by
  simp [NodeMachine.workerStep, hq.worker]

theorem Quiescent.retryStep (hq : Quiescent s) (c : Choice) : retryStep env s c = none := by
  simp [NodeMachine.retryStep, hq.retry]

theorem step_phases (hp : Phases s) (h : step env s a = some s') : Phases s' := by
  have hrunning : ∀ {t : Node}, s.main = .running → t.main = s.main → Phases t := fun hrun ht =>
    ⟨fun hne => absurd (ht.trans hrun) hne, fun hst => by rw [ht, hrun] at hst; cases hst⟩
  cases step_move h with
  | unread => exact hp
  | read main =>
    have hq := hp.starting (by simp [main])
    exact ⟨fun _ => ⟨hq.worker, hq.retry, hq.accepts⟩, fun hst => by cases hst⟩
  | restored main | requeued main =>
    have hq := hp.starting (by simp [main])
    exact ⟨fun _ => ⟨hq.worker, hq.retry, hq.accepts⟩, fun hst => by cases hst⟩
  | spawned => exact ⟨fun hne => absurd rfl hne, fun hst => by cases hst⟩
  | refused main | called main | pruned main => exact hrunning main rfl
  | received | lost =>
    exact ⟨fun hne => ⟨(hp.starting hne).worker, (hp.starting hne).retry,
      (hp.starting hne).accepts⟩, hp.stopped⟩
  | crashed => exact ⟨fun _ => ⟨rfl, rfl, rfl⟩, fun _ => ⟨rfl, rfl⟩⟩
  | accept =>
    have hrun : s.main = .running := by
      by_contra hne
      simp [step, (hp.starting hne).acceptStep] at h
    exact hrunning hrun (acceptStep_frame h).1
  | worker =>
    have hrun : s.main = .running := by
      by_contra hne
      simp [step, (hp.starting hne).workerStep] at h
    exact hrunning hrun (workerStep_frame h).1
  | retry =>
    have hrun : s.main = .running := by
      by_contra hne
      simp [step, (hp.starting hne).retryStep] at h
    exact hrunning hrun (retryStep_frame h).1
  | panicked spawned =>
    have hrun : s.main = .running := by
      by_contra hne
      exact spawned (hp.starting hne).worker
    exact hrunning hrun rfl

/-! ### Stored tasks are read back -/

/-- The task a dispatch prepares is read back from its JSON as it was. -/
def ReadsBack (env : Env) (a : Act) : Prop :=
  ∀ request pubkey budget nowMs task, a = .dispatch request pubkey budget nowMs →
    prepare env request pubkey budget nowMs = .ok task → env.serde.ReadsBack task

/-- Every stored payload is the JSON of a task under its key; an accept call that has not saved its
task has one that is read back. -/
structure Readable (env : Env) (s : Node) : Prop where
  rows : ∀ key row, s.storage.tasks.lookup key = some row →
    ∃ task, env.serde.taskFromStr row.payload = .ok task ∧ task.key = key
  calls : ∀ acc ∈ s.accepts, acc.pc = .lookup ∨ acc.pc = .save → env.serde.ReadsBack acc.task

theorem lookup_updateStatus {st : Storage} {key k : Key} {status : Status} {row : TaskRow}
    (h : (st.updateStatus key status).tasks.lookup k = some row) :
    ∃ row₀, st.tasks.lookup k = some row₀ ∧ row₀.payload = row.payload ∧ row₀.id = row.id := by
  obtain ⟨row₀, h₀, rfl⟩ := Option.map_eq_some_iff.mp ((Table.lookup_adjust ..).symm.trans h)
  refine ⟨row₀, h₀, ?_⟩
  split_ifs <;> exact ⟨rfl, rfl⟩

theorem readable_init : Readable env init :=
  ⟨fun _ _ h => by simp [init, Storage.new] at h, fun _ h => by simp [init] at h⟩

theorem rows_readable (hr : Readable env s) {st : Storage} (hc : TasksChange env s a st) {key : Key}
    {row : TaskRow} (hrow : st.tasks.lookup key = some row) :
    ∃ task, env.serde.taskFromStr row.payload = .ok task ∧ task.key = key := by
  cases hc with
  | same tasks => exact hr.rows key row (tasks ▸ hrow)
  | @insert i c acc text call pc sql payload fresh =>
    simp only [Table.lookup_insert_if] at hrow
    split_ifs at hrow with hkey
    · cases hrow
      obtain ⟨text', htext', hback⟩ := hr.calls acc (List.mem_of_getElem? call) (.inr pc)
      obtain rfl : text = text' := by simpa [payload] using htext'
      exact ⟨acc.task, hback, hkey.symm⟩
    · exact hr.rows key row hrow
  | status pc sql =>
    obtain ⟨row₀, h₀, hpay, -⟩ := lookup_updateStatus hrow
    exact hpay ▸ hr.rows key row₀ h₀
  | prune t =>
    simp only [Storage.pruneTerminalTasks, Table.lookup_retain, Option.filter_eq_some_iff] at hrow
    exact hr.rows key row hrow.1

theorem step_readable (hr : Readable env s) (hb : ReadsBack env a) (h : step env s a = some s') :
    Readable env s' := by
  refine ⟨fun key row hrow => rows_readable hr (step_tasks h) hrow, fun acc hacc hpc => ?_⟩
  cases step_accepts h with
  | same accepts => exact hr.calls acc (accepts ▸ hacc) hpc
  | refused prep accepts =>
    rw [accepts, List.mem_append, List.mem_singleton] at hacc
    rcases hacc with hacc | rfl
    · exact hr.calls acc hacc hpc
    · simp at hpc
  | called prep accepts =>
    rw [accepts, List.mem_append, List.mem_singleton] at hacc
    rcases hacc with hacc | rfl
    · exact hr.calls acc hacc hpc
    · exact hb _ _ _ _ _ rfl prep
  | @moved i c acc₀ _ call move =>
    obtain ⟨acc', haccepts, htask, hlook, hsave⟩ := move.accepts
    rw [haccepts] at hacc
    rcases List.mem_or_eq_of_mem_set hacc with hacc | rfl
    · exact hr.calls acc hacc hpc
    · rw [htask]
      refine hr.calls acc₀ (List.mem_of_getElem? call) ?_
      rcases hpc with hpc | hpc
      · exact absurd hpc hlook
      · exact .inl (hsave hpc)
  | cleared accepts => simp [accepts] at hacc

/-! ### Row ids are fresh -/

/-- The tasks `main` holds while it restores. -/
def restoring : MainPc → List QueuedTask
  | .restore todo => todo
  | .send q todo => q :: todo
  | _ => []

/-- Every row id in use is below the next one, and a call that has saved its task knows its row. -/
structure Fresh (s : Node) : Prop where
  rows : ∀ key row, s.storage.tasks.lookup key = some row → row.id < s.storage.nextTaskId
  calls : ∀ acc ∈ s.accepts, ∀ r, acc.row = some r → r < s.storage.nextTaskId
  saved : ∀ acc ∈ s.accepts, acc.pc = .count ∨ acc.pc = .hold ∨ acc.pc = .enqueue →
    acc.row.isSome
  restore : ∀ q ∈ restoring s.main, q.row < s.storage.nextTaskId
  enqueued : ∀ r ∈ s.history.enqueued, r < s.storage.nextTaskId

theorem fresh_init : Fresh init :=
  ⟨fun _ _ h => by simp [init, Storage.new] at h, fun _ h => by simp [init] at h,
    fun _ h => by simp [init] at h, fun _ h => by simp [init, restoring] at h,
    fun _ h => by simp [init] at h⟩

theorem tasksChange_next_le {st : Storage} (hc : TasksChange env s a st) :
    s.storage.nextTaskId ≤ st.nextTaskId := by
  cases hc with
  | same _ next => exact next.ge
  | insert => exact Nat.le_succ _
  | status | prune => exact le_refl _

theorem tasksChange_rows_fresh {st : Storage} (hf : Fresh s) (hc : TasksChange env s a st) {key : Key}
    {row : TaskRow} (hrow : st.tasks.lookup key = some row) : row.id < st.nextTaskId := by
  cases hc with
  | same tasks next => exact next ▸ hf.rows key row (tasks ▸ hrow)
  | insert call pc sql payload fresh =>
    simp only [Table.lookup_insert_if] at hrow
    split_ifs at hrow
    · cases hrow
      exact Nat.lt_succ_self _
    · exact Nat.lt_succ_of_lt (hf.rows key row hrow)
  | status pc sql =>
    obtain ⟨row₀, h₀, -, hid⟩ := lookup_updateStatus hrow
    exact hid ▸ hf.rows key row₀ h₀
  | prune t =>
    simp only [Storage.pruneTerminalTasks, Table.lookup_retain, Option.filter_eq_some_iff] at hrow
    exact hf.rows key row hrow.1

/-- The channel grows by what `main` restores or an accept call sends. -/
theorem step_enqueued (h : step env s a = some s') :
    s'.history.enqueued = s.history.enqueued ∨
    (∃ q todo, a = .main ∧ s.main = .send q todo ∧
      s'.history.enqueued = s.history.enqueued ++ [q.row]) ∨
    ∃ i c acc, a = .accept i c ∧ s.accepts[i]? = some acc ∧ acc.pc = .enqueue ∧
      s'.accepts = s.accepts.set i { acc with pc := .done (.ok ()) } ∧
      s'.history.enqueued = s.history.enqueued ++ [acc.row.getD 0] := by
  cases step_move h with
  | requeued main => exact .inr (.inl ⟨_, _, rfl, main, rfl⟩)
  | accept call move =>
    cases move with
    | enqueued pc => exact .inr (.inr ⟨_, _, _, rfl, call, pc, rfl, rfl⟩)
    | _ => exact .inl rfl
  | worker move => cases move <;> exact .inl rfl
  | retry => exact .inl (retryStep_frame h).2.2.2.2.2.2.2.2
  | _ => exact .inl rfl

/-- `main` restores what it has read at the start. -/
theorem step_restoring (h : step env s a = some s') :
    (∀ q ∈ restoring s'.main, q ∈ restoring s.main) ∨
    ∃ tasks, s.storage.getPendingTasks env.serde = .ok tasks ∧ s'.storage = s.storage ∧
      s'.main = .restore (tasks.map fun t => ⟨t.1, t.2⟩) := by
  have hkeep : s'.main = s.main → ∀ q ∈ restoring s'.main, q ∈ restoring s.main :=
    fun hmain q hq => hmain ▸ hq
  cases step_move h with
  | unread => exact .inl (hkeep rfl)
  | read main rows => exact .inr ⟨_, rows, rfl, rfl⟩
  | spawned main => exact .inl fun q hq => absurd hq (by simp [restoring])
  | restored main => exact .inl fun q hq => by rwa [main]
  | requeued main => exact .inl fun q hq => by rw [main]; exact List.mem_cons_of_mem _ hq
  | accept => exact .inl (hkeep (acceptStep_frame h).1)
  | worker => exact .inl (hkeep (workerStep_frame h).1)
  | retry => exact .inl (hkeep (retryStep_frame h).1)
  | crashed => exact .inl fun _ hq => absurd hq (by simp [crashed, init, restoring])
  | _ => exact .inl (hkeep rfl)

/-- What is restored at a start comes from a pending row, under its id. -/
theorem mem_getPendingTasks {serde : Serde} {st : Storage} {tasks : List (ℕ × ComputeTask)}
    (h : st.getPendingTasks serde = .ok tasks) {t : ℕ × ComputeTask} (ht : t ∈ tasks) :
    ∃ key row, st.tasks.lookup key = some row ∧ row.status = .pending ∧ row.id = t.1 ∧
      serde.taskFromStr row.payload = .ok t.2 := by
  obtain ⟨row, hrow, hf⟩ := Fallible.mapM_mem h t ht
  simp only [Storage.pendingRows, List.mem_insertionSort, List.mem_filter, List.mem_map,
    decide_eq_true_eq] at hrow
  obtain ⟨⟨e, he, rfl⟩, hpend⟩ := hrow
  refine ⟨e.1, e.2, Table.mem_entries.mp he, hpend, ?_⟩
  cases hdec : serde.taskFromStr e.2.payload with
  | error _ => simp [hdec, Except.map] at hf
  | ok task =>
    simp only [hdec, Except.map, Except.ok.injEq] at hf
    subst hf
    exact ⟨rfl, rfl⟩

/-- A move gives its call a row only by inserting it, under the next id. -/
theorem acceptMove_row {i : ℕ} {c : Choice} {acc : Accept} (hm : AcceptMove env s i c acc s') :
    ∃ acc', s'.accepts = s.accepts.set i acc' ∧ acc'.task = acc.task ∧
      (acc'.row = acc.row ∧ (acc'.pc = .count ∨ acc'.pc = .hold ∨ acc'.pc = .enqueue →
          acc.pc = .count ∨ acc.pc = .hold ∨ acc.pc = .enqueue) ∨
        acc.pc = .save ∧ acc'.pc = .count ∧ acc'.row = some s.storage.nextTaskId ∧
          s'.storage.nextTaskId = s.storage.nextTaskId + 1) := by
  cases hm with
  | @inserted st pc save =>
    obtain ⟨-, text, -, -, hst⟩ := saves_ok save
    exact ⟨_, rfl, rfl, .inr ⟨pc, rfl, rfl, by rw [hst]⟩⟩
  | counted pc | held pc => exact ⟨_, rfl, rfl, .inl ⟨rfl, by simp [pc]⟩⟩
  | _ => exact ⟨_, rfl, rfl, .inl ⟨rfl, by simp⟩⟩

theorem step_fresh (hf : Fresh s) (h : step env s a = some s') : Fresh s' := by
  have hle := tasksChange_next_le (step_tasks h)
  refine ⟨fun key row hrow => tasksChange_rows_fresh hf (step_tasks h) hrow, fun acc hacc r hr => ?_,
    fun acc hacc hpc => ?_, fun q hq => ?_, fun r hr => ?_⟩
  · cases step_accepts h with
    | same accepts => exact (hf.calls acc (accepts ▸ hacc) r hr).trans_le hle
    | refused _ accepts | called _ accepts =>
      rw [accepts, List.mem_append, List.mem_singleton] at hacc
      rcases hacc with hacc | rfl
      · exact (hf.calls acc hacc r hr).trans_le hle
      · simp at hr
    | moved call move =>
      obtain ⟨acc', haccepts, -, hrow⟩ := acceptMove_row move
      rw [haccepts] at hacc
      rcases List.mem_or_eq_of_mem_set hacc with hacc | rfl
      · exact (hf.calls acc hacc r hr).trans_le hle
      · rcases hrow with ⟨hrow, -⟩ | ⟨-, -, hrow, hnext⟩
        · exact (hf.calls _ (List.mem_of_getElem? call) r (hrow ▸ hr)).trans_le hle
        · rw [hrow] at hr
          cases hr
          omega
    | cleared accepts => simp [accepts] at hacc
  · cases step_accepts h with
    | same accepts => exact hf.saved acc (accepts ▸ hacc) hpc
    | refused _ accepts | called _ accepts =>
      rw [accepts, List.mem_append, List.mem_singleton] at hacc
      rcases hacc with hacc | rfl
      · exact hf.saved acc hacc hpc
      · simp at hpc
    | moved call move =>
      obtain ⟨acc', haccepts, -, hrow⟩ := acceptMove_row move
      rw [haccepts] at hacc
      rcases List.mem_or_eq_of_mem_set hacc with hacc | rfl
      · exact hf.saved acc hacc hpc
      · rcases hrow with ⟨hrow, hpcs⟩ | ⟨-, -, hrow, -⟩
        · exact hrow ▸ hf.saved _ (List.mem_of_getElem? call) (hpcs hpc)
        · simp [hrow]
    | cleared accepts => simp [accepts] at hacc
  · rcases step_restoring h with hsub | ⟨tasks, htasks, hst, hmain⟩
    · exact (hf.restore q (hsub q hq)).trans_le hle
    · simp only [hmain, restoring, List.mem_map] at hq
      obtain ⟨t, ht, rfl⟩ := hq
      obtain ⟨key, row, hrow, -, hid, -⟩ := mem_getPendingTasks htasks ht
      rw [hst, ← hid]
      exact hf.rows key row hrow
  · rcases step_enqueued h with henq | ⟨q, todo, -, hmain, henq⟩ | ⟨i, c, acc, -, hacc, hpc, -, henq⟩
    · exact (hf.enqueued r (henq ▸ hr)).trans_le hle
    · rw [henq, List.mem_append, List.mem_singleton] at hr
      rcases hr with hr | rfl
      · exact (hf.enqueued r hr).trans_le hle
      · exact (hf.restore q (by simp [hmain, restoring])).trans_le hle
    · rw [henq, List.mem_append, List.mem_singleton] at hr
      rcases hr with hr | rfl
      · exact (hf.enqueued r hr).trans_le hle
      · have hmem := List.mem_of_getElem? hacc
        obtain ⟨r, hrow⟩ := Option.isSome_iff_exists.mp (hf.saved acc hmem (.inr (.inr hpc)))
        rw [hrow]
        exact (hf.calls acc hmem r hrow).trans_le hle

end WqcNode.Application.NodeInvariants
