import WqcNode.Application.CrashSafety

/-! # Stored results are not computed again (`docs/OPERATIONS.md`, Crash recovery)

A restart computes the rows that are `pending`; a row in `pending_results` says that the result is
there. The worker writes the two tables one after the other, first the status and then the result.
If the prune loop deletes the terminal row in between, the same dispatch is accepted as a new task,
and the result is then stored beside its `pending` row.

* `not_recomputed`: with every statement succeeding, if no prune deletes the row of a task whose
  result is not stored yet, no key has a stored result and a `pending` row. -/

namespace WqcNode.Application.NoRecompute

open WqcNode.Lib WqcNode.Lib.Machine WqcNode.Infra WqcNode.Domain.Models
open WqcNode.Application.NodeMachine WqcNode.Application.NodeInvariants
open WqcNode.Application.Recovery WqcNode.Application.ResultOutbox WqcNode.Application.CrashSafety

variable {env : Env} {s s' : Node} {a : Act}

/-- No key has a stored result and a pending row, and so no task that a restart would compute has
its result stored. -/
structure NotRecomputed (env : Env) (s : Node) : Prop where
  rows : ∀ key row, s.storage.tasks.lookup key = some row → row.status = .pending →
    s.storage.pendingResults.lookup key = none
  restart : ∀ tasks, s.storage.getPendingTasks env.serde = .ok tasks → ∀ t ∈ tasks,
    s.storage.pendingResults.lookup t.2.key = none

/-- Every statement that is executed succeeds. -/
def SqlSucceeds : Act → Prop
  | .accept _ c | .worker c | .retry c => c.sql = none
  | _ => True

/-- The worker has not stored the result of its task. -/
def unstored : WorkerPc → Multiset QueuedTask
  | .start q | .compute q | .status q _ | .build q _ | .upsert q _ _ => {q}
  | _ => 0

/-- The tasks in the process whose result is not stored yet. -/
def outstanding (s : Node) : Multiset QueuedTask := (fromRow unstored).of s

/-- A prune leaves the rows of the outstanding tasks. -/
def PruneSpares (s : Node) : Act → Prop
  | .prune t => ∀ q ∈ outstanding s,
      (s.storage.pruneTerminalTasks t).tasks.lookup q.task.key = s.storage.tasks.lookup q.task.key
  | _ => True

instance PruneSpares.decidable (s : Node) : ∀ a, Decidable (PruneSpares s a)
  | .prune t => inferInstanceAs (Decidable (∀ q ∈ outstanding s,
      (s.storage.pruneTerminalTasks t).tasks.lookup q.task.key = s.storage.tasks.lookup q.task.key))
  | .start | .main | .dispatch .. | .accept .. | .worker _ | .panic | .retry _ | .receive _ | .lose _
  | .crash => isTrue trivial

theorem shrinks_unstored : Shrinks unstored := by
  refine ⟨⟨rfl, rfl, rfl⟩, fun {env s s' c} h => ?_⟩
  cases workerStep_move h with
  | taken pc waiting =>
    simp only [pc, waiting, unstored, add_zero]
    rw [← Multiset.cons_coe, ← Multiset.singleton_add, add_comm]
  | started pc | computed pc | statusSet pc | unbuilt pc | built pc | unstored pc | stored pc
  | deliverStatusSet pc | sent pc | unsent pc | undeleted pc | deleted pc | retained pc
  | uncounted pc | released pc => simp [pc, unstored, deleteResult]

/-! ### Terminal rows -/

/-- The key has a row, which is not pending. -/
def Terminal (st : Storage) (key : Key) : Prop :=
  ∃ row, st.tasks.lookup key = some row ∧ row.status ≠ .pending

theorem statusOf_ne (payload : TaskResultPayload) : statusOf payload ≠ .pending := by
  unfold statusOf
  split_ifs <;> decide

/-- A step that does not prune a row keeps it. -/
theorem row_stays {st : Storage} (hc : TasksChange env s a st) {key : Key}
    (hprune : ∀ t, a = .prune t →
      (s.storage.pruneTerminalTasks t).tasks.lookup key = s.storage.tasks.lookup key)
    (hrow : (s.storage.tasks.lookup key).isSome) : (st.tasks.lookup key).isSome := by
  cases hc with
  | same tasks => rwa [tasks]
  | insert call pc sql payload fresh =>
    rw [Table.lookup_insert_if]
    split_ifs
    · rfl
    · exact hrow
  | status pc sql => rwa [Storage.updateStatus, Table.lookup_adjust, Option.isSome_map]
  | prune t => rwa [hprune t rfl]

/-- A terminal row stays terminal until it is pruned. -/
theorem terminal_stays {st : Storage} (hc : TasksChange env s a st) {key : Key}
    (hprune : ∀ t, a = .prune t →
      (s.storage.pruneTerminalTasks t).tasks.lookup key = s.storage.tasks.lookup key)
    (hrow : Terminal s.storage key) : Terminal st key := by
  obtain ⟨row, hrow, hterm⟩ := hrow
  cases hc with
  | same tasks => exact ⟨row, tasks ▸ hrow, hterm⟩
  | insert call pc sql payload fresh =>
    refine ⟨row, ?_, hterm⟩
    rw [Table.lookup_insert_if, if_neg, hrow]
    rintro rfl
    simp [hrow] at fresh
  | @status c q payload pc sql =>
    refine ⟨_, by rw [Storage.updateStatus, Table.lookup_adjust, hrow, Option.map_some], ?_⟩
    split_ifs
    · exact statusOf_ne payload
    · exact hterm
  | prune t => exact ⟨row, (hprune t rfl).trans hrow, hterm⟩

/-- The prune leaves the rows with a stored result. -/
theorem prune_spares_stored {st : Storage} {key : Key} (t : ℤ)
    (hbox : (st.pendingResults.lookup key).isSome) :
    (st.pruneTerminalTasks t).tasks.lookup key = st.tasks.lookup key := by
  have hsome : (st.pendingResults.lookup key).isNone = false := by simpa using hbox
  rw [Storage.pruneTerminalTasks, Table.lookup_retain]
  cases st.tasks.lookup key with
  | none => rfl
  | some row => rw [Option.filter_some, hsome, Bool.and_false, Bool.not_false, if_pos rfl]

/-! ### The invariant -/

/-- Every outstanding task has a row; it is terminal once the worker has set its status, and stays
so while a result is stored under its key. -/
structure Stored (env : Env) (s : Node) : Prop where
  phases : Phases s
  readable : Readable env s
  rows : ∀ q ∈ outstanding s, (s.storage.tasks.lookup q.task.key).isSome
  worker : ∀ q payload, (s.worker = .build q payload ∨ ∃ body, s.worker = .upsert q payload body) →
    Terminal s.storage q.task.key
  results : ∀ key, (s.storage.pendingResults.lookup key).isSome → Terminal s.storage key

theorem stored_init : Stored env init where
  phases := phases_init
  readable := readable_init
  rows q hq := by
    have hnone : outstanding init = 0 := rfl
    simp [hnone] at hq
  worker := by simp [init]
  results := by simp [init, Storage.new]

theorem PruneSpares.row {q : QueuedTask} (hspares : PruneSpares s a) (hq : q ∈ outstanding s) :
    ∀ t, a = .prune t →
      (s.storage.pruneTerminalTasks t).tasks.lookup q.task.key = s.storage.tasks.lookup q.task.key := by
  rintro t rfl
  exact hspares q hq

theorem step_rows (hi : Stored env s) (hspares : PruneSpares s a) (h : step env s a = some s') :
    ∀ q ∈ outstanding s', (s'.storage.tasks.lookup q.task.key).isSome := by
  intro q hq
  cases step_share shrinks_unstored hi.phases h with
  | fewer le =>
    have hold := Multiset.mem_of_le le hq
    exact row_stays (step_tasks h) (hspares.row hold) (hi.rows q hold)
  | restored rows storage eq =>
    rw [outstanding, eq, Multiset.mem_coe, List.mem_map] at hq
    obtain ⟨t, ht, rfl⟩ := hq
    obtain ⟨key, row, hrow, -, -, hdec⟩ := mem_getPendingTasks rows ht
    obtain ⟨task, hdec', hkey⟩ := hi.readable.rows key row hrow
    obtain rfl : t.2 = task := Except.ok.inj (hdec.symm.trans hdec')
    rw [storage, hkey, hrow]
    rfl
  | @saved i c acc _ st call save storage eq =>
    obtain ⟨-, text, -, -, hst⟩ := saves_ok save
    rw [outstanding, eq, Multiset.mem_cons] at hq
    rcases hq with rfl | hq
    · simp [storage, hst]
    · exact row_stays (step_tasks h) (hspares.row hq) (hi.rows q hq)

/-- The worker builds and stores a result after it has set the status. -/
theorem workerStep_terminal (hi : Stored env s) {c : Choice} (hsql : c.sql = none)
    (h : workerStep env s c = some s') {q : QueuedTask} {payload : TaskResultPayload}
    (hw : s'.worker = .build q payload ∨ ∃ body, s'.worker = .upsert q payload body) :
    Terminal s'.storage q.task.key := by
  cases workerStep_move h with
  | @statusSet q₀ payload₀ pc =>
    obtain ⟨rfl, rfl⟩ : q₀ = q ∧ payload₀ = payload := by simpa using hw
    have hq : q₀ ∈ outstanding s := by simp [outstanding, Share.of, fromRow, pc, unstored]
    obtain ⟨row, hrow⟩ := Option.isSome_iff_exists.mp (hi.rows q₀ hq)
    refine ⟨{ row with status := statusOf payload₀ }, ?_, statusOf_ne payload₀⟩
    simp [hsql, tryUpdateStatus, Storage.updateStatus, Table.lookup_adjust, hrow]
  | @built q₀ payload₀ _ pc build =>
    obtain ⟨rfl, rfl⟩ : q₀ = q ∧ payload₀ = payload := by simpa using hw
    exact hi.worker q₀ payload₀ (.inl pc)
  | _ => simp at hw

theorem step_worker_terminal (hi : Stored env s) (hspares : PruneSpares s a) (hsql : SqlSucceeds a)
    (h : step env s a = some s') {q : QueuedTask} {payload : TaskResultPayload}
    (hw : s'.worker = .build q payload ∨ ∃ body, s'.worker = .upsert q payload body) :
    Terminal s'.storage q.task.key := by
  rcases step_worker h with ⟨c, rfl⟩ | hsame | hother | hother | hother
  · exact workerStep_terminal hi hsql h hw
  · rw [hsame] at hw
    have hq : q ∈ outstanding s := by
      rcases hw with hw | ⟨body, hw⟩ <;> simp [outstanding, Share.of, fromRow, hw, unstored]
    exact terminal_stays (step_tasks h) (hspares.row hq) (hi.worker q payload hw)
  all_goals simp [hother] at hw

theorem step_results_terminal (hi : Stored env s) (h : step env s a = some s') {key : Key}
    (hbox : (s'.storage.pendingResults.lookup key).isSome) : Terminal s'.storage key := by
  -- a row that had its result before
  have hold : (s.storage.pendingResults.lookup key).isSome → Terminal s'.storage key := fun hbox =>
    terminal_stays (step_tasks h) (fun t _ => prune_spares_stored t hbox) (hi.results key hbox)
  have hc := step_results h
  have ht := step_tasks h
  generalize hst : s'.storage = st at hc ht hbox hold
  cases hc with
  | same results => exact hold (results ▸ hbox)
  | @upsert c q payload body pc sql =>
    by_cases hkey : key = q.task.key
    · subst hkey
      exact terminal_stays ht (by simp) (hi.worker q payload (.inr ⟨body, pc⟩))
    · have hbody : (outboxBody (s.storage.upsertPendingResult q.task.key body c.now) key).isSome := by
        simpa [outboxBody] using hbox
      rw [outboxBody_upsert, if_neg hkey] at hbody
      exact hold (by simpa [outboxBody] using hbody)
  | workerDelete pc sql | retryDelete pc sql =>
    simp only [Storage.deletePendingResult, Table.lookup_erase_if] at hbox
    split_ifs at hbox
    · cases hbox
    · exact hold hbox
  | bump pc sql =>
    simp only [Storage.incrementPendingResultAttempts, Table.lookup_updateAll,
      Option.isSome_map] at hbox
    exact hold hbox

theorem step_stored (hi : Stored env s) (hback : ReadsBack env a) (hsql : SqlSucceeds a)
    (hspares : PruneSpares s a) (h : step env s a = some s') : Stored env s' where
  phases := step_phases hi.phases h
  readable := step_readable hi.readable hback h
  rows := step_rows hi hspares h
  worker _ _ hw := step_worker_terminal hi hspares hsql h hw
  results _ hbox := step_results_terminal hi h hbox

theorem Stored.notRecomputed (hi : Stored env s) : NotRecomputed env s := by
  have hrows : ∀ key row, s.storage.tasks.lookup key = some row → row.status = .pending →
      s.storage.pendingResults.lookup key = none := by
    intro key row hrow hpend
    rw [← Option.not_isSome_iff_eq_none]
    intro hbox
    obtain ⟨row', hrow', hterm⟩ := hi.results key hbox
    obtain rfl : row = row' := Option.some.inj (hrow.symm.trans hrow')
    exact hterm hpend
  refine ⟨hrows, fun tasks htasks t ht => ?_⟩
  obtain ⟨key, row, hrow, hpend, -, hdec⟩ := mem_getPendingTasks htasks ht
  obtain ⟨task, hdec', hkey⟩ := hi.readable.rows key row hrow
  obtain rfl : t.2 = task := Except.ok.inj (hdec.symm.trans hdec')
  rw [hkey]
  exact hrows key row hrow hpend

/-- **Main result.** With every executed statement succeeding and the process stopping anywhere: in
every run whose prunes spare the rows of outstanding tasks, in every state reached, no key has a
stored result and a pending row, and a restart computes no task whose result is stored. -/
theorem not_recomputed {acts : List Act} (hback : ∀ a ∈ acts, ReadsBack env a)
    (hsql : ∀ a ∈ acts, SqlSucceeds a) (hspares : StepsMeet (step env) PruneSpares init acts)
    (h : run (step env) init acts = some s) : NotRecomputed env s := by
  have hok : ∀ a ∈ acts, ReadsBack env a ∧ SqlSucceeds a := fun a ha => ⟨hback a ha, hsql a ha⟩
  have hi : Stored env s := run_inv_of_stepsMeet
    (fun _ _ _ hi hok => step_stored hi hok.1.1 hok.1.2 hok.2) stored_init
    ((stepsMeet_of_forall hok init).and hspares) h
  exact hi.notRecomputed

/-- The result is stored before the prune, and the process stops. -/
theorem not_recomputed_stored :
    ∃ s, run (step nodeA) init (computedActs ++ [.worker {}, .worker {}, .worker {}, .prune 1,
        .crash]) = some s ∧ s.storage.listPendingResults.length = 1 ∧ NotRecomputed nodeA s := by
  have hrun : (run (step nodeA) init (computedActs ++ [.worker {}, .worker {}, .worker {}, .prune 1,
      .crash])).any (fun s => decide (s.storage.listPendingResults.length = 1)) = true := by
    decide +kernel
  obtain ⟨s, hs, hp⟩ := (Option.any_eq_true _ _).mp hrun
  exact ⟨s, hs, of_decide_eq_true hp, not_recomputed (computedActs_readsBack (by simp))
    (by simp [computedActs, SqlSucceeds]) (by decide +kernel) hs⟩

/-- A prune between the status and the result; the dispatch comes again, is looked up and saved; the
worker builds and stores the result, and the process stops. -/
def prunedActs : List Act :=
  computedActs ++ [.worker {}, .prune 1, .dispatch (emptyRequest "sub-1") "orch" none 0, .accept 1 {},
    .accept 1 {}, .worker {}, .worker {}, .crash]

/-- **The row is pruned between the status and the result**: the result is stored beside the pending
row of the second dispatch. -/
theorem pruned_between_recomputed :
    ∃ s, (∀ a ∈ prunedActs, SqlSucceeds a) ∧ run (step nodeA) init prunedActs = some s ∧
      (∃ row, s.storage.tasks.lookup ("orch", "sub-1") = some row ∧ row.status = .pending) ∧
      (s.storage.pendingResults.lookup ("orch", "sub-1")).isSome ∧ ¬ NotRecomputed nodeA s := by
  have hrun : (run (step nodeA) init prunedActs).any (fun s =>
      decide ((s.storage.tasks.lookup ("orch", "sub-1")).map (·.status) = some .pending ∧
        (s.storage.pendingResults.lookup ("orch", "sub-1")).isSome)) = true := by
    decide +kernel
  obtain ⟨s, hs, hp⟩ := (Option.any_eq_true _ _).mp hrun
  obtain ⟨hrow, hbox⟩ := of_decide_eq_true hp
  obtain ⟨row, hrow, hstatus⟩ := Option.map_eq_some_iff.mp hrow
  refine ⟨s, by simp [prunedActs, computedActs, SqlSucceeds], hs, ⟨row, hrow, hstatus⟩, hbox,
    fun h => ?_⟩
  rw [h.rows _ row hrow hstatus] at hbox
  cases hbox

end WqcNode.Application.NoRecompute
