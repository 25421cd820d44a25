import WqcNode.Application.AcceptOnce

/-! # What a failed accept leaves behind (`application/accept_task.rs`)

`accept_compute_task` writes the row, the counter, the ledger and the channel one after the other.
An error before the row is written changes nothing. When the channel turns out to be closed the
counter and the held entry are taken back, but the row stays, and a parent's reservation the hold
has replaced is gone.

* `unchanged_iff_workerThere`: while a call runs and the rest of the node leaves the tables alone, a
  call that fails has changed nothing exactly if the worker was there when the call sent its
  task. -/

namespace WqcNode.Application.FailedAccept

open WqcNode.Lib WqcNode.Lib.Machine WqcNode.Infra WqcNode.Domain.Models
open WqcNode.Domain.WorkBudget WqcNode.Application.NodeMachine WqcNode.Application.Recovery

/-! ### The call and what is around it -/

/-- The tasks table, `pending_tasks` and the ledger are as before. -/
structure Unchanged (s s' : Node) : Prop where
  tasks : s'.storage.tasks = s.storage.tasks
  pendingTasks : s'.pendingTasks = s.pendingTasks
  work : s'.work = s.work

/-- The step is one of the `i`-th call, or touches neither the call nor what it writes. -/
def Alone (env : Env) (i : ℕ) (s : Node) (a : Act) : Prop :=
  (∃ c, a = .accept i c) ∨
    ∀ s', step env s a = some s' → s'.accepts[i]? = s.accepts[i]? ∧ Unchanged s s'

/-- If the `i`-th call sends its task in this step, the worker is there. -/
def WorkerThere (i : ℕ) (s : Node) (a : Act) : Prop :=
  ∀ c acc, a = .accept i c → s.accepts[i]? = some acc → acc.pc = .enqueue → s.worker ≠ .panicked

theorem Unchanged.trans {s t u : Node} (h : Unchanged s t) (h' : Unchanged t u) : Unchanged s u :=
  ⟨h'.tasks.trans h.tasks, h'.pendingTasks.trans h.pendingTasks, h'.work.trans h.work⟩

theorem Unchanged.setAccept {s t : Node} (h : Unchanged s t) (i : ℕ) (acc : Accept) :
    Unchanged s (setAccept t i acc) :=
  ⟨h.tasks, h.pendingTasks, h.work⟩

/-! ### The phases of a call -/

section Phases

variable {env : Env} {s₀ s s' t : Node} {i : ℕ} {a : Act} {acts : List Act}

/-- The call is at a place of `pcs`. -/
def At (i : ℕ) (pcs : AcceptPc → Prop) (s : Node) : Prop :=
  ∃ acc, s.accepts[i]? = some acc ∧ pcs acc.pc

/-- A row was stored since `s₀`. -/
def Stored (s₀ s : Node) : Prop :=
  ∃ key, s₀.storage.tasks.lookup key = none ∧ (s.storage.tasks.lookup key).isSome

/-- Before the row is stored, or after an answer without storing it. -/
inductive Early : AcceptPc → Prop
  | lookup : Early .lookup
  | save : Early .save
  | conflict (err : String) : Early (.conflict err)
  | done (result : Except AcceptTaskError Unit) : Early (.done result)

/-- From the stored row to the sent task. -/
inductive Sending : AcceptPc → Prop
  | count : Sending .count
  | hold : Sending .hold
  | enqueue : Sending .enqueue
  | done : Sending (.done (.ok ()))

/-- The task could not be sent. -/
inductive Unsent : AcceptPc → Prop
  | uncount : Unsent .uncount
  | release : Unsent .release
  | done : Unsent (.done (.error .queueFull))

theorem Stored.not_unchanged (h : Stored s₀ s) : ¬ Unchanged s₀ s := by
  rintro ⟨htasks, -, -⟩
  obtain ⟨key, hnone, hsome⟩ := h
  rw [htasks, hnone] at hsome
  cases hsome

theorem Stored.of_tasks (h : Stored s₀ s) (htasks : s'.storage.tasks = s.storage.tasks) :
    Stored s₀ s' := by
  obtain ⟨key, hnone, hsome⟩ := h
  exact ⟨key, hnone, htasks ▸ hsome⟩

/-- A step of another task keeps the call where it is. -/
theorem At.of_silent {pcs : AcceptPc → Prop} (h : At i pcs s)
    (hsilent : s'.accepts[i]? = s.accepts[i]?) : At i pcs s' := by
  obtain ⟨acc, hacc, hpc⟩ := h
  exact ⟨acc, hsilent.trans hacc, hpc⟩

theorem at_set {pcs : AcceptPc → Prop} {acc acc' : Accept} (hacc : s.accepts[i]? = some acc)
    (hset : s'.accepts = s.accepts.set i acc') (hpc : pcs acc'.pc) : At i pcs s' := by
  refine ⟨acc', ?_, hpc⟩
  have hlt := (List.getElem?_eq_some_iff.mp hacc).1
  rw [hset, List.getElem?_set_self hlt]

theorem At.move {pcs : AcceptPc → Prop} {c : Choice} (hat : At i pcs s)
    (h : acceptStep env s i c = some s') :
    ∃ acc, s.accepts[i]? = some acc ∧ pcs acc.pc ∧ AcceptMove env s i c acc s' := by
  obtain ⟨acc, hacc, hm⟩ := acceptStep_move h
  obtain ⟨acc', hacc', hpc⟩ := hat
  obtain rfl : acc = acc' := Option.some.inj (hacc.symm.trans hacc')
  exact ⟨acc, hacc, hpc, hm⟩

/-- A step before the row is stored: still nothing has changed, or the row is stored now. -/
theorem step_early (hat : At i Early s) (hsame : Unchanged s₀ s) (halone : Alone env i s a)
    (h : step env s a = some s') :
    (At i Early s' ∧ Unchanged s₀ s') ∨ (At i Sending s' ∧ Stored s₀ s') := by
  rcases halone with ⟨c, rfl⟩ | hsilent
  · obtain ⟨acc, hacc, hpc, hm⟩ := hat.move h
    cases hm with
    | lookupFailed | duplicate | saveFailed | sameTask | otherTask =>
      exact .inl ⟨at_set hacc rfl (.done _), hsame.setAccept ..⟩
    | absent => exact .inl ⟨at_set hacc rfl .save, hsame.setAccept ..⟩
    | conflict => exact .inl ⟨at_set hacc rfl (.conflict _), hsame.setAccept ..⟩
    | inserted pc save =>
      obtain ⟨-, text, -, hfresh, rfl⟩ := saves_ok save
      exact .inr ⟨at_set hacc rfl .count, acc.task.key, hsame.tasks ▸ hfresh, by simp⟩
    | counted pc | held pc | enqueued pc | gone pc | uncounted pc | released pc =>
      rw [pc] at hpc
      cases hpc
  · obtain ⟨hcall, hsame'⟩ := hsilent s' h
    exact .inl ⟨hat.of_silent hcall, hsame.trans hsame'⟩

/-- A step after the row is stored: the task is lost exactly if it is sent to no worker. -/
theorem step_sending (hat : At i Sending s) (hrow : Stored s₀ s) (halone : Alone env i s a)
    (h : step env s a = some s') :
    (At i Sending s' ∧ Stored s₀ s') ∨ (At i Unsent s' ∧ Stored s₀ s' ∧ ¬ WorkerThere i s a) := by
  rcases halone with ⟨c, rfl⟩ | hsilent
  · obtain ⟨acc, hacc, hpc, hm⟩ := hat.move h
    cases hm with
    | counted => exact .inl ⟨at_set hacc rfl .hold, hrow⟩
    | held => exact .inl ⟨at_set hacc rfl .enqueue, hrow⟩
    | enqueued => exact .inl ⟨at_set hacc rfl .done, hrow⟩
    | gone pc dead =>
      exact .inr ⟨at_set hacc rfl .uncount, hrow, fun hthere => hthere c acc rfl hacc pc dead⟩
    | lookupFailed pc | duplicate pc | absent pc | inserted pc | conflict pc | saveFailed pc
    | sameTask pc | otherTask pc | uncounted pc | released pc =>
      rw [pc] at hpc
      cases hpc
  · obtain ⟨hcall, hsame⟩ := hsilent s' h
    exact .inl ⟨hat.of_silent hcall, hrow.of_tasks hsame.tasks⟩

/-- What is taken back does not include the row. -/
theorem step_unsent (hat : At i Unsent s) (hrow : Stored s₀ s) (halone : Alone env i s a)
    (h : step env s a = some s') : At i Unsent s' ∧ Stored s₀ s' := by
  rcases halone with ⟨c, rfl⟩ | hsilent
  · obtain ⟨acc, hacc, hpc, hm⟩ := hat.move h
    cases hm with
    | uncounted => exact ⟨at_set hacc rfl .release, hrow⟩
    | released => exact ⟨at_set hacc rfl .done, hrow⟩
    | lookupFailed pc | duplicate pc | absent pc | inserted pc | conflict pc | saveFailed pc
    | sameTask pc | otherTask pc | counted pc | held pc | enqueued pc | gone pc =>
      rw [pc] at hpc
      cases hpc
  · obtain ⟨hcall, hsame⟩ := hsilent s' h
    exact ⟨hat.of_silent hcall, hrow.of_tasks hsame.tasks⟩

/-! ### Whole calls -/

/-- The call has returned an error. -/
def Failed (i : ℕ) (s : Node) : Prop := At i (fun pc => ∃ e, pc = .done (.error e)) s

theorem At.workerThere (hat : At i Early s) : WorkerThere i s a := by
  rintro c acc - hacc henq
  obtain ⟨acc', hacc', hpc⟩ := hat
  obtain rfl : acc = acc' := Option.some.inj (hacc.symm.trans hacc')
  rw [henq] at hpc
  cases hpc

theorem run_unsent (hat : At i Unsent s) (hrow : Stored s₀ s)
    (halone : StepsMeet (step env) (Alone env i) s acts) (h : run (step env) s acts = some t) :
    ¬ Unchanged s₀ t := by
  have hi : At i Unsent t ∧ Stored s₀ t := run_inv_of_stepsMeet
    (I := fun s => At i Unsent s ∧ Stored s₀ s)
    (fun _ _ _ hi halone h => step_unsent hi.1 hi.2 halone h) ⟨hat, hrow⟩ halone h
  exact hi.2.not_unchanged

/-- A call that has stored its row fails only when the worker is gone, and the row stays. -/
theorem run_sending (hat : At i Sending s) (hrow : Stored s₀ s)
    (halone : StepsMeet (step env) (Alone env i) s acts) (h : run (step env) s acts = some t)
    (hfailed : Failed i t) :
    ¬ Unchanged s₀ t ∧ ¬ StepsMeet (step env) (WorkerThere i) s acts := by
  induction acts generalizing s with
  | nil =>
    cases h
    obtain ⟨acc, hacc, e, herr⟩ := hfailed
    obtain ⟨acc', hacc', hpc⟩ := hat
    obtain rfl : acc = acc' := Option.some.inj (hacc.symm.trans hacc')
    rw [herr] at hpc
    cases hpc
  | cons a acts ih =>
    obtain ⟨s₁, hs₁, hrun⟩ := run_cons_some.mp h
    have hrest := halone.2 s₁ hs₁
    rcases step_sending hat hrow halone.1 hs₁ with ⟨hat₁, hrow₁⟩ | ⟨hat₁, hrow₁, hgone⟩
    · obtain ⟨hchanged, hmet⟩ := ih hat₁ hrow₁ hrest hrun
      exact ⟨hchanged, fun hall => hmet (hall.2 s₁ hs₁)⟩
    · exact ⟨run_unsent hat₁ hrow₁ hrest hrun, fun hall => hgone hall.1⟩

theorem run_early (hat : At i Early s) (hsame : Unchanged s₀ s)
    (halone : StepsMeet (step env) (Alone env i) s acts) (h : run (step env) s acts = some t)
    (hfailed : Failed i t) :
    Unchanged s₀ t ↔ StepsMeet (step env) (WorkerThere i) s acts := by
  induction acts generalizing s with
  | nil =>
    cases h
    exact ⟨fun _ => trivial, fun _ => hsame⟩
  | cons a acts ih =>
    obtain ⟨s₁, hs₁, hrun⟩ := run_cons_some.mp h
    have hrest := halone.2 s₁ hs₁
    have hmeet : StepsMeet (step env) (WorkerThere i) s (a :: acts) ↔
        StepsMeet (step env) (WorkerThere i) s₁ acts := by
      refine ⟨fun hall => hall.2 s₁ hs₁, fun hall => ⟨hat.workerThere, fun s₂ hs₂ => ?_⟩⟩
      obtain rfl : s₁ = s₂ := Option.some.inj (hs₁.symm.trans hs₂)
      exact hall
    rw [hmeet]
    rcases step_early hat hsame halone.1 hs₁ with ⟨hat₁, hsame₁⟩ | ⟨hat₁, hrow₁⟩
    · exact ih hat₁ hsame₁ hrest hrun
    · obtain ⟨hchanged, hmet⟩ := run_sending hat₁ hrow₁ hrest hrun hfailed
      exact iff_of_false hchanged hmet

/-- A dispatch starts a call and changes nothing else. -/
theorem dispatch_early {request : ComputeRequest} {pubkey : String} {budget : Option Budget}
    {nowMs : UInt64} (h : step env s (.dispatch request pubkey budget nowMs) = some s') :
    At s.accepts.length Early s' ∧ Unchanged s s' := by
  cases step_move h with
  | refused => exact ⟨⟨_, List.getElem?_concat_length, .done _⟩, rfl, rfl, rfl⟩
  | called => exact ⟨⟨_, List.getElem?_concat_length, .lookup⟩, rfl, rfl, rfl⟩

end Phases

/-- **Main result.** From any state and for any request, if the call returns an error and no other
step of its run touches what it writes: the tasks table, `pending_tasks` and the ledger are as
before the call exactly if the call did not find the worker gone when it sent its task. -/
theorem unchanged_iff_workerThere {env : Env} {s s₁ t : Node} {request : ComputeRequest}
    {pubkey : String} {budget : Option Budget} {nowMs : UInt64} {acts : List Act}
    (hcall : step env s (.dispatch request pubkey budget nowMs) = some s₁)
    (halone : StepsMeet (step env) (Alone env s.accepts.length) s₁ acts)
    (hrun : run (step env) s₁ acts = some t) (hfailed : Failed s.accepts.length t) :
    Unchanged s t ↔ StepsMeet (step env) (WorkerThere s.accepts.length) s₁ acts := by
  obtain ⟨hat, hsame⟩ := dispatch_early hcall
  exact run_early hat hsame halone hrun hfailed

/-- A node without tasks that has just started. -/
def idle : Node := { init with main := .running, worker := .recv, retry := .sleep }

/-- The database is locked when the call looks the task up. -/
theorem unchanged_iff_workerThere_locked :
    ∃ s₁ t, step nodeA idle (.dispatch (emptyRequest "sub-1") "orch" none 0) = some s₁ ∧
      run (step nodeA) s₁ [.accept 0 { sql := some "database is locked" }] = some t ∧
      (Unchanged idle t ↔ StepsMeet (step nodeA) (WorkerThere 0) s₁
        [.accept 0 { sql := some "database is locked" }]) := by
  have hcall : step nodeA idle (.dispatch (emptyRequest "sub-1") "orch" none 0) =
      some { idle with accepts := [⟨emptyTask nodeA "sub-1", .lookup, none⟩] } := by
    simp [step, idle, init, prepare_empty]
  exact ⟨_, { idle with accepts := [⟨emptyTask nodeA "sub-1",
      .done (.error (.storage "task lookup failed: database is locked")), none⟩] }, hcall, rfl,
    unchanged_iff_workerThere hcall ⟨.inl ⟨_, rfl⟩, fun _ _ => trivial⟩ rfl ⟨_, rfl, _, rfl⟩⟩

/-- What the `i`-th call has answered. -/
def answer (s : Node) (i : ℕ) : Option (Except AcceptTaskError Unit) :=
  (s.accepts[i]?).bind fun acc => match acc.pc with
    | .done result => some result
    | _ => none

/-- A dispatch whose task is stored is answered `Ok`, and nothing is sent to the worker. -/
theorem stored_answered {env : Env} {s : Node} {request : ComputeRequest} {pubkey : String}
    {budget : Option Budget} {nowMs : UInt64} {task : ComputeTask} {bytes : Bytes}
    (hm : s.main = .running) (hprep : prepare env request pubkey budget nowMs = .ok task)
    (hload : s.storage.loadTask env.serde task.key = .ok (some task))
    (hreq : env.serde.requestToVec (withoutNode task.request) = .ok bytes) :
    ∃ u, run (step env) s [.dispatch request pubkey budget nowMs, .accept s.accepts.length {}] =
        some u ∧ answer u s.accepts.length = some (.ok ()) ∧
      u.history.enqueued = s.history.enqueued := by
  have hmatch : dispatchPayloadMatches env.serde task task = true := by
    simp [dispatchPayloadMatches, hreq]
  refine ⟨{ s with accepts := s.accepts ++ [⟨task, .done (.ok ()), none⟩] }, ?_, ?_, rfl⟩
  · simp [run_cons, step, hm, hprep, acceptStep, hload, duplicateResult, hmatch, setAccept]
  · simp [answer]

def isRunning : MainPc → Bool
  | .running => true
  | _ => false

theorem isRunning_iff {m : MainPc} : isRunning m = true ↔ m = .running := by
  cases m <;> simp [isRunning]

/-- The call on a node whose worker has panicked: look up, save, count, hold, find the channel
closed, count off and release. -/
def unsentActs : List Act := List.replicate 7 (.accept 0 {})

/-- **The worker is gone**: the call answers `QueueFull` and its row stays, so the same dispatch
again is answered `Ok` although no task was ever sent to the worker. -/
theorem unsent_row_stays :
    ∃ s t u, run (step nodeA) init [.start, .main, .panic] = some s ∧
      run (step nodeA) s (.dispatch (emptyRequest "sub-1") "orch" none 0 :: unsentActs) = some t ∧
      answer t 0 = some (.error .queueFull) ∧ ¬ Unchanged s t ∧
      run (step nodeA) t [.dispatch (emptyRequest "sub-1") "orch" none 0, .accept 1 {}] = some u ∧
      answer u 1 = some (.ok ()) ∧ u.history.enqueued = [] := by
  have hrun : ((run (step nodeA) init [.start, .main, .panic]).bind fun s =>
      (run (step nodeA) s (.dispatch (emptyRequest "sub-1") "orch" none 0 :: unsentActs)).map fun t =>
        decide (answer t 0 = some (.error .queueFull) ∧ isRunning t.main = true ∧
          t.accepts.length = 1 ∧
          s.storage.tasks.lookup ("orch", "sub-1") = none ∧
          (t.storage.tasks.lookup ("orch", "sub-1")).map (·.payload) =
            some (taskJsonHead ++ "sub-1" ++ taskJsonTail) ∧
          t.history.enqueued = [])) = some true := by
    decide +kernel
  simp only [Option.bind_eq_some_iff, Option.map_eq_some_iff, decide_eq_true_eq] at hrun
  obtain ⟨s, hs, t, ht, hfull, hmain, hlen, hnone, ⟨row, hrow, htext⟩, hsent⟩ := hrun
  have hstored : Stored s t := ⟨("orch", "sub-1"), hnone, by simp [hrow]⟩
  obtain ⟨text, hwrite, hread⟩ := nodeA_readsBack "sub-1"
  obtain rfl : text = row.payload := htext ▸ (Except.ok.inj hwrite).symm
  have hload : t.storage.loadTask nodeA.serde ("orch", "sub-1") =
      .ok (some (emptyTask nodeA "sub-1")) := by
    rw [Storage.loadTask, hrow]
    simp only [hread, Except.map]
  obtain ⟨u, hu, hok, hsame⟩ := stored_answered (isRunning_iff.mp hmain)
    (prepare_empty nodeA "sub-1") hload rfl
  rw [hlen] at hu hok
  exact ⟨s, t, u, hs, ht, hfull, hstored.not_unchanged, hu, hok, hsame.trans hsent⟩

end WqcNode.Application.FailedAccept
