import WqcNode.Application.Recovery

/-! # Dispatches are accepted once (`application/accept_task.rs`)

Any number of accept calls for one key, none stored before, interleaved with each other, with calls
for other keys and with the worker: exactly one inserts the row and enqueues the task, and the
others answer as a comparison with the stored task says (`accepts_once`). A call one of whose
statements fails inserts nothing, so that where every call meets one nothing is accepted
(`failed_lookup_not_accepted`). The counter `pending_tasks` is what is in the channel, being
processed, or counted by a call that has not sent yet (`Counted`). -/

namespace WqcNode.Application.AcceptOnce

open WqcNode.Lib WqcNode.Lib.Machine WqcNode.Infra WqcNode.Domain.Models
open WqcNode.Application.NodeMachine WqcNode.Application.NodeInvariants
open WqcNode.Application.Recovery

variable {env : Env} {s s' : Node} {a : Act}

/-! ### The counter -/

/-- The worker has a task it has not counted off. -/
def processing : WorkerPc → ℕ
  | .unspawned | .recv | .release _ | .panicked => 0
  | _ => 1

/-- The call has counted its task and not sent it. -/
def midCall (acc : Accept) : ℕ :=
  match acc.pc with
  | .hold | .enqueue | .uncount => 1
  | _ => 0

/-- The tasks `main` has still to send. -/
def toRestore : MainPc → ℕ
  | .restore todo => todo.length
  | .send _ todo => todo.length + 1
  | _ => 0

/-- While the worker lives, `pending_tasks` counts every task once. -/
def Counted (s : Node) : Prop :=
  s.worker ≠ .panicked → s.pendingTasks =
    s.queue.length + processing s.worker + (s.accepts.map midCall).sum + toRestore s.main

theorem counted_init : Counted init := fun _ => rfl

/-- A move counts, sends or counts off exactly what it is in the middle of. -/
theorem move_counts {i : ℕ} {c : Choice} {acc : Accept} (hm : AcceptMove env s i c acc s')
    (hpos : midCall acc ≤ s.pendingTasks) :
    ∃ acc', s'.accepts = s.accepts.set i acc' ∧
      s'.pendingTasks + s.queue.length + midCall acc =
        s.pendingTasks + s'.queue.length + midCall acc' := by
  cases hm with
  | counted pc =>
    refine ⟨_, rfl, ?_⟩
    simp only [setAccept, midCall, pc]
    omega
  | enqueued pc =>
    refine ⟨_, rfl, ?_⟩
    simp only [setAccept, midCall, pc, List.length_append, List.length_singleton]
    omega
  | uncounted pc =>
    refine ⟨_, rfl, ?_⟩
    simp only [midCall, pc] at hpos
    simp only [setAccept, midCall, pc, fetchSub]
    split_ifs <;> omega
  | lookupFailed pc | duplicate pc | absent pc | inserted pc | conflict pc | saveFailed pc
  | sameTask pc | otherTask pc | held pc | gone pc | released pc =>
    exact ⟨_, rfl, by simp [setAccept, midCall, pc]⟩

theorem move_counted {i : ℕ} {c : Choice} {acc : Accept} (hc : Counted s)
    (hacc : s.accepts[i]? = some acc) (h : acceptStep env s i c = some s')
    (hm : AcceptMove env s i c acc s') : Counted s' := by
  intro hlive
  obtain ⟨hmain, hworker, -, -⟩ := acceptStep_frame h
  rw [hworker] at hlive
  have heq := hc hlive
  have hmem : midCall acc ≤ (s.accepts.map midCall).sum :=
    List.le_sum_of_mem (List.mem_map_of_mem (List.mem_of_getElem? hacc))
  obtain ⟨acc', haccepts, hcount⟩ := move_counts hm (by omega)
  have hsum := sum_map_set midCall hacc acc'
  rw [hmain, hworker, haccepts]
  omega

theorem worker_counted {c : Choice} (hc : Counted s) (h : workerStep env s c = some s') :
    Counted s' := by
  intro _
  obtain ⟨hmain, haccepts, -⟩ := workerStep_frame h
  rw [hmain, haccepts]
  have hlive : s.worker ≠ .panicked := by
    intro hpanicked
    simp [workerStep, hpanicked] at h
  have heq := hc hlive
  cases workerStep_move h with
  | taken pc waiting =>
    simp only [pc, waiting, List.length_cons, processing] at heq ⊢
    omega
  | uncounted pc =>
    simp only [pc, processing] at heq
    simp only [fetchSub, processing]
    split_ifs <;> omega
  | started pc | computed pc | statusSet pc | unbuilt pc | built pc | unstored pc | stored pc
  | deliverStatusSet pc | sent pc | unsent pc | undeleted pc | deleted pc | retained pc
  | released pc =>
    -- the task stays counted
    simpa only [pc, processing, deleteResult] using heq

theorem step_counted (hp : Phases s) (hc : Counted s) (h : step env s a = some s') :
    Counted s' := by
  cases step_move h with
  | unread => exact hc
  | read main =>
    intro _
    have hq := hp.starting (by simp [main])
    simp [hq.worker, hq.accepts, (hp.stopped main).1, processing, toRestore]
  | spawned main =>
    have hq := hp.starting (by simp [main])
    have heq := hc (by simp [hq.worker])
    intro _
    simpa [main, hq.worker, processing, toRestore] using heq
  | restored main =>
    intro hlive
    simpa [main, toRestore] using hc hlive
  | requeued main =>
    intro hlive
    have heq := hc hlive
    simp only [main, toRestore] at heq
    simp only [toRestore, List.length_append, List.length_singleton]
    omega
  | refused | called =>
    intro hlive
    simpa [midCall] using hc hlive
  | accept call move => exact move_counted hc call h move
  | worker => exact worker_counted hc h
  | panicked => exact fun hlive => absurd rfl hlive
  | retry =>
    obtain ⟨hmain, haccepts, hworker, hqueue, hpend, -⟩ := retryStep_frame h
    intro hlive
    rw [hworker] at hlive
    rw [hmain, haccepts, hworker, hqueue, hpend]
    exact hc hlive
  | pruned | received | lost => exact hc
  | crashed => exact fun _ => rfl

theorem run_counted {acts : List Act} (h : run (step env) init acts = some s) : Counted s :=
  (run_inv (I := fun s => Counted s ∧ Phases s)
    (fun _ _ _ hi h => ⟨step_counted hi.2 hi.1 h, step_phases hi.2 h⟩)
    ⟨counted_init, phases_init⟩ h).1

/-! ### Calls for one key -/

/-- Nothing is pruned, and neither the worker nor the process stops. -/
def Quiet : Act → Prop
  | .panic | .prune _ | .crash => False
  | _ => True

/-- The call is before a statement. -/
def atStatement : AcceptPc → Bool
  | .lookup | .save | .conflict _ => true
  | _ => false

/-- The calls a statement of which fails in the step are among `failed`. -/
def Marks (failed : ℕ → Prop) (s : Node) : Act → Prop
  | .accept i c => ∀ acc : Accept, s.accepts[i]? = some acc → atStatement acc.pc = true →
      c.sql ≠ none → failed i
  | _ => True

/-- A statement of the `i`-th call fails in the run. -/
def StatementFails (env : Env) (s₀ : Node) (acts : List Act) (i : ℕ) : Prop :=
  ∃ before c after s acc, acts = before ++ .accept i c :: after ∧
    run (step env) s₀ before = some s ∧ s.accepts[i]? = some acc ∧ atStatement acc.pc = true ∧
    c.sql ≠ none

/-- The task a dispatch prepares is read back from its JSON, and so is its request. -/
def JsonRoundTrip (env : Env) (a : Act) : Prop :=
  ∀ request pubkey budget nowMs task, a = .dispatch request pubkey budget nowMs →
    prepare env request pubkey budget nowMs = .ok task →
      env.serde.ReadsBack task ∧ env.serde.ReadsBackRequest (withoutNode task.request)

/-- The `i`-th call is for `k`, was made after the first `n₀` and has passed validation. -/
structure IsCall (k : Key) (n₀ : ℕ) (s : Node) (i : ℕ) (acc : Accept) : Prop where
  call : s.accepts[i]? = some acc
  later : n₀ ≤ i
  key : acc.task.key = k
  valid : ∀ msg, acc.pc ≠ .done (.error (.validation msg))

/-- The requests are equal apart from their nodes. -/
def SameRequest (t t' : ComputeTask) : Prop := withoutNode t.request = withoutNode t'.request

/-- Where a call for a key stands whose row another call has inserted with the task `stored`. -/
inductive Answering (stored : ComputeTask) (failed : Prop) (acc : Accept) : Prop
  | lookup (pc : acc.pc = .lookup)
  | save (pc : acc.pc = .save)
  | conflict {e : String} (pc : acc.pc = .conflict e)
  | accepted (pc : acc.pc = .done (.ok ())) (same : SameRequest stored acc.task)
  | rejected {msg : String} (pc : acc.pc = .done (.error (.storage msg)))
      (other : failed ∨ ¬ SameRequest stored acc.task)

/-- The call ran into an error before any row was there. -/
def Refused (acc : Accept) : Prop :=
  (∃ e, acc.pc = .conflict e) ∨ ∃ msg, acc.pc = .done (.error (.storage msg))

/-- Where the call stands that inserted the row `r`. -/
inductive Inserting (s : Node) (r : ℕ) (acc : Accept) : Prop
  | underway (pc : acc.pc = .count ∨ acc.pc = .hold ∨ acc.pc = .enqueue)
      (sent : s.history.enqueued.count r = 0)
  | sent (pc : acc.pc = .done (.ok ())) (sent : s.history.enqueued.count r = 1)

/-- What of the row under `k` no status update changes. -/
def rowData (st : Storage) (k : Key) : Option (ℕ × String) :=
  (st.tasks.lookup k).map fun row => (row.id, row.payload)

/-- The calls for `k` before and after one of them has inserted the row. -/
inductive Once (env : Env) (failed : ℕ → Prop) (k : Key) (n₀ : ℕ) (s : Node) : Prop
  | before (absent : rowData s.storage k = none)
      (calls : ∀ i acc, IsCall k n₀ s i acc →
        acc.row = none ∧ (acc.pc = .lookup ∨ acc.pc = .save ∨ failed i ∧ Refused acc))
  | after {j r : ℕ} {winner : Accept} {text : String} (call : IsCall k n₀ s j winner)
      (inserted : winner.row = some r) (at' : Inserting s r winner)
      (stored : rowData s.storage k = some (r, text))
      (payload : env.serde.taskFromStr text = .ok winner.task)
      (fresh : ∀ i acc, i ≠ j → s.accepts[i]? = some acc → acc.row ≠ some r)
      (others : ∀ i acc, i ≠ j → IsCall k n₀ s i acc →
        acc.row = none ∧ Answering winner.task (failed i) acc)

variable {failed : ℕ → Prop} {k : Key} {n₀ : ℕ}

theorem dispatchPayloadMatches_iff {serde : Serde} {t t' : ComputeTask} (hkey : t.key = t'.key)
    (hb : serde.ReadsBackRequest (withoutNode t.request))
    (hb' : serde.ReadsBackRequest (withoutNode t'.request)) :
    dispatchPayloadMatches serde t t' = true ↔ SameRequest t t' := by
  obtain ⟨bytes, hvec, hback⟩ := hb
  obtain ⟨bytes', hvec', hback'⟩ := hb'
  have hpub : t.orchestratorPubkey = t'.orchestratorPubkey := (Prod.mk.inj hkey).1
  simp only [dispatchPayloadMatches, hpub, hvec, hvec', ne_eq, not_true_eq_false, if_false,
    beq_iff_eq]
  constructor
  · rintro rfl
    exact Except.ok.inj (hback.symm.trans hback')
  · intro hsame
    rw [SameRequest] at hsame
    rw [hsame] at hvec
    exact Except.ok.inj (hvec.symm.trans hvec')

theorem rowData_eq_none {st : Storage} : rowData st k = none ↔ st.tasks.lookup k = none := by
  simp [rowData]

theorem loadTask_of_rowData {st : Storage} {r : ℕ} {text : String} {task : ComputeTask}
    (h : rowData st k = some (r, text)) (hdec : env.serde.taskFromStr text = .ok task) :
    st.loadTask env.serde k = .ok (some task) := by
  obtain ⟨row, hrow, hdata⟩ := Option.map_eq_some_iff.mp h
  obtain ⟨-, rfl⟩ := Prod.mk.inj hdata
  simp [Storage.loadTask, hrow, hdec, Except.map]

/-- Without a prune, only an insert under `k` changes the row's data. -/
theorem rowData_step {st : Storage} (hc : TasksChange env s a st) (hq : Quiet a)
    (hother : ∀ i c acc, a = .accept i c → s.accepts[i]? = some acc → acc.pc = .save →
      acc.task.key ≠ k) : rowData st k = rowData s.storage k := by
  cases hc with
  | same tasks => rw [rowData, tasks, rowData]
  | @insert i c acc text call pc =>
    have hne := hother i c acc rfl call pc
    simp only [rowData, Table.lookup_insert_if, if_neg hne.symm]
  | status pc sql =>
    exact Table.map_lookup_updateAll _ fun row => by split_ifs <;> rfl
  | prune t => exact hq.elim

/-- The calls for `k` do not see a step that changes neither them nor the row nor what was sent. -/
theorem once_of_same (ho : Once env failed k n₀ s) (haccepts : s'.accepts = s.accepts)
    (hrow : rowData s'.storage k = rowData s.storage k)
    (henq : s'.history.enqueued = s.history.enqueued) : Once env failed k n₀ s' := by
  have hcall : ∀ {i acc}, IsCall k n₀ s' i acc → IsCall k n₀ s i acc := fun h =>
    ⟨haccepts ▸ h.call, h.later, h.key, h.valid⟩
  cases ho with
  | before absent calls => exact .before (hrow.trans absent) fun i acc h => calls i acc (hcall h)
  | @after j r winner text call inserted at' stored payload fresh others =>
    refine .after (j := j) ⟨haccepts ▸ call.call, call.later, call.key, call.valid⟩ inserted ?_
      (hrow.trans stored) payload (fun i acc hi h => fresh i acc hi (haccepts ▸ h))
      fun i acc hi h => others i acc hi (hcall h)
    cases at' with
    | underway pc sent => exact .underway pc (henq ▸ sent)
    | sent pc sent => exact .sent pc (henq ▸ sent)

theorem call_of_append {acc : Accept} (haccepts : s'.accepts = s.accepts ++ [acc]) {i : ℕ}
    {acc' : Accept} (h : s'.accepts[i]? = some acc') :
    s.accepts[i]? = some acc' ∨ acc' = acc := by
  rw [haccepts, List.getElem?_append] at h
  split_ifs at h
  · exact .inl h
  · rw [List.getElem?_singleton] at h
    split_ifs at h
    cases h
    exact .inr rfl

/-- A new call, made last. -/
theorem once_of_append (ho : Once env failed k n₀ s) {acc : Accept}
    (haccepts : s'.accepts = s.accepts ++ [acc])
    (hrow : rowData s'.storage k = rowData s.storage k)
    (henq : s'.history.enqueued = s.history.enqueued) (hnew : acc.row = none)
    (hpc : acc.pc = .lookup ∨ ∃ msg, acc.pc = .done (.error (.validation msg))) :
    Once env failed k n₀ s' := by
  have hlookup : ∀ {i acc'}, IsCall k n₀ s' i acc' →
      IsCall k n₀ s i acc' ∨ acc'.row = none ∧ acc'.pc = .lookup := by
    intro i acc' h
    rcases call_of_append haccepts h.call with hcall | rfl
    · exact .inl ⟨hcall, h.later, h.key, h.valid⟩
    · rcases hpc with hpc | ⟨msg, hpc⟩
      · exact .inr ⟨hnew, hpc⟩
      · exact absurd hpc (h.valid msg)
  cases ho with
  | before absent calls =>
    refine .before (hrow.trans absent) fun i acc' h => ?_
    rcases hlookup h with h | ⟨hrow', hpc'⟩
    · exact calls i acc' h
    · exact ⟨hrow', .inl hpc'⟩
  | @after j r winner text call inserted at' stored payload fresh others =>
    have hj : j < s.accepts.length := (List.getElem?_eq_some_iff.mp call.call).1
    refine .after (j := j) ⟨?_, call.later, call.key, call.valid⟩ inserted ?_ (hrow.trans stored)
      payload (fun i acc' hi h => ?_) fun i acc' hi h => ?_
    · rw [haccepts, List.getElem?_append_left hj]
      exact call.call
    · cases at' with
      | underway pc sent => exact .underway pc (henq ▸ sent)
      | sent pc sent => exact .sent pc (henq ▸ sent)
    · rcases call_of_append haccepts h with h | rfl
      · exact fresh i acc' hi h
      · simp [hnew]
    · rcases hlookup h with h | ⟨hrow', hpc'⟩
      · exact others i acc' hi h
      · exact ⟨hrow', .lookup hpc'⟩

/-- The calls of a run of quiet steps: those for `k` made before are over, and the later ones have
tasks that are read back. -/
structure Calls (env : Env) (k : Key) (n₀ : ℕ) (s : Node) : Prop where
  running : s.main = .running
  live : s.worker ≠ .panicked
  spawned : s.worker ≠ .unspawned
  fresh : Fresh s
  old : ∀ i acc, i < n₀ → s.accepts[i]? = some acc → acc.task.key = k → ∃ r, acc.pc = .done r
  length : n₀ ≤ s.accepts.length
  back : ∀ i acc, IsCall k n₀ s i acc →
    env.serde.ReadsBack acc.task ∧ env.serde.ReadsBackRequest (withoutNode acc.task.request)

theorem not_done {i : ℕ} {c : Choice} {acc : Accept} (hm : AcceptMove env s i c acc s')
    (r : Except AcceptTaskError Unit) : acc.pc ≠ .done r := by
  cases hm with
  | lookupFailed pc | duplicate pc | absent pc | inserted pc | conflict pc | saveFailed pc
  | sameTask pc | otherTask pc | counted pc | held pc | enqueued pc | gone pc | uncounted pc
  | released pc => simp [pc]

theorem getElem?_set_self {i : ℕ} {acc acc' : Accept} (h : s.accepts[i]? = some acc) :
    (s.accepts.set i acc')[i]? = some acc' := by
  rw [List.getElem?_set_self (List.getElem?_eq_some_iff.mp h).1]

/-- A step that changes neither `main` nor the calls. -/
theorem Calls.same (hcs : Calls env k n₀ s) (hmain : s'.main = s.main)
    (haccepts : s'.accepts = s.accepts) (hlive : s'.worker ≠ .panicked)
    (hspawned : s'.worker ≠ .unspawned) (hfresh : Fresh s') : Calls env k n₀ s' :=
  ⟨hmain.trans hcs.running, hlive, hspawned, hfresh, haccepts ▸ hcs.old, haccepts ▸ hcs.length,
    fun i acc hc => hcs.back i acc ⟨haccepts ▸ hc.call, hc.later, hc.key, hc.valid⟩⟩

/-- A new call, made last, whose task is read back if its request is valid. -/
theorem Calls.append (hcs : Calls env k n₀ s) {acc : Accept} (hmain : s'.main = s.main)
    (hworker : s'.worker = s.worker) (haccepts : s'.accepts = s.accepts ++ [acc])
    (hfresh : Fresh s')
    (hback : (∀ msg, acc.pc ≠ .done (.error (.validation msg))) →
      env.serde.ReadsBack acc.task ∧ env.serde.ReadsBackRequest (withoutNode acc.task.request)) :
    Calls env k n₀ s' := by
  refine ⟨hmain.trans hcs.running, hworker ▸ hcs.live, hworker ▸ hcs.spawned, hfresh,
    fun i acc' hi hget => ?_, ?_, fun i acc' hc => ?_⟩
  · have hlt : i < s.accepts.length := hi.trans_le hcs.length
    rw [haccepts, List.getElem?_append_left hlt] at hget
    exact hcs.old i acc' hi hget
  · rw [haccepts, List.length_append]
    exact hcs.length.trans (Nat.le_add_right ..)
  · rcases call_of_append haccepts hc.call with hcall | rfl
    · exact hcs.back i acc' ⟨hcall, hc.later, hc.key, hc.valid⟩
    · exact hback hc.valid

/-- A call for `k` that moves is one of the later ones: those made before are over. -/
theorem Calls.isCall (hcs : Calls env k n₀ s) {i : ℕ} {c : Choice} {acc : Accept}
    (hacc : s.accepts[i]? = some acc) (hm : AcceptMove env s i c acc s') (hkey : acc.task.key = k) :
    IsCall k n₀ s i acc := by
  refine ⟨hacc, ?_, hkey, fun msg => not_done hm _⟩
  by_contra hlt
  obtain ⟨r, hdone⟩ := hcs.old i acc (by omega) hacc hkey
  exact not_done hm r hdone

theorem IsCall.ne_of_row {i j : ℕ} {acc acc' : Accept} (hi : IsCall k n₀ s i acc)
    (hj : IsCall k n₀ s j acc') (hrow : acc.row ≠ acc'.row) : i ≠ j := by
  rintro rfl
  obtain rfl : acc = acc' := Option.some.inj (hi.call.symm.trans hj.call)
  exact hrow rfl

/-- The calls for `k` after the `i`-th of them moved: it is `acc'` now, and the others are as
before. -/
theorem isCall_set {i : ℕ} {acc acc' : Accept} (hacc : s.accepts[i]? = some acc)
    (haccepts : s'.accepts = s.accepts.set i acc') {i' : ℕ} {acc'' : Accept}
    (hc : IsCall k n₀ s' i' acc'') : i' = i ∧ acc'' = acc' ∨ i' ≠ i ∧ IsCall k n₀ s i' acc'' := by
  by_cases hi : i' = i
  · subst hi
    have := hc.call
    rw [haccepts, getElem?_set_self hacc] at this
    cases this
    exact .inl ⟨rfl, rfl⟩
  · exact .inr ⟨hi, by simpa [haccepts, List.getElem?_set_ne (Ne.symm hi)] using hc.call, hc.later,
      hc.key, hc.valid⟩

/-- A move of a call for another key. -/
theorem once_of_other {i : ℕ} {c : Choice} {acc : Accept} (hf : Fresh s) (ho : Once env failed k n₀ s)
    (hacc : s.accepts[i]? = some acc) (hkey : acc.task.key ≠ k) (h : acceptStep env s i c = some s')
    (hm : AcceptMove env s i c acc s') (hrow : rowData s'.storage k = rowData s.storage k) :
    Once env failed k n₀ s' := by
  obtain ⟨acc', haccepts, htask, hrow'⟩ := acceptMove_row hm
  have hcall : ∀ {i' : ℕ} {acc'' : Accept}, IsCall k n₀ s' i' acc'' → IsCall k n₀ s i' acc'' := by
    intro i' acc'' hc
    rcases isCall_set hacc haccepts hc with ⟨rfl, rfl⟩ | ⟨-, hc'⟩
    · exact absurd (htask ▸ hc.key) hkey
    · exact hc'
  cases ho with
  | before absent calls => exact .before (hrow.trans absent) fun i' acc'' hc => calls i' acc'' (hcall hc)
  | @after j r winner text call inserted at' stored payload fresh others =>
    have hj : j ≠ i := by
      rintro rfl
      have := call.call.symm.trans hacc
      cases this
      exact hkey call.key
    have hr : acc.row ≠ some r := fresh i acc hj.symm hacc
    have hlt : r < s.storage.nextTaskId := by
      obtain ⟨row, hlook, hdata⟩ := Option.map_eq_some_iff.mp stored
      have := hf.rows k row hlook
      rwa [(Prod.mk.inj hdata).1] at this
    have henq : s'.history.enqueued.count r = s.history.enqueued.count r := by
      rcases step_enqueued (a := .accept i c) h with
        henq | ⟨q, todo, hact, -⟩ | ⟨i', c', acc₁, hact, hacc₁, hpc₁, -, henq⟩
      · rw [henq]
      · cases hact
      · cases hact
        obtain rfl : acc = acc₁ := by simpa [hacc] using hacc₁
        obtain ⟨r₁, hr₁⟩ := Option.isSome_iff_exists.mp
          (hf.saved acc (List.mem_of_getElem? hacc) (.inr (.inr hpc₁)))
        have hne : r₁ ≠ r := fun heq => hr (heq ▸ hr₁)
        rw [henq, hr₁, List.count_append, Option.getD_some, List.count_singleton]
        simp [hne]
    refine .after (j := j) ⟨?_, call.later, call.key, call.valid⟩ inserted ?_ (hrow.trans stored)
      payload (fun i' acc'' hi hget => ?_) fun i' acc'' hi hc => others i' acc'' hi (hcall hc)
    · rw [haccepts, List.getElem?_set_ne hj.symm]
      exact call.call
    · cases at' with
      | underway pc sent => exact .underway pc (henq.trans sent)
      | sent pc sent => exact .sent pc (henq.trans sent)
    · by_cases hi' : i' = i
      · subst hi'
        rw [haccepts, getElem?_set_self hacc] at hget
        cases hget
        rcases hrow' with ⟨hrow', -⟩ | ⟨-, -, hrow', -⟩
        · rw [hrow']
          exact hr
        · rw [hrow']
          simp only [ne_eq, Option.some.injEq]
          omega
      · rw [haccepts, List.getElem?_set_ne (Ne.symm hi')] at hget
        exact fresh i' acc'' hi hget

theorem Calls.move (hcs : Calls env k n₀ s) {i : ℕ} {c : Choice} {acc : Accept}
    (hacc : s.accepts[i]? = some acc) (hm : AcceptMove env s i c acc s') (hmain : s'.main = s.main)
    (hworker : s'.worker = s.worker) (hfresh : Fresh s') : Calls env k n₀ s' := by
  obtain ⟨acc', haccepts, htask, -⟩ := acceptMove_row hm
  refine ⟨hmain.trans hcs.running, hworker ▸ hcs.live, hworker ▸ hcs.spawned, hfresh,
    fun i' acc'' hi hget hkey => ?_, by simpa [haccepts] using hcs.length, fun i' acc'' hc => ?_⟩
  · by_cases hii : i' = i
    · subst hii
      rw [haccepts, getElem?_set_self hacc] at hget
      cases hget
      have hlater := (hcs.isCall hacc hm (htask ▸ hkey)).later
      omega
    · rw [haccepts, List.getElem?_set_ne (Ne.symm hii)] at hget
      exact hcs.old i' acc'' hi hget hkey
  · rcases isCall_set hacc haccepts hc with ⟨rfl, rfl⟩ | ⟨-, hc'⟩
    · rw [htask]
      exact hcs.back i' acc (hcs.isCall hacc hm (htask ▸ hc.key))
    · exact hcs.back i' acc'' hc'

/-- A statement that fails. -/
theorem errors_of_sql {c : Choice} {acc : Accept} {e : String} (h : c.sql = some e) :
    loads env s c acc = .error e ∧ saves env s c acc = .error e := by
  simp [loads, saves, h]

/-- A call for `k` that moves while no row is there saves its task, or runs into an error. -/
theorem once_of_first {i : ℕ} {c : Choice} {acc : Accept} (hcs : Calls env k n₀ s)
    (absent : rowData s.storage k = none)
    (calls : ∀ i acc, IsCall k n₀ s i acc →
      acc.row = none ∧ (acc.pc = .lookup ∨ acc.pc = .save ∨ failed i ∧ Refused acc))
    (hcall : IsCall k n₀ s i acc) (hfailed : atStatement acc.pc = true → c.sql ≠ none → failed i)
    (hm : AcceptMove env s i c acc s') : Once env failed k n₀ s' := by
  have hnone : s.storage.tasks.lookup acc.task.key = none :=
    hcall.key ▸ rowData_eq_none.mp absent
  have hloads : c.sql = none → loads env s c acc = .ok none := fun hsql => by
    simp [loads, hsql, Storage.loadTask, hnone]
  obtain ⟨⟨text, htext, hback⟩, -⟩ := hcs.back i acc hcall
  have hsaves : c.sql = none → saves env s c acc = .ok { s.storage with
      tasks := s.storage.tasks.insert acc.task.key ⟨s.storage.nextTaskId, text, .pending, c.now⟩
      nextTaskId := s.storage.nextTaskId + 1 } := fun hsql => by
    simp [saves, hsql, Storage.saveTask, htext, hnone, bind, Except.bind]
  obtain ⟨hrow, hpc⟩ := calls i acc hcall
  -- the call goes on without a row
  have hgoes : ∀ {pc : AcceptPc}, (pc = .save ∨ failed i ∧ Refused { acc with pc := pc }) →
      Once env failed k n₀ (setAccept s i { acc with pc := pc }) := by
    intro pc hpc'
    refine .before absent fun i' acc'' hc => ?_
    rcases isCall_set hcall.call rfl hc with ⟨rfl, rfl⟩ | ⟨-, hc⟩
    · exact ⟨hrow, .inr hpc'⟩
    · exact calls i' acc'' hc
  cases hm with
  | absent pc load => exact hgoes (.inl rfl)
  | @inserted st pc save =>
    have hsql : c.sql = none := by
      by_contra hne
      obtain ⟨e, he⟩ := Option.ne_none_iff_exists'.mp hne
      rw [(errors_of_sql he).2] at save
      cases save
    obtain rfl := Except.ok.inj ((hsaves hsql).symm.trans save)
    refine @Once.after _ _ _ _ _ i s.storage.nextTaskId
      { acc with pc := .count, row := some s.storage.nextTaskId } text
      ⟨getElem?_set_self hcall.call, hcall.later, hcall.key, by simp⟩ rfl
      (.underway (.inl rfl) ?_) ?_ hback (fun i' acc'' hi hget => ?_) fun i' acc'' hi hc => ?_
    · refine List.count_eq_zero.mpr fun hmem => ?_
      exact absurd (hcs.fresh.enqueued _ hmem) (Nat.lt_irrefl _)
    · simp [rowData, hcall.key]
    · simp only [setAccept, List.getElem?_set_ne (Ne.symm hi)] at hget
      intro hr
      exact absurd (hcs.fresh.calls acc'' (List.mem_of_getElem? hget) _ hr) (Nat.lt_irrefl _)
    · rcases isCall_set hcall.call rfl hc with ⟨rfl, -⟩ | ⟨-, hc⟩
      · exact absurd rfl hi
      · obtain ⟨hrow', hpc'⟩ := calls i' acc'' hc
        refine ⟨hrow', ?_⟩
        rcases hpc' with hpc' | hpc' | ⟨hfails, ⟨e, hpc'⟩ | ⟨msg, hpc'⟩⟩
        · exact .lookup hpc'
        · exact .save hpc'
        · exact .conflict hpc'
        · exact .rejected hpc' (.inl hfails)
  | lookupFailed pc load =>
    have hsql : c.sql ≠ none := fun hsql => by simp [hloads hsql] at load
    exact hgoes (.inr ⟨hfailed (by rw [pc]; rfl) hsql, .inr ⟨_, rfl⟩⟩)
  | duplicate pc load =>
    cases hsql : c.sql with
    | none => simp [hloads hsql] at load
    | some e => simp [(errors_of_sql hsql).1] at load
  | conflict pc save =>
    have hsql : c.sql ≠ none := fun hsql => by simp [hsaves hsql] at save
    exact hgoes (.inr ⟨hfailed (by rw [pc]; rfl) hsql, .inl ⟨_, rfl⟩⟩)
  | saveFailed pc save =>
    have hsql : c.sql ≠ none := fun hsql => by simp [hsaves hsql] at save
    exact hgoes (.inr ⟨hfailed (by rw [pc]; rfl) hsql, .inr ⟨_, rfl⟩⟩)
  | sameTask pc load =>
    cases hsql : c.sql with
    | none => simp [hloads hsql] at load
    | some e => simp [(errors_of_sql hsql).1] at load
  | otherTask pc =>
    have hfails : failed i := by
      rcases hpc with hpc | hpc | ⟨hfails, -⟩
      · simp [pc] at hpc
      · simp [pc] at hpc
      · exact hfails
    exact hgoes (.inr ⟨hfails, .inr ⟨_, rfl⟩⟩)
  | counted pc | held pc | enqueued pc | gone pc | uncounted pc | released pc =>
    simp [pc, Refused] at hpc

/-- The call that inserted the row goes on to send its task, once. -/
theorem inserting_moves {i r : ℕ} {c : Choice} {winner : Accept} (hlive : s.worker ≠ .panicked)
    (hrow : winner.row = some r) (hat : Inserting s r winner)
    (hm : AcceptMove env s i c winner s') :
    ∃ winner', s'.accepts = s.accepts.set i winner' ∧ winner'.task = winner.task ∧
      winner'.row = some r ∧ Inserting s' r winner' ∧ s'.storage = s.storage := by
  obtain ⟨hpc, hsent⟩ : (winner.pc = .count ∨ winner.pc = .hold ∨ winner.pc = .enqueue) ∧
      s.history.enqueued.count r = 0 := by
    cases hat with
    | underway pc sent => exact ⟨pc, sent⟩
    | sent pc => exact absurd pc (not_done hm _)
  cases hm with
  | counted pc => exact ⟨_, rfl, rfl, hrow, .underway (.inr (.inl rfl)) hsent, rfl⟩
  | held pc => exact ⟨_, rfl, rfl, hrow, .underway (.inr (.inr rfl)) hsent, rfl⟩
  | enqueued pc =>
    refine ⟨_, rfl, rfl, hrow, .sent rfl ?_, rfl⟩
    simp [hrow, List.count_append, hsent]
  | gone pc dead => exact absurd dead hlive
  | lookupFailed pc | duplicate pc | absent pc | inserted pc | conflict pc | saveFailed pc
  | sameTask pc | otherTask pc | uncounted pc | released pc => simp [pc] at hpc

theorem isUniqueViolation_uniqueError : isUniqueViolation Storage.uniqueError = true := by
  decide +kernel

/-- A call for a key that is stored compares its request with the stored one, unless a statement
fails. -/
theorem answering_moves {i j r : ℕ} {c : Choice} {acc winner : Accept} {text : String}
    (hcs : Calls env k n₀ s) (hwin : IsCall k n₀ s j winner) (hcall : IsCall k n₀ s i acc)
    (stored : rowData s.storage k = some (r, text))
    (payload : env.serde.taskFromStr text = .ok winner.task)
    (hfailed : atStatement acc.pc = true → c.sql ≠ none → failed i)
    (hans : Answering winner.task (failed i) acc) (hm : AcceptMove env s i c acc s') :
    ∃ acc', s' = setAccept s i acc' ∧ acc'.task = acc.task ∧ acc'.row = acc.row ∧
      Answering winner.task (failed i) acc' := by
  have hloads : c.sql = none → loads env s c acc = .ok (some winner.task) := fun hsql => by
    rw [loads, hsql, hcall.key]
    exact loadTask_of_rowData stored payload
  have hsaves : c.sql = none → saves env s c acc = .error Storage.uniqueError := fun hsql => by
    obtain ⟨⟨text', htext', -⟩, -⟩ := hcs.back i acc hcall
    obtain ⟨row, hlook, -⟩ := Option.map_eq_some_iff.mp stored
    rw [← hcall.key] at hlook
    simp [saves, hsql, Storage.saveTask, htext', hlook, bind, Except.bind]
  -- a statement that gives a row did not fail
  have hloaded : ∀ {existing}, loads env s c acc = .ok existing → existing = some winner.task := by
    intro existing load
    cases hsql : c.sql with
    | none => exact Except.ok.inj (load.symm.trans (hloads hsql))
    | some e =>
      rw [(errors_of_sql hsql).1] at load
      cases load
  have hmatch : dispatchPayloadMatches env.serde winner.task acc.task = true ↔
      SameRequest winner.task acc.task :=
    dispatchPayloadMatches_iff (hwin.key.trans hcall.key.symm) (hcs.back _ _ hwin).2
      (hcs.back _ _ hcall).2
  have hpc : acc.pc = .lookup ∨ acc.pc = .save ∨ ∃ e, acc.pc = .conflict e := by
    cases hans with
    | lookup pc => exact .inl pc
    | save pc => exact .inr (.inl pc)
    | conflict pc => exact .inr (.inr ⟨_, pc⟩)
    | accepted pc | rejected pc => exact absurd pc (not_done hm _)
  cases hm with
  | @duplicate existing pc load =>
    obtain rfl : existing = winner.task := Option.some.inj (hloaded load)
    refine ⟨_, rfl, rfl, rfl, ?_⟩
    by_cases hsame : SameRequest winner.task acc.task
    · refine .accepted ?_ hsame
      simp [duplicateResult, hmatch.mpr hsame]
    · exact .rejected (by simp only [duplicateResult, mt hmatch.mp hsame]; rfl) (.inr hsame)
  | conflict pc => exact ⟨_, rfl, rfl, rfl, .conflict rfl⟩
  | @sameTask e existing pc load same =>
    obtain rfl : existing = winner.task := Option.some.inj (hloaded load)
    exact ⟨_, rfl, rfl, rfl, .accepted rfl (hmatch.mp same)⟩
  | otherTask pc other =>
    refine ⟨_, rfl, rfl, rfl, .rejected rfl ?_⟩
    by_cases hsql : c.sql = none
    · refine .inr fun hsame => ?_
      have hother := other winner.task (hloads hsql)
      rw [hmatch.mpr hsame] at hother
      cases hother
    · exact .inl (hfailed (by rw [pc]; rfl) hsql)
  | lookupFailed pc load =>
    have hsql : c.sql ≠ none := fun hsql => by simp [hloads hsql] at load
    exact ⟨_, rfl, rfl, rfl, .rejected rfl (.inl (hfailed (by rw [pc]; rfl) hsql))⟩
  | absent pc load => simpa using hloaded load
  | inserted pc save =>
    cases hsql : c.sql with
    | none => simp [hsaves hsql] at save
    | some e => simp [(errors_of_sql hsql).2] at save
  | saveFailed pc save other =>
    have hsql : c.sql ≠ none := by
      intro hsql
      obtain rfl := Except.error.inj ((hsaves hsql).symm.trans save)
      rw [isUniqueViolation_uniqueError] at other
      cases other
    exact ⟨_, rfl, rfl, rfl, .rejected rfl (.inl (hfailed (by rw [pc]; rfl) hsql))⟩
  | counted pc | held pc | enqueued pc | gone pc | uncounted pc | released pc => simp [pc] at hpc

/-- A move of a call for `k`. -/
theorem once_of_own {i : ℕ} {c : Choice} {acc : Accept} (hcs : Calls env k n₀ s)
    (ho : Once env failed k n₀ s) (hcall : IsCall k n₀ s i acc)
    (hfailed : atStatement acc.pc = true → c.sql ≠ none → failed i)
    (hm : AcceptMove env s i c acc s') : Once env failed k n₀ s' := by
  cases ho with
  | before absent calls => exact once_of_first hcs absent calls hcall hfailed hm
  | @after j r winner text call inserted at' stored payload fresh others =>
    by_cases hi : i = j
    · subst hi
      obtain rfl : winner = acc := by simpa [call.call] using hcall.call
      obtain ⟨winner', haccepts, htask, hrow, hat, hst⟩ :=
        inserting_moves hcs.live inserted at' hm
      refine @Once.after _ _ _ _ _ i _ winner' text
        ⟨haccepts ▸ getElem?_set_self hcall.call, call.later, htask ▸ call.key, ?_⟩ hrow hat
        (hst ▸ stored) (htask ▸ payload) (fun i' acc'' hi hget => ?_) fun i' acc'' hi hc => ?_
      · cases hat with
        | underway pc => rcases pc with pc | pc | pc <;> simp [pc]
        | sent pc => simp [pc]
      · rw [haccepts, List.getElem?_set_ne (Ne.symm hi)] at hget
        exact fresh i' acc'' hi hget
      · rcases isCall_set hcall.call haccepts hc with ⟨rfl, -⟩ | ⟨-, hc⟩
        · exact absurd rfl hi
        · exact htask ▸ others i' acc'' hi hc
    · obtain ⟨hrow, hans⟩ := others i acc hi hcall
      obtain ⟨acc', rfl, htask, hrow', hans'⟩ :=
        answering_moves hcs call hcall stored payload hfailed hans hm
      refine @Once.after _ _ _ _ _ j _ winner text ⟨?_, call.later, call.key, call.valid⟩
        inserted ?_ stored payload (fun i' acc'' hi' hget => ?_) fun i' acc'' hi' hc => ?_
      · simpa [setAccept, List.getElem?_set_ne hi] using call.call
      · cases at' with
        | underway pc sent => exact .underway pc sent
        | sent pc sent => exact .sent pc sent
      · by_cases hii : i' = i
        · subst hii
          rw [setAccept, getElem?_set_self hcall.call] at hget
          cases hget
          simp [hrow', hrow]
        · simp only [setAccept, List.getElem?_set_ne (Ne.symm hii)] at hget
          exact fresh i' acc'' hi' hget
      · rcases isCall_set hcall.call rfl hc with ⟨rfl, rfl⟩ | ⟨-, hc⟩
        · exact ⟨hrow'.trans hrow, hans'⟩
        · exact others i' acc'' hi' hc

theorem prepare_error {request : ComputeRequest} {pubkey : String}
    {budget : Option Domain.WorkBudget.Budget} {nowMs : UInt64} {e : AcceptTaskError}
    (h : prepare env request pubkey budget nowMs = .error e) : ∃ msg, e = .validation msg := by
  simp only [prepare, bind, Except.bind] at h
  split at h
  · cases h
    exact ⟨_, rfl⟩
  · split at h
    · cases h
      rename_i heq
      cases hv : Domain.Validation.validateCircuitLogic env.serdeError request.qubitCount
          env.supportedGates request.circuit with
      | error msg =>
        rw [hv] at heq
        cases heq
        exact ⟨msg, rfl⟩
      | ok _ =>
        rw [hv] at heq
        cases heq
    · cases h

theorem worker_stays {c : Choice} (h : workerStep env s c = some s') :
    s'.worker ≠ .panicked ∧ s'.worker ≠ .unspawned := by
  cases workerStep_move h <;> simp

theorem marks_statementFails {s₀ : Node} {acts before later : List Act}
    (hacts : acts = before ++ a :: later) (hbefore : run (step env) s₀ before = some s) :
    Marks (StatementFails env s₀ acts) s a := by
  cases a with
  | accept i c =>
    intro acc hacc hpc hsql
    exact ⟨before, c, later, s, acc, hacts, hbefore, hacc, hpc, hsql⟩
  | _ => trivial

/-- What a quiet run keeps. -/
structure Segment (env : Env) (failed : ℕ → Prop) (k : Key) (n₀ : ℕ) (s : Node) : Prop where
  calls : Calls env k n₀ s
  once : Once env failed k n₀ s

theorem step_segment (hs : Segment env failed k n₀ s) (hq : Quiet a) (hj : JsonRoundTrip env a)
    (hmarks : Marks failed s a) (h : step env s a = some s') : Segment env failed k n₀ s' := by
  obtain ⟨hcs, ho⟩ := hs
  have hfresh := step_fresh hcs.fresh h
  cases step_move h with
  | unread main | read main | spawned main | restored main | requeued main =>
    rw [hcs.running] at main
    cases main
  | panicked | pruned | crashed => exact hq.elim
  | received | lost =>
    exact ⟨hcs.same rfl rfl hcs.live hcs.spawned hfresh, once_of_same ho rfl rfl rfl⟩
  | retry =>
    obtain ⟨hmain, haccepts, hworker, -, -, -, htasks, -, henq⟩ := retryStep_frame h
    exact ⟨hcs.same hmain haccepts (hworker ▸ hcs.live) (hworker ▸ hcs.spawned) hfresh,
      once_of_same ho haccepts (by rw [rowData, htasks, rowData]) henq⟩
  | worker =>
    obtain ⟨hmain, haccepts, -⟩ := workerStep_frame h
    obtain ⟨hlive, hspawned⟩ := worker_stays h
    have hrow := rowData_step (k := k) (step_tasks h) hq fun i c acc hact => by cases hact
    refine ⟨hcs.same hmain haccepts hlive hspawned hfresh, once_of_same ho haccepts hrow ?_⟩
    rcases step_enqueued h with henq | ⟨q, todo, hact, -⟩ | ⟨i, c', acc, hact, -⟩
    · exact henq
    · cases hact
    · cases hact
  | refused main prep =>
    obtain ⟨msg, rfl⟩ := prepare_error prep
    exact ⟨hcs.append rfl rfl rfl hfresh fun hvalid => absurd rfl (hvalid msg),
      once_of_append ho rfl rfl rfl rfl (.inr ⟨msg, rfl⟩)⟩
  | called main prep =>
    have hback := hj _ _ _ _ _ rfl prep
    exact ⟨hcs.append rfl rfl rfl hfresh fun _ => hback,
      once_of_append ho rfl rfl rfl rfl (.inl rfl)⟩
  | @accept i c acc _ hacc hm =>
    obtain ⟨hmain, hworker, -, -⟩ := acceptStep_frame h
    refine ⟨hcs.move hacc hm hmain hworker hfresh, ?_⟩
    by_cases hkey : acc.task.key = k
    · exact once_of_own hcs ho (hcs.isCall hacc hm hkey) (hmarks acc hacc) hm
    · refine once_of_other hcs.fresh ho hacc hkey h hm (rowData_step (step_tasks h) hq ?_)
      intro i' c' acc₁ hact hacc₁ hpc
      cases hact
      obtain rfl : acc = acc₁ := by simpa [hacc] using hacc₁
      exact hkey

/-! ### The result -/

/-- Once `main` is through, the worker has been spawned. -/
theorem step_spawned (hp : s.main = .running → s.worker ≠ .unspawned) (h : step env s a = some s') :
    s'.main = .running → s'.worker ≠ .unspawned := by
  cases step_move h with
  | read | restored | requeued | crashed =>
    intro hm
    cases hm
  | spawned | panicked => simp
  | accept =>
    obtain ⟨hmain, hworker, -⟩ := acceptStep_frame h
    rwa [hmain, hworker]
  | worker => exact fun _ => (worker_stays h).2
  | retry =>
    obtain ⟨hmain, -, hworker, -⟩ := retryStep_frame h
    rwa [hmain, hworker]
  | _ => exact hp

/-- The calls for `k` after the first `n₀` are one dispatch, accepted once, as far as their statements
do not fail. -/
structure AcceptedOnce (env : Env) (failed : ℕ → Prop) (k : Key) (n₀ : ℕ) (s : Node) : Prop where
  /-- At most one call has inserted a row. -/
  unique : ∀ i j acc acc', IsCall k n₀ s i acc → IsCall k n₀ s j acc' → acc.row.isSome →
    acc'.row.isSome → i = j
  /-- As soon as a call no statement of which failed is past its insert, one has inserted the row
  that is stored. -/
  inserted : ∀ i acc, IsCall k n₀ s i acc → ¬ failed i → acc.pc ≠ .lookup → acc.pc ≠ .save →
    ∃ j winner r row, IsCall k n₀ s j winner ∧ winner.row = some r ∧
      s.storage.tasks.lookup k = some row ∧ row.id = r ∧
      env.serde.taskFromStr row.payload = .ok winner.task
  /-- The call that inserted the row enqueues its task once and returns `Ok`. -/
  enqueued : ∀ i acc r, IsCall k n₀ s i acc → acc.row = some r →
    (acc.pc = .count ∨ acc.pc = .hold ∨ acc.pc = .enqueue) ∧ s.history.enqueued.count r = 0 ∨
      acc.pc = .done (.ok ()) ∧ s.history.enqueued.count r = 1
  /-- Every other call returns `Ok` exactly when its request is the stored one apart from the node,
  and a storage error otherwise. -/
  answered : ∀ i acc result, IsCall k n₀ s i acc → ¬ failed i → acc.row = none →
    acc.pc = .done result → ∃ j winner, IsCall k n₀ s j winner ∧ winner.row.isSome ∧
      (result = .ok () ↔ SameRequest winner.task acc.task) ∧
      (result ≠ .ok () → ∃ msg, result = .error (.storage msg))
  /-- A call a statement of which failed has inserted no row. It returns a storage error, unless it
  finds the same request stored all the same. -/
  refused : ∀ i acc, IsCall k n₀ s i acc → failed i → acc.row = none ∧
    ∀ result, acc.pc = .done result → (∃ msg, result = .error (.storage msg)) ∨ result = .ok () ∧
      ∃ j winner, IsCall k n₀ s j winner ∧ winner.row.isSome ∧ SameRequest winner.task acc.task
  /-- A call without a row of its own changes nothing but itself. -/
  effects : ∀ i c s' acc, step env s (.accept i c) = some s' → IsCall k n₀ s' i acc →
    acc.row = none → s'.storage = s.storage ∧ s'.queue = s.queue ∧
      s'.pendingTasks = s.pendingTasks ∧ s'.work = s.work ∧ s'.history = s.history
  /-- A call that has not returned can go on, unless it waits for a place in the channel and the
  worker can go on. -/
  progress : ∀ i acc, IsCall k n₀ s i acc → (∃ result, acc.pc = .done result) ∨
    (∀ c, (step env s (.accept i c)).isSome) ∨
      acc.pc = .enqueue ∧ ∀ c, (step env s (.worker c)).isSome

/-- `pending_tasks` is at least what is in the channel or being processed, equal to it when no call
is in between, and positive when the worker counts off. -/
structure CountsOutstanding (s : Node) : Prop where
  le : s.queue.length + processing s.worker ≤ s.pendingTasks
  eq : (∀ acc ∈ s.accepts, midCall acc = 0) →
    s.pendingTasks = s.queue.length + processing s.worker
  uncount : ∀ q, s.worker = .uncount q → 0 < s.pendingTasks

theorem countsOutstanding (hc : Counted s) (hlive : s.worker ≠ .panicked)
    (hm : s.main = .running) : CountsOutstanding s := by
  have heq := hc hlive
  simp only [hm, toRestore] at heq
  refine ⟨by omega, fun hnone => ?_, fun q hw => ?_⟩
  · have hzero : (s.accepts.map midCall).sum = 0 :=
      List.sum_eq_zero fun n hn => by
        obtain ⟨acc, hacc, rfl⟩ := List.mem_map.mp hn
        exact hnone acc hacc
    omega
  · rw [hw, processing] at heq
    · omega
    all_goals simp

theorem acceptStep_isSome {i : ℕ} {acc : Accept} (hacc : s.accepts[i]? = some acc)
    (hpc : acc.pc = .lookup ∨ acc.pc = .save ∨ (∃ e, acc.pc = .conflict e) ∨ acc.pc = .count ∨
      acc.pc = .hold ∨ acc.pc = .enqueue ∧ s.queue.length < queueCapacity) (c : Choice) :
    (step env s (.accept i c)).isSome := by
  simp only [step, acceptStep, hacc, Option.bind_eq_bind, Option.bind_some]
  rcases hpc with hpc | hpc | ⟨e, hpc⟩ | hpc | hpc | ⟨hpc, hroom⟩ <;> simp only [hpc]
  · split <;> rfl
  · split
    · split_ifs <;> rfl
    · rfl
  · split
    · split_ifs <;> rfl
    · rfl
  · rfl
  · rfl
  · split
    · rfl
    · rw [if_pos hroom]
      rfl

theorem workerStep_isSome (hlive : s.worker ≠ .panicked) (hspawned : s.worker ≠ .unspawned)
    (hqueue : s.queue ≠ []) (c : Choice) : (step env s (.worker c)).isSome := by
  simp only [step, workerStep]
  repeat' split
  all_goals first | rfl | contradiction

/-- A call for `k` that has no row and has not returned is before its insert. -/
theorem pc_of_no_row (ho : Once env failed k n₀ s) {i : ℕ} {acc : Accept} (hi : IsCall k n₀ s i acc)
    (hr : acc.row = none) (hdone : ∀ r, acc.pc ≠ .done r) :
    acc.pc = .lookup ∨ acc.pc = .save ∨ ∃ e, acc.pc = .conflict e := by
  cases ho with
  | before _ calls =>
    rcases (calls i acc hi).2 with hpc | hpc | ⟨-, hpc | ⟨msg, hpc⟩⟩
    · exact .inl hpc
    · exact .inr (.inl hpc)
    · exact .inr (.inr hpc)
    · exact absurd hpc (hdone _)
  | @after w r winner text call inserted at' stored payload fresh others =>
    have hne : i ≠ w := hi.ne_of_row call (by simp [hr, inserted])
    cases (others i acc hne hi).2 with
    | lookup pc => exact .inl pc
    | save pc => exact .inr (.inl pc)
    | conflict pc => exact .inr (.inr ⟨_, pc⟩)
    | accepted pc | rejected pc => exact absurd pc (hdone _)

/-- A move of a call for `k` that gives it no row changes nothing but the call. -/
theorem move_effects (ho : Once env failed k n₀ s) {i : ℕ} {c : Choice}
    {acc acc' : Accept} (hacc : s.accepts[i]? = some acc) (hm : AcceptMove env s i c acc s')
    (hc : IsCall k n₀ s' i acc') (hr : acc'.row = none) :
    s'.storage = s.storage ∧ s'.queue = s.queue ∧ s'.pendingTasks = s.pendingTasks ∧
      s'.work = s.work ∧ s'.history = s.history := by
  obtain ⟨acc₁, haccepts, htask, hrow⟩ := acceptMove_row hm
  obtain rfl : acc₁ = acc' := by
    have := hc.call
    rw [haccepts, getElem?_set_self hacc] at this
    exact Option.some.inj this
  have hrow' : acc.row = none := by
    rcases hrow with ⟨hrow, -⟩ | ⟨-, -, hrow, -⟩
    · exact hrow ▸ hr
    · simp [hrow] at hr
  have hpc := pc_of_no_row ho ⟨hacc, hc.later, htask ▸ hc.key, fun msg => not_done hm _⟩ hrow'
    (not_done hm)
  cases hm with
  | inserted pc save =>
    obtain rfl : _ = acc₁ :=
      Option.some.inj ((getElem?_set_self hacc).symm.trans hc.call)
    simp at hr
  | counted pc | held pc | enqueued pc | gone pc | uncounted pc | released pc => simp [pc] at hpc
  | _ => exact ⟨rfl, rfl, rfl, rfl, rfl⟩

theorem row_unique (ho : Once env failed k n₀ s) {i j : ℕ} {acc acc' : Accept}
    (hi : IsCall k n₀ s i acc) (hj : IsCall k n₀ s j acc') (hr : acc.row.isSome)
    (hr' : acc'.row.isSome) : i = j := by
  cases ho with
  | before _ calls => simp [(calls i acc hi).1] at hr
  | @after w r winner text call inserted at' stored payload fresh others =>
    have hw : ∀ i acc, IsCall k n₀ s i acc → acc.row.isSome → i = w := by
      intro i acc hi hr
      by_contra hne
      simp [(others i acc hne hi).1] at hr
    rw [hw i acc hi hr, hw j acc' hj hr']

theorem inserted_of_past (ho : Once env failed k n₀ s) {i : ℕ} {acc : Accept}
    (hi : IsCall k n₀ s i acc) (hfailed : ¬ failed i) (hlookup : acc.pc ≠ .lookup)
    (hsave : acc.pc ≠ .save) :
    ∃ j winner r row, IsCall k n₀ s j winner ∧ winner.row = some r ∧
      s.storage.tasks.lookup k = some row ∧ row.id = r ∧
      env.serde.taskFromStr row.payload = .ok winner.task := by
  cases ho with
  | before _ calls =>
    rcases (calls i acc hi).2 with hpc | hpc | ⟨hfails, -⟩
    · exact absurd hpc hlookup
    · exact absurd hpc hsave
    · exact absurd hfails hfailed
  | @after w r winner text call inserted at' stored payload fresh others =>
    obtain ⟨row, hrow, hdata⟩ := Option.map_eq_some_iff.mp stored
    obtain ⟨hid, rfl⟩ := Prod.mk.inj hdata
    exact ⟨w, winner, r, row, call, inserted, hrow, hid, payload⟩

theorem enqueued_of_row (ho : Once env failed k n₀ s) {i r : ℕ} {acc : Accept}
    (hi : IsCall k n₀ s i acc) (hr : acc.row = some r) :
    (acc.pc = .count ∨ acc.pc = .hold ∨ acc.pc = .enqueue) ∧ s.history.enqueued.count r = 0 ∨
      acc.pc = .done (.ok ()) ∧ s.history.enqueued.count r = 1 := by
  cases ho with
  | before _ calls => simp [(calls i acc hi).1] at hr
  | @after w r' winner text call inserted at' stored payload fresh others =>
    by_cases hne : i = w
    · subst hne
      obtain rfl : winner = acc := by simpa [call.call] using hi.call
      obtain rfl : r' = r := by simpa [inserted] using hr
      cases at' with
      | underway pc sent => exact .inl ⟨pc, sent⟩
      | sent pc sent => exact .inr ⟨pc, sent⟩
    · simp [(others i acc hne hi).1] at hr

theorem answered_of_done (ho : Once env failed k n₀ s) {i : ℕ} {acc : Accept}
    {result : Except AcceptTaskError Unit} (hi : IsCall k n₀ s i acc) (hfailed : ¬ failed i)
    (hr : acc.row = none) (hdone : acc.pc = .done result) :
    ∃ j winner, IsCall k n₀ s j winner ∧ winner.row.isSome ∧
      (result = .ok () ↔ SameRequest winner.task acc.task) ∧
      (result ≠ .ok () → ∃ msg, result = .error (.storage msg)) := by
  cases ho with
  | before _ calls =>
    rcases (calls i acc hi).2 with hpc | hpc | ⟨hfails, -⟩
    · simp [hpc] at hdone
    · simp [hpc] at hdone
    · exact absurd hfails hfailed
  | @after w r winner text call inserted at' stored payload fresh others =>
    have hne : i ≠ w := hi.ne_of_row call (by simp [hr, inserted])
    refine ⟨w, winner, call, by simp [inserted], ?_⟩
    cases (others i acc hne hi).2 with
    | lookup pc | save pc | conflict pc => simp [pc] at hdone
    | accepted pc same =>
      obtain rfl : Except.ok () = result := by simpa [pc] using hdone
      exact ⟨by simp [same], fun hno => absurd rfl hno⟩
    | @rejected msg pc other =>
      obtain rfl : Except.error (.storage msg) = result := by simpa [pc] using hdone
      exact ⟨by simp [other.resolve_left hfailed], fun _ => ⟨msg, rfl⟩⟩

/-- What a call without a row returns, whether or not a statement of it failed. -/
theorem returned_of_done (ho : Once env failed k n₀ s) {i : ℕ} {acc : Accept}
    {result : Except AcceptTaskError Unit} (hi : IsCall k n₀ s i acc) (hr : acc.row = none)
    (hdone : acc.pc = .done result) : (∃ msg, result = .error (.storage msg)) ∨
      result = .ok () ∧ ∃ j winner, IsCall k n₀ s j winner ∧ winner.row.isSome ∧
        SameRequest winner.task acc.task := by
  cases ho with
  | before _ calls =>
    rcases (calls i acc hi).2 with hpc | hpc | ⟨-, ⟨e, hpc⟩ | ⟨msg, hpc⟩⟩
    · simp [hpc] at hdone
    · simp [hpc] at hdone
    · simp [hpc] at hdone
    · obtain rfl : Except.error (.storage msg) = result := by simpa [hpc] using hdone
      exact .inl ⟨msg, rfl⟩
  | @after w r winner text call inserted at' stored payload fresh others =>
    have hne : i ≠ w := hi.ne_of_row call (by simp [hr, inserted])
    cases (others i acc hne hi).2 with
    | lookup pc | save pc | conflict pc => simp [pc] at hdone
    | accepted pc same =>
      obtain rfl : Except.ok () = result := by simpa [pc] using hdone
      exact .inr ⟨rfl, w, winner, call, by simp [inserted], same⟩
    | @rejected msg pc =>
      obtain rfl : Except.error (.storage msg) = result := by simpa [pc] using hdone
      exact .inl ⟨msg, rfl⟩

/-- Only the call that waits for a place in the channel is not enabled, and then the worker is. -/
theorem progress_of_once (hcs : Calls env k n₀ s) (ho : Once env failed k n₀ s) {i : ℕ}
    {acc : Accept} (hi : IsCall k n₀ s i acc) : (∃ result, acc.pc = .done result) ∨
      (∀ c, (step env s (.accept i c)).isSome) ∨
        acc.pc = .enqueue ∧ ∀ c, (step env s (.worker c)).isSome := by
  cases ho with
  | before _ calls =>
    rcases (calls i acc hi).2 with hpc | hpc | ⟨-, hpc | ⟨msg, hpc⟩⟩
    · exact .inr (.inl (acceptStep_isSome hi.call (.inl hpc)))
    · exact .inr (.inl (acceptStep_isSome hi.call (.inr (.inl hpc))))
    · exact .inr (.inl (acceptStep_isSome hi.call (.inr (.inr (.inl hpc)))))
    · exact .inl ⟨_, hpc⟩
  | @after w r winner text call inserted at' stored payload fresh others =>
    by_cases hne : i = w
    · subst hne
      obtain rfl : winner = acc := by simpa [call.call] using hi.call
      cases at' with
      | sent pc sent => exact .inl ⟨_, pc⟩
      | underway pc sent =>
        rcases pc with pc | pc | pc
        · exact .inr (.inl (acceptStep_isSome hi.call (by simp [pc])))
        · exact .inr (.inl (acceptStep_isSome hi.call (by simp [pc])))
        · by_cases hroom : s.queue.length < queueCapacity
          · exact .inr (.inl (acceptStep_isSome hi.call (by simp [pc, hroom])))
          · refine .inr (.inr ⟨pc, workerStep_isSome hcs.live hcs.spawned ?_⟩)
            rintro hempty
            simp [hempty, queueCapacity] at hroom
    · cases (others i acc hne hi).2 with
      | accepted pc | rejected pc => exact .inl ⟨_, pc⟩
      | lookup pc | save pc | conflict pc =>
        exact .inr (.inl (acceptStep_isSome hi.call (by simp [pc])))

/-! ### Calls a statement of which fails -/

/-- The call has run into an error at a statement, or has returned. -/
def Over (acc : Accept) : Prop :=
  acc.row = none ∧ ((∃ e, acc.pc = .conflict e) ∨ ∃ r, acc.pc = .done r)

theorem over_move {i : ℕ} {c : Choice} {acc : Accept} (ho : Over acc)
    (hm : AcceptMove env s i c acc s') :
    ∃ acc', s'.accepts = s.accepts.set i acc' ∧ Over acc' := by
  obtain ⟨hrow, hpc⟩ := ho
  cases hm with
  | sameTask | otherTask => exact ⟨_, rfl, hrow, .inr ⟨_, rfl⟩⟩
  | lookupFailed pc | duplicate pc | absent pc | inserted pc | conflict pc | saveFailed pc
  | counted pc | held pc | enqueued pc | gone pc | uncounted pc | released pc => simp [pc] at hpc

theorem over_of_failing {i : ℕ} {c : Choice} {acc : Accept} {e : String} (hrow : acc.row = none)
    (hpc : atStatement acc.pc = true) (hsql : c.sql = some e) (hm : AcceptMove env s i c acc s') :
    ∃ acc', s'.accepts = s.accepts.set i acc' ∧ Over acc' := by
  obtain ⟨hloads, hsaves⟩ : loads env s c acc = .error e ∧ saves env s c acc = .error e :=
    errors_of_sql hsql
  cases hm with
  | lookupFailed | saveFailed | otherTask => exact ⟨_, rfl, hrow, .inr ⟨_, rfl⟩⟩
  | conflict => exact ⟨_, rfl, hrow, .inl ⟨_, rfl⟩⟩
  | duplicate pc load | absent pc load | sameTask pc load => simp [hloads] at load
  | inserted pc save => simp [hsaves] at save
  | counted pc | held pc | enqueued pc | gone pc | uncounted pc | released pc =>
    simp [pc, atStatement] at hpc

/-- The `i`-th call, once `acc`, has its task still, and is over if it was. -/
def Stays (i : ℕ) (acc : Accept) (s : Node) : Prop :=
  ∃ acc', s.accepts[i]? = some acc' ∧ acc'.task = acc.task ∧ (Over acc → Over acc')

theorem step_stays {i : ℕ} {acc₀ : Accept} (hq : Quiet a) (hs : Stays i acc₀ s)
    (h : step env s a = some s') : Stays i acc₀ s' := by
  obtain ⟨acc, hacc, htask, hover⟩ := hs
  have hlt : i < s.accepts.length := (List.getElem?_eq_some_iff.mp hacc).1
  cases step_accepts h with
  | same accepts => exact ⟨acc, accepts ▸ hacc, htask, hover⟩
  | refused _ accepts | called _ accepts =>
    exact ⟨acc, by rw [accepts, List.getElem?_append_left hlt, hacc], htask, hover⟩
  | @moved i' c acc' _ call move =>
    obtain ⟨acc₁, haccepts, htask₁, -⟩ := acceptMove_row move
    by_cases hi : i' = i
    · subst hi
      obtain rfl : acc = acc' := Option.some.inj (hacc.symm.trans call)
      have hself : s'.accepts[i']? = some acc₁ := by rw [haccepts, getElem?_set_self hacc]
      refine ⟨acc₁, hself, htask₁.trans htask, fun ho => ?_⟩
      obtain ⟨acc₂, haccepts₂, hover₂⟩ := over_move (hover ho) move
      rw [haccepts₂, getElem?_set_self hacc] at hself
      exact Option.some.inj hself ▸ hover₂
    · exact ⟨acc, by rw [haccepts, List.getElem?_set_ne hi, hacc], htask, hover⟩
  | cleared => exact hq.elim

/-- A call that is before a statement has no row. -/
theorem row_of_atStatement (ho : Once env failed k n₀ s) {i : ℕ} {acc : Accept}
    (hi : IsCall k n₀ s i acc) (hpc : atStatement acc.pc = true) : acc.row = none := by
  cases ho with
  | before _ calls => exact (calls i acc hi).1
  | @after w r winner text call inserted at' stored payload fresh others =>
    by_cases hne : i = w
    · subst hne
      obtain rfl : winner = acc := by simpa [call.call] using hi.call
      cases at' with
      | underway pc => rcases pc with pc | pc | pc <;> simp [pc, atStatement] at hpc
      | sent pc => simp [pc, atStatement] at hpc
    · exact (others i acc hne hi).1

/-- A call a statement of which failed inserts no row. -/
theorem row_of_statementFails {s₀ : Node} {acts : List Act} (hs₀ : Segment env failed k n₀ s₀)
    (hok : StepsMeet (step env) (fun s a => Quiet a ∧ JsonRoundTrip env a ∧ Marks failed s a) s₀ acts)
    (h : run (step env) s₀ acts = some s) {i : ℕ} {acc : Accept} (hi : IsCall k n₀ s i acc)
    (hfails : StatementFails env s₀ acts i) : acc.row = none := by
  obtain ⟨before, c, later, s₁, acc₁, rfl, hbefore, hacc₁, hpc, hsql⟩ := hfails
  obtain ⟨e, he⟩ := Option.ne_none_iff_exists'.mp hsql
  obtain ⟨hokb, hokl⟩ := stepsMeet_append.mp hok
  obtain ⟨s₁', hb, hrest⟩ := run_append_some.mp h
  obtain rfl := Option.some.inj (hbefore.symm.trans hb)
  obtain ⟨s₂, hstep, hlater⟩ := run_cons_some.mp hrest
  have hseg : Segment env failed k n₀ s₁ :=
    run_inv_of_stepsMeet (fun _ _ _ hs ok h => step_segment hs ok.1 ok.2.1 ok.2.2 h) hs₀ hokb hbefore
  obtain ⟨acc₁', hacc₁', hm⟩ := acceptStep_move hstep
  obtain rfl : acc₁ = acc₁' := Option.some.inj (hacc₁.symm.trans hacc₁')
  have hokl' := hokl s₁ hbefore
  have hstays : ∀ {acc₀}, s₂.accepts[i]? = some acc₀ → Stays i acc₀ s := fun hacc₀ =>
    run_inv_of_stepsMeet (fun _ _ _ hs ok h => step_stays ok.1 hs h) ⟨_, hacc₀, rfl, id⟩
      (hokl'.2 s₂ hstep) hlater
  obtain ⟨acc₂, haccepts, htask₂, -⟩ := acceptMove_row hm
  have hacc₂ : s₂.accepts[i]? = some acc₂ := by rw [haccepts, getElem?_set_self hacc₁]
  obtain ⟨acc', hacc', htask', hover'⟩ := hstays hacc₂
  obtain rfl : acc = acc' := Option.some.inj (hi.call.symm.trans hacc')
  have hkey : acc₁.task.key = k := by rw [← htask₂, ← htask', hi.key]
  have hcall : IsCall k n₀ s₁ i acc₁ := hseg.calls.isCall hacc₁ hm hkey
  obtain ⟨acc₃, haccepts₃, hover⟩ :=
    over_of_failing (row_of_atStatement hseg.once hcall hpc) hpc he hm
  rw [haccepts₃, getElem?_set_self hacc₁] at hacc₂
  obtain rfl := Option.some.inj hacc₂
  exact (hover' hover).1

theorem acceptedOnce (hs : Segment env failed k n₀ s)
    (hrow : ∀ i acc, IsCall k n₀ s i acc → failed i → acc.row = none) :
    AcceptedOnce env failed k n₀ s where
  unique i j acc acc' hi hj hr hr' := row_unique hs.once hi hj hr hr'
  inserted i acc hi hf hlookup hsave := inserted_of_past hs.once hi hf hlookup hsave
  enqueued i acc r hi hr := enqueued_of_row hs.once hi hr
  answered i acc result hi hf hr hdone := answered_of_done hs.once hi hf hr hdone
  refused i acc hi hf := ⟨hrow i acc hi hf, fun result hdone =>
    returned_of_done hs.once hi (hrow i acc hi hf) hdone⟩
  effects i c s' acc h hc hr := by
    obtain ⟨acc₀, hacc₀, hm⟩ := acceptStep_move h
    exact move_effects hs.once hacc₀ hm hc hr
  progress i acc hi := progress_of_once hs.calls hs.once hi

/-- **Main result.** From any reachable state of a running node whose worker lives, with no row
under `k` and no unfinished call for it: in every quiet run the calls for `k` are accepted once, as far
as their statements do not fail; and in every run `pending_tasks` counts what is outstanding over all
keys. -/
theorem accepts_once {acts₀ acts : List Act} {s₀ s₁ : Node} {k : Key}
    (h₀ : run (step env) init acts₀ = some s₀) (hrun : s₀.main = .running)
    (hlive : s₀.worker ≠ .panicked) (hnew : s₀.storage.tasks.lookup k = none)
    (hidle : ∀ acc ∈ s₀.accepts, acc.task.key = k → ∃ r, acc.pc = .done r)
    (hquiet : ∀ a ∈ acts, Quiet a) (hjson : ∀ a ∈ acts, JsonRoundTrip env a)
    (h₁ : run (step env) s₀ acts = some s₁) :
    AcceptedOnce env (StatementFails env s₀ acts) k s₀.accepts.length s₁ ∧
      CountsOutstanding s₁ ∧ ∀ acts' t, run (step env) s₀ acts' = some t → t.main = .running →
        t.worker ≠ .panicked → CountsOutstanding t := by
  have hspawned : s₀.main = .running → s₀.worker ≠ .unspawned :=
    run_inv (I := fun s => s.main = .running → s.worker ≠ .unspawned)
      (fun _ _ _ => step_spawned) (by simp [init]) h₀
  have hfresh : Fresh s₀ := run_inv (fun _ _ _ => step_fresh) fresh_init h₀
  have hnone : ∀ i acc, ¬ IsCall k s₀.accepts.length s₀ i acc := fun i acc hc => by
    have := (List.getElem?_eq_some_iff.mp hc.call).1
    have := hc.later
    omega
  have hseg₀ : Segment env (StatementFails env s₀ acts) k s₀.accepts.length s₀ :=
    ⟨⟨hrun, hlive, hspawned hrun, hfresh,
      fun i acc _ hget hkey => hidle acc (List.mem_of_getElem? hget) hkey, le_refl _,
      fun i acc hc => absurd hc (hnone i acc)⟩,
      .before (rowData_eq_none.mpr hnew) fun i acc hc => absurd hc (hnone i acc)⟩
  have hok : StepsMeet (step env) (fun s a => Quiet a ∧ JsonRoundTrip env a ∧
      Marks (StatementFails env s₀ acts) s a) s₀ acts :=
    stepsMeet_of_split fun before a later s hacts hbefore =>
      ⟨hquiet a (hacts ▸ by simp), hjson a (hacts ▸ by simp), marks_statementFails hacts hbefore⟩
  have hseg : Segment env (StatementFails env s₀ acts) k s₀.accepts.length s₁ :=
    run_inv_of_stepsMeet (fun _ _ _ hs ok h => step_segment hs ok.1 ok.2.1 ok.2.2 h) hseg₀ hok h₁
  have hcounts : ∀ acts' t, run (step env) s₀ acts' = some t → t.main = .running →
      t.worker ≠ .panicked → CountsOutstanding t := fun acts' t ht hmain hworker =>
    countsOutstanding (run_counted (run_append_some.mpr ⟨s₀, h₀, ht⟩)) hworker hmain
  exact ⟨acceptedOnce hseg fun i acc hi hfails => row_of_statementFails hseg₀ hok h₁ hi hfails,
    hcounts acts s₁ h₁ hseg.calls.running hseg.calls.live, hcounts⟩

/-- Three dispatches of one task race: two find no row and the lookup of the third fails; the first
saves it, the second runs into the key, the first sends the task and the worker takes it up. -/
def raceActs : List Act :=
  [.dispatch (emptyRequest "sub-1") "orch" none 0, .dispatch (emptyRequest "sub-1") "orch" none 0,
    .dispatch (emptyRequest "sub-1") "orch" none 0, .accept 0 {}, .accept 1 {},
    .accept 2 { sql := some "disk I/O error" }, .accept 0 {}, .accept 1 {}, .accept 0 {},
    .accept 0 {}, .accept 0 {}, .worker {}]

theorem nodeA_jsonRoundTrip :
    JsonRoundTrip nodeA (.dispatch (emptyRequest "sub-1") "orch" none 0) := by
  intro request pubkey budget nowMs task heq hprep
  cases heq
  rw [prepare_empty] at hprep
  cases hprep
  refine ⟨nodeA_readsBack "sub-1", utf8 (requestJson "sub-1"), rfl, ?_⟩
  simp [nodeA, withoutNode, emptyTask, emptyRequest]

/-- The node after its startup. -/
def started : Node := { init with main := .running, worker := .recv, retry := .sleep }

theorem accepts_once_race :
    ∃ s₀ s₁, run (step nodeA) init [.start, .main] = some s₀ ∧
      run (step nodeA) s₀ raceActs = some s₁ ∧
      AcceptedOnce nodeA (StatementFails nodeA s₀ raceActs) ("orch", "sub-1") s₀.accepts.length
        s₁ ∧ CountsOutstanding s₁ := by
  have hs₀ : run (step nodeA) init [.start, .main] = some started := rfl
  obtain ⟨s₁, hs₁⟩ : ∃ s₁, run (step nodeA) started raceActs = some s₁ :=
    Option.isSome_iff_exists.mp (by decide +kernel)
  have hquiet : ∀ a ∈ raceActs, Quiet a := by simp [raceActs, Quiet]
  have hjson : ∀ a ∈ raceActs, JsonRoundTrip nodeA a := by
    intro a ha
    simp only [raceActs, List.mem_cons, List.not_mem_nil, or_false] at ha
    rcases ha with rfl | rfl | rfl | rfl | rfl | rfl | rfl | rfl | rfl | rfl | rfl | rfl
    · exact nodeA_jsonRoundTrip
    · exact nodeA_jsonRoundTrip
    · exact nodeA_jsonRoundTrip
    all_goals
      intro request pubkey budget nowMs task heq
      cases heq
  obtain ⟨honce, hcounts, -⟩ := accepts_once (k := ("orch", "sub-1")) hs₀ rfl (by simp [started]) rfl
    (by simp [started, init]) hquiet hjson hs₁
  exact ⟨started, s₁, hs₀, hs₁, honce, hcounts⟩

/-- One dispatch, and the lookup of its row fails. -/
def refusedActs : List Act :=
  [.dispatch (emptyRequest "sub-1") "orch" none 0, .accept 0 { sql := some "disk I/O error" }]

/-- **Where the statements fail nothing is accepted**: the one call for the task cannot look its row
up. It returns a storage error; there is no row and nothing in the channel. -/
theorem failed_lookup_not_accepted :
    (∀ a ∈ refusedActs, Quiet a) ∧ (∀ a ∈ refusedActs, JsonRoundTrip nodeA a) ∧
      ∃ s, run (step nodeA) started refusedActs = some s ∧
        s.accepts.map (·.pc) =
          [.done (.error (.storage "task lookup failed: disk I/O error"))] ∧
        s.storage.tasks.lookup ("orch", "sub-1") = none ∧ s.queue = [] ∧
        s.history.enqueued = [] := by
  have hquiet : ∀ a ∈ refusedActs, Quiet a := by simp [refusedActs, Quiet]
  have hjson : ∀ a ∈ refusedActs, JsonRoundTrip nodeA a := by
    intro a ha
    simp only [refusedActs, List.mem_cons, List.not_mem_nil, or_false] at ha
    rcases ha with rfl | rfl
    · exact nodeA_jsonRoundTrip
    · intro request pubkey budget nowMs task heq
      cases heq
  have hcall : step nodeA started (.dispatch (emptyRequest "sub-1") "orch" none 0) =
      some { started with accepts := [⟨emptyTask nodeA "sub-1", .lookup, none⟩] } := by
    simp [step, started, init, prepare_empty]
  refine ⟨hquiet, hjson, { started with accepts := [⟨emptyTask nodeA "sub-1",
    .done (.error (.storage "task lookup failed: disk I/O error")), none⟩] }, ?_, rfl, rfl, rfl, rfl⟩
  exact run_cons_some.mpr ⟨_, hcall, rfl⟩

end WqcNode.Application.AcceptOnce
