import WqcNode.Application.ResultOutbox
import Mathlib.Algebra.Order.Group.Multiset
import Mathlib.Tactic.Abel

/-! # Computed results across a stop of the process

`process_task` sets the status of the task's row before `deliver_result` has stored the result, so a
stop in between leaves a terminal row whose result is nowhere. If that statement never commits, and
the retry loop deletes an outbox row only while it holds the body that was sent, every terminal row
has its result in the outbox or sent (`result_kept`).

The argument: every task in the process is held once (`Held`), its row is `pending` for as long as
it is, and the status that ends this is written after the result was stored. -/

namespace WqcNode.Application.CrashSafety

open WqcNode.Lib WqcNode.Lib.Machine WqcNode.Infra WqcNode.Domain.Models
open WqcNode.Application.NodeMachine WqcNode.Application.NodeInvariants
open WqcNode.Application.Recovery WqcNode.Application.ResultOutbox

variable {env : Env} {s s' : Node} {a : Act}

/-- A row the worker has taken up is still pending, or has its result in the outbox, or a body built
for it was sent. -/
def ResultKept (s : Node) : Prop :=
  ∀ key row, s.storage.tasks.lookup key = some row → row.id ∈ s.history.takenUp →
    row.status = .pending ∨ (outboxBody s.storage key).isSome ∨
      ∃ body, (row.id, body) ∈ s.history.built ∧ (key, body) ∈ s.history.sentOk

/-- The status update of `process_task` does not commit, and the retry loop does not delete an
outbox row that holds another body than the one it sent. -/
def safe (s : Node) : Act → Bool
  | .worker c =>
    match s.worker with
    | .status _ _ => c.sql.isSome
    | _ => true
  | .retry c =>
    match s.retry with
    | .delete entry _ => c.sql.isSome ||
        (outboxBody s.storage entry.key).all (· == entry.wireBody)
    | _ => true
  | _ => true

/-! ### Who holds a task -/

/-- The call has saved its task and not sent it. -/
def callHolds (acc : Accept) : Multiset QueuedTask :=
  match acc.pc with
  | .count | .hold | .enqueue => {⟨acc.row.getD 0, acc.task⟩}
  | _ => 0

/-- The worker has not set the final status of its task. -/
def workerHas : WorkerPc → Multiset QueuedTask
  | .start q | .compute q | .status q _ | .build q _ | .upsert q _ _ | .deliverStatus q _ _ => {q}
  | _ => 0

/-- The tasks in the process, from the saved row to the final status. -/
def holders (s : Node) : Multiset QueuedTask :=
  ↑(restoring s.main) + (s.accepts.map callHolds).sum + ↑s.queue + workerHas s.worker

theorem move_holders {i : ℕ} {c : Choice} {acc : Accept} (hm : AcceptMove env s i c acc s') :
    ∃ acc', s'.accepts = s.accepts.set i acc' ∧
      (callHolds acc' + ↑s'.queue ≤ callHolds acc + (↑s.queue : Multiset QueuedTask) ∨
        acc.pc = .save ∧ (∃ st, saves env s c acc = .ok st) ∧ s'.queue = s.queue ∧
          callHolds acc = 0 ∧ callHolds acc' = {⟨s.storage.nextTaskId, acc.task⟩}) := by
  cases hm with
  | inserted pc save =>
    exact ⟨_, rfl, .inr ⟨pc, ⟨_, save⟩, rfl, by simp [callHolds, pc], by simp [callHolds]⟩⟩
  | counted pc | held pc => exact ⟨_, rfl, .inl (by simp [callHolds, pc, setAccept])⟩
  | enqueued pc =>
    refine ⟨_, rfl, .inl (le_of_eq ?_)⟩
    simp only [callHolds, pc, zero_add]
    rw [← Multiset.coe_add, add_comm]
    rfl
  | _ => exact ⟨_, rfl, .inl (by simp [callHolds, setAccept])⟩

/-- The worker takes a task from the channel, and lets it go in the end. -/
theorem workerStep_holders {c : Choice} (h : workerStep env s c = some s') :
    (↑s'.queue : Multiset QueuedTask) + workerHas s'.worker ≤ ↑s.queue + workerHas s.worker := by
  cases workerStep_move h with
  | taken pc waiting =>
    simp only [pc, waiting, workerHas, add_zero]
    rw [← Multiset.cons_coe, ← Multiset.singleton_add, add_comm]
  | started pc | computed pc | statusSet pc | unbuilt pc | built pc | unstored pc | stored pc
  | deliverStatusSet pc | sent pc | unsent pc | undeleted pc | deleted pc | retained pc
  | uncounted pc | released pc => simp [pc, workerHas, deleteResult]

/-- Which tasks count as held: those of `main`, of each call and of the worker; the channel's always
do. -/
structure Share where
  main : MainPc → Multiset QueuedTask
  call : Accept → Multiset QueuedTask
  worker : WorkerPc → Multiset QueuedTask

def Share.of (p : Share) (s : Node) : Multiset QueuedTask :=
  p.main s.main + (s.accepts.map p.call).sum + ↑s.queue + p.worker s.worker

/-- An accept call changes the share by its own part and the channel. -/
theorem Share.of_accept (p : Share) {i : ℕ} {c : Choice} {acc acc' : Accept}
    (hacc : s.accepts[i]? = some acc) (h : acceptStep env s i c = some s')
    (haccepts : s'.accepts = s.accepts.set i acc') :
    p.of s' + (p.call acc + ↑s.queue) = p.of s + (p.call acc' + ↑s'.queue) := by
  obtain ⟨hmain, hworker, -, -⟩ := acceptStep_frame h
  have hsum := sum_map_set p.call hacc acc'
  rw [← haccepts] at hsum
  simp only [Share.of, hmain, hworker]
  calc p.main s.main + (s'.accepts.map p.call).sum + ↑s'.queue + p.worker s.worker +
        (p.call acc + ↑s.queue) =
      ((s'.accepts.map p.call).sum + p.call acc) +
        (p.main s.main + ↑s'.queue + p.worker s.worker + ↑s.queue) := by abel
    _ = ((s.accepts.map p.call).sum + p.call acc') +
        (p.main s.main + ↑s'.queue + p.worker s.worker + ↑s.queue) := by rw [hsum]
    _ = p.main s.main + (s.accepts.map p.call).sum + ↑s.queue + p.worker s.worker +
        (p.call acc' + ↑s'.queue) := by abel

/-- The worker changes the share by its own part and the channel. -/
theorem Share.of_worker (p : Share) {c : Choice} (h : workerStep env s c = some s') :
    p.of s' + (↑s.queue + p.worker s.worker) = p.of s + (↑s'.queue + p.worker s'.worker) := by
  obtain ⟨hmain, haccepts, -⟩ := workerStep_frame h
  simp only [Share.of, hmain, haccepts]
  abel

/-- The tasks in the process from the saved row on, the worker's being `f`. -/
def fromRow (f : WorkerPc → Multiset QueuedTask) : Share := ⟨fun m => ↑(restoring m), callHolds, f⟩

/-- The worker has a task only from the channel, and none when it is not running. -/
structure Shrinks (f : WorkerPc → Multiset QueuedTask) : Prop where
  idle : f .unspawned = 0 ∧ f .recv = 0 ∧ f .panicked = 0
  step : ∀ {env : Env} {s s' : Node} {c : Choice}, workerStep env s c = some s' →
    (↑s'.queue : Multiset QueuedTask) + f s'.worker ≤ ↑s.queue + f s.worker

theorem shrinks_workerHas : Shrinks workerHas := ⟨⟨rfl, rfl, rfl⟩, workerStep_holders⟩

/-- How a step can change the tasks from the saved row on. -/
inductive ShareChange (p : Share) (env : Env) (s : Node) : Act → Node → Prop
  | fewer {a : Act} {s' : Node} (le : p.of s' ≤ p.of s) : ShareChange p env s a s'
  | restored {s' : Node} {tasks : List (ℕ × ComputeTask)}
      (rows : s.storage.getPendingTasks env.serde = .ok tasks) (storage : s'.storage = s.storage)
      (eq : p.of s' = ↑(tasks.map fun t => (⟨t.1, t.2⟩ : QueuedTask))) :
      ShareChange p env s .start s'
  | saved {i : ℕ} {c : Choice} {acc : Accept} {s' : Node} {st : Storage}
      (call : s.accepts[i]? = some acc) (save : saves env s c acc = .ok st)
      (storage : s'.storage = st)
      (eq : p.of s' = ⟨s.storage.nextTaskId, acc.task⟩ ::ₘ p.of s) :
      ShareChange p env s (.accept i c) s'

theorem acceptStep_share (f : WorkerPc → Multiset QueuedTask) {i : ℕ} {c : Choice}
    (h : acceptStep env s i c = some s') : ShareChange (fromRow f) env s (.accept i c) s' := by
  obtain ⟨acc, hacc, hm⟩ := acceptStep_move h
  obtain ⟨acc', haccepts, hheld⟩ := move_holders hm
  have hall := (fromRow f).of_accept hacc h haccepts
  rcases hheld with hle | ⟨hpc, ⟨st, hsave⟩, hqueue, hzero, hone⟩
  · refine .fewer ?_
    rw [← add_le_add_iff_right (callHolds acc + ↑s.queue)]
    calc _ = (fromRow f).of s + (callHolds acc' + ↑s'.queue) := hall
      _ ≤ _ := by gcongr
  · have hst : s'.storage = st := by
      cases hm with
      | inserted pc save =>
        rw [hsave] at save
        exact (Except.ok.inj save).symm
      | conflict pc save | saveFailed pc save => simp [hsave] at save
      | lookupFailed pc | duplicate pc | absent pc | sameTask pc | otherTask pc | counted pc
      | held pc | enqueued pc | gone pc | uncounted pc | released pc => simp [hpc] at pc
    refine .saved hacc hsave hst ?_
    have hall' : (fromRow f).of s' + ↑s.queue =
        ⟨s.storage.nextTaskId, acc.task⟩ ::ₘ (fromRow f).of s + ↑s.queue := by
      rw [fromRow] at hall
      simp only [hzero, hone, hqueue, zero_add] at hall
      rw [fromRow, hall, ← Multiset.singleton_add]
      abel
    exact add_right_cancel hall'

/-- Every step changes the tasks from the saved row on in one of these ways. -/
theorem step_share {f : WorkerPc → Multiset QueuedTask} (hf : Shrinks f) (hp : Phases s)
    (h : step env s a = some s') : ShareChange (fromRow f) env s a s' := by
  obtain ⟨hunspawned, hrecv, hpanicked⟩ := hf.idle
  cases step_move h with
  | unread => exact .fewer le_rfl
  | read main rows =>
    have hq := hp.starting (by simp [main])
    refine .restored rows rfl ?_
    simp [Share.of, fromRow, restoring, hq.accepts, hq.worker, (hp.stopped main).1, hunspawned]
  | spawned main =>
    have hq := hp.starting (by simp [main])
    refine .fewer ?_
    simp [Share.of, fromRow, main, hq.worker, hunspawned, hrecv, restoring]
  | restored main => exact .fewer (by simp [Share.of, fromRow, main, restoring])
  | requeued main =>
    refine .fewer (le_of_eq ?_)
    simp only [Share.of, fromRow, main, restoring]
    rw [← Multiset.coe_add, Multiset.coe_singleton, ← Multiset.cons_coe, ← Multiset.singleton_add]
    abel
  | refused | called => exact .fewer (le_of_eq (by simp [Share.of, fromRow, callHolds]))
  | accept => exact acceptStep_share f h
  | worker =>
    obtain ⟨hmain, haccepts, -⟩ := workerStep_frame h
    refine .fewer ?_
    simp only [Share.of, fromRow, hmain, haccepts, add_assoc]
    exact add_le_add le_rfl (add_le_add le_rfl (hf.step h))
  | panicked => exact .fewer (by simp [Share.of, fromRow, hpanicked, add_assoc])
  | retry =>
    obtain ⟨hmain, haccepts, hworker, hqueue, -⟩ := retryStep_frame h
    exact .fewer (le_of_eq (by simp only [Share.of, hmain, haccepts, hworker, hqueue]))
  | pruned | received | lost => exact .fewer le_rfl
  | crashed => exact .fewer (by simp [Share.of, fromRow, crashed, init, restoring, hunspawned])

/-- How a step can change who holds a task. -/
inductive HoldersChange (env : Env) (s : Node) : Act → Node → Prop
  | fewer {a : Act} {s' : Node} (le : holders s' ≤ holders s) : HoldersChange env s a s'
  | restored {s' : Node} {tasks : List (ℕ × ComputeTask)}
      (rows : s.storage.getPendingTasks env.serde = .ok tasks) (storage : s'.storage = s.storage)
      (eq : holders s' = ↑(tasks.map fun t => (⟨t.1, t.2⟩ : QueuedTask))) :
      HoldersChange env s .start s'
  | saved {i : ℕ} {c : Choice} {acc : Accept} {s' : Node} {st : Storage}
      (call : s.accepts[i]? = some acc) (save : saves env s c acc = .ok st)
      (storage : s'.storage = st)
      (eq : holders s' = ⟨s.storage.nextTaskId, acc.task⟩ ::ₘ holders s) :
      HoldersChange env s (.accept i c) s'

/-- Every step changes the holders in one of these ways. -/
theorem step_holders (hp : Phases s) (h : step env s a = some s') : HoldersChange env s a s' := by
  cases step_share shrinks_workerHas hp h with
  | fewer le => exact .fewer le
  | restored rows storage eq => exact .restored rows storage eq
  | saved call save storage eq => exact .saved call save storage eq

/-! ### A held task is pending, and held once -/

/-- Every task held has a pending row under its key, with its id, and no key is held twice. -/
structure Held (s : Node) : Prop where
  rows : ∀ q ∈ holders s, ∃ row, s.storage.tasks.lookup q.task.key = some row ∧ row.id = q.row ∧
    row.status = .pending
  once : ((holders s).map fun q => q.task.key).Nodup

theorem held_init : Held init := by
  have hnone : holders init = 0 := rfl
  exact ⟨by simp [hnone], by simp [hnone]⟩

/-- The tasks restored at a start have distinct keys, as their rows do. -/
theorem restored_once (hr : Readable env s) {tasks : List (ℕ × ComputeTask)}
    (h : s.storage.getPendingTasks env.serde = .ok tasks) :
    tasks.Pairwise fun t t' => t.2.key ≠ t'.2.key := by
  -- a payload is read as a task under the key of its row
  have hkey : ∀ e ∈ s.storage.tasks.entries, ∀ t : ℕ × ComputeTask,
      (env.serde.taskFromStr e.2.payload).map (e.2.id, ·) = .ok t → t.2.key = e.1 := by
    intro e he t ht
    obtain ⟨task, hdec, htask⟩ := hr.rows e.1 e.2 (Table.mem_entries.mp he)
    simp only [hdec, Except.map, Except.ok.injEq] at ht
    rw [← ht, htask]
  refine Fallible.mapM_pairwise h ?_
  rw [Storage.pendingRows, List.Perm.pairwise_iff (fun hne t t' ht ht' => (hne t' t ht' ht).symm)
    (List.perm_insertionSort _ _)]
  refine List.Pairwise.filter _ (List.pairwise_map.mpr ?_)
  refine (List.nodupKeys_iff_pairwise.mp s.storage.tasks.nodupKeys).imp_of_mem ?_
  intro e e' he he' hne t t' ht ht'
  rw [hkey e he t ht, hkey e' he' t' ht']
  exact hne

/-- A pending row stays as it is unless the worker sets its final status. -/
theorem pending_stays {st : Storage} (hc : TasksChange env s a st) (hsafe : safe s a = true)
    {key : Key} {row : TaskRow} (hrow : s.storage.tasks.lookup key = some row)
    (hpend : row.status = .pending)
    (hnot : ∀ c q payload body, a = .worker c → s.worker = .deliverStatus q payload body →
      key ≠ q.task.key) : st.tasks.lookup key = some row := by
  cases hc with
  | same tasks => rwa [tasks]
  | insert call pc sql payload fresh =>
    rw [Table.lookup_insert_if, if_neg, hrow]
    rintro rfl
    simp [hrow] at fresh
  | @status c q payload pc sql =>
    rcases pc with hw | ⟨body, hw⟩
    · simp [safe, hw, sql] at hsafe
    · rw [Storage.updateStatus, Table.lookup_adjust_ne _ _ (hnot c q payload body rfl hw), hrow]
  | prune t =>
    rw [Storage.pruneTerminalTasks, Table.lookup_retain, hrow, Option.filter_some]
    simp [hpend]

/-- The task whose final status is being set is no longer held, by anyone. -/
theorem finished_not_held (hh : Held s) {c : Choice} {q : QueuedTask} {payload : TaskResultPayload}
    {body : Bytes} (hw : s.worker = .deliverStatus q payload body)
    (h : workerStep env s c = some s') : ∀ q' ∈ holders s', q'.task.key ≠ q.task.key := by
  have heq : holders s = q ::ₘ holders s' := by
    simp only [workerStep, hw] at h
    cases h
    simp only [holders, hw, workerHas, add_zero]
    exact (add_comm _ _).trans (Multiset.singleton_add ..)
  intro q' hq' hkey
  have honce := hh.once
  rw [heq, Multiset.map_cons, Multiset.nodup_cons] at honce
  exact honce.1 (hkey ▸ Multiset.mem_map_of_mem _ hq')

theorem step_held (hh : Held s) (hp : Phases s) (hr : Readable env s) (hsafe : safe s a = true)
    (h : step env s a = some s') : Held s' := by
  cases step_holders hp h with
  | fewer le =>
    refine ⟨fun q hq => ?_, Multiset.nodup_of_le (Multiset.map_le_map le) hh.once⟩
    obtain ⟨row, hrow, hid, hpend⟩ := hh.rows q (Multiset.mem_of_le le hq)
    refine ⟨row, pending_stays (step_tasks h) hsafe hrow hpend ?_, hid, hpend⟩
    rintro c q' payload body rfl hw
    exact finished_not_held hh hw h q hq
  | @restored _ tasks rows storage eq =>
    refine ⟨fun q hq => ?_, ?_⟩
    · rw [eq, Multiset.mem_coe, List.mem_map] at hq
      obtain ⟨t, ht, rfl⟩ := hq
      obtain ⟨key, row, hrow, hpend, hid, hdec⟩ := mem_getPendingTasks rows ht
      obtain ⟨task, hdec', hkey⟩ := hr.rows key row hrow
      obtain rfl : t.2 = task := Except.ok.inj (hdec.symm.trans hdec')
      exact ⟨row, by rw [storage, hkey, hrow], hid, hpend⟩
    · rw [eq, Multiset.map_coe, Multiset.coe_nodup, List.map_map, List.nodup_iff_pairwise_ne,
        List.pairwise_map]
      exact restored_once hr rows
  | @saved i c acc _ st call save storage eq =>
    obtain ⟨-, text, -, hfresh, hst⟩ := saves_ok save
    have hother : ∀ q ∈ holders s, q.task.key ≠ acc.task.key := by
      intro q hq hkey
      obtain ⟨row, hrow, -⟩ := hh.rows q hq
      rw [hkey, hfresh] at hrow
      cases hrow
    refine ⟨fun q hq => ?_, ?_⟩
    · rw [eq, Multiset.mem_cons] at hq
      rw [storage, hst]
      rcases hq with rfl | hq
      · exact ⟨_, AList.lookup_insert _, rfl, rfl⟩
      · obtain ⟨row, hrow, hid, hpend⟩ := hh.rows q hq
        refine ⟨row, ?_, hid, hpend⟩
        rw [Table.lookup_insert_if, if_neg (hother q hq), hrow]
    · rw [eq, Multiset.map_cons, Multiset.nodup_cons]
      refine ⟨fun hmem => ?_, hh.once⟩
      obtain ⟨q, hq, hkey⟩ := Multiset.mem_map.mp hmem
      exact hother q hq hkey

/-! ### A terminal row has its result -/

/-- The body is in the outbox under the key, or was sent for it. -/
def Delivered (s : Node) (key : Key) (body : Bytes) : Prop :=
  outboxBody s.storage key = some body ∨ (key, body) ∈ s.history.sentOk

/-- A row is deleted once its body was sent, so only a result stored over it can displace a body. -/
theorem step_delivered {key : Key} {body : Bytes} (hd : Delivered s key body)
    (hworker : WorkerHolds s) (hsent : Sent s) (hsafe : safe s a = true)
    (hup : ∀ c q payload b, a = .worker c → s.worker = .upsert q payload b → key ≠ q.task.key)
    (h : step env s a = some s') : Delivered s' key body := by
  rcases hd with hbox | hsent'
  swap
  · exact .inr (step_sentOk h hsent')
  have hc := step_results h
  have hmono : (key, body) ∈ s.history.sentOk → Delivered s' key body := fun hx =>
    .inr (step_sentOk h hx)
  suffices outboxBody s'.storage key = some body ∨ (key, body) ∈ s.history.sentOk from
    this.elim .inl hmono
  generalize s'.storage = st at hc
  cases hc with
  | same results =>
    rw [outboxBody, results]
    exact .inl hbox
  | upsert pc sql =>
    rw [outboxBody_upsert, if_neg (hup _ _ _ _ rfl pc)]
    exact .inl hbox
  | @workerDelete c q payload b pc sql =>
    rw [outboxBody_delete]
    split_ifs with hkey
    · subst hkey
      obtain rfl := hworker _ b (by simp [pc, workerDelivers]) body hbox
      exact .inr (hsent.worker _ _ _ pc)
    · exact .inl hbox
  | @retryDelete c entry rest pc sql =>
    rw [outboxBody_delete]
    split_ifs with hkey
    · subst hkey
      obtain rfl : body = entry.wireBody := by simpa [safe, pc, sql, hbox] using hsafe
      exact .inr (hsent.retry _ _ pc)
    · exact .inl hbox
  | bump pc sql =>
    rw [outboxBody_bump]
    exact .inl hbox

theorem step_built (h : step env s a = some s') {x : ℕ × Bytes} (hx : x ∈ s.history.built) :
    x ∈ s'.history.built := by
  cases a with
  | accept i c =>
    obtain ⟨acc, -, hm⟩ := acceptStep_move h
    cases hm <;> exact hx
  | worker c =>
    cases workerStep_move h with
    | built pc build => exact List.mem_cons_of_mem _ hx
    | _ => exact hx
  | retry c => cases retryStep_move h <;> exact hx
  | _ =>
    rw [(step_others rfl h).history]
    exact hx

/-- What the worker stores was built for its row. -/
structure Stores (s : Node) : Prop where
  built : ∀ q payload body, s.worker = .upsert q payload body ∨
    s.worker = .deliverStatus q payload body → (q.row, body) ∈ s.history.built
  stored : ∀ q payload body, s.worker = .deliverStatus q payload body →
    Delivered s q.task.key body

/-- The worker stores what it has just built, and sets the status once that is stored. -/
theorem workerStep_stores {c : Choice} (h : workerStep env s c = some s') :
    (∀ q payload body, s'.worker = .upsert q payload body → (q.row, body) ∈ s'.history.built) ∧
    ∀ q payload body, s'.worker = .deliverStatus q payload body →
      s.worker = .upsert q payload body ∧ outboxBody s'.storage q.task.key = some body := by
  cases workerStep_move h with
  | built pc build =>
    refine ⟨fun q' payload' body hb => ?_, by simp⟩
    cases hb
    exact List.mem_cons_self ..
  | stored pc sql =>
    refine ⟨by simp, fun q' payload' b hb => ?_⟩
    cases hb
    exact ⟨pc, by simp [outboxBody_upsert]⟩
  | _ => exact ⟨by simp, by simp⟩

/-- What holds in a run of safe steps. -/
structure Safe (env : Env) (s : Node) : Prop where
  phases : Phases s
  readable : Readable env s
  held : Held s
  worker : WorkerHolds s
  sent : Sent s
  stores : Stores s
  terminal : ∀ key row, s.storage.tasks.lookup key = some row → row.status ≠ .pending →
    ∃ body, (row.id, body) ∈ s.history.built ∧ Delivered s key body

theorem step_stores (hi : Safe env s) (hsafe : safe s a = true) (h : step env s a = some s') :
    Stores s' := by
  refine ⟨fun q payload body hw => ?_, fun q payload body hw => ?_⟩
  · rcases step_worker h with ⟨c, rfl⟩ | hsame | hother | hother | hother
    · rcases hw with hw | hw
      · exact (workerStep_stores h).1 q payload body hw
      · exact step_built h (hi.stores.built q payload body (.inl ((workerStep_stores h).2 _ _ _ hw).1))
    · exact step_built h (hi.stores.built q payload body (hsame ▸ hw))
    all_goals simp [hother] at hw
  · rcases step_worker h with ⟨c, rfl⟩ | hsame | hother | hother | hother
    · exact .inl ((workerStep_stores h).2 _ _ _ hw).2
    · rw [hsame] at hw
      refine step_delivered (hi.stores.stored q payload body hw) hi.worker hi.sent hsafe ?_ h
      intro c q' payload' b _ hw'
      simp [hw] at hw'
    all_goals simp [hother] at hw

theorem step_terminal (hi : Safe env s) (hsafe : safe s a = true) (h : step env s a = some s')
    {key : Key} {row : TaskRow} (hrow : s'.storage.tasks.lookup key = some row)
    (hterm : row.status ≠ .pending) :
    ∃ body, (row.id, body) ∈ s'.history.built ∧ Delivered s' key body := by
  -- a row that was terminal before: the worker is not storing a result under its key
  have hold : s.storage.tasks.lookup key = some row →
      ∃ body, (row.id, body) ∈ s'.history.built ∧ Delivered s' key body := by
    intro hrow₀
    obtain ⟨body, hbuilt, hdel⟩ := hi.terminal key row hrow₀ hterm
    refine ⟨body, step_built h hbuilt, step_delivered hdel hi.worker hi.sent hsafe ?_ h⟩
    rintro c q payload b rfl hw rfl
    obtain ⟨row', hrow', -, hpend⟩ := hi.held.rows q (by simp [holders, hw, workerHas])
    obtain rfl : row = row' := Option.some.inj (hrow₀.symm.trans hrow')
    exact hterm hpend
  have hc := step_tasks h
  generalize hst : s'.storage = st at hc hrow
  cases hc with
  | same tasks => exact hold (tasks ▸ hrow)
  | insert call pc sql payload fresh =>
    rw [Table.lookup_insert_if] at hrow
    split_ifs at hrow with hkey
    · cases hrow
      simp at hterm
    · exact hold hrow
  | @status c q payload pc sql =>
    rcases pc with hw | ⟨body, hw⟩
    · simp [safe, hw, sql] at hsafe
    by_cases hkey : key = q.task.key
    · subst hkey
      obtain ⟨row₀, hrow₀, hid₀, -⟩ := hi.held.rows q (by simp [holders, hw, workerHas])
      obtain ⟨row₁, hrow₁, -, hid₁⟩ := lookup_updateStatus hrow
      obtain rfl : row₀ = row₁ := Option.some.inj (hrow₀.symm.trans hrow₁)
      have hbuilt := hi.stores.built q payload body (.inr hw)
      rw [← hid₀, hid₁] at hbuilt
      refine ⟨body, step_built h hbuilt,
        step_delivered (hi.stores.stored q payload body hw) hi.worker hi.sent hsafe ?_ h⟩
      intro c q' payload' b _ hw'
      simp [hw] at hw'
    · rw [Storage.updateStatus, Table.lookup_adjust_ne _ _ hkey] at hrow
      exact hold hrow
  | prune t =>
    rw [Storage.pruneTerminalTasks, Table.lookup_retain, Option.filter_eq_some_iff] at hrow
    exact hold hrow.1

theorem step_safe (hi : Safe env s) (hback : ReadsBack env a) (hsafe : safe s a = true)
    (h : step env s a = some s') : Safe env s' where
  phases := step_phases hi.phases h
  readable := step_readable hi.readable hback h
  held := step_held hi.held hi.phases hi.readable hsafe h
  worker := step_workerHolds hi.worker h
  sent := step_sent hi.sent h
  stores := step_stores hi hsafe h
  terminal _ _ hrow hterm := step_terminal hi hsafe h hrow hterm

theorem safe_init : Safe env init where
  phases := phases_init
  readable := readable_init
  held := held_init
  worker := workerHolds_init
  sent := sent_init
  stores := ⟨by simp [init], by simp [init]⟩
  terminal := by simp [init, Storage.new]

/-- **Main result.** In every run whose steps are safe, in every state reached, no computed result
is lost. -/
theorem result_kept {acts : List Act} (hback : ∀ a ∈ acts, ReadsBack env a)
    (hsafe : StepsMeet (step env) (fun s a => safe s a = true) init acts)
    (h : run (step env) init acts = some s) : ResultKept s := by
  have hi : Safe env s := run_inv_of_stepsMeet
    (fun _ _ _ hi hok => step_safe hi hok.1 hok.2) safe_init
    ((stepsMeet_of_forall hback init).and hsafe) h
  intro key row hrow _
  by_cases hpend : row.status = .pending
  · exact .inl hpend
  · obtain ⟨body, hbuilt, hbox | hsent⟩ := hi.terminal key row hrow hpend
    · exact .inr (.inl (by simp [hbox]))
    · exact .inr (.inr ⟨body, hbuilt, hsent⟩)

theorem computedActs_readsBack {acts : List Act}
    (hacts : ∀ a ∈ acts, ∀ request pubkey budget nowMs, a ≠ .dispatch request pubkey budget nowMs) :
    ∀ a ∈ computedActs ++ acts, ReadsBack nodeA a := by
  intro a ha request pubkey budget nowMs task heq hprep
  subst heq
  rw [List.mem_append] at ha
  rcases ha with ha | ha
  · simp only [computedActs, List.mem_cons, Act.dispatch.injEq, List.not_mem_nil, or_false,
      reduceCtorEq, false_or] at ha
    obtain ⟨rfl, rfl, rfl, rfl⟩ := ha
    exact nodeA_dispatch_readsBack "sub-1" _ _ _ _ _ rfl hprep
  · exact absurd rfl (hacts _ ha _ _ _ _)

/-- The first status update finds the database locked; the result is stored, sent and deleted from
the outbox. -/
theorem result_kept_locked :
    ∃ s, run (step nodeA) init (computedActs ++ [.worker { sql := some "database is locked" },
        .worker {}, .worker {}, .worker {}, .worker {}, .worker {}]) = some s ∧
      s.storage.listPendingResults = [] ∧ s.history.takenUp = [1] ∧ ResultKept s := by
  have hrun : (run (step nodeA) init (computedActs ++ [.worker { sql := some "database is locked" },
        .worker {}, .worker {}, .worker {}, .worker {}, .worker {}])).any
      (fun s => decide (s.storage.listPendingResults = [] ∧ s.history.takenUp = [1])) = true := by
    decide +kernel
  obtain ⟨s, hs, hp⟩ := (Option.any_eq_true _ _).mp hrun
  obtain ⟨hbox, htaken⟩ := of_decide_eq_true hp
  exact ⟨s, hs, hbox, htaken, result_kept (computedActs_readsBack (by simp)) (by decide +kernel) hs⟩

/-- **The process stops after the first status update**: the row is terminal, the outbox is empty
and nothing was sent. -/
theorem stop_after_status_loses_result :
    ∃ s, run (step nodeA) init (computedActs ++ [.worker {}, .crash]) = some s ∧
      (∃ row, s.storage.tasks.lookup ("orch", "sub-1") = some row ∧ row.status = .failed) ∧
      s.storage.listPendingResults = [] ∧ s.history.sentOk = [] ∧ ¬ ResultKept s := by
  have hrun : (run (step nodeA) init (computedActs ++ [.worker {}, .crash])).any
      (fun s => decide (((s.storage.tasks.lookup ("orch", "sub-1")).map fun row =>
          (row.id, row.status)) = some (1, .failed) ∧ s.storage.listPendingResults = [] ∧
        (outboxBody s.storage ("orch", "sub-1")) = none ∧ s.history.sentOk = [] ∧
        s.history.takenUp = [1])) = true := by decide +kernel
  obtain ⟨s, hs, hp⟩ := (Option.any_eq_true _ _).mp hrun
  obtain ⟨hrow, hlist, hbox, hsent, htaken⟩ := of_decide_eq_true hp
  obtain ⟨row, hrow, hdata⟩ := Option.map_eq_some_iff.mp hrow
  obtain ⟨hid, hstatus⟩ := Prod.mk.inj hdata
  refine ⟨s, hs, ⟨row, hrow, hstatus⟩, hlist, hsent, fun hkept => ?_⟩
  rcases hkept _ row hrow (by simp [htaken, hid]) with hpend | hsome | ⟨body, -, hmem⟩
  · simp [hstatus] at hpend
  · simp [hbox] at hsome
  · simp [hsent] at hmem

end WqcNode.Application.CrashSafety
