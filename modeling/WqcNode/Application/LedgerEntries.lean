import WqcNode.Application.CrashSafety
import WqcNode.Application.AcceptOnce

/-! # The ledger's held entries (`domain/work.rs`, `application/accept_task.rs`, `application/worker.rs`)

The ledger knows a sub-task by its task id alone, the database by the orchestrator's key as well. As
long as every `hold` finds its id free, the held entries are those of the tasks restored or accepted
and not finished, one each (`ledger_exact`). When two tasks of one id are in the node, they share an
entry, and the first to finish takes it away. -/

namespace WqcNode.Application.LedgerEntries

open WqcNode.Lib WqcNode.Lib.Machine WqcNode.Infra WqcNode.Domain.Models
open WqcNode.Domain.WorkBudget WqcNode.Application.NodeMachine WqcNode.Application.NodeInvariants
open WqcNode.Application.AcceptOnce WqcNode.Application.CrashSafety WqcNode.Application.Recovery

variable {env : Env} {s s' : Node} {a : Act}

/-! ### The tasks a panic leaves behind -/

/-- The node, the tasks that were in the channel when the worker panicked, and where the worker
was. -/
structure Watched where
  node : Node
  dropped : List QueuedTask
  fallen : WorkerPc

/-- A step of the node. -/
def watch (env : Env) (w : Watched) (a : Act) : Option Watched :=
  (step env w.node a).map fun s' => match a with
    | .panic => ⟨s', w.node.queue, w.node.worker⟩
    | .crash => ⟨s', [], .unspawned⟩
    | _ => ⟨s', w.dropped, w.fallen⟩

/-- A node before its first start, on a database with any content. -/
def opened (st : Storage) : Watched := ⟨{ init with storage := st }, [], .unspawned⟩

/-- The runs of the node are those that are watched. -/
theorem run_watch {w : Watched} {acts : List Act} (h : run (step env) w.node acts = some s) :
    ∃ w', run (watch env) w acts = some w' ∧ w'.node = s := by
  induction acts generalizing w with
  | nil =>
    cases h
    exact ⟨w, rfl, rfl⟩
  | cons a acts ih =>
    obtain ⟨s₁, hs₁, hrun⟩ := run_cons_some.mp h
    obtain ⟨w₁, hw₁, hnode⟩ : ∃ w₁, watch env w a = some w₁ ∧ w₁.node = s₁ := by
      cases a <;> exact ⟨_, by simp only [watch, hs₁, Option.map_some]; rfl, rfl⟩
    obtain ⟨w', hw', hs⟩ := ih (hnode ▸ hrun)
    exact ⟨w', run_cons_some.mpr ⟨w₁, hw₁, hw'⟩, hs⟩

theorem stepsMeet_watch {p : Node → Act → Prop} {w : Watched} {acts : List Act}
    (h : StepsMeet (step env) p w.node acts) :
    StepsMeet (watch env) (fun w a => p w.node a) w acts := by
  induction acts generalizing w with
  | nil => trivial
  | cons a acts ih =>
    refine ⟨h.1, fun w₁ hw₁ => ih (h.2 _ ?_)⟩
    obtain ⟨s₁, hs₁, rfl⟩ := Option.map_eq_some_iff.mp hw₁
    cases a <;> exact hs₁

/-! ### Tasks and entries -/

def idOf (q : QueuedTask) : String := q.task.request.taskId

/-- The worker has a task it has not counted off. -/
def running : WorkerPc → Multiset QueuedTask
  | .start q | .compute q | .status q _ | .build q _ | .upsert q _ _ | .deliverStatus q _ _
  | .send q _ _ | .delete q _ _ | .retain q _ | .uncount q => {q}
  | _ => 0

/-- The worker has a task whose entry it has not released. -/
def unreleased : WorkerPc → Multiset QueuedTask
  | .release q => {q}
  | pc => running pc

/-- The task `main` has held and not sent. -/
def restored : MainPc → Multiset QueuedTask
  | .send q _ => {q}
  | _ => 0

/-- How many tasks `main` has still to hold. -/
def toHold : MainPc → ℕ
  | .restore todo | .send _ todo => todo.length
  | _ => 0

/-- The call has held its task and neither sent nor released it. -/
def callEntry (acc : Accept) : Multiset QueuedTask :=
  match acc.pc with
  | .enqueue | .uncount | .release => {⟨acc.row.getD 0, acc.task⟩}
  | _ => 0

/-- Who has a task with an entry. -/
def entryShare : Share := ⟨restored, callEntry, unreleased⟩

/-- What is left of the tasks a panic dropped. -/
def Watched.left (w : Watched) : Multiset QueuedTask := ↑w.dropped + unreleased w.fallen

/-- The tasks with an entry. -/
def withEntry (w : Watched) : Multiset QueuedTask := entryShare.of w.node + w.left

/-- The tasks restored or accepted and not finished: those `main` is sending, those in the channel,
the worker's, and those a panic has dropped. -/
def unfinished (w : Watched) : Multiset QueuedTask :=
  restored w.node.main + ↑w.node.queue + running w.node.worker + (↑w.dropped + running w.fallen)

/-- No accept call is between its counter update and its enqueue, or the taking back if that fails,
and the worker is not between its counter decrement and its release. -/
structure Settled (w : Watched) : Prop where
  calls : ∀ acc ∈ w.node.accepts, acc.pc ≠ .hold ∧ acc.pc ≠ .enqueue ∧ acc.pc ≠ .uncount ∧
    acc.pc ≠ .release
  worker : ∀ q, w.node.worker ≠ .release q
  fallen : ∀ q, w.fallen ≠ .release q

/-- The held entries are those of the unfinished tasks, one each; there are as many as
`pending_tasks` counts, apart from what is still to be restored; a release takes away no other
task's entry. -/
structure LedgerExact (w : Watched) : Prop where
  entries : Settled w →
    (↑w.node.work.held.keys : Multiset String) = (unfinished w).map idOf ∧
      ((unfinished w).map idOf).Nodup
  count : Settled w → w.node.work.held.keys.length + toHold w.node.main = w.node.pendingTasks
  release : ∀ q, (w.node.worker = .release q ∨
      ∃ acc ∈ w.node.accepts, acc.pc = .release ∧ q = ⟨acc.row.getD 0, acc.task⟩) →
    ∃ others, withEntry w = q ::ₘ others ∧ idOf q ∉ others.map idOf

/-- The task id of the `hold` in this step. -/
def holding (s : Node) : Act → Option String
  | .main => match s.main with
    | .restore (q :: _) => some (idOf q)
    | _ => none
  | .accept i _ => (s.accepts[i]?).bind fun acc => match acc.pc with
    | .hold => some acc.task.request.taskId
    | _ => none
  | _ => none

/-- A `hold` finds no entry under its task id. -/
def HoldsFree (s : Node) (a : Act) : Prop := ∀ id ∈ holding s a, s.work.held.lookup id = none

instance HoldsFree.decidable (s : Node) (a : Act) : Decidable (HoldsFree s a) :=
  inferInstanceAs (Decidable (∀ id ∈ holding s a, s.work.held.lookup id = none))

/-! ### The keys of the ledger -/

section Keys

variable {l : WorkLedger} {id : String}

theorem keys_hold (h : l.held.lookup id = none) (parent : Option String) (budget : Option Budget) :
    (l.hold id parent budget).held.keys = id :: l.held.keys := by
  rw [AList.lookup_eq_none] at h
  simp only [WorkLedger.hold, AList.keys_insert, List.erase_of_not_mem h]

theorem keys_start (l : WorkLedger) (id : String) (now : ℚ) :
    (l.start id now).held.keys = l.held.keys := by
  simp [WorkLedger.start, Table.adjust, Table.updateAll, AList.keys, List.keys]

theorem keys_release (l : WorkLedger) (id : String) :
    (l.release id).held.keys = l.held.keys.erase id := AList.keys_erase ..

/-- The entries are those of the tasks, one each. -/
def Entries (l : WorkLedger) (tasks : Multiset QueuedTask) : Prop :=
  (↑l.held.keys : Multiset String) = tasks.map idOf

theorem Entries.nodup {tasks : Multiset QueuedTask} (h : Entries l tasks) :
    (tasks.map idOf).Nodup := by
  rw [← h]
  exact l.held.keys_nodup

/-- Of the tasks with an entry none has the id of another. -/
theorem Entries.other {tasks : Multiset QueuedTask} {q : QueuedTask} (h : Entries l (q ::ₘ tasks)) :
    idOf q ∉ tasks.map idOf := by
  have hnodup := h.nodup
  rw [Multiset.map_cons, Multiset.nodup_cons] at hnodup
  exact hnodup.1

/-- What a step does to the ledger and to the tasks with an entry of whoever makes it. -/
inductive EntryChange (l l' : WorkLedger) (before after : Multiset QueuedTask) : Prop
  | same (tasks : after = before) (keys : l'.held.keys = l.held.keys)
  | hold {q : QueuedTask} {parent : Option String} {budget : Option Budget}
      (tasks : after = q ::ₘ before) (free : l.held.lookup (idOf q) = none)
      (work : l' = l.hold (idOf q) parent budget)
  | release {q : QueuedTask} (tasks : before = q ::ₘ after) (work : l' = l.release (idOf q))

/-- Such a step keeps the entries right, if the others have the same tasks as before. -/
theorem EntryChange.entries {l' : WorkLedger} {before after all all' : Multiset QueuedTask}
    (hc : EntryChange l l' before after) (hall : all' + before = all + after) (he : Entries l all) :
    Entries l' all' := by
  cases hc with
  | same tasks keys =>
    rw [tasks] at hall
    rw [Entries, keys, add_right_cancel hall]
    exact he
  | @hold q parent budget tasks free work =>
    rw [tasks, ← Multiset.singleton_add, ← add_assoc] at hall
    rw [Entries, work, keys_hold free, add_right_cancel hall, add_comm, Multiset.singleton_add,
      Multiset.map_cons, ← he]
    rfl
  | @release q tasks work =>
    rw [tasks, ← Multiset.singleton_add, ← add_assoc] at hall
    have hcons : all = q ::ₘ all' := by
      rw [← add_right_cancel hall, add_comm, Multiset.singleton_add]
    rw [Entries, hcons, Multiset.map_cons] at he
    rw [Entries, work, keys_release, ← Multiset.coe_erase, he, Multiset.erase_cons_head]

end Keys

/-! ### Steps -/

theorem move_entries {i : ℕ} {c : Choice} {acc : Accept}
    (hfree : acc.pc = .hold → s.work.held.lookup acc.task.request.taskId = none)
    (hm : AcceptMove env s i c acc s') :
    ∃ acc', s'.accepts = s.accepts.set i acc' ∧
      EntryChange s.work s'.work (callEntry acc + ↑s.queue) (callEntry acc' + ↑s'.queue) := by
  cases hm with
  | held pc =>
    refine ⟨_, rfl, .hold (q := ⟨acc.row.getD 0, acc.task⟩) ?_ (hfree pc) rfl⟩
    simp [callEntry, pc, setAccept]
  | enqueued pc =>
    refine ⟨_, rfl, .same ?_ rfl⟩
    simp only [callEntry, pc, zero_add]
    rw [← Multiset.coe_add, Multiset.coe_singleton, add_comm]
  | released pc =>
    refine ⟨_, rfl, .release (q := ⟨acc.row.getD 0, acc.task⟩) ?_ rfl⟩
    simp [callEntry, pc, setAccept]
  | lookupFailed pc | duplicate pc | absent pc | inserted pc | conflict pc | saveFailed pc
  | sameTask pc | otherTask pc | counted pc | gone pc | uncounted pc =>
    exact ⟨_, rfl, .same (by simp [callEntry, pc, setAccept]) rfl⟩

theorem worker_change {c : Choice} (h : workerStep env s c = some s') :
    EntryChange s.work s'.work (↑s.queue + unreleased s.worker) (↑s'.queue + unreleased s'.worker) := by
  cases workerStep_move h with
  | taken pc waiting =>
    refine .same ?_ rfl
    simp only [pc, waiting, unreleased, running, add_zero]
    rw [← Multiset.cons_coe, ← Multiset.singleton_add, add_comm]
  | started pc => exact .same (by rw [pc]; rfl) (keys_start ..)
  | @released q pc =>
    refine .release (q := q) ?_ rfl
    simp only [pc, unreleased, running, add_zero]
    rw [← Multiset.singleton_add, add_comm]
  | computed pc | statusSet pc | unbuilt pc | built pc | unstored pc | stored pc
  | deliverStatusSet pc | sent pc | unsent pc | undeleted pc | deleted pc | retained pc
  | uncounted pc => exact .same (by rw [pc]; rfl) rfl

/-- What a step of the watched node leaves of the tasks a panic has dropped. -/
theorem watch_cases {w w' : Watched} (h : watch env w a = some w') :
    step env w.node a = some w'.node ∧
      ((a = .panic ∧ w'.dropped = w.node.queue ∧ w'.fallen = w.node.worker) ∨
        (a = .crash ∧ w'.dropped = [] ∧ w'.fallen = .unspawned) ∨
        (a ≠ .panic ∧ a ≠ .crash ∧ w'.dropped = w.dropped ∧ w'.fallen = w.fallen)) := by
  obtain ⟨s', hs', hw⟩ := Option.map_eq_some_iff.mp h
  cases a <;> subst hw <;> exact ⟨hs', by simp⟩

/-- After a panic the tasks with an entry are where they were. -/
structure Accounted (w : Watched) : Prop where
  phases : Phases w.node
  entries : Entries w.node.work (withEntry w)
  alive : w.node.worker ≠ .panicked → w.dropped = [] ∧ w.fallen = .unspawned
  counted : Counted w.node
  gone : w.node.worker = .panicked → w.node.pendingTasks =
    w.node.queue.length + (w.node.accepts.map midCall).sum + toRestore w.node.main +
      (w.dropped.length + processing w.fallen)

theorem accounted_opened (st : Storage) : Accounted (opened st) where
  phases := ⟨fun _ => ⟨rfl, rfl, rfl⟩, fun _ => ⟨rfl, rfl⟩⟩
  entries := rfl
  alive _ := ⟨rfl, rfl⟩
  counted _ := rfl
  gone h := by cases h

/-- Only a panic makes the worker panic, and only a stop of the process ends that. -/
theorem step_panicked_iff (hp : Phases s) (hpanic : a ≠ .panic) (hcrash : a ≠ .crash)
    (h : step env s a = some s') : s'.worker = .panicked ↔ s.worker = .panicked := by
  cases step_move h with
  | panicked | crashed => contradiction
  | spawned main => simp [(hp.starting (by simp [main])).worker]
  | accept => rw [(acceptStep_frame h).2.1]
  | worker =>
    have hbefore : s.worker ≠ .panicked := fun hgone => by simp [step, workerStep, hgone] at h
    exact iff_of_false (worker_stays h).1 hbefore
  | retry => rw [(retryStep_frame h).2.2.1]
  | _ => exact Iff.rfl

/-- With the worker gone, the accept calls count and take back what they are in the middle of. -/
theorem step_gone_count (hp : Phases s) (hgone : s.worker = .panicked) (hcrash : a ≠ .crash)
    (h : step env s a = some s') {n : ℕ} (hcount : s.pendingTasks =
      s.queue.length + (s.accepts.map midCall).sum + toRestore s.main + n) :
    s'.pendingTasks =
      s'.queue.length + (s'.accepts.map midCall).sum + toRestore s'.main + n := by
  have hrun : s.main = .running := by
    by_contra hne
    have hquiet := (hp.starting hne).worker
    simp [hgone] at hquiet
  cases step_move h with
  | unread main | read main | spawned main | restored main | requeued main =>
    rw [hrun] at main
    cases main
  | refused main prep | called main prep => simpa [midCall, hrun] using hcount
  | accept call move =>
    have hmem := List.le_sum_of_mem (List.mem_map_of_mem (f := midCall) (List.mem_of_getElem? call))
    obtain ⟨acc', haccepts, hcount'⟩ := move_counts move (by omega)
    have hsum := sum_map_set midCall call acc'
    rw [(acceptStep_frame h).1, haccepts]
    omega
  | worker => simp [step, workerStep, hgone] at h
  | panicked _ live => exact absurd hgone live
  | retry =>
    obtain ⟨hmain, haccepts, -, hqueue, hpending, -⟩ := retryStep_frame h
    rw [hmain, haccepts, hqueue, hpending]
    exact hcount
  | pruned | received | lost => exact hcount
  | crashed => exact absurd rfl hcrash

theorem panicStep_cases (h : step env s .panic = some s') :
    s.worker ≠ .panicked ∧ s' = { s with worker := .panicked, queue := [] } := by
  cases step_move h with
  | panicked spawned live => exact ⟨live, rfl⟩

theorem crashStep_cases (h : step env s .crash = some s') : s' = crashed s := by
  cases step_move h with
  | crashed => rfl

theorem step_alive {w w' : Watched} (hi : Accounted w) (h : watch env w a = some w') :
    w'.node.worker ≠ .panicked → w'.dropped = [] ∧ w'.fallen = .unspawned := by
  intro hlive
  obtain ⟨hs, ⟨rfl, -, -⟩ | ⟨-, hdropped, hfallen⟩ | ⟨hpanic, hcrash, hdropped, hfallen⟩⟩ :=
    watch_cases h
  · obtain ⟨-, hnode⟩ := panicStep_cases hs
    exact absurd (by rw [hnode]) hlive
  · exact ⟨hdropped, hfallen⟩
  · rw [hdropped, hfallen]
    exact hi.alive fun hgone => hlive ((step_panicked_iff hi.phases hpanic hcrash hs).mpr hgone)

/-- While the process runs and the worker does not panic, a step changes the entries with the tasks
of whoever makes it. -/
theorem step_change (hp : Phases s) (hfree : HoldsFree s a) (hpanic : a ≠ .panic) (hcrash : a ≠ .crash)
    (h : step env s a = some s') :
    ∃ before after, EntryChange s.work s'.work before after ∧
      entryShare.of s' + before = entryShare.of s + after := by
  have hkeep : s'.work = s.work → entryShare.of s' = entryShare.of s →
      ∃ before after, EntryChange s.work s'.work before after ∧
        entryShare.of s' + before = entryShare.of s + after :=
    fun hwork hof => ⟨0, 0, .same rfl (by rw [hwork]), by rw [hof]⟩
  cases step_move h with
  | panicked | crashed => contradiction
  | unread => exact hkeep rfl rfl
  | read main => exact hkeep rfl (by simp [entryShare, Share.of, main, restored])
  | spawned main =>
    have hq := hp.starting (by simp [main])
    exact hkeep rfl (by simp [entryShare, Share.of, main, hq.worker, restored, unreleased, running])
  | @restored q todo main =>
    refine ⟨0, {q}, .hold (q := q) rfl (hfree _ (by simp [holding, main])) rfl, ?_⟩
    simp only [entryShare, Share.of, main, restored]
    abel
  | requeued main =>
    refine hkeep rfl ?_
    simp only [entryShare, Share.of, main, restored]
    rw [← Multiset.coe_add, Multiset.coe_singleton]
    abel
  | refused | called => exact hkeep rfl (by simp [entryShare, Share.of, callEntry])
  | @accept i c acc _ hacc move =>
    have hfree' : acc.pc = .hold → s.work.held.lookup acc.task.request.taskId = none :=
      fun hpc => hfree _ (by simp [holding, hacc, hpc])
    obtain ⟨acc', haccepts, hc⟩ := move_entries hfree' move
    exact ⟨_, _, hc, entryShare.of_accept hacc h haccepts⟩
  | worker => exact ⟨_, _, worker_change h, entryShare.of_worker h⟩
  | retry =>
    obtain ⟨hmain, haccepts, hworker, hqueue, -, hwork, -⟩ := retryStep_frame h
    exact hkeep hwork (by simp only [Share.of, hmain, haccepts, hworker, hqueue])
  | pruned | received | lost => exact hkeep rfl rfl

/-- The entries stay those of the tasks that have one. -/
theorem step_entries {w w' : Watched} (hi : Accounted w) (hfree : HoldsFree w.node a)
    (h : watch env w a = some w') : Entries w'.node.work (withEntry w') := by
  obtain ⟨hs, ⟨rfl, hdropped, hfallen⟩ | ⟨rfl, hdropped, hfallen⟩ |
    ⟨hpanic, hcrash, hdropped, hfallen⟩⟩ := watch_cases h
  · -- the channel's tasks and the worker's are dropped
    obtain ⟨hlive, hnode⟩ := panicStep_cases hs
    obtain ⟨hnone, hidle⟩ := hi.alive hlive
    have hsame : withEntry w' = withEntry w := by
      simp only [withEntry, Watched.left, entryShare, Share.of, hdropped, hfallen, hnode, hnone, hidle,
        unreleased, running, Multiset.coe_nil, add_zero]
      abel
    rw [hsame, hnode]
    exact hi.entries
  · have hnone : withEntry w' = 0 := by
      simp [withEntry, Watched.left, entryShare, Share.of, hdropped, hfallen, crashStep_cases hs,
        crashed, init, restored, unreleased, running]
    rw [hnone, crashStep_cases hs]
    rfl
  · obtain ⟨before, after, hc, hof⟩ := step_change hi.phases hfree hpanic hcrash hs
    refine hc.entries ?_ hi.entries
    rw [withEntry, withEntry, Watched.left, Watched.left, hdropped, hfallen, add_right_comm, hof,
      add_right_comm]

/-- After a panic `pending_tasks` still counts the dropped tasks. -/
theorem step_gone {w w' : Watched} (hi : Accounted w) (h : watch env w a = some w')
    (hgone : w'.node.worker = .panicked) : w'.node.pendingTasks =
      w'.node.queue.length + (w'.node.accepts.map midCall).sum + toRestore w'.node.main +
        (w'.dropped.length + processing w'.fallen) := by
  obtain ⟨hs, ⟨rfl, hdropped, hfallen⟩ | ⟨rfl, -, -⟩ | ⟨hpanic, hcrash, hdropped, hfallen⟩⟩ :=
    watch_cases h
  · obtain ⟨hlive, hnode⟩ := panicStep_cases hs
    have hcount := hi.counted hlive
    simp only [hnode, hdropped, hfallen, List.length_nil]
    omega
  · rw [crashStep_cases hs] at hgone
    cases hgone
  · have hbefore := (step_panicked_iff hi.phases hpanic hcrash hs).mp hgone
    rw [hdropped, hfallen]
    exact step_gone_count hi.phases hbefore hcrash hs (hi.gone hbefore)

theorem step_accounted {w w' : Watched} (hi : Accounted w) (hfree : HoldsFree w.node a)
    (h : watch env w a = some w') : Accounted w' where
  phases := step_phases hi.phases (watch_cases h).1
  entries := step_entries hi hfree h
  alive := step_alive hi h
  counted := step_counted hi.phases hi.counted (watch_cases h).1
  gone := step_gone hi h

/-! ### What the ledger holds -/

theorem processing_eq_card (pc : WorkerPc) : processing pc = (running pc).card := by
  cases pc <;> rfl

theorem Settled.sum_eq_zero {w : Watched} (hs : Settled w) :
    (w.node.accepts.map callEntry).sum = 0 ∧ (w.node.accepts.map midCall).sum = 0 := by
  have hzero : ∀ acc ∈ w.node.accepts, callEntry acc = 0 ∧ midCall acc = 0 := by
    intro acc hacc
    obtain ⟨hhold, henq, hunc, hrel⟩ := hs.calls acc hacc
    cases hpc : acc.pc with
    | hold => exact absurd hpc hhold
    | enqueue => exact absurd hpc henq
    | uncount => exact absurd hpc hunc
    | release => exact absurd hpc hrel
    | _ => exact ⟨by simp [callEntry, hpc], by simp [midCall, hpc]⟩
  constructor
  · exact List.sum_eq_zero fun x hx => by
      obtain ⟨acc, hacc, rfl⟩ := List.mem_map.mp hx
      exact (hzero acc hacc).1
  · exact List.sum_eq_zero fun x hx => by
      obtain ⟨acc, hacc, rfl⟩ := List.mem_map.mp hx
      exact (hzero acc hacc).2

/-- Between the calls' and the worker's changes, the tasks with an entry are the unfinished ones. -/
theorem Settled.withEntry {w : Watched} (hs : Settled w) : withEntry w = unfinished w := by
  have hrunning : ∀ pc : WorkerPc, (∀ q, pc ≠ .release q) → unreleased pc = running pc := by
    intro pc hpc
    cases pc <;> first | rfl | exact absurd rfl (hpc _)
  simp only [LedgerEntries.withEntry, Watched.left, unfinished, entryShare, Share.of,
    hs.sum_eq_zero.1, hrunning _ hs.worker, hrunning _ hs.fallen, add_zero]

/-- `pending_tasks` counts the channel's tasks, the worker's, the dropped ones and those of the
calls and of `main`. -/
theorem Accounted.pending {w : Watched} (hi : Accounted w) : w.node.pendingTasks =
    w.node.queue.length + (running w.node.worker).card + (w.node.accepts.map midCall).sum +
      toRestore w.node.main + (w.dropped.length + (running w.fallen).card) := by
  rw [← processing_eq_card, ← processing_eq_card]
  by_cases hgone : w.node.worker = .panicked
  · rw [hi.gone hgone, hgone]
    simp only [processing]
    omega
  · obtain ⟨hnone, hidle⟩ := hi.alive hgone
    rw [hi.counted hgone, hnone, hidle]
    simp only [processing, List.length_nil, add_zero]

/-- The task of a release is one of those with an entry. -/
theorem releasing {w : Watched} {q : QueuedTask} (hq : w.node.worker = .release q ∨
    ∃ acc ∈ w.node.accepts, acc.pc = .release ∧ q = ⟨acc.row.getD 0, acc.task⟩) :
    ∃ others, withEntry w = q ::ₘ others := by
  rcases hq with hw | ⟨acc, hacc, hpc, rfl⟩
  · refine ⟨restored w.node.main + (w.node.accepts.map callEntry).sum + ↑w.node.queue + w.left, ?_⟩
    simp only [withEntry, entryShare, Share.of, hw, unreleased]
    rw [← Multiset.singleton_add]
    abel
  · obtain ⟨before, after, hsplit⟩ := List.append_of_mem hacc
    refine ⟨restored w.node.main + ((before.map callEntry).sum + (after.map callEntry).sum) +
      ↑w.node.queue + unreleased w.node.worker + w.left, ?_⟩
    simp only [withEntry, entryShare, Share.of, hsplit, List.map_append, List.map_cons,
      List.sum_append, List.sum_cons, callEntry, hpc]
    rw [← Multiset.singleton_add]
    abel

theorem Accounted.exact {w : Watched} (hi : Accounted w) : LedgerExact w where
  entries hs := by
    have he := hi.entries
    rw [hs.withEntry] at he
    exact ⟨he, he.nodup⟩
  count hs := by
    have he := congrArg Multiset.card hi.entries
    rw [hs.withEntry, Multiset.card_map, Multiset.coe_card] at he
    have hmain : (restored w.node.main).card + toHold w.node.main = toRestore w.node.main := by
      cases w.node.main <;> simp [restored, toHold, toRestore, add_comm]
    rw [he, hi.pending, hs.sum_eq_zero.2, ← hmain]
    simp only [unfinished, Multiset.card_add, Multiset.coe_card]
    omega
  release q hq := by
    obtain ⟨others, hothers⟩ := releasing hq
    have he := hi.entries
    rw [hothers] at he
    exact ⟨others, hothers, he.other⟩

/-- **Main result.** On any database: in every run in which each `hold` finds its id free, in every
state reached, the ledger holds exactly the unfinished tasks, `pending_tasks` counts them, and no
release takes away the entry of another task. -/
theorem ledger_exact {st : Storage} {acts : List Act}
    (hfree : StepsMeet (step env) HoldsFree (opened st).node acts)
    (h : run (step env) (opened st).node acts = some s) :
    ∃ w, run (watch env) (opened st) acts = some w ∧ w.node = s ∧ LedgerExact w := by
  obtain ⟨w, hw, hnode⟩ := run_watch h
  have hi : Accounted w := run_inv_of_stepsMeet (p := fun w a => HoldsFree w.node a)
    (fun _ _ _ hi hfree => step_accounted hi hfree) (accounted_opened st) (stepsMeet_watch hfree) hw
  exact ⟨w, hw, hnode, hi.exact⟩

/-! ### Two orchestrators -/

/-- A task of another orchestrator, as it is stored. -/
def oldTask : ComputeTask := ⟨{ emptyRequest "sub-1" with nodeId := some "node-a" }, "orch-old", none, 0⟩

def oldText : String :=
  taskJsonHead ++ "sub-1" ++ requestJsonTail "\"node-a\"" ++
    ",\"orchestrator_pubkey\":\"orch-old\",\"accepted_at_ms\":0\x7d"

def oldStorage : Storage :=
  { Storage.new with
    tasks := Storage.new.tasks.insert ("orch-old", "sub-1") ⟨1, oldText, .pending, 0⟩
    nextTaskId := 2 }

/-- `nodeA`, which also reads the old task. -/
def nodeB : Env :=
  { nodeA with
    serde := { nodeA.serde with
      taskFromStr := fun text =>
        if text = oldText then .ok oldTask else nodeA.serde.taskFromStr text } }

/-- The old task is restored, and a task of the same id is accepted from the orchestrator of
today. -/
def sharedActs : List Act :=
  [.start, .main, .main, .main, .dispatch (emptyRequest "sub-1") "orch" none 0, .accept 0 {},
    .accept 0 {}, .accept 0 {}, .accept 0 {}, .accept 0 {}]

/-- The task of another id is accepted beside the restored one. -/
def distinctActs : List Act :=
  [.start, .main, .main, .main, .dispatch (emptyRequest "sub-2") "orch" none 0, .accept 0 {},
    .accept 0 {}, .accept 0 {}, .accept 0 {}, .accept 0 {}]

theorem ledger_exact_distinct :
    ∃ w, run (watch nodeB) (opened oldStorage) distinctActs = some w ∧ w.node.pendingTasks = 2 ∧
      LedgerExact w := by
  have hrun : (run (step nodeB) (opened oldStorage).node distinctActs).any
      (fun s => decide (s.pendingTasks = 2)) = true := by decide +kernel
  obtain ⟨s, hs, hp⟩ := (Option.any_eq_true _ _).mp hrun
  obtain ⟨w, hw, rfl, hexact⟩ := ledger_exact (by decide +kernel) hs
  exact ⟨w, hw, of_decide_eq_true hp, hexact⟩

/-- Every call has answered and the worker waits. -/
def waiting (w : Watched) : Bool :=
  (w.node.accepts.all fun acc => match acc.pc with
    | .done _ => true
    | _ => false) &&
  match w.node.worker, w.fallen with
  | .recv, .unspawned => true
  | _, _ => false

theorem settled_of_waiting {w : Watched} (h : waiting w = true) : Settled w := by
  obtain ⟨hcalls, hworker⟩ := Bool.and_eq_true_iff.mp h
  refine ⟨fun acc hacc => ?_, fun q hw => ?_, fun q hw => ?_⟩
  · have hdone := List.all_eq_true.mp hcalls acc hacc
    cases hpc : acc.pc <;> simp [hpc] at hdone ⊢
  · simp [hw] at hworker
  · rw [hw] at hworker
    cases hpc : w.node.worker <;> simp [hpc] at hworker

/-- **Two orchestrators, one task id**: the two tasks share an entry. -/
theorem shared_id_not_exact :
    ∃ w, run (watch nodeB) (opened oldStorage) sharedActs = some w ∧ Settled w ∧
      w.node.pendingTasks = 2 ∧ w.node.work.held.keys = ["sub-1"] ∧ ¬ LedgerExact w := by
  have hrun : (run (watch nodeB) (opened oldStorage) sharedActs).any (fun w =>
      decide (waiting w = true ∧ w.node.pendingTasks = 2 ∧ w.node.work.held.keys = ["sub-1"] ∧
        toHold w.node.main = 0)) = true := by decide +kernel
  obtain ⟨w, hw, hp⟩ := (Option.any_eq_true _ _).mp hrun
  obtain ⟨hwait, hpending, hkeys, hmain⟩ := of_decide_eq_true hp
  refine ⟨w, hw, settled_of_waiting hwait, hpending, hkeys, fun h => ?_⟩
  have hcount := h.count (settled_of_waiting hwait)
  rw [hkeys, hmain, hpending] at hcount
  cases hcount

end WqcNode.Application.LedgerEntries
