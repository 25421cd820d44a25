import WqcNode.Application.ResultOutbox
import WqcNode.Application.FailedAccept

/-! # A node that is left alone settles

The tasks of the node wait for each other: an accept call for a place in the channel, the worker for
a task, a body for the next pass of the retry loop. Once `main` is through and while the worker is
alive, none of them waits for good.

* `settles`: from every state a run can lead to, if nothing fails from now on, the node can get to
  where all calls are answered, the channel and the outbox are empty and nothing is in flight; and
  the orchestrator then has the result of every task that was waiting, whatever core answers. -/

namespace WqcNode.Application.Settling

open WqcNode.Lib WqcNode.Lib.Machine WqcNode.Infra WqcNode.Domain.Models
open WqcNode.Application.NodeMachine WqcNode.Application.NodeInvariants
open WqcNode.Application.Recovery WqcNode.Application.ResultOutbox

variable {env : Env} {s s' s₀ : Node} {q : QueuedTask} {answer : QueuedTask → Choice}

/-! ### What can be reached without a failure -/

/-- The tasks of the node run, the worker among them. -/
structure Live (s : Node) : Prop where
  main : s.main = .running
  spawned : s.worker ≠ .unspawned
  alive : s.worker ≠ .panicked
  retry : s.retry ≠ .unspawned

/-- A step by itself of a call, the worker, the retry loop or the wire that does not fail. -/
def Faultless : Act → Prop
  | .accept _ c | .worker c | .retry c => c.sql = none ∧ c.send = .ok
  | .receive _ => True
  | _ => False

/-- All is done. -/
structure Settled (s : Node) : Prop where
  calls : ∀ acc ∈ s.accepts, ∃ result, acc.pc = .done result
  queue : s.queue = []
  worker : s.worker = .recv
  retry : s.retry = .sleep
  outbox : ∀ key, outboxBody s.storage key = none
  wire : s.wire.inFlight = []

/-- What the worker's next step is given: core's answer for the task it computes. -/
def choiceAt (answer : QueuedTask → Choice) : WorkerPc → Choice
  | .compute q => answer q
  | _ => {}

theorem choiceAt_ok (hanswer : ∀ q, (answer q).sql = none ∧ (answer q).send = .ok)
    (pc : WorkerPc) : (choiceAt answer pc).sql = none ∧ (choiceAt answer pc).send = .ok := by
  unfold choiceAt
  split
  · exact hanswer _
  · exact ⟨rfl, rfl⟩

/-! ### What is owed -/

/-- The result of the task, from the answer. -/
def resultOf (env : Env) (answer : QueuedTask → Choice) (q : QueuedTask) : Except String Bytes :=
  env.buildResultWireBody q.task (taskPayload env q.task (answer q)) env.peerId

/-- The worker has the task, and has not yet sent its result. -/
def OnTheWay (env : Env) (answer : QueuedTask → Choice) (q : QueuedTask) : WorkerPc → Prop
  | .start q' | .compute q' => q' = q
  | .status q' payload | .build q' payload => q' = q ∧ payload = taskPayload env q.task (answer q)
  | .upsert q' _ body | .deliverStatus q' _ body | .send q' _ body =>
    q' = q ∧ resultOf env answer q = .ok body
  | _ => False

/-- The bytes are on the wire or past it. -/
def Sent (s : Node) (body : Bytes) : Prop := body ∈ s.wire.inFlight ∨ body ∈ s.wire.received

/-- The task waits, or the worker has it, or its result was sent. -/
inductive Owed (env : Env) (answer : QueuedTask → Choice) (s : Node) (q : QueuedTask) : Prop
  | waiting (h : q ∈ s.queue)
  | inHand (taken : q.row ∈ s.history.takenUp) (h : OnTheWay env answer q s.worker)
  | sent (taken : q.row ∈ s.history.takenUp) (h : ∀ body, resultOf env answer q = .ok body → Sent s body)

/-- Of what there was in `s₀`, nothing got lost. -/
structure Kept (env : Env) (answer : QueuedTask → Choice) (s₀ s : Node) : Prop where
  queue : ∀ q ∈ s₀.queue, Owed env answer s q
  flight : ∀ body ∈ s₀.wire.inFlight, Sent s body

theorem kept_self : Kept env answer s s := ⟨fun _ hq => .waiting hq, fun _ hb => .inl hb⟩

/-- The worker stays, and the channel and the wire lose nothing. -/
structure Grows (s s' : Node) : Prop where
  queue : ∀ q ∈ s.queue, q ∈ s'.queue
  worker : s'.worker = s.worker
  takenUp : s'.history.takenUp = s.history.takenUp
  sent : ∀ body, Sent s body → Sent s' body

theorem Kept.grows (hk : Kept env answer s₀ s) (h : Grows s s') : Kept env answer s₀ s' := by
  refine ⟨fun q hq => ?_, fun body hb => h.sent body (hk.flight body hb)⟩
  cases hk.queue q hq with
  | waiting hw => exact .waiting (h.queue q hw)
  | inHand taken hw => exact .inHand (h.takenUp ▸ taken) (h.worker ▸ hw)
  | sent taken hw => exact .sent (h.takenUp ▸ taken) fun body hb => h.sent body (hw body hb)

theorem sent_write {body new : Bytes} (h : Sent s body) (hw : s'.wire = s.wire.write new) :
    Sent s' body := by
  unfold Sent
  rw [hw]
  exact h.imp_left (List.mem_append_left _)

theorem acceptStep_grows {i : ℕ} {c : Choice} (h : acceptStep env s i c = some s') : Grows s s' := by
  obtain ⟨acc, -, hm⟩ := acceptStep_move h
  cases hm with
  | enqueued => exact ⟨fun _ hq => List.mem_append_left _ hq, rfl, rfl, fun _ h => h⟩
  | _ => exact ⟨fun _ hq => hq, rfl, rfl, fun _ h => h⟩

theorem retryStep_grows {c : Choice} (h : retryStep env s c = some s') : Grows s s' := by
  cases retryStep_move h with
  | sent => exact ⟨fun _ hq => hq, rfl, rfl, fun _ h => sent_write h rfl⟩
  | @unsent entry rest arrives =>
    refine ⟨fun _ hq => hq, rfl, rfl, fun _ hsent => ?_⟩
    cases arrives
    · exact hsent
    · exact sent_write hsent rfl
  | _ => exact ⟨fun _ hq => hq, rfl, rfl, fun _ h => h⟩

/-- What arrives was in flight. -/
theorem receive_grows {body : Bytes} {rest : List Bytes} (h : s.wire.inFlight = body :: rest) :
    Grows s { s with wire := { s.wire with
      inFlight := rest
      received := body :: s.wire.received } } := by
  refine ⟨fun _ hq => hq, rfl, rfl, fun b hb => ?_⟩
  rcases hb with hb | hb
  · rw [h] at hb
    rcases List.mem_cons.mp hb with rfl | hb
    · exact .inr (.head _)
    · exact .inl hb
  · exact .inr (.tail _ hb)

theorem workerStep_sent {c : Choice} (h : workerStep env s c = some s') {body : Bytes}
    (hsent : Sent s body) : Sent s' body := by
  cases workerStep_move h with
  | sent => exact sent_write hsent rfl
  | @unsent q' payload body' arrives =>
    cases arrives
    · exact hsent
    · exact sent_write hsent rfl
  | _ => exact hsent

/-- **The worker's step** keeps what is owed, if it is given the answer. -/
theorem workerStep_owed (hanswer : ∀ q, (answer q).sql = none ∧ (answer q).send = .ok)
    (ho : Owed env answer s q) (h : workerStep env s (choiceAt answer s.worker) = some s') :
    Owed env answer s' q := by
  have hsql := choiceAt_ok hanswer s.worker
  have hm := workerStep_move h
  cases ho with
  | waiting hw =>
    cases hm with
    | taken pc waiting =>
      rw [waiting] at hw
      rcases List.mem_cons.mp hw with rfl | hw
      · exact .inHand (.head _) rfl
      · exact .waiting hw
    | _ => exact .waiting hw
  | sent taken hw =>
    cases hm with
    | taken => exact .sent (.tail _ taken) hw
    | sent => exact .sent taken fun body hb => sent_write (hw body hb) rfl
    | unsent pc send =>
      rw [hsql.2] at send
      cases send
    | _ => exact .sent taken hw
  | inHand taken hw =>
    cases hm with
    | taken pc | deleted pc | undeleted pc | retained pc | uncounted pc | released pc =>
      rw [pc] at hw
      cases hw
    | started pc =>
      rw [pc] at hw
      exact .inHand taken hw
    | computed pc =>
      rw [pc] at hw
      obtain rfl : _ = q := hw
      exact .inHand taken ⟨rfl, by rw [pc]; rfl⟩
    | statusSet pc =>
      rw [pc] at hw
      exact .inHand taken hw
    | unbuilt pc build =>
      rw [pc] at hw
      obtain ⟨rfl, rfl⟩ := hw
      refine .sent taken fun body hb => ?_
      rw [resultOf, build] at hb
      cases hb
    | built pc build =>
      rw [pc] at hw
      obtain ⟨rfl, rfl⟩ := hw
      exact .inHand taken ⟨rfl, build⟩
    | unstored pc sql =>
      rw [hsql.1] at sql
      cases sql
    | stored pc =>
      rw [pc] at hw
      exact .inHand taken hw
    | deliverStatusSet pc =>
      rw [pc] at hw
      exact .inHand taken hw
    | @sent q' payload body pc =>
      rw [pc] at hw
      obtain ⟨-, hbody⟩ := hw
      refine .sent taken fun body' hb => .inl ?_
      cases hbody.symm.trans hb
      exact List.mem_append_right _ (List.mem_singleton_self _)
    | unsent pc send =>
      rw [hsql.2] at send
      cases send

/-! ### The calls and the worker -/

def acceptRank : AcceptPc → ℕ
  | .lookup => 7
  | .save => 6
  | .conflict _ | .count => 5
  | .hold => 4
  | .enqueue => 3
  | .uncount => 2
  | .release => 1
  | .done _ => 0

def workerRank : WorkerPc → ℕ
  | .start _ => 11
  | .compute _ => 10
  | .status .. => 9
  | .build .. => 8
  | .upsert .. => 7
  | .deliverStatus .. => 6
  | .send .. => 5
  | .delete .. => 4
  | .retain .. => 3
  | .uncount _ => 2
  | .release _ => 1
  | .unspawned | .recv | .panicked => 0

/-- The steps to go: an accepted task is worth less in the channel than in the call, and less in the
worker's hand than in the channel. -/
def toGo (s : Node) : ℕ :=
  14 * (s.accepts.map fun acc => acceptRank acc.pc).sum + 13 * s.queue.length + workerRank s.worker

/-- The worker waits, and no call is open. -/
structure Idle (s : Node) : Prop where
  calls : ∀ acc ∈ s.accepts, ∃ result, acc.pc = .done result
  queue : s.queue = []
  worker : s.worker = .recv

/-- The worker can move unless it waits for a task. -/
theorem worker_enabled (hl : Live s) (h : s.worker ≠ .recv ∨ s.queue ≠ []) (c : Choice) :
    ∃ s', workerStep env s c = some s' := by
  unfold workerStep
  split
  case h_1 pc => exact absurd pc hl.spawned
  case h_2 pc => exact absurd pc hl.alive
  case h_3 pc =>
    split
    next hq => exact absurd hq (h.resolve_left (by simp [pc]))
    next => exact ⟨_, rfl⟩
  case h_7 => split <;> exact ⟨_, rfl⟩
  case h_8 => split <;> exact ⟨_, rfl⟩
  case h_10 => split <;> exact ⟨_, rfl⟩
  case h_11 => split <;> exact ⟨_, rfl⟩
  all_goals exact ⟨_, rfl⟩

theorem workerStep_toGo {c : Choice} (h : workerStep env s c = some s') : toGo s' < toGo s := by
  obtain ⟨-, haccepts, -⟩ := workerStep_frame h
  have hrank : 13 * s'.queue.length + workerRank s'.worker <
      13 * s.queue.length + workerRank s.worker := by
    cases workerStep_move h with
    | taken pc waiting =>
      simp only [pc, waiting, workerRank, List.length_cons]
      omega
    | started pc | computed pc | statusSet pc | unbuilt pc | built pc | unstored pc | stored pc
    | deliverStatusSet pc | sent pc | unsent pc | undeleted pc | deleted pc | retained pc
    | uncounted pc | released pc =>
      simp only [pc, workerRank, deleteResult]
      omega
  unfold toGo
  rw [haccepts]
  omega

/-- An open call can move while there is room in the channel. -/
theorem accept_enabled {i : ℕ} {acc : Accept} (hacc : s.accepts[i]? = some acc)
    (hopen : ∀ result, acc.pc ≠ .done result) (hroom : s.queue.length < queueCapacity) (c : Choice) :
    ∃ s', acceptStep env s i c = some s' := by
  unfold acceptStep
  rw [hacc]
  simp only [Option.bind_eq_bind, Option.bind_some]
  split
  case h_1 => split <;> exact ⟨_, rfl⟩
  case h_2 =>
    split
    · split_ifs <;> exact ⟨_, rfl⟩
    · exact ⟨_, rfl⟩
  case h_3 =>
    split
    · split_ifs <;> exact ⟨_, rfl⟩
    · exact ⟨_, rfl⟩
  case h_6 =>
    split
    · exact ⟨_, rfl⟩
    · exact ⟨_, if_pos hroom⟩
  case h_9 result pc => exact absurd pc (hopen result)
  all_goals exact ⟨_, rfl⟩

theorem acceptStep_toGo {i : ℕ} {c : Choice} (h : acceptStep env s i c = some s') :
    toGo s' < toGo s := by
  have hworker : s'.worker = s.worker := (acceptStep_frame h).2.1
  obtain ⟨acc, hacc, hm⟩ := acceptStep_move h
  have hcall : ∀ {acc' : Accept}, s'.accepts = s.accepts.set i acc' →
      13 * s'.queue.length + 14 * acceptRank acc'.pc < 13 * s.queue.length + 14 * acceptRank acc.pc →
      toGo s' < toGo s := by
    intro acc' haccepts hlt
    have hsum := sum_map_set (fun a : Accept => acceptRank a.pc) hacc acc'
    unfold toGo
    rw [haccepts, hworker]
    omega
  cases hm with
  | enqueued pc =>
    refine hcall rfl ?_
    simp only [pc, acceptRank, List.length_append, List.length_singleton]
    omega
  | lookupFailed pc | duplicate pc | absent pc | inserted pc | conflict pc | saveFailed pc
  | sameTask pc | otherTask pc | counted pc | held pc | gone pc | uncounted pc | released pc =>
    refine hcall rfl ?_
    simp only [pc, acceptRank, setAccept]
    omega

theorem Live.accept (hl : Live s) {i : ℕ} {c : Choice} (h : acceptStep env s i c = some s') :
    Live s' := by
  obtain ⟨hmain, hworker, hretry, -⟩ := acceptStep_frame h
  exact ⟨hmain.trans hl.main, hworker ▸ hl.spawned, hworker ▸ hl.alive, hretry ▸ hl.retry⟩

theorem Live.worker (hl : Live s) {c : Choice} (h : workerStep env s c = some s') : Live s' := by
  obtain ⟨hmain, -, hretry⟩ := workerStep_frame h
  refine ⟨hmain.trans hl.main, ?_, ?_, hretry ▸ hl.retry⟩
  · cases workerStep_move h <;> simp
  · cases workerStep_move h <;> simp

theorem Kept.worker (hanswer : ∀ q, (answer q).sql = none ∧ (answer q).send = .ok)
    (hk : Kept env answer s₀ s) (h : workerStep env s (choiceAt answer s.worker) = some s') :
    Kept env answer s₀ s' := by
  exact ⟨fun q hq => workerStep_owed hanswer (hk.queue q hq) h,
    fun body hb => workerStep_sent h (hk.flight body hb)⟩

/-- **The calls are answered and the channel is emptied.** -/
theorem exists_idle (hanswer : ∀ q, (answer q).sql = none ∧ (answer q).send = .ok)
    (hl : Live s) (hk : Kept env answer s₀ s) :
    ∃ as t, (∀ a ∈ as, Faultless a) ∧ run (step env) s as = some t ∧
      (Live t ∧ Kept env answer s₀ t) ∧ Idle t := by
  refine exists_run_of_measure (I := fun s => Live s ∧ Kept env answer s₀ s) toGo
    (fun s hi hnot => ?_) ⟨hl, hk⟩
  obtain ⟨hl, hk⟩ := hi
  by_cases hworker : s.worker ≠ .recv ∨ s.queue ≠ []
  · obtain ⟨s', hstep⟩ := worker_enabled hl hworker (choiceAt answer s.worker)
    exact ⟨.worker (choiceAt answer s.worker), s', choiceAt_ok hanswer _, hstep,
      ⟨hl.worker hstep, hk.worker hanswer hstep⟩, workerStep_toGo hstep⟩
  · obtain ⟨hrecv, hqueue⟩ : s.worker = .recv ∧ s.queue = [] := by
      simpa only [not_or, not_not] using hworker
    obtain ⟨i, acc, hacc, hopen⟩ : ∃ (i : ℕ) (acc : Accept), s.accepts[i]? = some acc ∧
        ∀ result, acc.pc ≠ .done result := by
      by_contra hnone
      push Not at hnone
      refine hnot ⟨fun acc hacc => ?_, hqueue, hrecv⟩
      obtain ⟨i, hi⟩ := List.getElem?_of_mem hacc
      exact hnone i acc hi
    have hroom : s.queue.length < queueCapacity := by
      rw [hqueue]
      decide
    obtain ⟨s', hstep⟩ := accept_enabled hacc hopen hroom {}
    exact ⟨.accept i {}, s', ⟨rfl, rfl⟩, hstep, ⟨hl.accept hstep, hk.grows (acceptStep_grows hstep)⟩,
      acceptStep_toGo hstep⟩

/-! ### The retry loop -/

/-- The steps to the end of the pass. -/
def retryRank : RetryPc → ℕ
  | .unspawned | .sleep => 0
  | .send entries => 4 * entries.length + 1
  | .delete _ rest => 4 * rest.length + 4
  | .load _ rest => 4 * rest.length + 3
  | .retain _ _ rest | .bump _ rest => 4 * rest.length + 2

/-- The keys whose rows the pass has not yet deleted. -/
def undone : RetryPc → List Key
  | .unspawned | .sleep => []
  | .send entries => entries.map (·.key)
  | .delete entry rest => entry.key :: rest.map (·.key)
  | .load _ rest | .retain _ _ rest | .bump _ rest => rest.map (·.key)

/-- Every row left is one the pass gets to. -/
def Covered (s : Node) : Prop := ∀ key body, outboxBody s.storage key = some body → key ∈ undone s.retry

/-- Nothing else goes on. -/
structure Resting (env : Env) (answer : QueuedTask → Choice) (s₀ s : Node) : Prop where
  live : Live s
  kept : Kept env answer s₀ s
  idle : Idle s

theorem retry_enabled (hl : Live s) (c : Choice) : ∃ s', retryStep env s c = some s' := by
  unfold retryStep
  split
  case h_1 pc => exact absurd pc hl.retry
  case h_4 => split <;> exact ⟨_, rfl⟩
  case h_6 => split <;> exact ⟨_, rfl⟩
  all_goals exact ⟨_, rfl⟩

theorem Resting.retry (hr : Resting env answer s₀ s) {c : Choice}
    (h : retryStep env s c = some s') : Resting env answer s₀ s' := by
  obtain ⟨hmain, haccepts, hworker, hqueue, -⟩ := retryStep_frame h
  refine ⟨⟨hmain.trans hr.live.main, hworker ▸ hr.live.spawned, hworker ▸ hr.live.alive, ?_⟩,
    hr.kept.grows (retryStep_grows h),
    ⟨haccepts ▸ hr.idle.calls, hqueue.trans hr.idle.queue, hworker.trans hr.idle.worker⟩⟩
  cases retryStep_move h <;> simp

/-- A step of a pass. -/
theorem retryStep_rank (hpass : s.retry ≠ .sleep) {c : Choice} (h : retryStep env s c = some s') :
    retryRank s'.retry < retryRank s.retry := by
  cases retryStep_move h with
  | listed pc | unlisted pc => exact absurd pc hpass
  | through pc | sent pc | unsent pc | deleted pc | undeleted pc | loaded pc | unloaded pc
  | retained pc | bumped pc | unbumped pc =>
    simp only [pc, retryRank, List.length_cons]
    omega

theorem retryStep_covered (hc : Covered s) (hpass : s.retry ≠ .sleep)
    (h : retryStep env s {} = some s') : Covered s' := by
  intro key body hrow
  cases retryStep_move h with
  | listed pc | unlisted pc => exact absurd pc hpass
  | unsent pc send => cases send
  | undeleted pc sql | unbumped pc sql => cases sql
  | @deleted entry rest pc =>
    have hkeep : key ≠ entry.key ∧ outboxBody s.storage key = some body := by
      rw [deleteResult, outboxBody_delete] at hrow
      split_ifs at hrow with hkey
      exact ⟨hkey, hrow⟩
    have hmem := hc key body hkeep.2
    rw [pc] at hmem
    exact (List.mem_cons.mp hmem).resolve_left hkeep.1
  | bumped pc =>
    rw [outboxBody_bump] at hrow
    have hmem := hc key body hrow
    rwa [pc] at hmem
  | through pc | sent pc | loaded pc | unloaded pc | retained pc =>
    have hmem := hc key body hrow
    rwa [pc] at hmem

/-- **The pass comes to its end.** -/
theorem exists_asleep {P : Node → Prop}
    (hP : ∀ s s', P s → s.retry ≠ .sleep → retryStep env s {} = some s' → P s')
    (hr : Resting env answer s₀ s) (hs : P s) :
    ∃ as t, (∀ a ∈ as, Faultless a) ∧ run (step env) s as = some t ∧
      (Resting env answer s₀ t ∧ P t) ∧ t.retry = .sleep := by
  refine exists_run_of_measure (I := fun s => Resting env answer s₀ s ∧ P s)
    (fun s => retryRank s.retry) (fun s hi hnot => ?_) ⟨hr, hs⟩
  obtain ⟨s', hstep⟩ : ∃ s', retryStep env s {} = some s' := retry_enabled hi.1.live {}
  exact ⟨.retry {}, s', ⟨rfl, rfl⟩, hstep, ⟨hi.1.retry hstep, hP s s' hi.2 hnot hstep⟩,
    retryStep_rank hnot hstep⟩

theorem mem_listPendingResults {st : Storage} {key : Key} {body : Bytes}
    (h : outboxBody st key = some body) : key ∈ st.listPendingResults.map (·.key) := by
  obtain ⟨row, hrow, -⟩ := Option.map_eq_some_iff.mp h
  refine List.mem_map.mpr ⟨⟨row.id, key, row.wireBody, row.attempts⟩, ?_, rfl⟩
  refine List.mem_map.mpr ⟨⟨key, row⟩, ?_, rfl⟩
  rw [List.mem_insertionSort]
  exact Table.mem_entries.mpr hrow

/-- **A pass over all rows** empties the outbox. -/
theorem exists_emptied (hr : Resting env answer s₀ s) (hsleep : s.retry = .sleep) :
    ∃ as t, (∀ a ∈ as, Faultless a) ∧ run (step env) s as = some t ∧
      Resting env answer s₀ t ∧ t.retry = .sleep ∧ ∀ key, outboxBody t.storage key = none := by
  have hstep : retryStep env s {} = some { s with retry := .send s.storage.listPendingResults } := by
    simp only [retryStep, hsleep, Option.elim]
  obtain ⟨as, t, hall, hrun, ⟨hrest, hcovered⟩, hend⟩ := exists_asleep (P := Covered)
    (fun _ _ hc hpass h => retryStep_covered hc hpass h) (hr.retry hstep)
    (fun key body hrow => mem_listPendingResults hrow)
  refine ⟨.retry {} :: as, t, ?_, run_cons_some.mpr ⟨_, hstep, hrun⟩, hrest, hend, fun key => ?_⟩
  · rintro a (_ | ⟨_, ha⟩)
    · exact ⟨rfl, rfl⟩
    · exact hall a ha
  · cases hrow : outboxBody t.storage key with
    | none => rfl
    | some body =>
      have hmem := hcovered key body hrow
      rw [hend] at hmem
      cases hmem

/-! ### The wire -/

/-- What is in flight arrives. -/
theorem exists_landed (hr : Resting env answer s₀ s) (hsleep : s.retry = .sleep)
    (hempty : ∀ key, outboxBody s.storage key = none) :
    ∃ as t, (∀ a ∈ as, Faultless a) ∧ run (step env) s as = some t ∧
      (Resting env answer s₀ t ∧ t.retry = .sleep ∧ ∀ key, outboxBody t.storage key = none) ∧
      t.wire.inFlight = [] := by
  refine exists_run_of_measure (I := fun t => Resting env answer s₀ t ∧ t.retry = .sleep ∧
    ∀ key, outboxBody t.storage key = none) (fun t => t.wire.inFlight.length)
    (fun s hi hnot => ?_) ⟨hr, hsleep, hempty⟩
  obtain ⟨⟨hlive, hkept, hidle⟩, hsleep, hempty⟩ := hi
  cases hflight : s.wire.inFlight with
  | nil => exact absurd hflight hnot
  | cons body rest =>
    refine ⟨.receive 0, { s with wire := { s.wire with
      inFlight := rest
      received := body :: s.wire.received } }, trivial, ?_, ⟨⟨⟨hlive.main, hlive.spawned, hlive.alive,
        hlive.retry⟩, hkept.grows (receive_grows hflight), ⟨hidle.calls, hidle.queue, hidle.worker⟩⟩,
      hsleep, hempty⟩, by simp⟩
    simp [step, hflight]

/-! ### The rows of the outbox -/

/-- The worker or the retry loop is about to delete the row. -/
def Deleting (s : Node) (key : Key) : Prop :=
  (∃ q payload body, s.worker = .delete q payload body ∧ q.task.key = key) ∨
    ∃ entry rest, s.retry = .delete entry rest ∧ entry.key = key

/-- Since `s₀` a result of the key was sent, and is on the wire or past it. -/
def Delivered (s₀ s : Node) (key : Key) : Prop :=
  ∃ new body, s.history.sentOk = new ++ s₀.history.sentOk ∧ (key, body) ∈ new ∧ Sent s body

/-- The row is there until a result was sent for its key. -/
structure Held (s₀ s : Node) (key : Key) : Prop where
  later : s₀.history.sentOk <:+ s.history.sentOk
  row : ((∃ body, outboxBody s.storage key = some body) ∧ ¬ Deleting s key) ∨ Delivered s₀ s key

/-- No step but a loss takes bytes off the wire before they arrive. -/
theorem faultless_sent {a : Act} (ha : Faultless a) (h : step env s a = some s') {body : Bytes}
    (hsent : Sent s body) : Sent s' body := by
  cases step_traffic h with
  | quiet wire | workerDelete _ _ wire | retryDelete _ _ wire =>
    unfold Sent
    rwa [wire]
  | sent _ _ wire | failed _ wire => exact sent_write hsent wire
  | lost => exact ha.elim
  | received bytes inFlight received =>
    unfold Sent
    rw [inFlight, received]
    rcases hsent with hfly | hrec
    · rcases mem_inFlight_eraseIdx bytes hfly with rfl | hfly
      · exact .inr (List.mem_cons_self ..)
      · exact .inl hfly
    · exact .inr (List.mem_cons_of_mem _ hrec)

theorem step_sentOk_suffix {a : Act} (h : step env s a = some s') :
    s.history.sentOk <:+ s'.history.sentOk := by
  cases step_traffic h with
  | quiet _ sent | failed _ _ sent | workerDelete _ _ _ sent | retryDelete _ _ _ sent => rw [sent]
  | sent _ _ _ sent =>
    rw [sent]
    exact List.suffix_cons _ _
  | received _ _ _ history | lost _ _ _ history => rw [history]

/-- The body that is being sent for a key is sent before its row is deleted. -/
theorem step_deleting {a : Act} (h : step env s a = some s') {key : Key}
    (hdel : Deleting s' key) : Deleting s key ∨
      ∃ body, s'.history.sentOk = (key, body) :: s.history.sentOk ∧ Sent s' body := by
  have hwritten : ∀ {body : Bytes}, s'.wire = s.wire.write body → Sent s' body := by
    intro body hw
    unfold Sent
    rw [hw]
    exact .inl (List.mem_append_right _ (List.mem_singleton_self _))
  cases step_move h with
  | accept _ move =>
    left
    cases move <;> exact hdel
  | worker move =>
    cases move with
    | sent =>
      rcases hdel with ⟨q', payload', body', heq, rfl⟩ | hretry
      · cases heq
        exact .inr ⟨_, rfl, hwritten rfl⟩
      · exact .inl (.inr hretry)
    | _ =>
      obtain ⟨q', payload', body', heq, -⟩ | hretry := hdel
      · cases heq
      · exact .inl (.inr hretry)
  | retry move =>
    cases move with
    | sent =>
      rcases hdel with hworker | ⟨entry', rest', heq, rfl⟩
      · exact .inl (.inl hworker)
      · cases heq
        exact .inr ⟨_, rfl, hwritten rfl⟩
    | _ =>
      obtain hworker | ⟨entry', rest', heq, -⟩ := hdel
      · exact .inl (.inl hworker)
      · cases heq
  | panicked =>
    obtain ⟨_, _, _, heq, -⟩ | hretry := hdel
    · cases heq
    · exact .inl (.inr hretry)
  | crashed => obtain ⟨_, _, _, heq, -⟩ | ⟨_, _, heq, -⟩ := hdel <;> cases heq
  | spawned => obtain ⟨_, _, _, heq, -⟩ | ⟨_, _, heq, -⟩ := hdel <;> cases heq
  | _ => exact .inl hdel

/-- A row that is not being deleted stays. -/
theorem step_row {a : Act} (h : step env s a = some s') {key : Key} {body : Bytes}
    (hrow : outboxBody s.storage key = some body) (hkeep : ¬ Deleting s key) :
    ∃ body', outboxBody s'.storage key = some body' := by
  have hc := step_results h
  generalize s'.storage = st at hc
  cases hc with
  | same results => exact ⟨body, by rw [outboxBody, results]; exact hrow⟩
  | @upsert _ q _ b pc sql =>
    rw [outboxBody_upsert]
    split_ifs
    · exact ⟨b, rfl⟩
    · exact ⟨body, hrow⟩
  | @workerDelete _ q payload b pc sql =>
    rw [outboxBody_delete, if_neg fun hkey => hkeep (.inl ⟨q, payload, b, pc, hkey.symm⟩)]
    exact ⟨body, hrow⟩
  | @retryDelete _ entry rest pc sql =>
    rw [outboxBody_delete, if_neg fun hkey => hkeep (.inr ⟨entry, rest, pc, hkey.symm⟩)]
    exact ⟨body, hrow⟩
  | bump pc sql => exact ⟨body, by rw [outboxBody_bump]; exact hrow⟩

theorem step_held {a : Act} (ha : Faultless a) {key : Key} (hh : Held s₀ s key)
    (h : step env s a = some s') : Held s₀ s' key := by
  refine ⟨hh.later.trans (step_sentOk_suffix h), ?_⟩
  rcases hh.row with ⟨⟨body, hrow⟩, hkeep⟩ | ⟨new, body, hnew, hmem, hsent⟩
  · by_cases hdel : Deleting s' key
    · obtain ⟨body', heq, hsent⟩ := (step_deleting h hdel).resolve_left hkeep
      obtain ⟨new, hnew⟩ := hh.later
      refine .inr ⟨(key, body') :: new, body', ?_, List.mem_cons_self .., hsent⟩
      rw [heq, ← hnew, List.cons_append]
    · exact .inl ⟨step_row h hrow hkeep, hdel⟩
  · obtain ⟨more, hmore⟩ := step_sentOk_suffix h
    refine .inr ⟨more ++ new, body, ?_, List.mem_append_right _ hmem, faultless_sent ha h hsent⟩
    rw [← hmore, hnew, List.append_assoc]

/-! ### Settling -/

/-- Once `main` is through, everything is spawned. -/
def Spawned (s : Node) : Prop :=
  s.main = .running → s.worker ≠ .unspawned ∧ s.retry ≠ .unspawned

theorem step_spawned {a : Act} (hs : Spawned s) (h : step env s a = some s') : Spawned s' := by
  intro hmain
  cases step_move h with
  | unread | refused | called | pruned | received | lost => exact hs hmain
  | spawned => simp
  | accept =>
    obtain ⟨hm, hworker, hretry, -⟩ := acceptStep_frame h
    rw [hworker, hretry]
    exact hs (hm ▸ hmain)
  | worker move =>
    obtain ⟨hm, -, hretry⟩ := workerStep_frame h
    rw [hretry]
    refine ⟨?_, (hs (hm ▸ hmain)).2⟩
    cases move <;> simp
  | retry move =>
    obtain ⟨hm, -, hworker, -⟩ := retryStep_frame h
    rw [hworker]
    refine ⟨(hs (hm ▸ hmain)).1, ?_⟩
    cases move <;> simp
  | panicked => exact ⟨by simp, (hs hmain).2⟩
  | read | restored | requeued | crashed => cases hmain

theorem live_of_run {acts : List Act} (h : run (step env) init acts = some s)
    (hmain : s.main = .running) (halive : s.worker ≠ .panicked) : Live s := by
  have hspawned : Spawned s := run_inv (fun _ _ _ hs h => step_spawned hs h) (fun h => by cases h) h
  exact ⟨hmain, (hspawned hmain).1, halive, (hspawned hmain).2⟩

/-- **Main result.** From every state of every run in which `main` is through and the worker alive,
without a failure from then on, the node can get to where all is done; and then every task that was
waiting has been taken up, and its result, a result sent since for every row that was in the outbox,
and whatever was in flight have been received, whatever core answers. -/
theorem settles {acts : List Act} (h : run (step env) init acts = some s)
    (hmain : s.main = .running) (halive : s.worker ≠ .panicked)
    (hanswer : ∀ q, (answer q).sql = none ∧ (answer q).send = .ok) :
    ∃ as t, (∀ a ∈ as, Faultless a) ∧ run (step env) s as = some t ∧ Settled t ∧
      (∀ q ∈ s.queue, q.row ∈ t.history.takenUp ∧
        ∀ body, resultOf env answer q = .ok body → body ∈ t.wire.received) ∧
      (∀ key body, outboxBody s.storage key = some body → ¬ Deleting s key →
        ∃ new body', t.history.sentOk = new ++ s.history.sentOk ∧ (key, body') ∈ new ∧
          body' ∈ t.wire.received) ∧
      ∀ body ∈ s.wire.inFlight, body ∈ t.wire.received := by
  obtain ⟨as₁, s₁, hall₁, hrun₁, ⟨hlive, hkept⟩, hidle⟩ :=
    exists_idle hanswer (live_of_run h hmain halive) (kept_self : Kept env answer s s)
  -- the pass under way, then one over all rows
  obtain ⟨as₂, s₂, hall₂, hrun₂, ⟨hrest₂, -⟩, hsleep₂⟩ :=
    exists_asleep (P := fun _ => True) (fun _ _ _ _ _ => trivial) ⟨hlive, hkept, hidle⟩ trivial
  obtain ⟨as₃, s₃, hall₃, hrun₃, hrest₃, hsleep₃, hempty₃⟩ := exists_emptied hrest₂ hsleep₂
  obtain ⟨as₄, t, hall₄, hrun₄, ⟨hrest, hsleep, hempty⟩, hflight⟩ :=
    exists_landed hrest₃ hsleep₃ hempty₃
  have hreceived : ∀ body, Sent t body → body ∈ t.wire.received := by
    intro body hsent
    rcases hsent with hin | hrec
    · rw [hflight] at hin
      cases hin
    · exact hrec
  have hall : ∀ a ∈ as₁ ++ (as₂ ++ (as₃ ++ as₄)), Faultless a := by
    intro a ha
    simp only [List.mem_append] at ha
    rcases ha with ha | ha | ha | ha
    · exact hall₁ a ha
    · exact hall₂ a ha
    · exact hall₃ a ha
    · exact hall₄ a ha
  have hrun : run (step env) s (as₁ ++ (as₂ ++ (as₃ ++ as₄))) = some t :=
    run_append_some.mpr ⟨s₁, hrun₁, run_append_some.mpr
      ⟨s₂, hrun₂, run_append_some.mpr ⟨s₃, hrun₃, hrun₄⟩⟩⟩
  refine ⟨_, t, hall, hrun, ⟨hrest.idle.calls, hrest.idle.queue, hrest.idle.worker, hsleep, hempty,
    hflight⟩, fun q hq => ?_, fun key body hrow hkeep => ?_,
    fun body hb => hreceived body (hrest.kept.flight body hb)⟩
  · cases hrest.kept.queue q hq with
    | waiting hw =>
      rw [hrest.idle.queue] at hw
      cases hw
    | inHand taken hw =>
      rw [hrest.idle.worker] at hw
      cases hw
    | sent taken hw => exact ⟨taken, fun body hb => hreceived body (hw body hb)⟩
  · have hheld : Held s t key := run_inv_of_forall (I := fun t => Held s t key)
      (fun _ _ _ hh ha hs => step_held ha hh hs)
      ⟨List.suffix_refl _, .inl ⟨⟨body, hrow⟩, hkeep⟩⟩ hall hrun
    rcases hheld.row with ⟨⟨b, hb⟩, -⟩ | ⟨new, b, hnew, hmem, hsent⟩
    · rw [hempty key] at hb
      cases hb
    · exact ⟨new, b, hnew, hmem, hreceived b hsent⟩

/-- A task waits in the channel. -/
def waitingActs : List Act :=
  [.start, .main, .dispatch (emptyRequest "sub-1") "orch" none 0, .accept 0 {}, .accept 0 {},
    .accept 0 {}, .accept 0 {}, .accept 0 {}]

/-- What core answers when it cannot be reached. -/
def refusing (_ : QueuedTask) : Choice := { core := .error "connection refused" }

theorem refusing_ok (q : QueuedTask) : (refusing q).sql = none ∧ (refusing q).send = .ok :=
  ⟨rfl, rfl⟩

theorem settles_waiting : ∃ s, run (step nodeA) init waitingActs = some s ∧ s.queue.length = 1 ∧
    ∃ as t, (∀ a ∈ as, Faultless a) ∧ run (step nodeA) s as = some t ∧ Settled t ∧
      utf8 (failureJson "sub-1" "connection refused") ∈ t.wire.received := by
  have hrun : (run (step nodeA) init waitingActs).any (fun s =>
      FailedAccept.isRunning s.main &&
      s.worker.ctorIdx == WorkerPc.recv.ctorIdx &&
      s.queue.map (fun q => (resultOf nodeA refusing q).toOption) ==
        [some (utf8 (failureJson "sub-1" "connection refused"))]) = true := by decide +kernel
  obtain ⟨s, hs, hp⟩ := (Option.any_eq_true _ _).mp hrun
  simp only [Bool.and_eq_true, beq_iff_eq] at hp
  obtain ⟨⟨hmain, hworker⟩, hqueue⟩ := hp
  have hrunning : s.main = .running := FailedAccept.isRunning_iff.mp hmain
  have halive : s.worker ≠ .panicked := fun h => by
    rw [h] at hworker
    exact absurd hworker (by decide)
  obtain ⟨as, t, hall, hrun, hsettled, htasks, -⟩ := settles hs hrunning halive refusing_ok
  obtain ⟨q, hq⟩ : ∃ q, s.queue = [q] := by
    rw [← List.length_eq_one_iff, ← List.length_map, hqueue]
    rfl
  refine ⟨s, hs, by rw [hq]; rfl, as, t, hall, hrun, hsettled, (htasks q (by simp [hq])).2 _ ?_⟩
  rw [hq, List.map_cons, List.cons.injEq] at hqueue
  cases hres : resultOf nodeA refusing q with
  | error e => simp [hres, Except.toOption] at hqueue
  | ok body => simpa [hres, Except.toOption] using hqueue

end WqcNode.Application.Settling
