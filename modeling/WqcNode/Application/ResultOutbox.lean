import WqcNode.Application.Recovery

/-! # The result outbox (`application/result_outbox.rs`)

`send_result_wire` returns `Ok` when the bytes are written and the stream is closed locally; the
worker and the retry loop then delete the outbox row by its key. The orchestrator need not have
received the bytes by then, and the row need not hold the body that was sent. Both cannot happen if
the wire loses nothing, a delete waits until the body has left the wire, and no other body is stored
for a key while the retry loop is delivering one for it (`deleted_after_receipt`). -/

namespace WqcNode.Application.ResultOutbox

open WqcNode.Lib WqcNode.Lib.Machine WqcNode.Infra WqcNode.Domain.Models
open WqcNode.Application.NodeMachine WqcNode.Application.NodeInvariants
open WqcNode.Application.Recovery

variable {env : Env} {s s' : Node} {a : Act}

/-! ### The stored body of a key -/

/-- The body in the outbox row under `k`. -/
def outboxBody (st : Storage) (k : Key) : Option Bytes := (st.pendingResults.lookup k).map (·.wireBody)

theorem outboxBody_upsert (st : Storage) (key k : Key) (body : Bytes) (now : ℤ) :
    outboxBody (st.upsertPendingResult key body now) k =
      if k = key then some body else outboxBody st k := by
  simp only [outboxBody, Storage.upsertPendingResult]
  split <;> simp only [Table.lookup_insert_if] <;> split_ifs <;> rfl

theorem outboxBody_delete (st : Storage) (key k : Key) :
    outboxBody (st.deletePendingResult key) k = if k = key then none else outboxBody st k := by
  simp only [outboxBody, Storage.deletePendingResult, Table.lookup_erase_if]
  split_ifs <;> rfl

theorem outboxBody_bump (st : Storage) (id : ℕ) (k : Key) :
    outboxBody (st.incrementPendingResultAttempts id) k = outboxBody st k :=
  Table.map_lookup_updateAll _ fun row => by split_ifs <;> rfl

/-- A listed row holds the body it is listed with. -/
theorem outboxBody_of_mem_list {st : Storage} {entry : PendingResult}
    (h : entry ∈ st.listPendingResults) : outboxBody st entry.key = some entry.wireBody := by
  simp only [Storage.listPendingResults, List.mem_map, List.mem_insertionSort] at h
  obtain ⟨e, he, rfl⟩ := h
  simp [outboxBody, Table.mem_entries.mp he]

/-! ### Who is delivering what -/

/-- The worker is delivering `body` for `key`: from the stored row to the delete. -/
def workerDelivers : WorkerPc → Option (Key × Bytes)
  | .deliverStatus q _ body | .send q _ body | .delete q _ body => some (q.task.key, body)
  | _ => none

/-- The entries the retry loop has read and not finished with. -/
def retryEntries : RetryPc → List PendingResult
  | .send entries => entries
  | .delete entry rest => entry :: rest
  | .load _ rest | .retain _ _ rest | .bump _ rest => rest
  | _ => []

/-- A row that is there holds the body that is being delivered for its key. -/
def Holds (st : Storage) (key : Key) (body : Bytes) : Prop :=
  ∀ b, outboxBody st key = some b → b = body

/-- What the worker is delivering is what is stored. -/
def WorkerHolds (s : Node) : Prop :=
  ∀ key body, workerDelivers s.worker = some (key, body) → Holds s.storage key body

/-- What the retry loop has read is what is stored. -/
def RetryHolds (s : Node) : Prop :=
  ∀ entry ∈ retryEntries s.retry, Holds s.storage entry.key entry.wireBody

/-- Before the delete of a row its body was sent. -/
structure Sent (s : Node) : Prop where
  worker : ∀ q payload body, s.worker = .delete q payload body →
    (q.task.key, body) ∈ s.history.sentOk
  retry : ∀ entry rest, s.retry = .delete entry rest →
    (entry.key, entry.wireBody) ∈ s.history.sentOk

/-- A body that was sent is on the wire or received. -/
def Conserved (s : Node) : Prop :=
  ∀ key body, (key, body) ∈ s.history.sentOk → body ∈ s.wire.inFlight ∨ body ∈ s.wire.received

/-- The step loses no bytes of a send that returned `Ok`, unless another copy of them is on the wire
or received; it does not delete a row while the body sent for it is in flight; and it does not store
another body for a key the retry loop is delivering. -/
def prompt (s : Node) : Act → Bool
  | .lose i => (s.wire.inFlight[i]?).all fun body =>
      !s.history.sentOk.any (·.2 == body) || s.wire.received.contains body ||
        (s.wire.inFlight.eraseIdx i).contains body
  | .worker c =>
    match s.worker with
    | .upsert q _ body => c.sql.isSome ||
        (retryEntries s.retry).all fun e => !(e.key == q.task.key) || e.wireBody == body
    | .delete _ _ body => c.sql.isSome || !s.wire.inFlight.contains body
    | _ => true
  | .retry c =>
    match s.retry with
    | .delete entry _ => c.sql.isSome || !s.wire.inFlight.contains entry.wireBody
    | _ => true
  | _ => true

/-- The outbox rows deleted so far held bodies the orchestrator has received. -/
def DeletedReceived (s : Node) : Prop := ∀ body ∈ s.history.deleted, body ∈ s.wire.received

/-! ### What a step does to the wire and the history -/

/-- A step sends, deletes, receives or loses a body, or leaves the wire, the sends and the deletes
alone. -/
inductive Traffic (s : Node) : Act → Node → Prop
  | quiet {a : Act} {s' : Node} (wire : s'.wire = s.wire)
      (sent : s'.history.sentOk = s.history.sentOk)
      (deleted : s'.history.deleted = s.history.deleted) : Traffic s a s'
  | sent {a : Act} {s' : Node} (key : Key) (body : Bytes) (wire : s'.wire = s.wire.write body)
      (sent : s'.history.sentOk = (key, body) :: s.history.sentOk)
      (deleted : s'.history.deleted = s.history.deleted) : Traffic s a s'
  | failed {a : Act} {s' : Node} (body : Bytes) (wire : s'.wire = s.wire.write body)
      (sent : s'.history.sentOk = s.history.sentOk)
      (deleted : s'.history.deleted = s.history.deleted) : Traffic s a s'
  | workerDelete {c : Choice} {s' : Node} {q : QueuedTask} {payload : TaskResultPayload}
      {body : Bytes} (pc : s.worker = .delete q payload body) (sql : c.sql = none)
      (wire : s'.wire = s.wire) (sent : s'.history.sentOk = s.history.sentOk)
      (deleted : s'.history.deleted =
        (outboxBody s.storage q.task.key).toList ++ s.history.deleted) :
      Traffic s (.worker c) s'
  | retryDelete {c : Choice} {s' : Node} {entry : PendingResult} {rest : List PendingResult}
      (pc : s.retry = .delete entry rest) (sql : c.sql = none) (wire : s'.wire = s.wire)
      (sent : s'.history.sentOk = s.history.sentOk)
      (deleted : s'.history.deleted =
        (outboxBody s.storage entry.key).toList ++ s.history.deleted) :
      Traffic s (.retry c) s'
  | received {i : ℕ} {s' : Node} {body : Bytes} (bytes : s.wire.inFlight[i]? = some body)
      (inFlight : s'.wire.inFlight = s.wire.inFlight.eraseIdx i)
      (received : s'.wire.received = body :: s.wire.received) (history : s'.history = s.history) :
      Traffic s (.receive i) s'
  | lost {i : ℕ} {s' : Node} {body : Bytes} (bytes : s.wire.inFlight[i]? = some body)
      (inFlight : s'.wire.inFlight = s.wire.inFlight.eraseIdx i)
      (received : s'.wire.received = s.wire.received) (history : s'.history = s.history) :
      Traffic s (.lose i) s'

theorem workerStep_traffic {c : Choice} (h : workerStep env s c = some s') :
    Traffic s (.worker c) s' := by
  cases workerStep_move h with
  | sent pc send => exact .sent _ _ rfl rfl rfl
  | @unsent _ _ body arrives pc send =>
    cases arrives
    · exact .quiet rfl rfl rfl
    · exact .failed body rfl rfl rfl
  | deleted pc sql => exact .workerDelete pc sql rfl rfl rfl
  | _ => exact .quiet rfl rfl rfl

theorem retryStep_traffic {c : Choice} (h : retryStep env s c = some s') :
    Traffic s (.retry c) s' := by
  cases retryStep_move h with
  | sent pc send => exact .sent _ _ rfl rfl rfl
  | @unsent entry _ arrives pc send =>
    cases arrives
    · exact .quiet rfl rfl rfl
    · exact .failed entry.wireBody rfl rfl rfl
  | deleted pc sql => exact .retryDelete pc sql rfl rfl rfl
  | _ => exact .quiet rfl rfl rfl

/-- Every step does one of these. -/
theorem step_traffic (h : step env s a = some s') : Traffic s a s' := by
  cases step_move h with
  | accept call move => cases move <;> exact .quiet rfl rfl rfl
  | worker => exact workerStep_traffic h
  | retry => exact retryStep_traffic h
  | received bytes => exact .received bytes rfl rfl rfl
  | lost bytes => exact .lost bytes rfl rfl rfl
  | _ => exact .quiet rfl rfl rfl

theorem mem_inFlight_eraseIdx {w : Wire} {i : ℕ} {b body : Bytes} (hi : w.inFlight[i]? = some body)
    (hb : b ∈ w.inFlight) : b = body ∨ b ∈ w.inFlight.eraseIdx i := by
  obtain ⟨j, hj, rfl⟩ := List.getElem_of_mem hb
  by_cases hij : j = i
  · subst hij
    rw [List.getElem?_eq_getElem hj, Option.some.injEq] at hi
    exact .inl hi
  · exact .inr (List.mem_eraseIdx_iff_getElem.mpr ⟨j, hj, hij, rfl⟩)

/-- What was received stays received. -/
theorem step_received (h : step env s a = some s') {b : Bytes} (hb : b ∈ s.wire.received) :
    b ∈ s'.wire.received := by
  cases step_traffic h with
  | quiet wire | sent _ _ wire | failed _ wire | workerDelete _ _ wire | retryDelete _ _ wire =>
    rw [wire]
    exact hb
  | received _ _ received =>
    rw [received]
    exact List.mem_cons_of_mem _ hb
  | lost _ _ received =>
    rw [received]
    exact hb

theorem step_sentOk (h : step env s a = some s') {x : Key × Bytes} (hx : x ∈ s.history.sentOk) :
    x ∈ s'.history.sentOk := by
  cases step_traffic h with
  | quiet _ sent | failed _ _ sent | workerDelete _ _ _ sent | retryDelete _ _ _ sent =>
    rw [sent]
    exact hx
  | sent _ _ _ sent =>
    rw [sent]
    exact List.mem_cons_of_mem _ hx
  | received _ _ _ history | lost _ _ _ history =>
    rw [history]
    exact hx

theorem step_conserved (hc : Conserved s) (hp : prompt s a = true) (h : step env s a = some s') :
    Conserved s' := by
  intro key body hsent
  cases step_traffic h with
  | quiet wire sent | workerDelete _ _ wire sent | retryDelete _ _ wire sent =>
    rw [wire]
    exact hc key body (sent ▸ hsent)
  | sent key₁ body₁ wire sent =>
    rw [sent] at hsent
    rw [wire]
    rcases List.mem_cons.mp hsent with heq | hsent
    · cases heq
      exact .inl (by simp [Wire.write])
    · exact (hc key body hsent).imp (List.mem_append_left _) id
  | failed _ wire sent =>
    rw [wire]
    exact (hc key body (sent ▸ hsent)).imp (List.mem_append_left _) id
  | received bytes inFlight received history =>
    rw [inFlight, received]
    rcases hc key body (history ▸ hsent) with hfly | hrec
    · rcases mem_inFlight_eraseIdx bytes hfly with rfl | hfly
      · exact .inr (List.mem_cons_self ..)
      · exact .inl hfly
    · exact .inr (List.mem_cons_of_mem _ hrec)
  | lost bytes inFlight received history =>
    rw [inFlight, received]
    rw [history] at hsent
    rcases hc key body hsent with hfly | hrec
    · rcases mem_inFlight_eraseIdx bytes hfly with rfl | hfly
      · -- the copy that is lost was sent, so it is one of several or has been received
        simp only [prompt, bytes, Option.all_some, Bool.or_eq_true, Bool.not_eq_true',
          List.any_eq_false, List.contains_eq_mem, decide_eq_true_eq] at hp
        rcases hp with (hnone | hrec) | hfly
        · exact absurd (beq_self_eq_true body) (hnone _ hsent)
        · exact .inr hrec
        · exact .inl hfly
      · exact .inl hfly
    · exact .inr hrec

/-! ### What is being delivered is what is stored -/

/-- A step changes the stored body of a key only by deleting the row or by storing another body. -/
theorem step_holds {key : Key} {body : Bytes} (hh : Holds s.storage key body)
    (h : step env s a = some s')
    (hup : ∀ c q payload b, a = .worker c → c.sql = none → s.worker = .upsert q payload b →
      key = q.task.key → b = body) : Holds s'.storage key body := by
  intro b hb
  have hc := step_results h
  generalize s'.storage = st at hc hb
  cases hc with
  | same results =>
    rw [outboxBody, results] at hb
    exact hh b hb
  | upsert pc sql =>
    rw [outboxBody_upsert] at hb
    split_ifs at hb with hkey
    · cases hb
      exact hup _ _ _ _ rfl sql pc hkey
    · exact hh b hb
  | workerDelete pc sql | retryDelete pc sql =>
    rw [outboxBody_delete] at hb
    split_ifs at hb with hkey
    exact hh b hb
  | bump pc sql =>
    rw [outboxBody_bump] at hb
    exact hh b hb

/-- The worker comes to deliver a body by storing it, and to delete the row by sending it. -/
theorem workerStep_delivers {c : Choice} (h : workerStep env s c = some s') :
    (∀ key body, workerDelivers s'.worker = some (key, body) →
      workerDelivers s.worker = some (key, body) ∧ (∀ q payload b, s.worker ≠ .upsert q payload b) ∨
      outboxBody s'.storage key = some body) ∧
    ∀ q payload body, s'.worker = .delete q payload body →
      (q.task.key, body) ∈ s'.history.sentOk := by
  cases workerStep_move h with
  | stored pc sql =>
    refine ⟨fun key b hb => .inr ?_, by simp⟩
    cases hb
    simp [outboxBody_upsert]
  | deliverStatusSet pc =>
    rw [pc]
    exact ⟨fun key b hb => .inl ⟨hb, by simp⟩, by simp⟩
  | sent pc send =>
    rw [pc]
    refine ⟨fun key b hb => .inl ⟨hb, by simp⟩, fun q' payload' b hb => ?_⟩
    cases hb
    exact List.mem_cons_self ..
  | _ => exact ⟨by simp [workerDelivers], by simp⟩

/-- The retry loop works through the rows it has listed, and deletes a row after sending it. -/
theorem retryStep_entries {c : Choice} (h : retryStep env s c = some s') :
    (∀ entry ∈ retryEntries s'.retry, entry ∈ retryEntries s.retry ∨
      entry ∈ s'.storage.listPendingResults) ∧
    ∀ entry rest, s'.retry = .delete entry rest →
      (entry.key, entry.wireBody) ∈ s'.history.sentOk := by
  cases retryStep_move h with
  | listed pc sql => exact ⟨fun entry he => .inr he, by simp⟩
  | unlisted pc sql | through pc => exact ⟨by simp [retryEntries], by simp⟩
  | sent pc send =>
    rw [pc]
    refine ⟨fun e he => .inl he, fun e rest' he => ?_⟩
    cases he
    exact List.mem_cons_self ..
  | unsent pc _ | deleted pc _ | undeleted pc _ =>
    rw [pc]
    exact ⟨fun e he => .inl (List.mem_cons_of_mem _ he), by simp⟩
  | loaded pc _ _ | unloaded pc | retained pc | bumped pc _ | unbumped pc _ =>
    rw [pc]
    exact ⟨fun e he => .inl he, by simp⟩

theorem step_workerHolds (hd : WorkerHolds s) (h : step env s a = some s') : WorkerHolds s' := by
  intro key body hk
  rcases step_worker h with ⟨c, rfl⟩ | hsame | hother | hother | hother
  · rcases (workerStep_delivers h).1 key body hk with ⟨hold, hno⟩ | hstored
    · refine step_holds (hd key body hold) h fun c q payload b _ _ hw _ => ?_
      exact absurd hw (hno q payload b)
    · intro b hb
      rw [hstored] at hb
      exact (Option.some.inj hb).symm
  · rw [hsame] at hk
    refine step_holds (hd key body hk) h fun c q payload b _ _ hw _ => ?_
    simp [hw, workerDelivers] at hk
  all_goals simp [hother, workerDelivers] at hk

theorem step_retryHolds (hd : RetryHolds s) (hp : prompt s a = true)
    (h : step env s a = some s') : RetryHolds s' := by
  intro entry he
  -- an entry read earlier survives an upsert of its key because the step stores the same body
  have hkeep : entry ∈ retryEntries s.retry → Holds s'.storage entry.key entry.wireBody := by
    intro hold
    refine step_holds (hd entry hold) h fun c q payload b hact hsql hw hkey => ?_
    simp only [hact, prompt, hw, hsql, Option.isSome_none, Bool.false_or, List.all_eq_true,
      Bool.or_eq_true, Bool.not_eq_true', beq_eq_false_iff_ne, beq_iff_eq] at hp
    exact ((hp entry hold).resolve_left (fun hne => hne hkey)).symm
  rcases step_retry h with ⟨c, rfl⟩ | hsame | hother | hother
  · rcases (retryStep_entries h).1 entry he with hold | hlisted
    · exact hkeep hold
    · intro b hb
      rw [outboxBody_of_mem_list hlisted] at hb
      exact (Option.some.inj hb).symm
  · exact hkeep (hsame ▸ he)
  all_goals simp [hother, retryEntries] at he

theorem step_sent (hs : Sent s) (h : step env s a = some s') : Sent s' := by
  refine ⟨fun q payload body hw => ?_, fun entry rest hr => ?_⟩
  · rcases step_worker h with ⟨c, rfl⟩ | hsame | hother | hother | hother
    · exact (workerStep_delivers h).2 q payload body hw
    · exact step_sentOk h (hs.worker q payload body (hsame ▸ hw))
    all_goals simp [hother] at hw
  · rcases step_retry h with ⟨c, rfl⟩ | hsame | hother | hother
    · exact (retryStep_entries h).2 entry rest hr
    · exact step_sentOk h (hs.retry entry rest (hsame ▸ hr))
    all_goals simp [hother] at hr

theorem workerHolds_init : WorkerHolds init := by simp [WorkerHolds, init, workerDelivers]

theorem retryHolds_init : RetryHolds init := by simp [RetryHolds, init, retryEntries]

theorem sent_init : Sent init := ⟨by simp [init], by simp [init]⟩

/-! ### Rows are deleted after receipt -/

/-- What holds in a run of prompt steps. -/
structure Prompt (s : Node) : Prop where
  worker : WorkerHolds s
  retry : RetryHolds s
  sent : Sent s
  conserved : Conserved s
  deleted : DeletedReceived s

theorem step_deletedReceived (hi : Prompt s) (hp : prompt s a = true)
    (h : step env s a = some s') : DeletedReceived s' := by
  -- a body that was sent, is stored and is not in flight has been received
  have hnew : ∀ {key body}, Holds s.storage key body → (key, body) ∈ s.history.sentOk →
      s.wire.inFlight.contains body = false → s'.wire = s.wire →
      ∀ b ∈ (outboxBody s.storage key).toList, b ∈ s'.wire.received := by
    intro key body hholds hsent hfly hwire b hb
    obtain rfl := hholds b (by simpa using hb)
    rw [hwire]
    rcases hi.conserved key b hsent with hin | hrec
    · simp [hin] at hfly
    · exact hrec
  intro b hb
  cases step_traffic h with
  | quiet _ _ deleted | sent _ _ _ _ deleted | failed _ _ _ deleted =>
    exact step_received h (hi.deleted b (deleted ▸ hb))
  | received _ _ _ history | lost _ _ _ history =>
    rw [history] at hb
    exact step_received h (hi.deleted b hb)
  | @workerDelete c _ q payload body pc sql wire sent deleted =>
    rw [deleted, List.mem_append] at hb
    rcases hb with hb | hb
    · refine hnew (hi.worker _ body (by simp [pc, workerDelivers])) (hi.sent.worker _ _ _ pc) ?_ wire
        b hb
      simpa [prompt, pc, sql] using hp
    · exact step_received h (hi.deleted b hb)
  | @retryDelete c _ entry rest pc sql wire sent deleted =>
    rw [deleted, List.mem_append] at hb
    rcases hb with hb | hb
    · refine hnew (hi.retry entry (by simp [pc, retryEntries])) (hi.sent.retry _ _ pc) ?_ wire b hb
      simpa [prompt, pc, sql] using hp
    · exact step_received h (hi.deleted b hb)

/-- **Main result.** In every run whose steps are prompt, in every state reached, the orchestrator
has received the body of every outbox row deleted. -/
theorem deleted_after_receipt {acts : List Act}
    (hp : StepsMeet (step env) (fun s a => prompt s a = true) init acts)
    (h : run (step env) init acts = some s) : DeletedReceived s := by
  refine (run_inv_of_stepsMeet (I := Prompt) ?_ ?_ hp h).deleted
  · intro s a s' hi hok hs
    exact ⟨step_workerHolds hi.worker hs, step_retryHolds hi.retry hok hs, step_sent hi.sent hs,
      step_conserved hi.conserved hok hs, step_deletedReceived hi hok hs⟩
  · exact ⟨workerHolds_init, retryHolds_init, sent_init, by simp [Conserved, init],
      by simp [DeletedReceived, init]⟩

instance DeletedReceived.decidable (s : Node) : Decidable (DeletedReceived s) :=
  inferInstanceAs (Decidable (∀ body ∈ s.history.deleted, body ∈ s.wire.received))

/-- A task is dispatched, taken up and computed without success. -/
def computedActs : List Act :=
  [.start, .main, .dispatch (emptyRequest "sub-1") "orch" none 0, .accept 0 {}, .accept 0 {},
    .accept 0 {}, .accept 0 {}, .accept 0 {}, .worker {}, .worker {},
    .worker { core := .error "connection refused" }]

/-- Its result is stored and sent. -/
def deliveryActs : List Act :=
  computedActs ++ [.worker {}, .worker {}, .worker {}, .worker {}, .worker {}]

theorem deleted_after_receipt_delivered :
    ∃ s, run (step nodeA) init (deliveryActs ++ [.receive 0, .worker {}]) = some s ∧
      s.history.deleted = [utf8 (failureJson "sub-1" "connection refused")] ∧ DeletedReceived s := by
  have hdel : ((run (step nodeA) init (deliveryActs ++ [.receive 0, .worker {}])).map
      fun s => s.history.deleted) = some [utf8 (failureJson "sub-1" "connection refused")] := by
    decide +kernel
  obtain ⟨s, hs, hs'⟩ := Option.map_eq_some_iff.mp hdel
  exact ⟨s, hs, hs', deleted_after_receipt (by decide +kernel) hs⟩

/-- **The bytes are lost after the write returned `Ok`**: the worker deletes the row all the
same. -/
theorem lost_result_deleted :
    ∃ s, run (step nodeA) init (deliveryActs ++ [.lose 0, .worker {}]) = some s ∧
      s.wire.received = [] ∧ s.storage.listPendingResults = [] ∧ ¬ DeletedReceived s := by
  have hrun : (run (step nodeA) init (deliveryActs ++ [.lose 0, .worker {}])).any
      (fun s => decide (s.wire.received = [] ∧ s.storage.listPendingResults = [] ∧
        ¬ DeletedReceived s)) = true := by decide +kernel
  obtain ⟨s, hs, hp⟩ := (Option.any_eq_true _ _).mp hrun
  exact ⟨s, hs, of_decide_eq_true hp⟩

end WqcNode.Application.ResultOutbox
