import WqcNode.Application.TaskIntegrity
import WqcNode.Application.ResultOutbox

/-! # A result belongs to its task (`application/worker.rs`, `application/result_outbox.rs`)

A result is computed for a task, becomes the body of a message, is stored under the task's key, read
again by the retry loop, and sent by either. Whatever the orchestrator gets was built for a task the
node had, from core's answer to it or from the refusal of a task whose deadline had passed.

* `step_bodies`: every step keeps this of all the bodies, stored, in hand or on the wire. -/

namespace WqcNode.Application.ResultIntegrity

open WqcNode.Lib WqcNode.Lib.Machine WqcNode.Infra WqcNode.Domain.Models
open WqcNode.Application.NodeMachine WqcNode.Application.NodeInvariants
open WqcNode.Application.ResultOutbox WqcNode.Application.TaskIntegrity

variable {env : Env} {s s' : Node} {a : Act} {P Q : ComputeTask → Prop}

/-- The body was built for a task with this key that satisfies `P`. -/
def BuiltFor (P : ComputeTask → Prop) (env : Env) (key : Key) (body : Bytes) : Prop :=
  ∃ task c, P task ∧ task.key = key ∧
    env.buildResultWireBody task (taskPayload env task c) env.peerId = .ok body

theorem BuiltFor.mono (h : ∀ task, P task → Q task) {key : Key} {body : Bytes}
    (hb : BuiltFor P env key body) : BuiltFor Q env key body := by
  obtain ⟨task, c, hP, hkey, hbuild⟩ := hb
  exact ⟨task, c, h task hP, hkey, hbuild⟩

/-- The task the worker has a payload for. -/
def payloadInHand : WorkerPc → Option (QueuedTask × TaskResultPayload)
  | .status q payload | .build q payload | .upsert q payload _ | .deliverStatus q payload _
  | .send q payload _ | .delete q payload _ => some (q, payload)
  | _ => none

/-- The task the worker has a body for. -/
def bodyInHand : WorkerPc → Option (QueuedTask × Bytes)
  | .upsert q _ body | .deliverStatus q _ body | .send q _ body | .delete q _ body => some (q, body)
  | _ => none

/-- Every body there is was built for a task that satisfies `P`. -/
structure Bodies (P : ComputeTask → Prop) (env : Env) (s : Node) : Prop where
  payload : ∀ x ∈ payloadInHand s.worker, ∃ c, x.2 = taskPayload env x.1.task c
  worker : ∀ x ∈ bodyInHand s.worker, BuiltFor P env x.1.task.key x.2
  rows : ∀ key body, outboxBody s.storage key = some body → BuiltFor P env key body
  retry : ∀ entry ∈ retryEntries s.retry, BuiltFor P env entry.key entry.wireBody
  wire : ∀ body, body ∈ s.wire.inFlight ∨ body ∈ s.wire.received → ∃ key, BuiltFor P env key body

theorem bodies_init : Bodies P env init where
  payload _ h := by simp [init, payloadInHand] at h
  worker _ h := by simp [init, bodyInHand] at h
  rows _ _ h := by simp [init, outboxBody, Storage.new] at h
  retry _ h := by simp [init, retryEntries] at h
  wire _ h := by simp [init] at h

theorem Bodies.mono (h : ∀ task, P task → Q task) (hb : Bodies P env s) : Bodies Q env s where
  payload := hb.payload
  worker x hx := (hb.worker x hx).mono h
  rows key body hrow := (hb.rows key body hrow).mono h
  retry entry he := (hb.retry entry he).mono h
  wire body hw := (hb.wire body hw).imp fun _ hk => hk.mono h

/-! ### One step -/

/-- The worker's payload is that of its task. -/
theorem worker_payload {c : Choice}
    (hp : ∀ x ∈ payloadInHand s.worker, ∃ c, x.2 = taskPayload env x.1.task c)
    (hm : WorkerMove env s c s') :
    ∀ x ∈ payloadInHand s'.worker, ∃ c, x.2 = taskPayload env x.1.task c := by
  intro x hx
  cases hm with
  | computed pc =>
    cases hx
    exact ⟨c, rfl⟩
  | statusSet pc | built pc _ | stored pc _ | deliverStatusSet pc | sent pc _ =>
    exact hp x (by rw [pc]; exact hx)
  | _ => cases hx

/-- The worker's body was built for its task. -/
theorem worker_body (he : Everywhere P env s) (hb : Bodies P env s) {c : Choice}
    (hm : WorkerMove env s c s') :
    ∀ x ∈ bodyInHand s'.worker, BuiltFor P env x.1.task.key x.2 := by
  intro x hx
  cases hm with
  | @built q payload body pc build =>
    cases hx
    obtain ⟨c', hpayload⟩ := hb.payload (q, payload) (by rw [pc]; rfl)
    obtain rfl : payload = taskPayload env q.task c' := hpayload
    exact ⟨q.task, c', he.worker q (by rw [pc]; rfl), rfl, build⟩
  | stored pc _ | deliverStatusSet pc | sent pc _ => exact hb.worker x (by rw [pc]; exact hx)
  | _ => cases hx

section Step

variable (he : Everywhere P env s) (hb : Bodies P env s)

section
include hb

theorem step_payload (h : step env s a = some s') :
    ∀ x ∈ payloadInHand s'.worker, ∃ c, x.2 = taskPayload env x.1.task c := by
  intro x hx
  rcases step_worker h with ⟨c, rfl⟩ | hsame | hnone | hrecv | hpanic
  · exact worker_payload hb.payload (workerStep_move h) x hx
  · exact hb.payload x (hsame ▸ hx)
  · simp [hnone, payloadInHand] at hx
  · simp [hrecv, payloadInHand] at hx
  · simp [hpanic, payloadInHand] at hx

/-- A stored body is the worker's, or was stored. -/
theorem step_outbox (h : step env s a = some s') {key : Key} {body : Bytes}
    (hrow : outboxBody s'.storage key = some body) : BuiltFor P env key body := by
  have hc := step_results h
  generalize s'.storage = st at hc hrow
  cases hc with
  | same results =>
    rw [outboxBody, results] at hrow
    exact hb.rows key body hrow
  | @upsert c q payload body' pc sql =>
    rw [outboxBody_upsert] at hrow
    split_ifs at hrow with hkey
    · cases hrow
      rw [hkey]
      exact hb.worker (q, body) (by rw [pc]; rfl)
    · exact hb.rows key body hrow
  | workerDelete pc sql | retryDelete pc sql =>
    rw [outboxBody_delete] at hrow
    split_ifs at hrow
    exact hb.rows key body hrow
  | bump pc sql =>
    rw [outboxBody_bump] at hrow
    exact hb.rows key body hrow

theorem step_entries (h : step env s a = some s') :
    ∀ entry ∈ retryEntries s'.retry, BuiltFor P env entry.key entry.wireBody := by
  intro entry hentry
  rcases step_retry h with ⟨c, rfl⟩ | hsame | hnone | hsleep
  · rcases (retryStep_entries h).1 entry hentry with hold | hlisted
    · exact hb.retry entry hold
    · exact step_outbox hb h (outboxBody_of_mem_list hlisted)
  · exact hb.retry entry (hsame ▸ hentry)
  · simp [hnone, retryEntries] at hentry
  · simp [hsleep, retryEntries] at hentry

/-- What is put on the wire is the worker's body, or an entry's. -/
theorem step_wire (h : step env s a = some s') (body : Bytes)
    (hw : body ∈ s'.wire.inFlight ∨ body ∈ s'.wire.received) : ∃ key, BuiltFor P env key body := by
  have hwrite : ∀ {key new}, BuiltFor P env key new → (body ∈ (s.wire.write new).inFlight ∨
      body ∈ (s.wire.write new).received) → ∃ key, BuiltFor P env key body := by
    rintro key new hnew (hin | hrec)
    · rcases List.mem_append.mp hin with hin | hin
      · exact hb.wire body (.inl hin)
      · obtain rfl := List.mem_singleton.mp hin
        exact ⟨key, hnew⟩
    · exact hb.wire body (.inr hrec)
  cases step_move h with
  | accept call move => cases move <;> exact hb.wire body hw
  | worker move =>
    cases move with
    | @sent q payload new pc send => exact hwrite (hb.worker (q, new) (by rw [pc]; rfl)) hw
    | @unsent q payload new arrives pc send =>
      cases arrives
      · exact hb.wire body hw
      · exact hwrite (hb.worker (q, new) (by rw [pc]; rfl)) hw
    | _ => exact hb.wire body hw
  | retry move =>
    cases move with
    | @sent entry rest pc send => exact hwrite (hb.retry entry (by rw [pc]; exact .head _)) hw
    | @unsent entry rest arrives pc send =>
      cases arrives
      · exact hb.wire body hw
      · exact hwrite (hb.retry entry (by rw [pc]; exact .head _)) hw
    | _ => exact hb.wire body hw
  | @received i new bytes =>
    rcases hw with hin | hrec
    · exact hb.wire body (.inl (List.mem_of_mem_eraseIdx hin))
    · rcases List.mem_cons.mp hrec with rfl | hrec
      · exact hb.wire body (.inl (List.mem_of_getElem? bytes))
      · exact hb.wire body (.inr hrec)
  | lost bytes => exact hb.wire body (hw.imp List.mem_of_mem_eraseIdx id)
  | _ => exact hb.wire body hw

end

include he hb

theorem step_body (h : step env s a = some s') :
    ∀ x ∈ bodyInHand s'.worker, BuiltFor P env x.1.task.key x.2 := by
  intro x hx
  rcases step_worker h with ⟨c, rfl⟩ | hsame | hnone | hrecv | hpanic
  · exact worker_body he hb (workerStep_move h) x hx
  · exact hb.worker x (hsame ▸ hx)
  · simp [hnone, bodyInHand] at hx
  · simp [hrecv, bodyInHand] at hx
  · simp [hpanic, bodyInHand] at hx

/-- **One step** keeps every body what it was built for. -/
theorem step_bodies (h : step env s a = some s') : Bodies P env s' where
  payload := step_payload hb h
  worker := step_body he hb h
  rows _ _ := step_outbox hb h
  retry := step_entries hb h
  wire := step_wire hb h

end Step

end WqcNode.Application.ResultIntegrity
