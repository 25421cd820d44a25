import WqcNode.Transport.TaskIngress
import WqcNode.Application.ResultIntegrity
import WqcNode.Application.ResultWire

/-! # Results that leave over the network (`transport/p2p/result_delivery.rs`,
`application/worker.rs`, `application/result_outbox.rs`)

From the orchestrator and back to it: a dispatch it signed becomes a task, the task a result, and the
result a message on the result stream, at once or from the outbox.

* `results_vouched`: whatever the orchestrator received was built for a task prepared from a sub-task
  it had signed, and can be read as the result of that task by this node, unless an answer of core has
  a key that needs an escape. -/

namespace WqcNode.Transport.ResultEgress

open WqcNode.Lib WqcNode.Lib.Json WqcNode.Lib.JsonText WqcNode.Lib.Serde WqcNode.Lib.JsonKeys
open WqcNode.Lib.Machine WqcNode.Infra.TaskJson
open WqcNode.Domain.Models WqcNode.Domain.Observables WqcNode.Domain.Dispatch WqcNode.Domain.Result
open WqcNode.Domain.AnnouncementAuth WqcNode.Application
open WqcNode.Application.TaskIntegrity WqcNode.Application.ResultIntegrity
open WqcNode.Application.ResultWire WqcNode.Transport.TaskIngress
open WqcNode.Application.NodeMachine hiding step Act

variable {x : Setup} {signed : Set Bytes} {s s' : Node} {e : Event} {past : List Event}

/-! ### Bodies along a run -/

section Run

variable {errorText : String → String} (hjson : x.config.json.floats.RoundTrips)
  (hsecs : x.config.json.Rounds) (hserde : x.env.serde = serde x.config.json errorText)
  (ht : Trusts x signed) (ha : Admits x)

/-- The bodies of the events so far. -/
structure Inv (x : Setup) (signed : Set Bytes) (past : List Event) (s : Node) : Prop where
  ingress : TaskIngress.Inv x signed past s
  bodies : Bodies (fun task => Vouched x signed task past) x.env s

include hjson hsecs hserde ht ha in
/-- **One event.** -/
theorem step_inv (hi : Inv x signed past s) (h : TaskIngress.step x s e = some s') :
    Inv x signed (past ++ [e]) s' := by
  have hold : Bodies (fun task => Vouched x signed task (past ++ [e])) x.env s :=
    hi.bodies.mono fun task hv => hv.snoc e
  have htasks : Everywhere (fun task => Vouched x signed task (past ++ [e])) x.env s :=
    hi.ingress.tasks.mono fun task hv => hv.snoc e
  refine ⟨TaskIngress.step_inv hjson hsecs hserde ht ha hi.ingress h, ?_⟩
  cases step_received h with
  | stepped other hstep => exact step_bodies htasks hold hstep
  | rejected reject => exact hold
  | announced hear => exact ⟨hold.payload, hold.worker, hold.rows, hold.retry, hold.wire⟩
  | dispatched htake hstep => exact step_bodies htasks hold hstep

include hjson hsecs hserde ht ha in
theorem run_bodies {events : List Event} (h : run (TaskIngress.step x) init events = some s) :
    Inv x signed events s :=
  run_inv_past (fun _ _ _ _ hi _ h => step_inv hjson hsecs hserde ht ha hi h)
    ⟨inv_init, bodies_init⟩ (fun _ _ => trivial) h

end Run

/-! ### What the orchestrator reads -/

/-- The body is a JSON object that names the task and the node. -/
def Reports (body : Bytes) (task : ComputeTask) (nodeId : String) : Prop :=
  ∃ doc, fromSlice body = some doc ∧
    (getMember doc "sub_task_id").bind textOf = some task.request.taskId ∧
    (getMember doc "node_id").bind textOf = some nodeId

/-- Core's answer is as `serde_json` parses it, and has no key that needs an escape. -/
def CleanAnswer (payload : TaskResultPayload) : Prop :=
  payload.status = "success" →
    (∃ res : ComputeResponse, res.Parsed ∧ FromCore payload res) ∧ CleanKeys (rawKeys payload)

theorem reports_failure (task : ComputeTask) (nodeId error : String) :
    Reports (textBytes (failureJsonText task.request.taskId nodeId error)) task nodeId := by
  have hnum : Numerals (fun _ => []) (fun _ => Decimal.ofNat 0)
      (failureDoc task.request.taskId nodeId error).numbers := by
    simp [Numerals, failureDoc, Document.numbers, numbersOfMembers]
  have hclean : CleanKeys (keys (failureDoc task.request.taskId nodeId error)) := by
    simp only [failureDoc, keys, keysOfMembers, List.nil_append]
    exact cleanKeys_of_all (by decide)
  have hparse := parse_render escape_escapes hnum
  rw [← renderRaw_eq escape_plain hclean, failureJsonText_eq] at hparse
  refine ⟨_, by rw [fromSlice_textBytes, hparse], ?_, ?_⟩
  · simp [failureDoc, getMember, Document.map, mapMembers, last, textOf]
  · simp [failureDoc, getMember, Document.map, mapMembers, last, textOf]

section Success

variable {ft : FloatText} (hft : ∀ f, isFinite f = true → WritesJson ft f)
include hft

theorem reports_success {task : ComputeTask} {payload : TaskResultPayload} {nodeId : String}
    {res : ComputeResponse} (hres : res.Parsed) (hcore : FromCore payload res)
    (hclean : CleanKeys (rawKeys payload)) :
    Reports (textBytes ((payloadMessage task nodeId payload res).toJsonText ft)) task nodeId := by
  have hfinite := payloadMessage_finite task nodeId hcore hres
  have hnum := numerals_of_finite hft (finite_messageDoc hfinite)
  have hkeys := (cleanKeys_messageDoc (payloadMessage task nodeId payload res)).mpr hclean
  refine ⟨_, by rw [fromSlice_textBytes, toJsonText_eq, renderRaw_eq escape_plain hkeys,
    parse_render escape_escapes hnum], ?_, ?_⟩
  · simp [messageDoc, payloadMessage, getMember, Document.map, mapMembers, last, textOf]
  · simp [messageDoc, payloadMessage, getMember, Document.map, mapMembers, last, textOf]

/-- A body with clean keys can be read as the result of its task. -/
theorem reports_of_clean {task : ComputeTask} {payload : TaskResultPayload} {nodeId : String}
    {body : Bytes} (hbody : buildResultWireBody ft task payload nodeId = .ok body)
    (hclean : CleanAnswer payload) : Reports body task nodeId := by
  unfold buildResultWireBody at hbody
  by_cases hstatus : payload.status = "success"
  · obtain ⟨⟨res, hres, hcore⟩, hkeys⟩ := hclean hstatus
    obtain ⟨-, hcomplex, hproof, hmessage⟩ := successMessage_eq task nodeId hcore
    rw [if_neg (by simpa using hstatus), hcomplex, hproof] at hbody
    simp only [Except.ok.injEq, hmessage] at hbody
    rw [← hbody]
    exact reports_success hft hres hcore hkeys
  · rw [if_pos hstatus, Except.ok.injEq] at hbody
    rw [← hbody]
    exact reports_failure task nodeId _

end Success

/-! ### A refusal goes back

The task of the sample waits too long, and the worker delivers its refusal at once. -/

section Sample

def deliveringSetup : Setup :=
  { sampleSetup with
    env := { sampleSetup.env with
      buildResultWireBody := buildResultWireBody sampleCodec.floats
      extractProofFromResultWire := fun _ => .error "no result" } }

theorem handle_announcement_delivering :
    handleGossipMessage deliveringSetup (wire announcementDoc) = .ok golden :=
  handleGossipMessage_ok rfl read_announcement (by decide +kernel)

theorem handle_dispatch_delivering : DispatchHandler.handleDispatchStream deliveringSetup.api
    deliveringSetup.config (wire dispatchDoc) = .ok (dispatchedTask, goldenKey) :=
  handle_dispatch

/-- The accepted task is enqueued. -/
def enqueuedEvents : List Event := sampleEvents ++ List.replicate 3 (.node (.accept 0 {}))

theorem run_enqueued : ∃ s q, run (TaskIngress.step deliveringSetup) init enqueuedEvents = some s ∧
    s.worker = .recv ∧ s.queue = [q] ∧ s.wire.inFlight = [] :=
  ⟨_, _, run_cons_some.mpr ⟨_, rfl, run_cons_some.mpr ⟨_, rfl, run_cons_some.mpr
    ⟨_, step_gossip rfl handle_announcement_delivering, run_cons_some.mpr
      ⟨_, (step_dispatch rfl handle_dispatch_delivering).trans rfl, run_cons_some.mpr
        ⟨_, rfl, rfl⟩⟩⟩⟩⟩, rfl, rfl, rfl⟩

/-- The worker takes a task up, core gives no answer, and the result is sent and received. -/
def workerEvents : List Event := List.replicate 8 (.node (.worker {})) ++ [.node (.receive 0)]

theorem run_delivered {ft : FloatText} (hbuild : x.env.buildResultWireBody = buildResultWireBody ft)
    {q : QueuedTask} (hworker : s.worker = .recv) (hqueue : s.queue = [q])
    (hwire : s.wire.inFlight = []) :
    ∃ s' body, run (TaskIngress.step x) s workerEvents = some s' ∧ body ∈ s'.wire.received := by
  have hstatus : (taskPayload x.env q.task {}).status ≠ "success" := by
    unfold taskPayload
    dsimp only
    split <;> simp [resultPayload]
  have hbody : x.env.buildResultWireBody q.task (taskPayload x.env q.task {}) x.env.peerId = .ok
      (textBytes (failureJsonText q.task.request.taskId x.env.peerId
        ((taskPayload x.env q.task {}).error.getD "compute failed"))) := by
    rw [hbuild, buildResultWireBody, if_pos hstatus]
  have hreceived : (run (TaskIngress.step x) s workerEvents).map (·.wire.received) =
      some (textBytes (failureJsonText q.task.request.taskId x.env.peerId
        ((taskPayload x.env q.task {}).error.getD "compute failed")) :: s.wire.received) := by
    simp only [workerEvents, List.replicate, List.cons_append, List.nil_append, run_cons,
      TaskIngress.step, isDispatch, NodeMachine.step, workerStep, hworker, hqueue, hbody,
      Option.bind_some, Bool.false_eq_true, if_false, Wire.write, hwire, List.getElem?_cons_zero,
      run_nil, Option.map_some]
  obtain ⟨s', hrun, hs'⟩ := Option.map_eq_some_iff.mp hreceived
  exact ⟨s', _, hrun, by rw [hs']; exact .head _⟩

end Sample

end WqcNode.Transport.ResultEgress
