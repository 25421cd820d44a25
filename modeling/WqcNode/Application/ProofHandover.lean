import WqcNode.Application.CrashSafety
import WqcNode.Application.PcsReproves
import WqcNode.Application.ResultWire

/-! # The proof on its way from the result to the PCS outbox

A success is stored in `pending_results` with its proof. When it is delivered the row is deleted,
and `retain_after_result` then puts the proof into `pending_pcs`: on the worker's path with the task
it has, on the retry loop's with the task it loads and the proof it takes out of the body. Here the
node and the PCS outbox are one machine, in which a caller of `retain_after_result` goes on when it
returns.

* `proof_kept_iff`: exactly which statements leave an owed proof in neither table.
* `stop_after_delete_loses_proof`: the delete of a delivered row is one, and a stop after it is for
  good. -/

namespace WqcNode.Application.ProofHandover

open WqcNode.Lib WqcNode.Lib.Machine WqcNode.Infra WqcNode.Domain.Models WqcNode.Domain.Pcs
open WqcNode.Domain.Result WqcNode.Domain.Dispatch WqcNode.Domain.Observables
open WqcNode.Application.PcsMachine (jobAt withBundle)
open WqcNode.Application.ResultOutbox (outboxBody outboxBody_upsert outboxBody_delete outboxBody_bump)

/-! ### The machine -/

/-- The node, its PCS outbox, and the threads in which the worker and the retry loop are calling
`retain_after_result`. -/
structure Whole where
  node : NodeMachine.Node
  pcs : PcsMachine.State
  workerCall : Option ℕ
  retryCall : Option ℕ

def init : Whole := ⟨NodeMachine.init, PcsMachine.init, none, none⟩

structure Env where
  node : NodeMachine.Env
  pcs : PcsMachine.Env

inductive Act
  | node (a : NodeMachine.Act)
  | pcs (a : PcsMachine.Act)

/-- The thread is in `retain_after_result`. -/
def isRetaining : PcsMachine.Thread → Bool
  | .retainRead _ _ | .retainWrite _ _ => true
  | _ => false

/-- A call of `retain_after_result` has not returned. -/
def calling (x : Whole) (call : Option ℕ) : Bool :=
  (call.bind fun i => x.pcs.threads[i]?).any isRetaining

/-- The proof of a success. -/
def successProof (payload : TaskResultPayload) : Option Proof :=
  if payload.status = "success" then payload.proof else none

/-- What `retain_after_result` is called with when the worker is to retain, if it is called. -/
def workerRetains : NodeMachine.WorkerPc → Option (Key × Proof)
  | .retain q payload => (successProof payload).map (q.task.key, ·)
  | _ => none

def retryRetains : NodeMachine.RetryPc → Option (Key × Proof)
  | .retain task proof _ => some (task.key, proof)
  | _ => none

/-- The worker's thread is dropped where it stands. -/
def abandon (s : PcsMachine.State) (call : Option ℕ) : PcsMachine.State :=
  match call with
  | none => s
  | some i => { s with threads := s.threads.set i .finished }

section Step

variable (env : Env)

/-- A step of the node in which `retain_after_result` is called, waited for or not involved. -/
def callStep (x : Whole) (a : NodeMachine.Act) (call : Option ℕ) (retains : Option (Key × Proof))
    (setCall : Whole → Option ℕ → Whole) : Option Whole :=
  match call, retains with
  | none, some (key, proof) =>
    (PcsMachine.step env.pcs x.pcs (.retain key proof)).map fun pcs =>
      setCall { x with pcs := pcs } (some x.pcs.threads.length)
  | _, _ =>
    if calling x call then none
    else (NodeMachine.step env.node x.node a).map fun node => setCall { x with node := node } none

def step (x : Whole) : Act → Option Whole
  | .node (.worker c) => callStep env x (.worker c) x.workerCall (workerRetains x.node.worker)
      fun x call => { x with workerCall := call }
  | .node (.retry c) => callStep env x (.retry c) x.retryCall (retryRetains x.node.retry)
      fun x call => { x with retryCall := call }
  | .node .panic =>
    (NodeMachine.step env.node x.node .panic).map fun node => { x with
      node := node
      pcs := if calling x x.workerCall then abandon x.pcs x.workerCall else x.pcs
      workerCall := none }
  | .node .crash => do
    let node ← NodeMachine.step env.node x.node .crash
    let pcs ← PcsMachine.step env.pcs x.pcs .crash
    return ⟨node, pcs, none, none⟩
  | .node a => (NodeMachine.step env.node x.node a).map fun node => { x with node := node }
  -- the node calls `retain_after_result` and stops the process
  | .pcs (.retain _ _) | .pcs .crash => none
  | .pcs a =>
    match x.node.main with
    | .running => (PcsMachine.step env.pcs x.pcs a).map fun pcs => { x with pcs := pcs }
    | _ => none

end Step

/-! ### What a step changes -/

/-- A committed statement on `pending_results`. -/
inductive ResultChange
  | store (key : Key) (payload : TaskResultPayload) (body : Bytes)
  | drop (key : Key)

/-- A committed statement on `pending_pcs`, or an acknowledgement. -/
inductive JobChange
  | store (key : Key) (job : PendingPcsJob)
  | drop (key : Key)
  | dropById (id : ℕ)
  | ack (key : Key)

def nodeChange (s : NodeMachine.Node) : NodeMachine.Act → Option ResultChange
  | .worker c => match s.worker, c.sql with
    | .upsert q payload body, none => some (.store q.task.key payload body)
    | .delete q _ _, none => some (.drop q.task.key)
    | _, _ => none
  | .retry c => match s.retry, c.sql with
    | .delete entry _, none => some (.drop entry.key)
    | _, _ => none
  | _ => none

section Pcs

variable (env : PcsMachine.Env) (s : PcsMachine.State) (c : PcsMachine.Choice)

def upsertChange (key : Key) (job : PendingPcsJob) : Option JobChange :=
  match PcsMachine.storeJob env s key job false c with
  | .ok _ => some (.store key job)
  | .error _ => none

def ackChange (key : Key) (message : PcsMessage) : Option JobChange :=
  match PcsMachine.sendMessage env message c with
  | .ok _ => some (.ack key)
  | .error _ => none

def deliverChange (d : PcsMachine.Deliver) : Option JobChange :=
  match d.pc with
  | .persist pcs => upsertChange env s c d.key (withBundle d.job pcs)
  | .send leafPcsB64 => ackChange env c d.key (PcsMachine.bundleMessage env d.key.2 leafPcsB64)
  | .refuse err =>
    ackChange env c d.key (PcsMachine.refusalMessage env d.key.2 (PcsMachine.pcsRefuseReason err))
  | .delete _ => if c.sql.isNone then some (.drop d.key) else none
  | _ => none

def pcsChange : PcsMachine.Act → Option JobChange
  | .thread i c => match s.threads[i]? with
    | some (.retainWrite key job) | some (.mark key job) | some (.openStore key job) =>
      upsertChange env s c key job
    | some (.deliver d) => deliverChange env s c d
    | _ => none
  | .retry c => match s.retry with
    | .entries now (entry :: _) =>
      if c.sql.isNone && PcsRequests.prunes env now entry then some (.dropById entry.id) else none
    | .deliver _ _ d _ => deliverChange env s c d
    | _ => none
  | _ => none

/-- The job under `key` after the change. -/
def jobAfter (change : Option JobChange) (key : Key) : Option PendingPcsJob :=
  match change with
  | some (.store k job) => if key = k then some job else jobAt env s.storage key
  | some (.drop k) => if key = k then none else jobAt env s.storage key
  | some (.dropById id) =>
    if (s.storage.rows.lookup key).any (·.id = id) then none else jobAt env s.storage key
  | _ => jobAt env s.storage key

end Pcs

/-- The body under `key` after the change. -/
def bodyAfter (s : NodeMachine.Node) (change : Option ResultChange) (key : Key) : Option Bytes :=
  match change with
  | some (.store k _ body) => if key = k then some body else outboxBody s.storage key
  | some (.drop k) => if key = k then none else outboxBody s.storage key
  | _ => outboxBody s.storage key

def resultChange (x : Whole) : Act → Option ResultChange
  | .node a => nodeChange x.node a
  | .pcs _ => none

def jobChange (env : Env) (x : Whole) : Act → Option JobChange
  | .pcs a => pcsChange env.pcs x.pcs a
  | .node _ => none

/-! ### Every step makes its change -/

theorem outboxBody_same {st st' : Storage} (h : st'.pendingResults = st.pendingResults) (key : Key) :
    outboxBody st' key = outboxBody st key := by rw [outboxBody, outboxBody, h]

/-- The steps of the node change `pending_results` by their statements. -/
theorem node_change {env : NodeMachine.Env} {s s' : NodeMachine.Node} {a : NodeMachine.Act}
    (h : NodeMachine.step env s a = some s') (key : Key) :
    outboxBody s'.storage key = bodyAfter s (nodeChange s a) key := by
  cases a with
  | worker c =>
    cases NodeMachine.workerStep_move h with
    | stored pc sql => simp [nodeChange, bodyAfter, pc, sql, outboxBody_upsert]
    | deleted pc sql =>
      simp [nodeChange, bodyAfter, pc, sql, NodeMachine.deleteResult, outboxBody_delete]
    | unstored pc sql | undeleted pc sql => simp [nodeChange, bodyAfter, pc, sql]
    | statusSet pc | deliverStatusSet pc =>
      simp only [nodeChange, bodyAfter, pc]
      cases c.sql <;> rfl
    | taken pc | started pc | computed pc | unbuilt pc | built pc | sent pc | unsent pc
    | retained pc | uncounted pc | released pc => simp [nodeChange, bodyAfter, pc]
  | retry c =>
    cases NodeMachine.retryStep_move h with
    | deleted pc sql =>
      simp [nodeChange, bodyAfter, pc, sql, NodeMachine.deleteResult, outboxBody_delete]
    | undeleted pc sql => simp [nodeChange, bodyAfter, pc, sql]
    | bumped pc sql => simp [nodeChange, bodyAfter, pc, outboxBody_bump]
    | listed pc | unlisted pc | through pc | sent pc | unsent pc | loaded pc | unloaded pc
    | retained pc | unbumped pc => simp [nodeChange, bodyAfter, pc]
  | _ =>
    have hchange := NodeMachine.step_results h
    generalize s'.storage = st at hchange
    cases hchange with
    | same results => exact outboxBody_same results key

section Pcs

variable {env : PcsMachine.Env} {s s' : PcsMachine.State} {c : PcsMachine.Choice}

theorem upsert_change (hserde : env.serde.RoundTrips) {k : Key} {job : PendingPcsJob} {asked : Bool}
    (h : PcsMachine.storeJob env s k job asked c = .ok s') (key : Key) :
    jobAt env s'.storage key = jobAfter env s (upsertChange env s c k job) key := by
  have hstored : upsertChange env s c k job = some (.store k job) := by
    unfold upsertChange
    split
    · rfl
    · rename_i herr
      rw [PcsMachine.storeJob_error herr asked] at h
      cases h
  rw [PcsRequests.jobAt_upsert hserde (PcsMachine.storeJob_ok h).2.1, hstored]
  rfl

theorem deliver_change (hserde : env.serde.RoundTrips) {d d' : PcsMachine.Deliver}
    (h : PcsMachine.deliverStep env s d c = some (s', d')) (key : Key) :
    jobAt env s'.storage key = jobAfter env s (deliverChange env s c d) key := by
  cases hpc : d.pc with
  | persist pcs =>
    simp only [PcsMachine.deliverStep, hpc] at h
    simp only [deliverChange, hpc]
    split at h <;> cases h
    case h_1 e herr =>
      have herr' : PcsMachine.storeJob env s d.key (withBundle d.job pcs) false c = .error e := herr
      simp only [upsertChange, herr', jobAfter]
    case h_2 s₁ hok => exact upsert_change hserde hok key
  | send bundle | refuse err =>
    simp only [PcsMachine.deliverStep, hpc] at h
    rw [deliverChange, hpc]
    simp only [ackChange]
    split at h <;> cases h <;> simp [*, jobAfter, PcsMachine.record]
  | delete refused =>
    simp only [PcsMachine.deliverStep, hpc] at h
    rw [deliverChange, hpc]
    split at h <;> cases h
    · simp [*, jobAfter]
    · simp [*, jobAfter, PcsRequests.jobAt_delete]
  | _ =>
    rw [deliverChange, hpc]
    simp only [PcsMachine.deliverStep, hpc] at h
    repeat' split at h
    all_goals cases h <;> rfl

theorem thread_change (hserde : env.serde.RoundTrips) {i : ℕ} {t t' : PcsMachine.Thread}
    (hget : s.threads[i]? = some t) (h : PcsMachine.threadStep env s c t = some (s', t'))
    (key : Key) :
    jobAt env s'.storage key = jobAfter env s (pcsChange env s (.thread i c)) key := by
  rw [pcsChange, hget]
  cases t with
  | retainWrite k job | mark k job | openStore k job =>
    simp only [PcsMachine.threadStep] at h
    split at h <;> cases h
    · rename_i herr
      simp [upsertChange, PcsMachine.storeJob_error herr false, jobAfter]
    · exact upsert_change hserde ‹_› key
  | deliver d =>
    obtain ⟨⟨s₁, d₁⟩, hd, heq⟩ := Option.map_eq_some_iff.mp h
    cases heq
    exact deliver_change hserde hd key
  | _ =>
    simp only [PcsMachine.threadStep] at h
    repeat' split at h
    all_goals cases h <;> rfl

/-- What the retry loop does with an entry that it does not deliver. -/
theorem entry_change {now : ℤ} {entry : PendingPcs} {rest : List PendingPcs}
    (hpc : s.retry = .entries now (entry :: rest)) (h : PcsMachine.retryStep env s c = some s')
    (key : Key) : jobAt env s'.storage key = jobAfter env s (pcsChange env s (.retry c)) key := by
  simp only [PcsMachine.retryStep, hpc] at h
  simp only [pcsChange, hpc, PcsRequests.prunes]
  split at h
  · cases h
    simp [*, jobAfter]
  · split_ifs at h with hreq hdue <;> cases h
    · simp [*, jobAfter]
    · cases hsql : c.sql with
      | some e => simp [jobAfter]
      | none => simp [*, jobAfter, PcsRequests.jobAt_deleteById]
    · simp [*, jobAfter]

theorem retry_change (hserde : env.serde.RoundTrips) (h : PcsMachine.retryStep env s c = some s')
    (key : Key) : jobAt env s'.storage key = jobAfter env s (pcsChange env s (.retry c)) key := by
  cases hr : s.retry with
  | entries now rest =>
    cases rest with
    | nil =>
      simp only [PcsMachine.retryStep, hr] at h
      cases h
      rw [pcsChange, hr]
      rfl
    | cons entry rest => exact entry_change hr h key
  | bump now entry rest =>
    simp only [PcsMachine.retryStep, hr] at h
    cases h
    rw [pcsChange, hr]
    cases hsql : c.sql with
    | some e => rfl
    | none => exact PcsRequests.jobAt_increment ..
  | sleep =>
    simp only [PcsMachine.retryStep, hr] at h
    cases h
    rw [pcsChange, hr]
    rfl
  | deliver now entry d rest =>
    simp only [PcsMachine.retryStep, hr] at h
    simp only [pcsChange, hr]
    split at h
    · cases h
      simp [deliverChange, *, jobAfter]
    · cases h
      simp [deliverChange, *, jobAfter]
    · obtain ⟨⟨s₁, d₁⟩, hd, heq⟩ := Option.map_eq_some_iff.mp h
      cases heq
      exact deliver_change hserde hd key

theorem pcs_change (hserde : env.serde.RoundTrips) {a : PcsMachine.Act}
    (h : PcsMachine.step env s a = some s') (key : Key) :
    jobAt env s'.storage key = jobAfter env s (pcsChange env s a) key := by
  cases a with
  | retain | request | announce | crash =>
    cases h
    rfl
  | thread i c =>
    obtain ⟨t, t₁, s₁, hget, ht, rfl⟩ := PcsMachine.step_thread h
    exact thread_change hserde hget ht key
  | retry c => exact retry_change hserde h key

end Pcs

section Whole

variable {env : Env} {x x' : Whole} {a : Act}

theorem callStep_change {a : NodeMachine.Act} {call : Option ℕ} {retains : Option (Key × Proof)}
    {setCall : Whole → Option ℕ → Whole} (h : callStep env x a call retains setCall = some x')
    (hset : ∀ x call, (setCall x call).node = x.node ∧ (setCall x call).pcs = x.pcs)
    (hretains : ∀ r, retains = some r → nodeChange x.node a = none) (key : Key) :
    outboxBody x'.node.storage key = bodyAfter x.node (nodeChange x.node a) key ∧
      x'.pcs.storage = x.pcs.storage := by
  simp only [callStep] at h
  split at h
  · obtain ⟨pcs, hpcs, rfl⟩ := Option.map_eq_some_iff.mp h
    cases hpcs
    rw [(hset _ _).1, (hset _ _).2, hretains _ rfl]
    exact ⟨rfl, rfl⟩
  · split_ifs at h
    obtain ⟨node, hnode, rfl⟩ := Option.map_eq_some_iff.mp h
    rw [(hset _ _).1, (hset _ _).2]
    exact ⟨node_change hnode key, rfl⟩

/-- **Every step makes its change** and no other. -/
theorem step_change (hserde : env.pcs.serde.RoundTrips) (h : step env x a = some x') (key : Key) :
    outboxBody x'.node.storage key = bodyAfter x.node (resultChange x a) key ∧
      jobAt env.pcs x'.pcs.storage key = jobAfter env.pcs x.pcs (jobChange env x a) key := by
  cases a with
  | pcs a =>
    have hpcs : ∃ pcs, PcsMachine.step env.pcs x.pcs a = some pcs ∧ x' = { x with pcs := pcs } := by
      cases a with
      | retain | crash => cases h
      | _ =>
        simp only [step] at h
        split at h
        · obtain ⟨pcs, hpcs, rfl⟩ := Option.map_eq_some_iff.mp h
          exact ⟨pcs, hpcs, rfl⟩
        · cases h
    obtain ⟨pcs, hpcs, rfl⟩ := hpcs
    exact ⟨rfl, pcs_change hserde hpcs key⟩
  | node a =>
    suffices outboxBody x'.node.storage key = bodyAfter x.node (nodeChange x.node a) key ∧
        x'.pcs.storage = x.pcs.storage by
      refine ⟨this.1, ?_⟩
      rw [this.2]
      rfl
    cases a with
    | worker c =>
      simp only [step] at h
      refine callStep_change h (fun _ _ => ⟨rfl, rfl⟩) (fun r hr => ?_) key
      cases hw : x.node.worker with
      | retain q payload => simp [nodeChange, hw]
      | _ => simp [workerRetains, hw] at hr
    | retry c =>
      simp only [step] at h
      refine callStep_change h (fun _ _ => ⟨rfl, rfl⟩) (fun r hr => ?_) key
      cases hw : x.node.retry with
      | retain task proof rest => simp [nodeChange, hw]
      | _ => simp [retryRetains, hw] at hr
    | panic =>
      obtain ⟨node, hnode, rfl⟩ := Option.map_eq_some_iff.mp h
      refine ⟨node_change hnode key, ?_⟩
      dsimp only
      split_ifs
      · cases hcall : x.workerCall <;> rfl
      · rfl
    | crash =>
      simp only [step, Option.bind_eq_bind, Option.bind_eq_some_iff] at h
      obtain ⟨node, hnode, pcs, hpcs, heq⟩ := h
      cases heq
      cases hpcs
      exact ⟨node_change hnode key, rfl⟩
    | _ =>
      obtain ⟨node, hnode, rfl⟩ := Option.map_eq_some_iff.mp h
      exact ⟨node_change hnode key, rfl⟩

end Whole

/-! ### Proofs that are owed -/

section Owed

variable (env : Env) (x : Whole)

/-- The retry loop finds the proof in the body. -/
def yields (body : Bytes) (proof : Proof) : Bool :=
  match env.node.extractProofFromResultWire body with
  | .ok (some found) => decide (found = proof)
  | _ => false

def inOutbox (key : Key) (proof : Proof) : Bool :=
  (outboxBody x.node.storage key).any (yields env · proof)

def inPcs (key : Key) (proof : Proof) : Bool :=
  (jobAt env.pcs x.pcs.storage key).any fun job => decide (job.proof = proof)

def recoverable (key : Key) (proof : Proof) : Bool := inOutbox env x key proof || inPcs env x key proof

/-- The row under `key` has the id. -/
def hasId (key : Key) (id : ℕ) : Bool := (x.pcs.storage.rows.lookup key).any (·.id = id)

def requested (key : Key) : Bool := PcsMachine.isRequested env.pcs x.pcs.storage key

/-- The proofs of the successes stored, each until a bundle or a refusal is acknowledged for its
sub-task or its unrequested job is deleted. -/
def owe (owed : Table Key Proof) (x : Whole) (a : Act) (_ : Whole) : Table Key Proof :=
  match resultChange x a, jobChange env x a with
  | some (.store key payload _), _ => match successProof payload with
    | some proof => owed.insert key proof
    | none => owed
  | _, some (.ack key) => owed.erase key
  | _, some (.dropById id) => Table.retain owed fun key _ => !hasId x key id || requested env x key
  | _, _ => owed

/-- The proofs that are owed are recoverable from the database. -/
def ProofsKept (y : Whole × Table Key Proof) : Prop :=
  ∀ key proof, y.2.lookup key = some proof → recoverable env y.1 key proof = true

/-- A committed statement takes no copy of an owed proof that is the only one: a result that is
stored yields the proof, unless a job has it; a result is deleted only if a job has the proof; a job
is stored or deleted, and a requested row is dropped for its age, only if the job stored or the
outbox has it. -/
def keepsProof (y : Whole × Table Key Proof) (a : Act) : Bool :=
  match resultChange y.1 a, jobChange env y.1 a with
  | some (.store key payload body), _ =>
    ((successProof payload).or (y.2.lookup key)).all fun proof =>
      yields env body proof || inPcs env y.1 key proof
  | some (.drop key), _ => (y.2.lookup key).all (inPcs env y.1 key)
  | _, some (.store key job) =>
    (y.2.lookup key).all fun proof => inOutbox env y.1 key proof || decide (job.proof = proof)
  | _, some (.drop key) => (y.2.lookup key).all (inOutbox env y.1 key)
  | _, some (.dropById id) => y.2.entries.all fun e =>
    !hasId y.1 e.1 id || !requested env y.1 e.1 || inOutbox env y.1 e.1 e.2
  | _, _ => true

end Owed

section Kept

variable {env : Env} {x x' : Whole} {a : Act} {owed owed' : Table Key Proof}

theorem recoverable_after (hserde : env.pcs.serde.RoundTrips) (h : step env x a = some x') (key : Key)
    (proof : Proof) : recoverable env x' key proof =
      ((bodyAfter x.node (resultChange x a) key).any (yields env · proof) ||
        (jobAfter env.pcs x.pcs (jobChange env x a) key).any fun job => decide (job.proof = proof)) := by
  obtain ⟨hbody, hjob⟩ := step_change hserde h key
  rw [recoverable, inOutbox, inPcs, hbody, hjob]

/-- A step whose change concerns one key. -/
theorem kept_iff_at (hserde : env.pcs.serde.RoundTrips) (hk : ProofsKept env (x, owed))
    (h : step env x a = some x') (key : Key)
    (howed : ∀ k, k ≠ key → owed'.lookup k = owed.lookup k)
    (hbody : ∀ k, k ≠ key → bodyAfter x.node (resultChange x a) k = outboxBody x.node.storage k)
    (hjob : ∀ k, k ≠ key →
      jobAfter env.pcs x.pcs (jobChange env x a) k = jobAt env.pcs x.pcs.storage k) :
    ProofsKept env (x', owed') ↔ (owed'.lookup key).all (recoverable env x' key) = true := by
  rw [Option.all_eq_true]
  constructor
  · exact fun h proof hproof => h key proof hproof
  · intro hkey k proof hproof
    by_cases heq : k = key
    · subst heq
      exact hkey proof hproof
    · rw [recoverable_after hserde h, hbody k heq, hjob k heq]
      exact hk k proof (howed k heq ▸ hproof)

theorem node_kept_iff (hserde : env.pcs.serde.RoundTrips) (hk : ProofsKept env (x, owed))
    {a : NodeMachine.Act} (h : step env x (.node a) = some x') :
    ProofsKept env (x', owe env owed x (.node a) x') ↔ keepsProof env (x, owed) (.node a) = true := by
  cases hc : nodeChange x.node a with
  | none =>
    simp only [keepsProof, owe, resultChange, jobChange, hc, iff_true]
    intro key proof hproof
    rw [recoverable_after hserde h]
    simp only [resultChange, jobChange, hc, bodyAfter, jobAfter]
    exact hk key proof hproof
  | some ch =>
    cases ch with
    | store key payload body =>
      have howed : ∀ k, (owe env owed x (.node a) x').lookup k =
          if k = key then (successProof payload).or (owed.lookup key) else owed.lookup k := by
        intro k
        simp only [owe, resultChange, jobChange, hc]
        cases successProof payload with
        | none =>
          rw [Option.none_or]
          split_ifs with heq
          · rw [heq]
          · rfl
        | some proof => rw [Table.lookup_insert_if, Option.some_or]
      have hrec : recoverable env x' key = fun proof => yields env body proof || inPcs env x key proof := by
        funext proof
        rw [recoverable_after hserde h]
        simp [resultChange, jobChange, hc, bodyAfter, jobAfter, inPcs]
      rw [kept_iff_at hserde hk h key (fun k hne => by rw [howed, if_neg hne])
        (fun k hne => by simp [resultChange, hc, bodyAfter, hne]) fun _ _ => rfl, howed, if_pos rfl, hrec]
      simp only [keepsProof, resultChange, jobChange, hc]
    | drop key =>
      have hrec : recoverable env x' key = inPcs env x key := by
        funext proof
        rw [recoverable_after hserde h]
        simp [resultChange, jobChange, hc, bodyAfter, jobAfter, inPcs]
      have howed : owe env owed x (.node a) x' = owed := by simp only [owe, resultChange, jobChange, hc]
      rw [howed, kept_iff_at hserde hk h key (fun _ _ => rfl)
        (fun k hne => by simp [resultChange, hc, bodyAfter, hne]) fun _ _ => rfl, hrec]
      simp only [keepsProof, resultChange, jobChange, hc]

/-- A delete by id leaves a proof recoverable from the outbox, or from a job whose row has another
id. -/
theorem recoverable_dropById (hserde : env.pcs.serde.RoundTrips) {a : PcsMachine.Act} {id : ℕ}
    (h : step env x (.pcs a) = some x') (hc : pcsChange env.pcs x.pcs a = some (.dropById id))
    (key : Key) (proof : Proof) : recoverable env x' key proof =
      (inOutbox env x key proof || !hasId x key id && inPcs env x key proof) := by
  rw [recoverable_after hserde h]
  simp only [resultChange, jobChange, hc, bodyAfter, jobAfter, hasId, inOutbox, inPcs]
  cases (x.pcs.storage.rows.lookup key).any (·.id = id) <;> rfl

/-- A delete by id keeps the proofs if the outbox has those of requested rows; the others are no
longer owed. -/
theorem kept_iff_dropById (hserde : env.pcs.serde.RoundTrips) (hk : ProofsKept env (x, owed))
    {a : PcsMachine.Act} {id : ℕ} (h : step env x (.pcs a) = some x')
    (hc : pcsChange env.pcs x.pcs a = some (.dropById id)) :
    ProofsKept env (x', owe env owed x (.pcs a) x') ↔ keepsProof env (x, owed) (.pcs a) = true := by
  have hrec' := recoverable_dropById hserde h hc
  simp only [keepsProof, owe, resultChange, jobChange, hc, List.all_eq_true]
  constructor
  · intro hafter e he
    by_cases hrow : (!hasId x e.1 id || !requested env x e.1) = true
    · simp only [hrow, Bool.true_or]
    · simp only [Bool.or_eq_true, Bool.not_eq_true', not_or, Bool.not_eq_false] at hrow
      have hlookup := (Table.lookup_retain owed (fun key _ =>
        !hasId x key id || requested env x key) e.1).trans
          (congrArg (Option.filter _) (Table.mem_entries.mp he))
      rw [Option.filter_some, if_pos (by simp [hrow])] at hlookup
      have := hafter e.1 e.2 hlookup
      rw [hrec', hrow.1] at this
      simpa using Or.inr this
  · intro hall key proof hproof
    rw [Table.lookup_retain, Option.filter_eq_some_iff] at hproof
    obtain ⟨hproof, hrow⟩ := hproof
    have hrest := hall ⟨key, proof⟩ (Table.mem_entries.mpr hproof)
    rw [hrec']
    cases hid : hasId x key id with
    | false =>
      rw [Bool.not_false, Bool.true_and]
      exact hk key proof hproof
    | true =>
      simp only [hid, Bool.not_true, Bool.false_or] at hrow hrest
      simp only [hrow, Bool.not_true, Bool.false_or] at hrest
      rw [hrest, Bool.true_or]

theorem pcs_kept_iff (hserde : env.pcs.serde.RoundTrips) (hk : ProofsKept env (x, owed))
    {a : PcsMachine.Act} (h : step env x (.pcs a) = some x') :
    ProofsKept env (x', owe env owed x (.pcs a) x') ↔ keepsProof env (x, owed) (.pcs a) = true := by
  have hrec := recoverable_after hserde h
  have hsame : (∀ key, jobAfter env.pcs x.pcs (pcsChange env.pcs x.pcs a) key =
      jobAt env.pcs x.pcs.storage key) → ∀ key proof, owed.lookup key = some proof →
        recoverable env x' key proof = true := by
    intro hjob key proof hproof
    rw [hrec]
    simp only [resultChange, jobChange, bodyAfter, hjob]
    exact hk key proof hproof
  cases hc : pcsChange env.pcs x.pcs a with
  | none =>
    simp only [keepsProof, owe, resultChange, jobChange, hc, iff_true]
    exact hsame fun key => by rw [hc]; rfl
  | some ch =>
    cases ch with
    | store key job =>
      have howed : owe env owed x (.pcs a) x' = owed := by simp only [owe, resultChange, jobChange, hc]
      have hrec' : recoverable env x' key = fun proof =>
          inOutbox env x key proof || decide (job.proof = proof) := by
        funext proof
        rw [hrec]
        simp [resultChange, jobChange, hc, bodyAfter, jobAfter, inOutbox]
      rw [howed, kept_iff_at hserde hk h key (fun _ _ => rfl) (fun _ _ => rfl)
        fun k hne => by simp [jobChange, hc, jobAfter, hne], hrec']
      simp only [keepsProof, resultChange, jobChange, hc]
    | drop key =>
      have howed : owe env owed x (.pcs a) x' = owed := by simp only [owe, resultChange, jobChange, hc]
      have hrec' : recoverable env x' key = inOutbox env x key := by
        funext proof
        rw [hrec]
        simp [resultChange, jobChange, hc, bodyAfter, jobAfter, inOutbox]
      rw [howed, kept_iff_at hserde hk h key (fun _ _ => rfl) (fun _ _ => rfl)
        fun k hne => by simp [jobChange, hc, jobAfter, hne], hrec']
      simp only [keepsProof, resultChange, jobChange, hc]
    | ack key =>
      simp only [keepsProof, owe, resultChange, jobChange, hc, iff_true]
      intro k proof hproof
      rw [Table.lookup_erase_if] at hproof
      split_ifs at hproof
      exact hsame (fun key => by rw [hc]; rfl) k proof hproof
    | dropById id => exact kept_iff_dropById hserde hk h hc

theorem step_kept_iff (hserde : env.pcs.serde.RoundTrips) (hk : ProofsKept env (x, owed))
    (h : step env x a = some x') :
    ProofsKept env (x', owe env owed x a x') ↔ keepsProof env (x, owed) a = true := by
  cases a with
  | node a => exact node_kept_iff hserde hk h
  | pcs a => exact pcs_kept_iff hserde hk h

/-- **Main result.** In every run of the node and its PCS outbox, every proof that is owed is
recoverable from the database in every state passed, if and only if no committed statement takes an
only copy. -/
theorem proof_kept_iff (hserde : env.pcs.serde.RoundTrips) {acts : List Act}
    (h : run (step env) init acts = some x) :
    (∀ before y, before <+: acts →
        run (observe (step env) (owe env)) (init, ∅) before = some y → ProofsKept env y) ↔
      StepsMeet (observe (step env) (owe env)) (fun y a => keepsProof env y a = true)
        (init, ∅) acts := by
  obtain ⟨owed, ho⟩ := run_observe (owe env) h ∅
  refine always_iff_stepsMeet (fun y a y' hk hy => ?_) (fun key proof hproof => ?_) ho
  · obtain ⟨x', hx', rfl⟩ := Option.map_eq_some_iff.mp hy
    exact step_kept_iff hserde hk hx'
  · simp at hproof

end Kept

/-! ### Runs of the concrete node -/

/-- The answer of core to the sub-task's circuit. -/
def successData : TaskResultData where
  resultType := "statevector_scalar"
  complexResult := ⟨half, one⟩
  sampleResult := none
  expectationResult := none
  proof := PcsRequests.subTaskProof
  executionTimeMs := 7
  workReport := none

def wholeA : Env where
  node := { Recovery.nodeA with
    buildResultWireBody := ResultWire.buildResultWireBody sampleCodec.floats
    extractProofFromResultWire := fun body =>
      (ResultWire.extractProofFromResultWire body).elim (.error "expected value") .ok }
  pcs := PcsRequests.nodeA

/-- A task is dispatched, taken up and computed, and the worker is about to store its result. -/
def readyActs : List Act :=
  [.node .start, .node .main, .node (.dispatch (Recovery.emptyRequest "sub-1") "orch" none 0),
    .node (.accept 0 {}), .node (.accept 0 {}), .node (.accept 0 {}), .node (.accept 0 {}),
    .node (.accept 0 {}), .node (.worker {}), .node (.worker {}),
    .node (.worker { core := .ok successData }), .node (.worker {}), .node (.worker {})]

def storedActs : List Act := readyActs ++ [.node (.worker {})]

/-- The result is sent and its row deleted; then the process stops and starts again. -/
def stoppedActs : List Act :=
  storedActs ++ [.node (.worker {}), .node (.worker {}), .node (.worker {}), .node .crash,
    .node .start, .node .main]

def successPayload : TaskResultPayload := NodeMachine.resultPayload "sub-1" (.ok successData)

def successMessage : ResultMessage :=
  ResultWire.successMessage (Recovery.emptyTask Recovery.nodeA "sub-1") successPayload "node-a"
    successData.complexResult successData.proof

def successBody : Bytes := textBytes (successMessage.toJsonText sampleCodec.floats)

theorem extract_of_some {body : Bytes} {proof : Option Proof}
    (h : ResultWire.extractProofFromResultWire body = some proof) :
    wholeA.node.extractProofFromResultWire body = .ok proof := by
  show (ResultWire.extractProofFromResultWire body).elim _ _ = _
  rw [h]
  rfl

theorem extract_successBody :
    wholeA.node.extractProofFromResultWire successBody = .ok (some PcsRequests.subTaskProof) := by
  have hfinite : successMessage.Finite := ⟨by decide, fun x hx => by cases hx⟩
  have hproof := ResultWire.extractProof_success
    (fun f _ => ResultWire.sampleFloats_writesJson f) hfinite JsonKeys.cleanKeys_nil rfl
  exact extract_of_some hproof

theorem yields_of_extract {env : Env} {body : Bytes} {proof : Proof}
    (h : env.node.extractProofFromResultWire body = .ok (some proof)) :
    yields env body proof = true := by
  simp only [yields, h, decide_true]

theorem yields_successBody : yields wholeA successBody PcsRequests.subTaskProof = true :=
  yields_of_extract extract_successBody

/-- The first send fails, the process stops and starts again, and the retry loop sends the result; its
row cannot be deleted the first time, so that the loop retains the proof and finds the row once more. -/
def retriedActs : List Act :=
  storedActs ++ [.node (.worker {}), .node (.worker { send := .err false }), .node .crash, .node .start,
    .node .main, .node (.retry {}), .node (.retry {}), .node (.retry { sql := some "database is locked" }),
    .node (.retry {}), .node (.retry {}), .pcs (.thread 0 {}), .pcs (.thread 0 {}), .node (.retry {}),
    .node (.retry {}), .node (.retry {}), .node (.retry {}), .node (.retry {})]

theorem readyActs_keep : StepsMeet (observe (step wholeA) (owe wholeA))
    (fun y a => keepsProof wholeA y a = true) (init, ∅) readyActs := by
  decide +kernel

theorem keeps_store {x : Whole} {owed : Table Key Proof} {q : NodeMachine.QueuedTask} {body : Bytes}
    (hw : x.node.worker = .upsert q successPayload body)
    (hyields : yields wholeA body PcsRequests.subTaskProof = true) :
    keepsProof wholeA (x, owed) (.node (.worker {})) = true := by
  have hproof : successProof successPayload = some PcsRequests.subTaskProof := rfl
  simp only [keepsProof, resultChange, nodeChange, hw, hproof, Option.some_or, Option.all_some, hyields,
    Bool.true_or]

theorem keeps_drop {env : Env} {x : Whole} {owed : Table Key Proof} {a : Act} {key : Key}
    {job : PendingPcsJob} (hresult : resultChange x a = some (.drop key))
    (howed : owed.lookup key = some job.proof) (hjob : jobAt env.pcs x.pcs.storage key = some job) :
    keepsProof env (x, owed) a = true := by
  simp only [keepsProof, hresult, howed, Option.all_some, inPcs, hjob, Option.any_some, decide_true]

theorem load_sub1 {st : Storage} {row : TaskRow} (hrow : st.tasks.lookup ("orch", "sub-1") = some row)
    (hpayload : row.payload = Recovery.taskJsonHead ++ "sub-1" ++ Recovery.taskJsonTail) :
    st.loadTask wholeA.node.serde ("orch", "sub-1") =
      .ok (some (Recovery.emptyTask Recovery.nodeA "sub-1")) := by
  obtain ⟨text, htext, hread⟩ := Recovery.nodeA_readsBack "sub-1"
  cases htext
  have hserde : wholeA.node.serde.taskFromStr row.payload =
      .ok (Recovery.emptyTask Recovery.nodeA "sub-1") := by
    rw [hpayload]
    exact hread
  rw [Storage.loadTask, hrow]
  simp only [hserde]
  rfl

/-- The retry loop finds the task and the proof. -/
theorem retry_loads {env : Env} {x : Whole} {owed : Table Key Proof} {entry : PendingResult}
    {rest : List PendingResult} {task : ComputeTask} {proof : Proof}
    (hretry : x.node.retry = .load entry rest) (hcall : x.retryCall = none)
    (hload : x.node.storage.loadTask env.node.serde entry.key = .ok (some task))
    (hextract : env.node.extractProofFromResultWire entry.wireBody = .ok (some proof)) :
    observe (step env) (owe env) (x, owed) (.node (.retry {})) =
      some ({ x with node := { x.node with retry := .retain task proof rest } }, owed) := by
  have hchange : nodeChange x.node (.retry {}) = none := by
    simp only [nodeChange, hretry]
  have hnode : NodeMachine.step env.node x.node (.retry {}) =
      some { x.node with retry := .retain task proof rest } := by
    simp only [NodeMachine.step, NodeMachine.retryStep, hretry, hload, hextract, Option.elim_none]
  have hstep : step env x (.node (.retry {})) =
      some { x with node := { x.node with retry := .retain task proof rest } } := by
    simp only [step, callStep, hcall, hretry, retryRetains, calling, hnode, Option.bind_none,
      Option.any_none, Bool.false_eq_true, if_false, Option.map_some]
  have howe : ∀ x', owe env owed x (.node (.retry {})) x' = owed := by
    intro x'
    simp only [owe, resultChange, jobChange, hchange]
  rw [observe, hstep, Option.map_some, howe]

/-- A thread stores the job of an owed proof. -/
theorem thread_stores {env : Env} {x : Whole} {owed : Table Key Proof} (key : Key) (job : PendingPcsJob)
    {st : PcsStorage} (hmain : x.node.main = .running) (hthreads : x.pcs.threads = [.retainWrite key job])
    (hnew : job.requested = false) (hst : x.pcs.storage.upsertPendingPcs env.pcs.serde key job 0 = .ok st)
    (howed : owed.lookup key = some job.proof) :
    keepsProof env (x, owed) (.pcs (.thread 0 {})) = true ∧
      observe (step env) (owe env) (x, owed) (.pcs (.thread 0 {})) =
        some ({ x with pcs := { x.pcs with storage := st, threads := [.finished] } }, owed) := by
  have hstore : PcsMachine.storeJob env.pcs x.pcs key job false {} = .ok { x.pcs with storage := st } := by
    simp only [PcsMachine.storeJob, Option.elim_none, hst, hnew, Bool.false_and, Bool.false_eq_true,
      if_false]
  have hchange : pcsChange env.pcs x.pcs (.thread 0 {}) = some (.store key job) := by
    simp only [pcsChange, hthreads, List.getElem?_cons_zero, upsertChange, hstore]
  have hpcs : PcsMachine.step env.pcs x.pcs (.thread 0 {}) =
      some { x.pcs with storage := st, threads := [.finished] } := by
    have hthread : PcsMachine.threadStep env.pcs x.pcs {} (.retainWrite key job) =
        some ({ x.pcs with storage := st }, .finished) := by
      simp only [PcsMachine.threadStep, hstore, hnew, Bool.false_eq_true, if_false]
    simp only [PcsMachine.step, hthreads, List.getElem?_cons_zero, Option.bind_eq_bind, Option.bind_some,
      hthread]
    rfl
  have hstep : step env x (.pcs (.thread 0 {})) =
      some { x with pcs := { x.pcs with storage := st, threads := [.finished] } } := by
    simp only [step, hmain, hpcs, Option.map_some]
  have howe : ∀ x', owe env owed x (.pcs (.thread 0 {})) x' = owed := by
    intro x'
    simp only [owe, resultChange, jobChange, hchange]
  refine ⟨?_, by rw [observe, hstep, Option.map_some, howe]⟩
  simp only [keepsProof, resultChange, jobChange, hchange, howed, Option.all_some, decide_true,
    Bool.or_true]

theorem stores_retained : ∃ st, PcsStorage.new.upsertPendingPcs wholeA.pcs.serde ("orch", "sub-1")
      PcsRequests.retained 0 = .ok st ∧
    jobAt wholeA.pcs st ("orch", "sub-1") = some PcsRequests.retained := by
  have hany : (PcsStorage.new.upsertPendingPcs wholeA.pcs.serde ("orch", "sub-1")
      PcsRequests.retained 0).toOption.any (fun st =>
        decide (jobAt wholeA.pcs st ("orch", "sub-1") = some PcsRequests.retained)) = true := by
    decide +kernel
  cases hst : PcsStorage.new.upsertPendingPcs wholeA.pcs.serde ("orch", "sub-1") PcsRequests.retained 0 with
  | error e =>
    rw [hst] at hany
    cases hany
  | ok st =>
    rw [hst] at hany
    exact ⟨st, rfl, of_decide_eq_true hany⟩

/-- The database when the result is about to be stored. -/
def readyStorage : Storage :=
  ((run (step wholeA) init readyActs).map (·.node.storage)).getD NodeMachine.init.storage

theorem ready_run : ∃ x q, run (observe (step wholeA) (owe wholeA)) (init, ∅) readyActs = some (x, ∅) ∧
    x.node.worker = .upsert q successPayload successBody ∧
    q.task = Recovery.emptyTask Recovery.nodeA "sub-1" ∧ x.node.storage = readyStorage ∧
    x.node.main = .running ∧ x.pcs = init.pcs ∧ x.workerCall = none ∧ x.retryCall = none :=
  ⟨_, _, rfl, rfl, rfl, rfl, rfl, rfl, rfl, rfl⟩

theorem retried_run : ∃ x owed,
    (run (observe (step wholeA) (owe wholeA)) (init, ∅) retriedActs = some (x, owed) ∧
      StepsMeet (observe (step wholeA) (owe wholeA)) (fun y a => keepsProof wholeA y a = true) (init, ∅)
        retriedActs) ∧
    owed.lookup ("orch", "sub-1") = some PcsRequests.subTaskProof ∧
    outboxBody x.node.storage ("orch", "sub-1") = none := by
  obtain ⟨⟨⟨storage, main, queue, pendingTasks, work, accepts, worker, retry, wire, history⟩, pcs,
    workerCall, retryCall⟩, ⟨row, task⟩, hready, hworker, htask, hstorage, hmain, hpcs, hcall, hcall'⟩ :=
    ready_run
  simp only at hworker htask hstorage hmain hpcs hcall hcall'
  subst hworker htask hstorage hmain hpcs hcall hcall'
  -- the body is only stored, sent and read
  have hextract := extract_successBody
  have hyields := yields_successBody
  generalize successBody = body at hready hextract hyields
  obtain ⟨st, hst, hjob⟩ := stores_retained
  have hacts : retriedActs = readyActs ++ (.node (.worker {}) :: .node (.worker {}) ::
      .node (.worker { send := .err false }) :: retriedActs.drop 16) := rfl
  rw [hacts]
  refine ⟨_, _, run_meets_append hready readyActs_keep (run_meets_cons (keeps_store rfl hyields) rfl
    (run_meets_cons rfl rfl (run_meets_cons rfl rfl (run_meets_cons rfl rfl (run_meets_cons rfl rfl
      (run_meets_cons rfl rfl (run_meets_cons rfl rfl (run_meets_cons rfl rfl (run_meets_cons rfl rfl
        (run_meets_cons rfl (retry_loads rfl rfl (load_sub1 rfl rfl) hextract)
          (run_meets_cons rfl rfl (run_meets_cons rfl rfl
            (run_meets_cons (thread_stores _ PcsRequests.retained rfl rfl rfl hst rfl).1
              (thread_stores _ PcsRequests.retained rfl rfl rfl hst rfl).2
              (run_meets_cons rfl rfl (run_meets_cons rfl rfl (run_meets_cons rfl rfl
                (run_meets_cons rfl rfl (run_meets_cons (keeps_drop rfl rfl hjob) rfl
                  ⟨rfl, trivial⟩)))))))))))))))))), rfl, rfl⟩

theorem proof_kept_iff_stored :
    ∃ x owed, run (observe (step wholeA) (owe wholeA)) (init, ∅) retriedActs = some (x, owed) ∧
      owed.lookup ("orch", "sub-1") = some PcsRequests.subTaskProof ∧
      outboxBody x.node.storage ("orch", "sub-1") = none ∧
      ∀ before y, before <+: retriedActs →
        run (observe (step wholeA) (owe wholeA)) (init, ∅) before = some y →
          ProofsKept wholeA y := by
  obtain ⟨x, owed, ⟨hrun, hkeeps⟩, howed, hgone⟩ := retried_run
  have hx : run (step wholeA) init retriedActs = some x := run_of_observe hrun
  exact ⟨x, owed, hrun, howed, hgone, (proof_kept_iff PcsRequests.nodeA_roundTrips hx).mpr hkeeps⟩

/-- **The process stops after the delete**: the success was sent and its row deleted, no job has the
proof, the task's row is `completed`, and the next start queues nothing. -/
theorem stop_after_delete_loses_proof :
    ∃ x owed, run (observe (step wholeA) (owe wholeA)) (init, ∅) stoppedActs = some (x, owed) ∧
      owed.lookup ("orch", "sub-1") = some PcsRequests.subTaskProof ∧
      outboxBody x.node.storage ("orch", "sub-1") = none ∧
      jobAt wholeA.pcs x.pcs.storage ("orch", "sub-1") = none ∧ x.node.queue.length = 0 ∧
      (x.node.storage.tasks.lookup ("orch", "sub-1")).map (·.status) = some .completed ∧
      ¬ ProofsKept wholeA (x, owed) := by
  have hrun : (run (observe (step wholeA) (owe wholeA)) (init, ∅) stoppedActs).any (fun y =>
      decide (y.2.lookup ("orch", "sub-1") = some PcsRequests.subTaskProof ∧
        outboxBody y.1.node.storage ("orch", "sub-1") = none ∧
        jobAt wholeA.pcs y.1.pcs.storage ("orch", "sub-1") = none ∧ y.1.node.queue.length = 0 ∧
        (y.1.node.storage.tasks.lookup ("orch", "sub-1")).map (·.status) = some .completed)) =
      true := by decide +kernel
  obtain ⟨⟨x, owed⟩, hx, hp⟩ := (Option.any_eq_true _ _).mp hrun
  obtain ⟨howed, hbody, hjob, hqueue, hstatus⟩ := of_decide_eq_true hp
  refine ⟨x, owed, hx, howed, hbody, hjob, hqueue, hstatus, fun hk => ?_⟩
  have hlost := hk _ _ howed
  simp [recoverable, inOutbox, inPcs, hbody, hjob] at hlost

end WqcNode.Application.ProofHandover
