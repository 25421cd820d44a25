import WqcNode.Lib.Base64
import WqcNode.Lib.Retry
import WqcNode.Infra.SystemInfo
import WqcNode.Infra.TaskJson
import WqcNode.Domain.OperatorBid
import WqcNode.Transport.StreamIo
import WqcNode.Transport.PcsOpenHandler

/-! # Bids on open calls (`transport/p2p/pcs_open_handler.rs`, `pcs_bid_client.rs`)

Each open-call stream has a task of its own: it verifies the call, asks core for its memory policy,
caches the call if core spills, judges it, and sends a bid up to three times. The tasks run side by
side and beside the outbox, whose builders look the calls up in the cache.

* `open_bids_vouched`: in every run, on any bytes from any peers, what a task tries to send is a bid
  of this node, with its signature, for an open call that was verified and cached; it is one body,
  tried at most three times and never again once it is written.
* `handler_refines`: for the outbox, a run of the tasks is the run in which each of them hands its call
  over, verified, at the step at which it caches it. -/

namespace WqcNode.Transport.PcsBidClient

open WqcNode.Lib WqcNode.Lib.Json WqcNode.Lib.JsonText WqcNode.Lib.Serde WqcNode.Lib.Machine
open WqcNode.Lib.SerdeShape WqcNode.Lib.Retry WqcNode.Lib.Text
open WqcNode.Lib.SerdeValue (FloatCodec)
open WqcNode.Infra WqcNode.Infra.SystemInfo WqcNode.Domain.Models WqcNode.Domain.Pcs
open WqcNode.Domain.PcsSigning WqcNode.Domain.Announcement WqcNode.Domain.OperatorBid
open WqcNode.Transport.StreamIo WqcNode.Transport.PcsRequestHandler WqcNode.Transport.PcsOpenHandler
open WqcNode.Application

/-! ### The source's functions -/

/-- `PROTOCOL_PCS_BID`. -/
def protocolPcsBid : String := "/wqc/tensor-pcs-bid/1.0.0"

/-- `MAX_ATTEMPTS`. -/
def maxAttempts : ℕ := 3

def shouldBidOpenCallAt (config : Config) (corePolicy : PcsMemoryPolicy) (call : PcsOpenCall)
    (nowUnix : Int64) : Bool :=
  if !corePolicy.isSpill then false
  else if call.isExpiredAt nowUnix then false
  else if call.refusesBuilder config.peerId then false
  else if call.leafProofHash = "" || call.subTaskId = "" then false
  else true

def bidOf (call : PcsOpenCall) (nodeId : String) (now : Int64) : PcsBid :=
  ⟨call.subTaskId, nodeId, call.leafProofHash, PcsMemoryPolicy.spill.asStr, now⟩

/-- Builds a signed bid at `now`. -/
def buildSignedPcsBid (ed : Ed25519) (call : PcsOpenCall) (nodeId : String)
    (signingKey : ed.SigningKey) (now : Int64) : PcsBidMessage :=
  let bid := bidOf call nodeId now
  ⟨bid, Base64.encode (ed.sign signingKey (serializePcsBidPayload bid))⟩

/-! ### A bid on the wire -/

def bidFields (bid : PcsBid) : List (String × Option (Document ℤ)) :=
  [("sub_task_id", some (.string bid.subTaskId)), ("node_id", some (.string bid.nodeId)),
    ("leaf_proof_hash", some (.string bid.leafProofHash)),
    ("pcs_memory_policy", some (.string bid.pcsMemoryPolicy)),
    ("issued_at_unix", some (.number bid.issuedAtUnix.toInt))]

def bidMessageFields (m : PcsBidMessage) : List (String × Option (Document ℤ)) :=
  [("bid", some (record (bidFields m.bid))), ("signature", some (.string m.signature))]

def bidMessageToVec (m : PcsBidMessage) : Bytes :=
  toVec (fun i => (Decimal.ofInt i).text) (record (bidMessageFields m))

def pcsBidOf (doc : Document Decimal) : Option PcsBid :=
  match fieldsOnce ["sub_task_id", "node_id", "leaf_proof_hash", "pcs_memory_policy",
    "issued_at_unix"] doc with
  | some [subTaskId, nodeId, leafProofHash, pcsMemoryPolicy, issuedAtUnix] => do
    return ⟨← required textOf subTaskId, ← required textOf nodeId, ← required textOf leafProofHash,
      ← required textOf pcsMemoryPolicy, ← required i64Of issuedAtUnix⟩
  | _ => none

def bidMessageOf (doc : Document Decimal) : Option PcsBidMessage :=
  match fieldsOnce ["bid", "signature"] doc with
  | some [bid, signature] => do
    return ⟨← required pcsBidOf bid, ← required textOf signature⟩
  | _ => none

def bidMessageFromSlice (bytes : Bytes) : Option PcsBidMessage := (fromSlice bytes).bind bidMessageOf

theorem pcsBidOf_record (bid : PcsBid) :
    pcsBidOf ((record (bidFields bid)).map Decimal.ofInt) = some bid := by
  have hfields := fieldsOnce_record
    ((bidFields bid).map fun e => (e.1, e.2.map (Document.map Decimal.ofInt))) (by simp [bidFields])
  rw [map_record, pcsBidOf]
  simp only [bidFields, List.map_cons, List.map_nil, Option.map_some, Document.map] at hfields ⊢
  rw [hfields]
  simp [required, textOf]

/-- A bid is read back. -/
theorem bidMessage_read_back (m : PcsBidMessage) : bidMessageFromSlice (bidMessageToVec m) = some m := by
  have hnum : Numerals (fun i => (Decimal.ofInt i).text) Decimal.ofInt
      (record (bidMessageFields m)).numbers := fun i _ => ⟨rfl, Decimal.ofInt_isJson i⟩
  have hfields := fieldsOnce_record
    ((bidMessageFields m).map fun e => (e.1, e.2.map (Document.map Decimal.ofInt)))
    (by simp [bidMessageFields])
  rw [bidMessageFromSlice, bidMessageToVec, fromSlice_toVec hnum, Option.bind_some, map_record,
    bidMessageOf]
  simp only [bidMessageFields, List.map_cons, List.map_nil, Option.map_some, Document.map]
    at hfields ⊢
  rw [hfields]
  simp [required, textOf, pcsBidOf_record]

/-! ### The tasks -/

structure Client (ed : Ed25519) where
  api : Crypto
  config : Config
  env : PcsMachine.Env
  orchestratorPeerId : String
  coreUrl : String
  floats : FloatCodec
  signingKey : ed.SigningKey

/-- What the world decides in one step of a task. -/
structure Choice where
  sysinfo : Answer := .error "connection refused"
  /-- unix seconds -/
  now : Int64 := 0
  stream : Outcome := .notOpened "peer is not connected"

/-- Where a task of `handle_pcs_open_stream` stands, once the call is verified. -/
inductive Pc
  /-- before core is asked for its policy -/
  | policy
  /-- core spills: before `cache_open_call` has the lock -/
  | cache
  | judge (corePolicy : PcsMemoryPolicy)
  | skipped
  /-- before `build_signed_pcs_bid` -/
  | build
  /-- the bid does not say `spill` -/
  | unfit
  /-- before the attempt with this number -/
  | send (payload : Bytes) (attempt : ℕ)
  | sent (result : Except String Unit)

/-- What `handle_pcs_open_stream` has returned. -/
def Pc.result : Pc → Option (Except String Unit)
  | .skipped => some (.ok ())
  | .unfit => some (.error "pcs open-call bid must declare pcs_memory_policy=spill")
  | .sent result => some result
  | _ => none

structure Task where
  /-- the number of the stream -/
  id : ℕ
  payload : Bytes
  call : PcsOpenCall
  pc : Pc

/-- What a task was told, for what is to be said about runs. -/
inductive Note
  | opened (id : ℕ) (peer : String) (payload : Bytes)
  | answered (id : ℕ) (answer : Answer)
  | judged (id : ℕ) (now : Int64)

/-- The outbox, the tasks, the streams taken so far, what the tasks were told, and the attempts to
send a bid. -/
structure Bidder where
  outbox : PcsMachine.State
  tasks : List Task
  count : ℕ
  history : List Note
  log : List (Attempt Bytes String)

def Bidder.init : Bidder := ⟨PcsMachine.init, [], 0, [], []⟩

inductive Event
  | openStream (peer : String) (payload : Bytes)
  | requestStream (peer : String) (payload : Bytes)
  /-- the next step of the `i`-th task -/
  | task (i : ℕ) (c : Choice)
  | retain (key : Key) (proof : Proof)
  /-- the next step of the outbox's `i`-th thread -/
  | thread (i : ℕ) (c : PcsMachine.Choice)
  | retry (c : PcsMachine.Choice)
  | crash

section Steps

variable {ed : Ed25519} (x : Client ed)

def pcOf (payload : Bytes) : Retry.Pc String → Pc
  | .attempt n => .send payload n
  | .stopped result => .sent result

/-- The attempt the task makes in this step, and where it stands then. -/
def taskStep (t : Task) (c : Choice) : Option (Pc × Option (Attempt Bytes String)) :=
  match t.pc with
  | .policy =>
    let corePolicy := fetchCorePcsMemoryPolicy x.floats x.coreUrl c.sysinfo
    some (if corePolicy.isSpill then .cache else .judge corePolicy, none)
  | .cache => some (.judge .spill, none)
  | .judge corePolicy =>
    some (if shouldBidOpenCallAt x.config corePolicy t.call c.now then .build else .skipped, none)
  | .build =>
    let message := buildSignedPcsBid ed t.call x.config.peerId x.signingKey c.now
    some (if message.bid.isSpillPolicy then .send (bidMessageToVec message) 0 else .unfit, none)
  | .send payload n =>
    let outcome := writeOutboundStream x.orchestratorPeerId protocolPcsBid c.stream
    some (pcOf payload (Retry.next maxAttempts n outcome), some ⟨t.id, payload, outcome⟩)
  | .skipped | .unfit | .sent _ => none

/-- The step of the outbox that a task's step is. -/
def cachingAct (t : Task) : Option PcsMachine.Act :=
  match t.pc with
  | .cache => some (.announce t.call)
  | _ => none

def noteOf (t : Task) (c : Choice) : List Note :=
  match t.pc with
  | .policy => [.answered t.id c.sysinfo]
  | .judge _ => [.judged t.id c.now]
  | _ => []

def actStep (s : Bidder) (a : Option PcsMachine.Act) : Option PcsMachine.State :=
  a.elim (some s.outbox) (PcsMachine.step x.env s.outbox)

def step (s : Bidder) : Event → Option Bidder
  | .openStream peer payload =>
    if peer ≠ x.orchestratorPeerId then some s
    else match handlePcsOpenStream x.api x.config payload with
      | .ok call =>
        some { s with
          tasks := s.tasks ++ [⟨s.count, payload, call, .policy⟩]
          count := s.count + 1
          history := s.history ++ [.opened s.count peer payload] }
      | .error _ => some s
  | .requestStream peer payload =>
    if peer ≠ x.orchestratorPeerId then some s
    else do
      let outbox ← actStep x s (actOf x.api x.config (.requestStream payload))
      return { s with outbox }
  | .task i c => do
    let t ← s.tasks[i]?
    let (pc, attempt) ← taskStep x t c
    let outbox ← actStep x s (cachingAct t)
    return { s with
      outbox
      tasks := s.tasks.set i { t with pc }
      history := s.history ++ noteOf t c
      log := s.log ++ attempt.toList }
  | .retain key proof => do
    let outbox ← actStep x s (some (.retain key proof))
    return { s with outbox }
  | .thread i c => do
    let outbox ← actStep x s (some (.thread i c))
    return { s with outbox }
  | .retry c => do
    let outbox ← actStep x s (some (.retry c))
    return { s with outbox }
  | .crash => do
    let outbox ← actStep x s (some .crash)
    return { s with outbox, tasks := [] }

end Steps

/-! ### What a step can do -/

section Moves

variable {ed : Ed25519} {x : Client ed} {s s' : Bidder} {t : Task} {c : Choice} {pc : Pc}
  {attempt : Option (Attempt Bytes String)} {e : Event} {outbox : PcsMachine.State}

inductive TaskMove (x : Client ed) (t : Task) (c : Choice) : Pc → Option (Attempt Bytes String) → Prop
  | spills (pc : t.pc = .policy)
      (spill : fetchCorePcsMemoryPolicy x.floats x.coreUrl c.sysinfo = .spill) : TaskMove x t c .cache none
  | refuses (pc : t.pc = .policy) : TaskMove x t c (.judge .refuse) none
  | cached (pc : t.pc = .cache) : TaskMove x t c (.judge .spill) none
  | chosen {corePolicy : PcsMemoryPolicy} (pc : t.pc = .judge corePolicy)
      (should : shouldBidOpenCallAt x.config corePolicy t.call c.now = true) : TaskMove x t c .build none
  | skipped {corePolicy : PcsMemoryPolicy} (pc : t.pc = .judge corePolicy) : TaskMove x t c .skipped none
  | built (pc : t.pc = .build) : TaskMove x t c
      (.send (bidMessageToVec (buildSignedPcsBid ed t.call x.config.peerId x.signingKey c.now)) 0) none
  | attempted {payload : Bytes} {n : ℕ} {outcome : Except String Unit} (pc : t.pc = .send payload n)
      (result : writeOutboundStream x.orchestratorPeerId protocolPcsBid c.stream = outcome) :
      TaskMove x t c (pcOf payload (Retry.next maxAttempts n outcome)) (some ⟨t.id, payload, outcome⟩)

/-- The bid that is built always says `spill`. -/
theorem isSpillPolicy_bidOf (call : PcsOpenCall) (nodeId : String) (now : Int64) :
    (bidOf call nodeId now).isSpillPolicy = true := rfl

theorem taskStep_move (h : taskStep x t c = some (pc, attempt)) : TaskMove x t c pc attempt := by
  cases hpc : t.pc with
  | policy =>
    simp only [taskStep, hpc] at h
    cases h
    cases hpolicy : fetchCorePcsMemoryPolicy x.floats x.coreUrl c.sysinfo with
    | spill => exact .spills hpc hpolicy
    | refuse => exact .refuses hpc
  | cache =>
    simp only [taskStep, hpc] at h
    cases h
    exact .cached hpc
  | judge corePolicy =>
    simp only [taskStep, hpc] at h
    cases h
    by_cases hshould : shouldBidOpenCallAt x.config corePolicy t.call c.now = true
    · rw [if_pos hshould]
      exact .chosen hpc hshould
    · rw [if_neg hshould]
      exact .skipped hpc
  | build =>
    simp only [taskStep, hpc, buildSignedPcsBid, isSpillPolicy_bidOf, if_true] at h
    cases h
    exact .built hpc
  | send payload n =>
    simp only [taskStep, hpc] at h
    cases h
    exact .attempted hpc rfl
  | skipped | unfit | sent => simp [taskStep, hpc] at h

/-- The event that is this input of the outbox. -/
def eventOf (x : Client ed) : Input → Option Event
  | .openStream .. => none
  | .requestStream payload => some (.requestStream x.orchestratorPeerId payload)
  | .retain key proof => some (.retain key proof)
  | .thread i c => some (.thread i c)
  | .retry c => some (.retry c)
  | .crash => some .crash

theorem eventOf_openStream {peer : String} {payload : Bytes} (input : Input) :
    eventOf x input ≠ some (.openStream peer payload) := by
  cases input <;> simp [eventOf]

theorem eventOf_task {i : ℕ} (input : Input) : eventOf x input ≠ some (.task i c) := by
  cases input <;> simp [eventOf]

/-- A step of the bidder, with the step of the outbox it makes, if any. -/
inductive Move (x : Client ed) (s : Bidder) : Event → Bidder → Prop
  | ignored {e : Event} (other : ∀ input, eventOf x input ≠ some e) : Move x s e s
  | opened {peer : String} {payload : Bytes} {call : PcsOpenCall}
      (trusted : peer = x.orchestratorPeerId)
      (handled : handlePcsOpenStream x.api x.config payload = .ok call) :
      Move x s (.openStream peer payload) { s with
        tasks := s.tasks ++ [⟨s.count, payload, call, .policy⟩], count := s.count + 1,
        history := s.history ++ [.opened s.count peer payload] }
  | task {i : ℕ} {c : Choice} {t : Task} {pc : Pc} {attempt : Option (Attempt Bytes String)}
      {outbox : PcsMachine.State} (at' : s.tasks[i]? = some t) (move : TaskMove x t c pc attempt)
      (act : actStep x s (cachingAct t) = some outbox) :
      Move x s (.task i c) { s with
        outbox, tasks := s.tasks.set i { t with pc }, history := s.history ++ noteOf t c,
        log := s.log ++ attempt.toList }
  | inner {e : Event} (input : Input) {outbox : PcsMachine.State} (own : eventOf x input = some e)
      (act : actStep x s (actOf x.api x.config input) = some outbox) : Move x s e { s with outbox }
  | crashed {outbox : PcsMachine.State} (act : actStep x s (some .crash) = some outbox) :
      Move x s .crash { s with outbox, tasks := [] }

theorem step_move (h : step x s e = some s') : Move x s e s' := by
  cases e with
  | openStream peer payload =>
    simp only [step] at h
    split_ifs at h with hpeer
    · cases h
      exact .ignored eventOf_openStream
    · cases hhandled : handlePcsOpenStream x.api x.config payload with
      | ok call =>
        rw [hhandled] at h
        cases h
        exact .opened (not_not.mp hpeer) hhandled
      | error _ =>
        rw [hhandled] at h
        cases h
        exact .ignored eventOf_openStream
  | requestStream peer payload =>
    simp only [step] at h
    split_ifs at h with hpeer
    · cases h
      refine .ignored fun input => ?_
      cases input <;> simp [eventOf, Ne.symm hpeer]
    · obtain ⟨outbox, hact, h⟩ := Option.bind_eq_some_iff.mp h
      cases h
      obtain rfl : peer = x.orchestratorPeerId := not_not.mp hpeer
      exact .inner (.requestStream payload) rfl hact
  | task i c =>
    obtain ⟨t, ht, h⟩ := Option.bind_eq_some_iff.mp h
    obtain ⟨⟨pc, attempt⟩, hmove, h⟩ := Option.bind_eq_some_iff.mp h
    obtain ⟨outbox, hact, h⟩ := Option.bind_eq_some_iff.mp h
    cases h
    exact .task ht (taskStep_move hmove) hact
  | retain key proof =>
    simp only [step, Option.bind_eq_bind, Option.bind_eq_some_iff] at h
    obtain ⟨outbox, hact, heq⟩ := h
    cases heq
    exact .inner (.retain key proof) rfl hact
  | thread i c =>
    simp only [step, Option.bind_eq_bind, Option.bind_eq_some_iff] at h
    obtain ⟨outbox, hact, heq⟩ := h
    cases heq
    exact .inner (.thread i c) rfl hact
  | retry c =>
    simp only [step, Option.bind_eq_bind, Option.bind_eq_some_iff] at h
    obtain ⟨outbox, hact, heq⟩ := h
    cases heq
    exact .inner (.retry c) rfl hact
  | crash =>
    simp only [step, Option.bind_eq_bind, Option.bind_eq_some_iff] at h
    obtain ⟨outbox, hact, heq⟩ := h
    cases heq
    exact .crashed hact

end Moves

/-! ### One bid, a few copies -/

section Sends

variable {ed : Ed25519} {x : Client ed} {s s' : Bidder} {t : Task} {c : Choice} {pc : Pc}
  {attempt : Option (Attempt Bytes String)} {e : Event}

/-- What a task is at, as a sender. -/
def Pc.phase : Pc → Phase Bytes String
  | .policy | .cache | .judge _ | .build => .preparing
  | .skipped | .unfit => .dropped
  | .send payload n => .sending payload n
  | .sent result => .sent result

def Bidder.senders (s : Bidder) : List (ℕ × Phase Bytes String) := s.tasks.map fun t => (t.id, t.pc.phase)

/-- The tasks are senders whose attempts are in the log. -/
def Sends (s : Bidder) : Prop := Counted maxAttempts s.senders s.count s.log

theorem phase_pcOf (payload : Bytes) (p : Retry.Pc String) :
    (pcOf payload p).phase = phaseOf payload p := by
  cases p <;> rfl

theorem TaskMove.phaseStep (h : TaskMove x t c pc attempt) :
    PhaseStep maxAttempts t.id t.pc.phase pc.phase attempt := by
  cases h with
  | spills pc | refuses pc | cached pc | chosen pc =>
    rw [pc]
    exact .prepare
  | skipped pc =>
    rw [pc]
    exact .drop
  | built pc =>
    rw [pc]
    exact .begin _
  | attempted pc =>
    rw [pc, phase_pcOf]
    exact .attempt ..

theorem sends_init : Sends Bidder.init := counted_nil

theorem result_ok_iff : pc.result = some (.ok ()) ↔ pc = .skipped ∨ pc.phase = .sent (.ok ()) := by
  cases pc <;> simp [Pc.result, Pc.phase]

theorem step_sends (hs : Sends s) (h : step x s e = some s') : Sends s' := by
  have hcounted : Counted maxAttempts s.senders s.count s.log := hs
  unfold Sends Bidder.senders
  cases step_move h with
  | ignored => exact hcounted
  | opened =>
    rw [List.map_append, List.map_singleton]
    exact hcounted.start
  | @task i c t pc attempt outbox ht move =>
    have hsender : s.senders[i]? = some (t.id, t.pc.phase) := by
      unfold Bidder.senders
      rw [List.getElem?_map, ht]
      rfl
    rw [List.map_set]
    exact hcounted.move (by decide) hsender move.phaseStep
  | inner => exact hcounted
  | crashed => exact hcounted.clear

end Sends

/-! ### What a bid vouches for -/

section Vouched

variable {ed : Ed25519} {x : Client ed} {s s' : Bidder} {t : Task} {c : Choice} {pc : Pc}
  {attempt : Option (Attempt Bytes String)} {e : Event} {call : PcsOpenCall} {i : ℕ}
  {history history' : List Note} {log log' : List PcsMachine.Event} {m : PcsBidMessage}

/-- Core told this task that it spills: it answered, and its policy says so, in letters of either case
and with blanks around them or without. -/
def Spills (x : Client ed) (history : List Note) (i : ℕ) : Prop :=
  ∃ body doc info, .answered i (.ok (some body)) ∈ history ∧
    fromSliceAs coreSystemInfoShape body = some doc ∧ coreSystemInfoOf x.floats doc = some info ∧
    toAsciiLowercase (trim info.pcsMemoryPolicy) = "spill"

/-- This task judged the call: it was not over, and neither refuses this node nor lacks a name. -/
structure Judged (x : Client ed) (history : List Note) (i : ℕ) (call : PcsOpenCall) : Prop where
  open' : ∃ now, .judged i now ∈ history ∧ call.isExpiredAt now = false
  accepts : call.refusesBuilder x.config.peerId = false
  complete : call.leafProofHash ≠ "" ∧ call.subTaskId ≠ ""

/-- The call came on this task's stream from the orchestrator, verified. -/
structure Heard (x : Client ed) (history : List Note) (i : ℕ) (call : PcsOpenCall) : Prop where
  stream : ∃ payload, .opened i x.orchestratorPeerId payload ∈ history ∧
    handlePcsOpenStream x.api x.config payload = .ok call
  verified : ∃ key, x.config.orchestratorPublicKey = some key ∧
    ∃ signature, verifyPcsOpenCallSignature x.api call signature key = .ok ()

/-- The message is a bid for this call, which the node may build for. -/
structure Vouches (x : Client ed) (history : List Note) (log : List PcsMachine.Event) (i : ℕ)
    (call : PcsOpenCall) (m : PcsBidMessage) : Prop where
  heard : Heard x history i call
  spills : Spills x history i
  cached : .announced call ∈ log
  judged : Judged x history i call
  bid : m.bid = bidOf call x.config.peerId m.bid.issuedAtUnix
  signed : ∃ signature, m.signature = Base64.encode signature ∧
    ed.verifyStrict (ed.verifyingKey x.signingKey) (serializePcsBidPayload m.bid) signature = true

theorem Heard.mono (h : Heard x history i call) (hh : history ⊆ history') : Heard x history' i call := by
  obtain ⟨payload, hmem, hhandled⟩ := h.stream
  exact ⟨⟨payload, hh hmem, hhandled⟩, h.verified⟩

theorem Spills.mono (h : Spills x history i) (hh : history ⊆ history') : Spills x history' i := by
  obtain ⟨body, doc, info, hmem, hsays⟩ := h
  exact ⟨body, doc, info, hh hmem, hsays⟩

theorem spills_of_fetch {answer : Answer} (hmem : .answered i answer ∈ history)
    (h : fetchCorePcsMemoryPolicy x.floats x.coreUrl answer = .spill) : Spills x history i := by
  obtain ⟨body, doc, info, rfl, hsays⟩ := spill_of_fetch h
  exact ⟨body, doc, info, hmem, hsays⟩

theorem Judged.mono (h : Judged x history i call) (hh : history ⊆ history') :
    Judged x history' i call := by
  obtain ⟨now, hmem, hopen⟩ := h.open'
  exact ⟨⟨now, hh hmem, hopen⟩, h.accepts, h.complete⟩

theorem Vouches.mono (h : Vouches x history log i call m) (hh : history ⊆ history') (hl : log ⊆ log') :
    Vouches x history' log' i call m :=
  ⟨h.heard.mono hh, h.spills.mono hh, hl h.cached, h.judged.mono hh, h.bid, h.signed⟩

theorem judged_of_should {now : Int64} {corePolicy : PcsMemoryPolicy} (hmem : .judged i now ∈ history)
    (h : shouldBidOpenCallAt x.config corePolicy call now = true) :
    corePolicy = .spill ∧ Judged x history i call := by
  unfold shouldBidOpenCallAt at h
  split_ifs at h with hpolicy hexpired hrefuses hempty
  have hspill : corePolicy = .spill := by
    cases corePolicy with
    | spill => rfl
    | refuse => exact absurd rfl hpolicy
  have hcomplete : call.leafProofHash ≠ "" ∧ call.subTaskId ≠ "" := by simpa using hempty
  exact ⟨hspill, ⟨now, hmem, by simpa using hexpired⟩, by simpa using hrefuses, hcomplete⟩

/-- What is known of a task. -/
def PcInv (x : Client ed) (history : List Note) (log : List PcsMachine.Event) (t : Task) : Pc → Prop
  | .policy | .skipped | .unfit | .sent _ => True
  | .cache => Spills x history t.id
  | .judge corePolicy => corePolicy = .spill → Spills x history t.id ∧ .announced t.call ∈ log
  | .build => Spills x history t.id ∧ .announced t.call ∈ log ∧ Judged x history t.id t.call
  | .send payload _ => ∃ m, payload = bidMessageToVec m ∧ Vouches x history log t.id t.call m

structure TaskInv (x : Client ed) (history : List Note) (log : List PcsMachine.Event) (t : Task) :
    Prop where
  heard : Heard x history t.id t.call
  handled : handlePcsOpenStream x.api x.config t.payload = .ok t.call
  pc : PcInv x history log t t.pc

theorem PcInv.mono (h : PcInv x history log t pc) (hh : history ⊆ history') (hl : log ⊆ log') :
    PcInv x history' log' t pc := by
  cases pc with
  | policy | skipped | unfit | sent => trivial
  | cache => exact Spills.mono h hh
  | judge corePolicy => exact fun hspill => ⟨(h hspill).1.mono hh, hl (h hspill).2⟩
  | build => exact ⟨h.1.mono hh, hl h.2.1, h.2.2.mono hh⟩
  | send payload n =>
    obtain ⟨m, hpayload, hm⟩ := h
    exact ⟨m, hpayload, hm.mono hh hl⟩

theorem TaskInv.mono (h : TaskInv x history log t) (hh : history ⊆ history') (hl : log ⊆ log') :
    TaskInv x history' log' t :=
  ⟨h.heard.mono hh, h.handled, h.pc.mono hh hl⟩

theorem actStep_log {a : Option PcsMachine.Act} {outbox : PcsMachine.State}
    (h : actStep x s a = some outbox) : s.outbox.log ⊆ outbox.log := by
  cases a with
  | none =>
    cases h
    exact List.Subset.refl _
  | some a => exact (PcsMachine.step_log h).subset

/-- A task's step keeps what is known of it. -/
theorem TaskMove.inv (hed : ed.Ideal) (ht : TaskInv x history log t)
    (hh : history ++ noteOf t c ⊆ history')
    (hl : log ⊆ log') (hcached : t.pc = .cache → .announced t.call ∈ log')
    (h : TaskMove x t c pc attempt) : TaskInv x history' log' { t with pc } ∧
      ∀ y ∈ attempt.toList, y.sender = t.id ∧
        ∃ m, y.body = bidMessageToVec m ∧ Vouches x history' log' t.id t.call m := by
  have hmono : history ⊆ history' := fun n hn => hh (List.mem_append_left _ hn)
  have hkeep := ht.mono hmono hl
  have hpc := hkeep.pc
  cases h with
  | spills at' spill =>
    have hnote : .answered t.id c.sysinfo ∈ history' := hh (by simp [noteOf, at'])
    exact ⟨⟨hkeep.heard, hkeep.handled, spills_of_fetch hnote spill⟩, by simp⟩
  | refuses => exact ⟨⟨hkeep.heard, hkeep.handled, fun hspill => by cases hspill⟩, by simp⟩
  | cached at' =>
    rw [at'] at hpc
    exact ⟨⟨hkeep.heard, hkeep.handled, fun _ => ⟨hpc, hcached at'⟩⟩, by simp⟩
  | @chosen corePolicy at' should =>
    rw [at'] at hpc
    have hnote : .judged t.id c.now ∈ history' := hh (by simp [noteOf, at'])
    obtain ⟨hspill, hjudged⟩ := judged_of_should hnote should
    exact ⟨⟨hkeep.heard, hkeep.handled, (hpc hspill).1, (hpc hspill).2, hjudged⟩, by simp⟩
  | skipped => exact ⟨⟨hkeep.heard, hkeep.handled, trivial⟩, by simp⟩
  | built at' =>
    rw [at'] at hpc
    obtain ⟨hspills, hannounced, hjudged⟩ := hpc
    refine ⟨⟨hkeep.heard, hkeep.handled, _, rfl, hkeep.heard, hspills, hannounced, hjudged, rfl, _,
      rfl, ?_⟩, by simp⟩
    exact (hed _ _ _).mpr rfl
  | @attempted payload n outcome at' result =>
    rw [at'] at hpc
    refine ⟨⟨hkeep.heard, hkeep.handled, ?_⟩, fun y hy => ?_⟩
    · cases Retry.next maxAttempts n outcome with
      | attempt k => exact hpc
      | stopped result => trivial
    · obtain rfl : y = ⟨t.id, payload, outcome⟩ := by simpa using hy
      exact ⟨rfl, hpc⟩

/-- Every task and every attempt vouches for its bid. -/
structure AllVouched (x : Client ed) (s : Bidder) : Prop where
  tasks : ∀ t ∈ s.tasks, TaskInv x s.history s.outbox.log t
  log : ∀ y ∈ s.log, ∃ call m, y.body = bidMessageToVec m ∧
    Vouches x s.history s.outbox.log y.sender call m

theorem AllVouched.mono (h : AllVouched x s) (hh : s.history ⊆ history') (hl : s.outbox.log ⊆ log') :
    (∀ t ∈ s.tasks, TaskInv x history' log' t) ∧ ∀ y ∈ s.log, ∃ call m, y.body = bidMessageToVec m ∧
      Vouches x history' log' y.sender call m := by
  refine ⟨fun t ht => (h.tasks t ht).mono hh hl, fun y hy => ?_⟩
  obtain ⟨call, m, hbody, hm⟩ := h.log y hy
  exact ⟨call, m, hbody, hm.mono hh hl⟩

theorem step_vouched (hed : ed.Ideal) (hv : AllVouched x s) (h : step x s e = some s') :
    AllVouched x s' := by
  cases step_move h with
  | ignored => exact hv
  | @opened peer payload call trusted handled =>
    obtain ⟨htasks, hlog⟩ := hv.mono (List.subset_append_left _ _) (List.Subset.refl _)
    refine ⟨fun t ht => ?_, hlog⟩
    rcases List.mem_append.mp ht with ht | ht
    · exact htasks t ht
    · obtain rfl := List.mem_singleton.mp ht
      refine ⟨⟨⟨payload, ?_, handled⟩, verified_of_open handled⟩, handled, trivial⟩
      simp [trusted]
  | @task i c t pc attempt outbox ht move act =>
    have hl := actStep_log act
    obtain ⟨htasks, hlog⟩ := hv.mono (List.subset_append_left _ (noteOf t c)) hl
    have hcached : t.pc = .cache → .announced t.call ∈ outbox.log := by
      intro hpc
      have hannounce : cachingAct t = some (.announce t.call) := by
        unfold cachingAct
        rw [hpc]
      rw [hannounce] at act
      cases act
      exact List.mem_cons_self ..
    obtain ⟨hinv, hattempt⟩ := move.inv hed (hv.tasks t (List.mem_of_getElem? ht))
      (List.Subset.refl _) hl hcached
    refine ⟨fun t' ht' => ?_, fun y hy => ?_⟩
    · rcases List.mem_or_eq_of_mem_set ht' with ht' | rfl
      · exact htasks t' ht'
      · exact hinv
    · rcases List.mem_append.mp hy with hy | hy
      · exact hlog y hy
      · obtain ⟨hsender, m, hbody, hm⟩ := hattempt y hy
        exact ⟨t.call, m, hbody, hsender ▸ hm⟩
  | inner input own act =>
    obtain ⟨htasks, hlog⟩ := hv.mono (List.Subset.refl _) (actStep_log act)
    exact ⟨htasks, hlog⟩
  | crashed act =>
    obtain ⟨-, hlog⟩ := hv.mono (List.Subset.refl _) (actStep_log act)
    exact ⟨by simp, hlog⟩

/-- **Main result.** In every run, on any bytes from any peers, whatever the outbox does and through
any crashes: what a task tries to send is read as a bid of this node, signed with its key, for an open
call that came on the task's stream from the orchestrator, verified; core had told the task that it
spills, the call was cached and then judged, not over, complete and not refusing this node. A task
sends at most three copies of one bid, and none after one that was written; it returns without an error
exactly if it skipped the call or its last copy was written. -/
theorem open_bids_vouched (hed : ed.Ideal) {events : List Event}
    (h : run (step x) Bidder.init events = some s) :
    ((∀ i, Bounded maxAttempts s.log i) ∧ s.log.length ≤ maxAttempts * s.count ∧
        ∀ t ∈ s.tasks, t.pc.result = some (.ok ()) ↔ t.pc = .skipped ∨
          ∃ y, (ofSender s.log t.id).getLast? = some y ∧ y.outcome = .ok ()) ∧
      ∀ y ∈ s.log, ∃ call m, bidMessageFromSlice y.body = some m ∧
        Vouches x s.history s.outbox.log y.sender call m := by
  have hs : Counted maxAttempts s.senders s.count s.log :=
    run_inv (I := Sends) (fun _ _ _ hs h => step_sends hs h) sends_init h
  have hv : AllVouched x s := run_inv (I := AllVouched x) (fun _ _ _ hv h => step_vouched hed hv h)
    ⟨by simp [Bidder.init], by simp [Bidder.init]⟩ h
  refine ⟨⟨hs.bounded, length_le hs.known fun i _ => hs.bounded i, fun t ht => ?_⟩, fun y hy => ?_⟩
  · have hphase : InPhase maxAttempts s.log t.id t.pc.phase :=
      hs.phases (t.id, t.pc.phase) (List.mem_map_of_mem ht)
    rw [result_ok_iff, hphase.ok_iff]
  · obtain ⟨call, m, hbody, hm⟩ := hv.log y hy
    exact ⟨call, m, by rw [hbody, bidMessage_read_back], hm⟩

end Vouched

/-! ### The outbox behind the tasks -/

section Refines

variable {ed : Ed25519} {x : Client ed} {s s' : Bidder} {t : Task} {c : Choice} {pc : Pc}
  {attempt : Option (Attempt Bytes String)} {e : Event} {past : List Event}
  {history history' : List Note} {input : Input}

/-- What the outbox is given in a run: the run's own events as they come and, where a task caches its
call, the stream the call came on. -/
inductive Given (x : Client ed) (history : List Note) : List Event → List Input → Prop
  | nil : Given x history [] []
  | own {past : List Event} {inputs : List Input} {e : Event} {input : Input}
      (given : Given x history past inputs) (own : eventOf x input = some e) :
      Given x history (past ++ [e]) (inputs ++ [input])
  | cached {past : List Event} {inputs : List Input} {i id : ℕ} {c : Choice} {payload : Bytes}
      (given : Given x history past inputs)
      (stream : .opened id x.orchestratorPeerId payload ∈ history) (spills : Spills x history id) :
      Given x history (past ++ [.task i c]) (inputs ++ [.openStream payload true])
  | other {past : List Event} {inputs : List Input} {e : Event} (given : Given x history past inputs)
      (other : ∀ input, eventOf x input ≠ some e) : Given x history (past ++ [e]) inputs

theorem Given.mono {inputs : List Input} (h : Given x history past inputs) (hh : history ⊆ history') :
    Given x history' past inputs := by
  induction h with
  | nil => exact .nil
  | own _ own ih => exact ih.own own
  | cached _ stream spills ih => exact ih.cached (hh stream) (spills.mono hh)
  | other _ other ih => exact ih.other other

/-- The task's stream came from the orchestrator, and it goes to the cache only if core spills. -/
structure Arrived (x : Client ed) (history : List Note) (t : Task) : Prop where
  stream : .opened t.id x.orchestratorPeerId t.payload ∈ history
  handled : handlePcsOpenStream x.api x.config t.payload = .ok t.call
  spills : t.pc = .cache → Spills x history t.id

theorem Arrived.mono (h : Arrived x history t) (hh : history ⊆ history') : Arrived x history' t :=
  ⟨hh h.stream, h.handled, fun hpc => (h.spills hpc).mono hh⟩

theorem TaskMove.arrived (ht : Arrived x history t) (h : TaskMove x t c pc attempt) :
    Arrived x (history ++ noteOf t c) { t with pc } := by
  have hkeep := ht.mono (List.subset_append_left history (noteOf t c))
  refine ⟨hkeep.stream, hkeep.handled, ?_⟩
  show pc = .cache → Spills x (history ++ noteOf t c) t.id
  intro hcache
  cases h with
  | spills at' spill => exact spills_of_fetch (by simp [noteOf, at']) spill
  | refuses | cached | chosen | skipped | built => cases hcache
  | @attempted payload n outcome =>
    cases hnext : Retry.next maxAttempts n outcome with
    | attempt | stopped =>
      rw [hnext] at hcache
      cases hcache

/-- The outbox is where its machine is after what it was given. -/
def OutboxRun (x : Client ed) (past : List Event) (history : List Note) (outbox : PcsMachine.State) :
    Prop :=
  ∃ inputs : List Input, Given x history past inputs ∧ run (PcsMachine.step x.env) PcsMachine.init
    (inputs.filterMap (actOf x.api x.config)) = some outbox

theorem OutboxRun.other {outbox : PcsMachine.State} (h : OutboxRun x past history outbox)
    (he : ∀ input, eventOf x input ≠ some e) (hh : history ⊆ history') :
    OutboxRun x (past ++ [e]) history' outbox := by
  obtain ⟨inputs, hgiven, hrun⟩ := h
  exact ⟨inputs, (hgiven.mono hh).other he, hrun⟩

/-- One more input. -/
theorem run_input {inputs : List Input} {outbox : PcsMachine.State}
    (h : run (PcsMachine.step x.env) PcsMachine.init (inputs.filterMap (actOf x.api x.config)) =
      some s.outbox) (hact : actStep x s (actOf x.api x.config input) = some outbox) :
    run (PcsMachine.step x.env) PcsMachine.init
      ((inputs ++ [input]).filterMap (actOf x.api x.config)) = some outbox := by
  rw [List.filterMap_append, run_append_some]
  refine ⟨s.outbox, h, ?_⟩
  cases ha : actOf x.api x.config input with
  | none =>
    rw [ha] at hact
    rw [List.filterMap_cons_none ha]
    exact hact
  | some a =>
    rw [ha] at hact
    rw [List.filterMap_cons_some ha]
    exact run_cons_some.mpr ⟨outbox, hact, rfl⟩

theorem OutboxRun.own {outbox : PcsMachine.State} (h : OutboxRun x past history s.outbox)
    (hown : eventOf x input = some e) (hact : actStep x s (actOf x.api x.config input) = some outbox) :
    OutboxRun x (past ++ [e]) history outbox := by
  obtain ⟨inputs, hgiven, hrun⟩ := h
  exact ⟨inputs ++ [input], hgiven.own hown, run_input hrun hact⟩

theorem OutboxRun.cached {outbox : PcsMachine.State} {payload : Bytes} {id : ℕ}
    (h : OutboxRun x past history s.outbox) (hh : history ⊆ history')
    (hstream : .opened id x.orchestratorPeerId payload ∈ history') (hspills : Spills x history' id)
    (hact : actStep x s (actOf x.api x.config (.openStream payload true)) = some outbox) :
    OutboxRun x (past ++ [.task i c]) history' outbox := by
  obtain ⟨inputs, hgiven, hrun⟩ := h
  exact ⟨inputs ++ [.openStream payload true], (hgiven.mono hh).cached hstream hspills,
    run_input hrun hact⟩

structure Refines (x : Client ed) (past : List Event) (s : Bidder) : Prop where
  tasks : ∀ t ∈ s.tasks, Arrived x s.history t
  outbox : OutboxRun x past s.history s.outbox

theorem refines_init : Refines x [] Bidder.init := by
  refine ⟨by simp [Bidder.init], [], .nil, rfl⟩

theorem step_refines (hr : Refines x past s) (h : step x s e = some s') :
    Refines x (past ++ [e]) s' := by
  cases step_move h with
  | ignored other => exact ⟨hr.tasks, hr.outbox.other other (List.Subset.refl _)⟩
  | @opened peer payload call trusted handled =>
    have hh := List.subset_append_left s.history [.opened s.count peer payload]
    refine ⟨fun t ht => ?_, hr.outbox.other eventOf_openStream hh⟩
    rcases List.mem_append.mp ht with ht | ht
    · exact (hr.tasks t ht).mono hh
    · obtain rfl := List.mem_singleton.mp ht
      exact ⟨by simp [trusted], handled, by rintro ⟨⟩⟩
  | @task i c t pc attempt outbox at' move act =>
    have hh := List.subset_append_left s.history (noteOf t c)
    have ht := hr.tasks t (List.mem_of_getElem? at')
    refine ⟨fun t' ht' => ?_, ?_⟩
    · rcases List.mem_or_eq_of_mem_set ht' with ht' | rfl
      · exact (hr.tasks t' ht').mono hh
      · exact move.arrived ht
    · by_cases hcache : t.pc = .cache
      · -- the call is cached now; its stream is the input
        have hannounce : cachingAct t = some (.announce t.call) := by
          unfold cachingAct
          rw [hcache]
        rw [hannounce, ← actOf_openStream ht.handled] at act
        exact hr.outbox.cached hh (hh ht.stream) ((ht.spills hcache).mono hh) act
      · have hnone : cachingAct t = none := by
          unfold cachingAct
          split
          · next h => exact absurd h hcache
          · rfl
        rw [hnone] at act
        cases act
        exact hr.outbox.other eventOf_task hh
  | inner input own act => exact ⟨hr.tasks, hr.outbox.own own act⟩
  | crashed act =>
    have hown : eventOf x .crash = some .crash := rfl
    exact ⟨by simp, hr.outbox.own hown act⟩

end Refines

/-! ### A bid on the open call -/

section Sample

/-- Core's answer to `/sysinfo`. -/
def spillingDoc : Document ℤ :=
  record [("system_memory_used_kb", some (.number 1000)), ("system_memory_total_kb", some (.number 4000)),
    ("cpu_usage_percent", some (.number 3)), ("pcs_memory_policy", some (.string " Spill "))]

def spillingCore : Answer := .ok (some (toVec (fun i => (Decimal.ofInt i).text) spillingDoc))

def bidder : Client plainEd where
  api := orchestratorCrypto
  config := builder
  env := builderNode
  orchestratorPeerId := "12D3KooWorch"
  coreUrl := "http://localhost:3000"
  floats := TaskJson.sampleFloats
  signingKey := ()

theorem spillingCore_spills :
    fetchCorePcsMemoryPolicy bidder.floats bidder.coreUrl spillingCore = .spill := by
  have hnum : Numerals (fun i => (Decimal.ofInt i).text) Decimal.ofInt spillingDoc.numbers :=
    fun i _ => ⟨rfl, Decimal.ofInt_isJson i⟩
  have hslice : fromSliceAs coreSystemInfoShape
      (toVec (fun i => (Decimal.ofInt i).text) spillingDoc) = some (spillingDoc.map Decimal.ofInt) :=
    fromSliceAs_of_whole hnum (restrict_flat (by simp))
  have hinfo : ((coreSystemInfoOf bidder.floats (spillingDoc.map Decimal.ofInt)).map
      CoreSystemInfo.policy) = some .spill := by decide +kernel
  obtain ⟨info, hread, hpolicy⟩ := Option.map_eq_some_iff.mp hinfo
  simp only [fetchCorePcsMemoryPolicy, getSystemInfo, spillingCore, Option.bind_some, hslice, hread,
    hpolicy]

/-- A stranger's copy is dropped; the orchestrator sends its call twice, and two tasks cache it and bid
side by side, the first with success at its second attempt, the second at once. -/
def bidEvents : List Event :=
  [.openStream "12D3KooWstranger" (openMessageWire openCallMessage),
    .openStream "12D3KooWorch" (openMessageWire openCallMessage),
    .openStream "12D3KooWorch" (openMessageWire openCallMessage), .task 0 { sysinfo := spillingCore },
    .task 1 { sysinfo := spillingCore }, .task 0 {}, .task 1 {}, .task 0 { now := 1700000200 },
    .task 1 { now := 1700000201 }, .task 0 { now := 1700000202 }, .task 1 { now := 1700000203 },
    .task 0 {}, .task 1 { stream := .answered [] }, .task 0 { stream := .answered [] }]

theorem step_opened {ed : Ed25519} {x : Client ed} {s : Bidder} {payload : Bytes} {call : PcsOpenCall}
    (h : handlePcsOpenStream x.api x.config payload = .ok call) :
    step x s (.openStream x.orchestratorPeerId payload) = some { s with
      tasks := s.tasks ++ [⟨s.count, payload, call, .policy⟩]
      count := s.count + 1
      history := s.history ++ [.opened s.count x.orchestratorPeerId payload] } := by
  simp only [step, ne_eq, not_true_eq_false, if_false, h]

theorem step_spills {ed : Ed25519} {x : Client ed} {s : Bidder} {t : Task} {c : Choice} {i : ℕ}
    (ht : s.tasks[i]? = some t) (hpc : t.pc = .policy)
    (h : fetchCorePcsMemoryPolicy x.floats x.coreUrl c.sysinfo = .spill) :
    step x s (.task i c) = some { s with
      tasks := s.tasks.set i { t with pc := .cache }
      history := s.history ++ [.answered t.id c.sysinfo] } := by
  have hmove : taskStep x t c = some (.cache, none) := by
    simp only [taskStep, hpc, h]
    rfl
  have hact : cachingAct t = none := by
    unfold cachingAct
    rw [hpc]
  have hnote : noteOf t c = [.answered t.id c.sysinfo] := by
    unfold noteOf
    rw [hpc]
  simp only [step, ht, hmove, hact, hnote, actStep, Option.bind_eq_bind, Option.bind_some,
    Option.elim_none, Option.toList_none, List.append_nil]
  rfl

theorem bid_run : ∃ s, run (step bidder) Bidder.init bidEvents = some s ∧
    s.log.map (fun y => (y.sender, y.outcome.toOption)) = [(0, none), (1, some ()), (0, some ())] := by
  have hopen : handlePcsOpenStream bidder.api bidder.config (openMessageWire openCallMessage) =
      .ok openCall := handle_openMessageWire orchestratorCrypto builder rfl openCall_verifies
  refine ⟨_, run_cons_some.mpr ⟨Bidder.init, rfl, run_cons_some.mpr ⟨_, step_opened hopen,
    run_cons_some.mpr ⟨_, step_opened hopen,
      run_cons_some.mpr ⟨_, step_spills rfl rfl spillingCore_spills,
        run_cons_some.mpr ⟨_, step_spills rfl rfl spillingCore_spills,
          run_cons_some.mpr ⟨_, rfl, run_cons_some.mpr ⟨_, rfl, run_cons_some.mpr ⟨_, rfl,
            run_cons_some.mpr ⟨_, rfl, run_cons_some.mpr ⟨_, rfl, run_cons_some.mpr ⟨_, rfl,
              run_cons_some.mpr ⟨_, rfl, run_cons_some.mpr ⟨_, rfl, run_cons_some.mpr ⟨_, rfl,
                rfl⟩⟩⟩⟩⟩⟩⟩⟩⟩⟩⟩⟩⟩⟩, ?_⟩
  decide +kernel

theorem open_bids_vouched_spilling : ∃ s, run (step bidder) Bidder.init bidEvents = some s ∧
    s.log.map (fun y => (y.sender, y.outcome.toOption)) = [(0, none), (1, some ()), (0, some ())] ∧
    Bounded maxAttempts s.log 0 ∧ Bounded maxAttempts s.log 1 ∧
    ∀ y ∈ s.log, ∃ call m, bidMessageFromSlice y.body = some m ∧
      Vouches bidder s.history s.outbox.log y.sender call m := by
  obtain ⟨s, hrun, hlog⟩ := bid_run
  obtain ⟨⟨hbounded, -⟩, hvouches⟩ := open_bids_vouched plainEd_ideal hrun
  exact ⟨s, hrun, hlog, hbounded 0, hbounded 1, hvouches⟩

end Sample

end WqcNode.Transport.PcsBidClient
