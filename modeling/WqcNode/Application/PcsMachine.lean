import WqcNode.Lib.Machine
import WqcNode.Infra.PcsStorage

/-! # The PCS outbox as a state machine (`application/pcs_outbox.rs`)

`retain_after_result`, the request handlers, the build-and-deliver calls they spawn and the retry
loop are threads over the table `pending_pcs`, the set of sub-tasks in flight and the cache of open
calls. A step is one SQL statement, one access to a shared set or cache, or one await. The process
may stop between any two steps; then only the table survives.

Sources: `application/pcs_outbox.rs`, `application/pcs_open_call.rs`,
`transport/p2p/pcs_delivery.rs`, `infra/cas_client.rs`. -/

namespace WqcNode.Application.PcsMachine

open WqcNode.Lib WqcNode.Lib.Text WqcNode.Infra WqcNode.Domain.Models WqcNode.Domain.Pcs

/-- Configuration and the code the machine is generic in. -/
structure Env where
  peerId : String
  unrequestedTtlSecs : ℤ
  serde : JobSerde
  messageToVec : PcsMessage → Except String Bytes
  sha256Hex : Bytes → String

/-! ### Errors, by their text -/

def isCoreDownError (msg : String) : Bool :=
  contains msg "unhealthy (backoff)" || contains msg "health check failed" ||
    contains msg "Failed to send leaf_pcs request to wqc-core"

/-- The memory gate refuses for good. -/
def isPcsMemoryRefuse (msg : String) : Bool :=
  contains msg "PCS memory:" && contains msg "policy=refuse"

def isCasHashMismatch (msg : String) : Bool := contains msg "CAS leaf proof hash mismatch"

def pcsRefuseReason (msg : String) : String :=
  let line := (lines msg).find? fun l =>
    contains l "PCS memory:" || contains l "CAS leaf proof hash mismatch"
  ((line.map trim).filter (· ≠ "")).getD "PCS memory: refused"

/-- The fetched proof, if its hash is the expected one. -/
def verifyCasBlob (env : Env) (data : Bytes) (expectedHash : String) : Except String Bytes :=
  let got := env.sha256Hex data
  let want := trim expectedHash
  if eqIgnoreAsciiCase got want then .ok data
  else .error s!"CAS leaf proof hash mismatch: got {got} want {want}"

/-! ### Threads -/

inductive DeliverOutcome
  | delivered
  | skippedInFlight
  | skippedCoreDown
  | refusedPermanent
deriving DecidableEq, Repr

/-- Where a `try_build_and_deliver` call stands. -/
inductive DeliverPc
  /-- before `claim_inflight` -/
  | claim
  /-- before the choice between the cached bundle and a build -/
  | choose
  /-- waiting for the proof from the store -/
  | fetch (source : OpenCallPcsSource)
  /-- waiting for core, which proves from the fetched bytes -/
  | proveBytes (source : OpenCallPcsSource) (data : Bytes)
  /-- waiting for core, which proves from the retained proof -/
  | prove
  /-- before the upsert that caches the bundle -/
  | persist (pcs : LeafPcsResponse)
  /-- waiting for the bundle's acknowledgement -/
  | send (leafPcsB64 : String)
  /-- waiting for the refusal's acknowledgement -/
  | refuse (err : String)
  /-- before the delete of the row -/
  | delete (refused : Bool)
  /-- before the cached open call is dropped -/
  | clear (refused : Bool)
  /-- before `release_inflight` -/
  | release (result : Except String DeliverOutcome)
  | done (result : Except String DeliverOutcome)

structure Deliver where
  key : Key
  job : PendingPcsJob
  pc : DeliverPc

/-- A call or spawned task, by where it stands. -/
inductive Thread
  /-- `retain_after_result`, before it reads the row -/
  | retainRead (key : Key) (proof : Proof)
  /-- `retain_after_result`, before its upsert -/
  | retainWrite (key : Key) (job : PendingPcsJob)
  /-- `handle_pcs_request`, before it reads the row -/
  | lookup (key : Key) (attempt : ℕ)
  /-- `handle_pcs_request`, before the upsert that marks the job -/
  | mark (key : Key) (job : PendingPcsJob)
  /-- `handle_open_call_pcs_request`, before it reads the cache -/
  | openLookup (pubkey : String) (request : PcsRequest)
  /-- `handle_open_call_pcs_request`, before its upsert -/
  | openStore (key : Key) (job : PendingPcsJob)
  | deliver (d : Deliver)
  | finished

/-- Where the retry loop stands: in an iteration, with the time it was begun. -/
inductive RetryPc
  | sleep
  | entries (now : ℤ) (rest : List PendingPcs)
  | deliver (now : ℤ) (entry : PendingPcs) (d : Deliver) (rest : List PendingPcs)
  | bump (now : ℤ) (entry : PendingPcs) (rest : List PendingPcs)

/-- What happened so far, for what is to be said about runs. -/
inductive Event
  | announced (call : PcsOpenCall)
  | requested (pubkey : String) (request : PcsRequest)
  /-- a request handler stored a requested job, or the row became requested in another way -/
  | marked (key : Key)
  /-- core was asked to prove -/
  | asked (key : Key) (job : PendingPcsJob)
  /-- core answered with a bundle, built from the fetched bytes if there are any -/
  | built (key : Key) (job : PendingPcsJob) (data : Option Bytes) (pcs : LeafPcsResponse)
  | persisted (key : Key) (pcs : LeafPcsResponse)
  /-- `send_pcs_wire` returned `Ok` -/
  | acked (key : Key) (message : PcsMessage)

structure State where
  storage : PcsStorage
  inFlight : Finset String
  openCallCache : Table String PcsOpenCall
  threads : List Thread
  retry : RetryPc
  log : List Event

/-- The outbox of a node that has never run. -/
def init : State := ⟨.new, ∅, ∅, [], .sleep, []⟩

/-- What the world decides in one step. -/
structure Choice where
  /-- the error the step's statement fails with -/
  sql : Option String := none
  /-- unix seconds -/
  now : ℤ := 0
  inBackoff : Bool := false
  cas : Except String Bytes := .error ""
  core : Except String LeafPcsResponse := .error ""
  /-- the error the send fails with -/
  send : Option String := none

/-! ### Steps -/

/-- The job in the row under `key`, if it can be read. -/
def jobAt (env : Env) (st : PcsStorage) (key : Key) : Option PendingPcsJob :=
  (st.rows.lookup key).bind fun row => (env.serde.fromSlice row.jobJson).toOption

/-- The row under `key` holds a job the orchestrator has asked for. -/
def isRequested (env : Env) (st : PcsStorage) (key : Key) : Bool :=
  (jobAt env st key).any (·.requested)

/-- An upsert of the job, a request handler's if `asked`. -/
def storeJob (env : Env) (s : State) (key : Key) (job : PendingPcsJob) (asked : Bool) (c : Choice) :
    Except String State :=
  match c.sql.elim (s.storage.upsertPendingPcs env.serde key job c.now) .error with
  | .error e => .error e
  | .ok storage => .ok { s with
      storage := storage
      log := if job.requested && (asked || !isRequested env s.storage key) then
          .marked key :: s.log
        else s.log }

def record (s : State) (e : Event) : State := { s with log := e :: s.log }

/-- What an error of an open-call build leads to. -/
def openCallFailed (e : String) : DeliverPc :=
  if isCoreDownError e then .release (.ok .skippedCoreDown)
  else if isPcsMemoryRefuse e || isCasHashMismatch e then .refuse e
  else .release (.error e)

/-- What an error of a build from the retained proof leads to. -/
def proveFailed (e : String) : DeliverPc :=
  if isCoreDownError e then .release (.ok .skippedCoreDown)
  else if isPcsMemoryRefuse e then .refuse e
  else .release (.error e)

def bundleMessage (env : Env) (subTaskId leafPcsB64 : String) : PcsMessage :=
  ⟨subTaskId, env.peerId, leafPcsB64, false, none⟩

def refusalMessage (env : Env) (subTaskId reason : String) : PcsMessage :=
  ⟨subTaskId, env.peerId, "", true, some reason⟩

/-- Builds the wire body and sends it. -/
def sendMessage (env : Env) (message : PcsMessage) (c : Choice) : Except String Unit :=
  match env.messageToVec message with
  | .error e => .error e
  | .ok _ => c.send.elim (.ok ()) .error

def deliverStep (env : Env) (s : State) (d : Deliver) (c : Choice) : Option (State × Deliver) :=
  let goTo (s : State) (pc : DeliverPc) : Option (State × Deliver) := some (s, { d with pc := pc })
  let subTaskId := d.key.2
  match d.pc with
  | .claim =>
    if subTaskId ∈ s.inFlight then goTo s (.done (.ok .skippedInFlight))
    else goTo { s with inFlight := insert subTaskId s.inFlight } .choose
  | .choose =>
    match d.job.leafPcsB64 with
    | some cached => goTo s (.send cached)
    | none =>
      if c.inBackoff then goTo s (.release (.ok .skippedCoreDown))
      else match d.job.openCall with
        | some source => goTo s (.fetch source)
        | none => goTo (record s (.asked d.key d.job)) .prove
  | .fetch source =>
    match c.cas.bind fun data => verifyCasBlob env data source.leafProofHash with
    | .ok data => goTo (record s (.asked d.key d.job)) (.proveBytes source data)
    | .error e => goTo s (openCallFailed e)
  | .proveBytes _ data =>
    match c.core with
    | .ok pcs => goTo (record s (.built d.key d.job (some data) pcs)) (.persist pcs)
    | .error e => goTo s (openCallFailed e)
  | .prove =>
    match c.core with
    | .ok pcs => goTo (record s (.built d.key d.job none pcs)) (.persist pcs)
    | .error e => goTo s (proveFailed e)
  | .persist pcs =>
    let job := { d.job with leafPcsB64 := some pcs.leafPcsB64, leafPcsBytes := some pcs.bytes }
    match storeJob env s d.key job false c with
    | .error e => some (s, { d with job := job, pc := .release (.error e) })
    | .ok s' => some (record s' (.persisted d.key pcs),
        { d with job := job, pc := .send pcs.leafPcsB64 })
  | .send leafPcsB64 =>
    let message := bundleMessage env subTaskId leafPcsB64
    match sendMessage env message c with
    | .error e => goTo s (.release (.error e))
    | .ok () => goTo (record s (.acked d.key message)) (.delete false)
  | .refuse err =>
    let message := refusalMessage env subTaskId (pcsRefuseReason err)
    match sendMessage env message c with
    | .error e => goTo s (.release (.error e))
    | .ok () => goTo (record s (.acked d.key message)) (.delete true)
  | .delete refused =>
    match c.sql with
    | some e => goTo s (.release (.error e))
    | none =>
      goTo { s with storage := s.storage.deletePendingPcs d.key }
        (if refused || d.job.isOpenCall then .clear refused else .release (.ok .delivered))
  | .clear refused =>
    goTo { s with openCallCache := s.openCallCache.erase subTaskId }
      (.release (.ok (if refused then .refusedPermanent else .delivered)))
  | .release result => goTo { s with inFlight := s.inFlight.erase subTaskId } (.done result)
  | .done _ => none

/-- The job `retain_after_result` stores, given what it read. -/
def retainedJob (key : Key) (proof : Proof) (existing : Option PendingPcsJob) : PendingPcsJob :=
  let job : PendingPcsJob := ⟨key.2, proof, false, none, none, none⟩
  match existing with
  | none => job
  | some existing =>
    let job := { job with requested := existing.requested, openCall := existing.openCall }
    if existing.leafPcsB64.isSome then { job with
      leafPcsB64 := existing.leafPcsB64
      leafPcsBytes := existing.leafPcsBytes }
    else job

/-- The attempts to find the retained proof when a request comes before it. -/
def retainedProofLookupAttempts : ℕ := 10

def placeholderProof (subTaskId nodeId sliceId : String) : Proof :=
  ⟨⟨"", subTaskId, nodeId, sliceId, "", "", ""⟩, ""⟩

def cachedOpenCall (s : State) (subTaskId leafProofHash : String) : Option PcsOpenCall :=
  (s.openCallCache.lookup subTaskId).filter fun call =>
    leafProofHash = "" ∨ call.leafProofHash = leafProofHash

/-- The job of a nominated open-call builder. -/
def openCallJob (env : Env) (request : PcsRequest) (call : PcsOpenCall) : PendingPcsJob where
  subTaskId := request.subTaskId
  proof := placeholderProof request.subTaskId env.peerId request.sliceId
  requested := true
  leafPcsB64 := none
  leafPcsBytes := none
  openCall := some ⟨call.leafProofHash, call.casPresignedUrl, call.leafProofBytes,
    if request.sliceId = "" then call.sliceId else request.sliceId⟩

def threadStep (env : Env) (s : State) (c : Choice) : Thread → Option (State × Thread)
  | .retainRead key proof =>
    let existing := c.sql.elim (jobAt env s.storage key) fun _ => none
    some (s, .retainWrite key (retainedJob key proof existing))
  | .retainWrite key job =>
    match storeJob env s key job false c with
    | .error _ => some (s, .finished)
    | .ok s' => some (s', if job.requested then .deliver ⟨key, job, .claim⟩ else .finished)
  | .lookup key attempt =>
    match c.sql, s.storage.getPendingPcs key with
    | some _, _ => some (s, .finished)
    | none, some entry =>
      match env.serde.fromSlice entry.jobJson with
      | .error _ => some (s, .finished)
      | .ok job =>
        if job.requested then some (s, .deliver ⟨key, job, .claim⟩)
        else some (s, .mark key { job with requested := true })
    | none, none =>
      if attempt + 1 < retainedProofLookupAttempts then some (s, .lookup key (attempt + 1))
      else some (s, .finished)
  | .mark key job =>
    match storeJob env s key job true c with
    | .error _ => some (s, .finished)
    | .ok s' => some (s', .deliver ⟨key, job, .claim⟩)
  | .openLookup pubkey request =>
    if request.leafProofHash = "" then some (s, .finished)
    else match cachedOpenCall s request.subTaskId request.leafProofHash with
      | none => some (s, .finished)
      | some call => some (s, .openStore (pubkey, request.subTaskId) (openCallJob env request call))
  | .openStore key job =>
    match storeJob env s key job true c with
    | .error _ => some (s, .finished)
    | .ok s' => some (s', .deliver ⟨key, job, .claim⟩)
  | .deliver d => (deliverStep env s d c).map fun r => (r.1, .deliver r.2)
  | .finished => none

def retryStep (env : Env) (s : State) (c : Choice) : Option State :=
  match s.retry with
  | .sleep => some { s with
      retry := c.sql.elim (.entries c.now s.storage.listPendingPcs) fun _ => .sleep }
  | .entries _ [] => some { s with retry := .sleep }
  | .entries now (entry :: rest) =>
    match env.serde.fromSlice entry.jobJson with
    | .error _ => some { s with retry := .entries now rest }
    | .ok job =>
      if job.requested then
        some { s with retry := .deliver now entry ⟨entry.key, job, .claim⟩ rest }
      else if now - entry.createdAt ≥ env.unrequestedTtlSecs then
        some { s with
          retry := .entries now rest
          storage := c.sql.elim (s.storage.deletePendingPcsById entry.id) fun _ => s.storage }
      else some { s with retry := .entries now rest }
  | .deliver now entry d rest =>
    match d.pc with
    | .done (.error _) => some { s with retry := .bump now entry rest }
    | .done (.ok _) => some { s with retry := .entries now rest }
    | _ => (deliverStep env s d c).map fun r => { r.1 with retry := .deliver now entry r.2 rest }
  | .bump now entry rest => some { s with
      retry := .entries now rest
      storage := c.sql.elim (s.storage.incrementPendingPcsAttempts entry.id) fun _ => s.storage }

inductive Act
  /-- a result was delivered: `retain_after_result` is called -/
  | retain (key : Key) (proof : Proof)
  /-- a request whose signature was verified arrives -/
  | request (pubkey : String) (request : PcsRequest)
  /-- an open call whose signature was verified is cached -/
  | announce (call : PcsOpenCall)
  /-- the next step of the `i`-th thread -/
  | thread (i : ℕ) (c : Choice)
  | retry (c : Choice)
  /-- the process stops and starts again -/
  | crash

def step (env : Env) (s : State) : Act → Option State
  | .retain key proof => some { s with threads := s.threads ++ [.retainRead key proof] }
  | .request pubkey request =>
    some { record s (.requested pubkey request) with
      threads := s.threads ++ [if request.isOpenCall then .openLookup pubkey request
        else .lookup (pubkey, request.subTaskId) 0] }
  | .announce call =>
    some { record s (.announced call) with
      openCallCache := s.openCallCache.insert call.subTaskId call }
  | .thread i c => do
    let t ← s.threads[i]?
    let (s', t') ← threadStep env s c t
    some { s' with threads := s'.threads.set i t' }
  | .retry c => retryStep env s c
  | .crash => some { init with storage := s.storage, log := s.log }

/-! ### The moves of a delivering call -/

/-- The job with the bundle core has built. -/
def withBundle (job : PendingPcsJob) (pcs : LeafPcsResponse) : PendingPcsJob :=
  { job with leafPcsB64 := some pcs.leafPcsB64, leafPcsBytes := some pcs.bytes }

section Moves

variable (env : Env) (s : State) (c : Choice)

/-- The moves of a delivering call, with when each is made and where it leads. -/
inductive DeliverMove (d : Deliver) : State → Deliver → Prop
  | busy (pc : d.pc = .claim) (busy : d.key.2 ∈ s.inFlight) :
      DeliverMove d s { d with pc := .done (.ok .skippedInFlight) }
  | claimed (pc : d.pc = .claim) (free : d.key.2 ∉ s.inFlight) :
      DeliverMove d { s with inFlight := insert d.key.2 s.inFlight } { d with pc := .choose }
  | cached {bundle : String} (pc : d.pc = .choose) (has : d.job.leafPcsB64 = some bundle) :
      DeliverMove d s { d with pc := .send bundle }
  | backoff (pc : d.pc = .choose) (has : d.job.leafPcsB64 = none) :
      DeliverMove d s { d with pc := .release (.ok .skippedCoreDown) }
  | toStore {source : OpenCallPcsSource} (pc : d.pc = .choose) (has : d.job.leafPcsB64 = none)
      (from' : d.job.openCall = some source) : DeliverMove d s { d with pc := .fetch source }
  | asked (pc : d.pc = .choose) (has : d.job.leafPcsB64 = none) (retained : d.job.openCall = none) :
      DeliverMove d (record s (.asked d.key d.job)) { d with pc := .prove }
  | fetched {source : OpenCallPcsSource} {data : Bytes} (pc : d.pc = .fetch source)
      (hash : eqIgnoreAsciiCase (env.sha256Hex data) (trim source.leafProofHash) = true) :
      DeliverMove d (record s (.asked d.key d.job)) { d with pc := .proveBytes source data }
  | built {source : OpenCallPcsSource} {data : Bytes} {pcs : LeafPcsResponse}
      (pc : d.pc = .proveBytes source data) :
      DeliverMove d (record s (.built d.key d.job (some data) pcs)) { d with pc := .persist pcs }
  | proved {pcs : LeafPcsResponse} (pc : d.pc = .prove) :
      DeliverMove d (record s (.built d.key d.job none pcs)) { d with pc := .persist pcs }
  | failed {pc' : DeliverPc} (pc : (∃ source, d.pc = .fetch source) ∨
        (∃ source data, d.pc = .proveBytes source data) ∨ d.pc = .prove)
      (next : (∃ result, pc' = .release result) ∨ ∃ err, pc' = .refuse err) :
      DeliverMove d s { d with pc := pc' }
  | unpersisted {pcs : LeafPcsResponse} {e : String} (pc : d.pc = .persist pcs) :
      DeliverMove d s { d with job := withBundle d.job pcs, pc := .release (.error e) }
  | persisted {pcs : LeafPcsResponse} {s' : State} (pc : d.pc = .persist pcs)
      (store : storeJob env s d.key (withBundle d.job pcs) false c = .ok s') :
      DeliverMove d (record s' (.persisted d.key pcs))
        { d with job := withBundle d.job pcs, pc := .send pcs.leafPcsB64 }
  | unsent {e : String} (pc : (∃ bundle, d.pc = .send bundle) ∨ ∃ err, d.pc = .refuse err) :
      DeliverMove d s { d with pc := .release (.error e) }
  | acked {bundle : String} (pc : d.pc = .send bundle) :
      DeliverMove d (record s (.acked d.key (bundleMessage env d.key.2 bundle)))
        { d with pc := .delete false }
  | refused {err : String} (pc : d.pc = .refuse err) :
      DeliverMove d (record s (.acked d.key (refusalMessage env d.key.2 (pcsRefuseReason err))))
        { d with pc := .delete true }
  | undeleted {refused : Bool} {e : String} (pc : d.pc = .delete refused) :
      DeliverMove d s { d with pc := .release (.error e) }
  | deleted {refused : Bool} {pc' : DeliverPc} (pc : d.pc = .delete refused) (sql : c.sql = none)
      (next : pc' = .clear refused ∨ pc' = .release (.ok .delivered)) :
      DeliverMove d { s with storage := s.storage.deletePendingPcs d.key } { d with pc := pc' }
  | cleared {refused : Bool} {result : Except String DeliverOutcome} (pc : d.pc = .clear refused) :
      DeliverMove d { s with openCallCache := s.openCallCache.erase d.key.2 }
        { d with pc := .release result }
  | released {result : Except String DeliverOutcome} (pc : d.pc = .release result) :
      DeliverMove d { s with inFlight := s.inFlight.erase d.key.2 } { d with pc := .done result }

variable {env s c}

theorem openCallFailed_cases (e : String) :
    (∃ result, openCallFailed e = .release result) ∨ ∃ err, openCallFailed e = .refuse err := by
  unfold openCallFailed
  split_ifs
  · exact .inl ⟨_, rfl⟩
  · exact .inr ⟨_, rfl⟩
  · exact .inl ⟨_, rfl⟩

theorem proveFailed_cases (e : String) :
    (∃ result, proveFailed e = .release result) ∨ ∃ err, proveFailed e = .refuse err := by
  unfold proveFailed
  split_ifs
  · exact .inl ⟨_, rfl⟩
  · exact .inr ⟨_, rfl⟩
  · exact .inl ⟨_, rfl⟩

theorem verifyCasBlob_ok {data data' : Bytes} {hash : String}
    (h : verifyCasBlob env data hash = .ok data') :
    data' = data ∧ eqIgnoreAsciiCase (env.sha256Hex data) (trim hash) = true := by
  simp only [verifyCasBlob] at h
  split_ifs at h with heq
  exact ⟨(Except.ok.inj h).symm, heq⟩

theorem deliverStep_move {d d' : Deliver} {s' : State} (h : deliverStep env s d c = some (s', d')) :
    DeliverMove env s c d s' d' := by
  cases hpc : d.pc with
  | claim =>
    simp only [deliverStep, hpc] at h
    split_ifs at h with hbusy <;> cases h
    · exact .busy hpc hbusy
    · exact .claimed hpc hbusy
  | choose =>
    simp only [deliverStep, hpc] at h
    split at h
    · cases h
      exact .cached hpc ‹_›
    · split_ifs at h
      · cases h
        exact .backoff hpc ‹_›
      · split at h <;> cases h
        · exact .toStore hpc ‹_› ‹_›
        · exact .asked hpc ‹_› ‹_›
  | fetch source =>
    simp only [deliverStep, hpc] at h
    cases hcas : c.cas with
    | error e =>
      simp only [hcas, Except.bind] at h
      cases h
      exact .failed (.inl ⟨_, hpc⟩) (openCallFailed_cases e)
    | ok data =>
      simp only [hcas, Except.bind] at h
      split at h <;> cases h
      · obtain ⟨rfl, hhash⟩ := verifyCasBlob_ok ‹_›
        exact .fetched hpc hhash
      · exact .failed (.inl ⟨_, hpc⟩) (openCallFailed_cases _)
  | proveBytes source data =>
    simp only [deliverStep, hpc] at h
    split at h <;> cases h
    · exact .built hpc
    · exact .failed (.inr (.inl ⟨_, _, hpc⟩)) (openCallFailed_cases _)
  | prove =>
    simp only [deliverStep, hpc] at h
    split at h <;> cases h
    · exact .proved hpc
    · exact .failed (.inr (.inr hpc)) (proveFailed_cases _)
  | persist pcs =>
    simp only [deliverStep, hpc] at h
    split at h <;> cases h
    · exact .unpersisted hpc
    · exact .persisted hpc ‹_›
  | send bundle =>
    simp only [deliverStep, hpc] at h
    split at h <;> cases h
    · exact .unsent (.inl ⟨_, hpc⟩)
    · exact .acked hpc
  | refuse err =>
    simp only [deliverStep, hpc] at h
    split at h <;> cases h
    · exact .unsent (.inr ⟨_, hpc⟩)
    · exact .refused hpc
  | delete refused =>
    simp only [deliverStep, hpc] at h
    split at h <;> cases h
    · exact .undeleted hpc
    · refine .deleted hpc ‹_› ?_
      split_ifs
      · exact .inl rfl
      · exact .inr rfl
  | clear refused =>
    simp only [deliverStep, hpc] at h
    cases h
    exact .cleared hpc
  | release result =>
    simp only [deliverStep, hpc] at h
    cases h
    exact .released hpc
  | done result => simp [deliverStep, hpc] at h

/-- An upsert that goes through stores the job and touches nothing but the log beside. -/
theorem storeJob_ok {key : Key} {job : PendingPcsJob} {asked : Bool} {s' : State}
    (h : storeJob env s key job asked c = .ok s') : c.sql = none ∧
      s.storage.upsertPendingPcs env.serde key job c.now = .ok s'.storage ∧
      s'.inFlight = s.inFlight ∧ s'.openCallCache = s.openCallCache ∧ s'.threads = s.threads ∧
      s'.retry = s.retry ∧ (s'.log = s.log ∨ s'.log = .marked key :: s.log) := by
  cases hsql : c.sql with
  | some e => simp [storeJob, hsql] at h
  | none =>
    simp only [storeJob, hsql, Option.elim] at h
    split at h <;> cases h
    refine ⟨rfl, ‹_›, rfl, rfl, rfl, rfl, ?_⟩
    split_ifs
    · exact .inr rfl
    · exact .inl rfl

/-- Whether an upsert fails does not depend on whose it is. -/
theorem storeJob_error {key : Key} {job : PendingPcsJob} {asked : Bool} {e : String}
    (h : storeJob env s key job asked c = .error e) (asked' : Bool) :
    storeJob env s key job asked' c = .error e := by
  unfold storeJob at h ⊢
  split at h
  · exact h
  · cases h

/-- The moves of a thread. -/
inductive ThreadMove (env : Env) (s : State) (c : Choice) : Thread → State → Thread → Prop
  | read {key : Key} {proof : Proof} {existing : Option PendingPcsJob}
      (read : existing = none ∨ existing = jobAt env s.storage key) :
      ThreadMove env s c (.retainRead key proof) s (.retainWrite key (retainedJob key proof existing))
  | retained {key : Key} {job : PendingPcsJob} {s' : State} {t' : Thread}
      (store : storeJob env s key job false c = .ok s')
      (next : t' = .finished ∨ job.requested = true ∧ t' = .deliver ⟨key, job, .claim⟩) :
      ThreadMove env s c (.retainWrite key job) s' t'
  | marked {key : Key} {job : PendingPcsJob} {s' : State}
      (store : storeJob env s key job true c = .ok s') :
      ThreadMove env s c (.mark key job) s' (.deliver ⟨key, job, .claim⟩)
  | replaced {key : Key} {job : PendingPcsJob} {s' : State}
      (store : storeJob env s key job true c = .ok s') :
      ThreadMove env s c (.openStore key job) s' (.deliver ⟨key, job, .claim⟩)
  | unstored {t : Thread} {key : Key} {job : PendingPcsJob} {asked : Bool} {e : String}
      (at' : t = .retainWrite key job ∨ t = .mark key job ∨ t = .openStore key job)
      (store : storeJob env s key job asked c = .error e) : ThreadMove env s c t s .finished
  | absent {t : Thread} (at' : (∃ key attempt, t = .lookup key attempt) ∨
      ∃ pubkey request, t = .openLookup pubkey request) : ThreadMove env s c t s .finished
  | again {key : Key} {attempt : ℕ} :
      ThreadMove env s c (.lookup key attempt) s (.lookup key (attempt + 1))
  | found {key : Key} {attempt : ℕ} {job : PendingPcsJob} (read : jobAt env s.storage key = some job)
      (requested : job.requested = true) :
      ThreadMove env s c (.lookup key attempt) s (.deliver ⟨key, job, .claim⟩)
  | toMark {key : Key} {attempt : ℕ} {job : PendingPcsJob} (read : jobAt env s.storage key = some job)
      (requested : job.requested = false) :
      ThreadMove env s c (.lookup key attempt) s (.mark key { job with requested := true })
  | toOpen {pubkey : String} {request : PcsRequest} {call : PcsOpenCall}
      (cached : cachedOpenCall s request.subTaskId request.leafProofHash = some call)
      (hash : request.leafProofHash ≠ "") :
      ThreadMove env s c (.openLookup pubkey request) s
        (.openStore (pubkey, request.subTaskId) (openCallJob env request call))
  | deliver {d d' : Deliver} {s' : State} (move : DeliverMove env s c d s' d') :
      ThreadMove env s c (.deliver d) s' (.deliver d')

/-- The moves of the retry loop, each with the place it is made at. -/
inductive RetryMove (env : Env) (s : State) (c : Choice) : RetryPc → State → RetryPc → Prop
  | listed {r : RetryPc} (next : r = .sleep ∨ r = .entries c.now s.storage.listPendingPcs) :
      RetryMove env s c .sleep s r
  | through {now : ℤ} : RetryMove env s c (.entries now []) s .sleep
  | passed {now : ℤ} {entry : PendingPcs} {rest : List PendingPcs} :
      RetryMove env s c (.entries now (entry :: rest)) s (.entries now rest)
  | taken {now : ℤ} {entry : PendingPcs} {rest : List PendingPcs} {job : PendingPcsJob}
      (read : env.serde.fromSlice entry.jobJson = .ok job) (requested : job.requested = true) :
      RetryMove env s c (.entries now (entry :: rest)) s
        (.deliver now entry ⟨entry.key, job, .claim⟩ rest)
  | pruned {now : ℤ} {entry : PendingPcs} {rest : List PendingPcs} {job : PendingPcsJob}
      (sql : c.sql = none) (read : env.serde.fromSlice entry.jobJson = .ok job)
      (requested : job.requested = false) (due : now - entry.createdAt ≥ env.unrequestedTtlSecs) :
      RetryMove env s c (.entries now (entry :: rest))
        { s with storage := s.storage.deletePendingPcsById entry.id } (.entries now rest)
  | deliver {now : ℤ} {entry : PendingPcs} {rest : List PendingPcs} {d d' : Deliver} {s' : State}
      (move : DeliverMove env s c d s' d') :
      RetryMove env s c (.deliver now entry d rest) s' (.deliver now entry d' rest)
  | next {now : ℤ} {entry : PendingPcs} {rest : List PendingPcs} {d : Deliver} {r : RetryPc}
      {result : Except String DeliverOutcome} (pc : d.pc = .done result)
      (next : r = .entries now rest ∨ r = .bump now entry rest) :
      RetryMove env s c (.deliver now entry d rest) s r
  | bumped {now : ℤ} {entry : PendingPcs} {rest : List PendingPcs} :
      RetryMove env s c (.bump now entry rest)
        { s with storage := s.storage.incrementPendingPcsAttempts entry.id } (.entries now rest)
  | unbumped {now : ℤ} {entry : PendingPcs} {rest : List PendingPcs} :
      RetryMove env s c (.bump now entry rest) s (.entries now rest)

theorem threadStep_move {t t' : Thread} {s' : State} (h : threadStep env s c t = some (s', t')) :
    ThreadMove env s c t s' t' := by
  cases t with
  | retainRead key proof =>
    simp only [threadStep] at h
    cases h
    refine .read ?_
    cases c.sql with
    | some e => exact .inl rfl
    | none => exact .inr rfl
  | retainWrite key job =>
    simp only [threadStep] at h
    split at h <;> cases h
    · exact .unstored (.inl rfl) ‹_›
    · refine .retained ‹_› ?_
      split_ifs with hreq
      · exact .inr ⟨hreq, rfl⟩
      · exact .inl rfl
  | lookup key attempt =>
    simp only [threadStep] at h
    split at h
    · cases h
      exact .absent (.inl ⟨_, _, rfl⟩)
    case h_2 entry hget =>
      split at h
      · cases h
        exact .absent (.inl ⟨_, _, rfl⟩)
      case h_2 job hjob =>
        have hread : jobAt env s.storage key = some job := by
          obtain ⟨row, hrow, rfl⟩ := Option.map_eq_some_iff.mp hget
          rw [jobAt, hrow, Option.bind_some, hjob]
          rfl
        split_ifs at h with hreq <;> cases h
        · exact .found hread hreq
        · exact .toMark hread (by simpa using hreq)
    · split_ifs at h <;> cases h
      · exact .again
      · exact .absent (.inl ⟨_, _, rfl⟩)
  | mark key job =>
    simp only [threadStep] at h
    split at h <;> cases h
    · exact .unstored (.inr (.inl rfl)) ‹_›
    · exact .marked ‹_›
  | openLookup pubkey request =>
    simp only [threadStep] at h
    split_ifs at h with hhash
    · cases h
      exact .absent (.inr ⟨_, _, rfl⟩)
    · split at h <;> cases h
      · exact .absent (.inr ⟨_, _, rfl⟩)
      · exact .toOpen ‹_› hhash
  | openStore key job =>
    simp only [threadStep] at h
    split at h <;> cases h
    · exact .unstored (.inr (.inr rfl)) ‹_›
    · exact .replaced ‹_›
  | deliver d =>
    obtain ⟨⟨s₁, d₁⟩, hd, heq⟩ := Option.map_eq_some_iff.mp h
    cases heq
    exact .deliver (deliverStep_move hd)
  | finished => cases h

theorem step_thread {i : ℕ} {s' : State} (h : step env s (.thread i c) = some s') :
    ∃ t t' s₁, s.threads[i]? = some t ∧ threadStep env s c t = some (s₁, t') ∧
      s' = { s₁ with threads := s₁.threads.set i t' } := by
  simp only [step, Option.bind_eq_bind, Option.bind_eq_some_iff] at h
  obtain ⟨t, hget, ⟨s₁, t'⟩, ht, heq⟩ := h
  exact ⟨t, t', s₁, hget, ht, (Option.some.inj heq).symm⟩

/-- A delivering call leaves the threads and the retry loop alone. -/
theorem DeliverMove.frame {d d' : Deliver} {s' : State} (h : DeliverMove env s c d s' d') :
    s'.threads = s.threads ∧ s'.retry = s.retry ∧ d'.key = d.key := by
  cases h with
  | persisted pc store =>
    obtain ⟨-, -, -, -, hthreads, hretry, -⟩ := storeJob_ok store
    exact ⟨hthreads, hretry, rfl⟩
  | _ => exact ⟨rfl, rfl, rfl⟩

theorem DeliverMove.not_done {d d' : Deliver} {s' : State} (h : DeliverMove env s c d s' d')
    (result : Except String DeliverOutcome) : d.pc ≠ .done result := by
  cases h with
  | failed pc => rcases pc with ⟨source, pc⟩ | ⟨source, data, pc⟩ | pc <;> simp [pc]
  | unsent pc => rcases pc with ⟨bundle, pc⟩ | ⟨err, pc⟩ <;> simp [pc]
  | busy pc | claimed pc | cached pc | backoff pc | toStore pc | asked pc | fetched pc | built pc
  | proved pc | unpersisted pc | persisted pc | acked pc | refused pc | undeleted pc | deleted pc
  | cleared pc | released pc => simp [pc]

theorem ThreadMove.frame {t t' : Thread} {s' : State} (h : ThreadMove env s c t s' t') :
    s'.threads = s.threads ∧ s'.retry = s.retry := by
  cases h with
  | retained store | marked store | replaced store =>
    obtain ⟨-, -, -, -, hthreads, hretry, -⟩ := storeJob_ok store
    exact ⟨hthreads, hretry⟩
  | deliver move => exact ⟨move.frame.1, move.frame.2.1⟩
  | _ => exact ⟨rfl, rfl⟩

/-- A step of the retry loop makes one of its moves. -/
theorem retryStep_move {s' : State} (h : retryStep env s c = some s') :
    ∃ s₁, RetryMove env s c s.retry s₁ s'.retry ∧ s' = { s₁ with retry := s'.retry } ∧
      s₁.threads = s.threads := by
  cases hpc : s.retry with
  | sleep =>
    simp only [retryStep, hpc] at h
    cases h
    refine ⟨s, .listed ?_, rfl, rfl⟩
    cases c.sql with
    | some e => exact .inl rfl
    | none => exact .inr rfl
  | entries now rest =>
    cases rest with
    | nil =>
      simp only [retryStep, hpc] at h
      cases h
      exact ⟨s, .through, rfl, rfl⟩
    | cons entry rest =>
      simp only [retryStep, hpc] at h
      split at h
      · cases h
        exact ⟨s, .passed, rfl, rfl⟩
      case h_2 job hjob =>
        split_ifs at h with hreq hdue <;> cases h
        · exact ⟨s, .taken hjob hreq, rfl, rfl⟩
        · cases hsql : c.sql with
          | some e => exact ⟨s, .passed, rfl, rfl⟩
          | none => exact ⟨_, .pruned hsql hjob (by simpa using hreq) hdue, rfl, rfl⟩
        · exact ⟨s, .passed, rfl, rfl⟩
  | deliver now entry d rest =>
    simp only [retryStep, hpc] at h
    split at h
    · cases h
      exact ⟨s, .next ‹_› (.inr rfl), rfl, rfl⟩
    · cases h
      exact ⟨s, .next ‹_› (.inl rfl), rfl, rfl⟩
    · obtain ⟨⟨s₁, d₁⟩, hd, heq⟩ := Option.map_eq_some_iff.mp h
      cases heq
      have hmove := deliverStep_move hd
      exact ⟨s₁, .deliver hmove, rfl, hmove.frame.1⟩
  | bump now entry rest =>
    simp only [retryStep, hpc] at h
    cases h
    cases c.sql with
    | some e => exact ⟨s, .unbumped, rfl, rfl⟩
    | none => exact ⟨_, .bumped, rfl, rfl⟩

/-! ### The log only grows -/

theorem storeJob_log {key : Key} {job : PendingPcsJob} {asked : Bool} {s' : State}
    (h : storeJob env s key job asked c = .ok s') : s.log <:+ s'.log := by
  obtain ⟨-, -, -, -, -, -, hlog⟩ := storeJob_ok h
  rcases hlog with hlog | hlog
  · rw [hlog]
  · rw [hlog]
    exact List.suffix_cons _ _

theorem DeliverMove.log {d d' : Deliver} {s' : State} (h : DeliverMove env s c d s' d') :
    s.log <:+ s'.log := by
  cases h with
  | asked | fetched | built | proved | acked | refused => exact List.suffix_cons _ _
  | persisted pc store => exact (storeJob_log store).trans (List.suffix_cons _ _)
  | _ => exact List.suffix_refl _

theorem step_log {a : Act} {s' : State} (h : step env s a = some s') : s.log <:+ s'.log := by
  cases a with
  | retain key proof =>
    cases h
    exact List.suffix_refl _
  | request pubkey request =>
    cases h
    exact List.suffix_cons _ _
  | announce call =>
    cases h
    exact List.suffix_cons _ _
  | thread i c =>
    obtain ⟨t, t', s₁, -, ht, rfl⟩ := step_thread h
    show s.log <:+ s₁.log
    cases threadStep_move ht with
    | retained store | marked store | replaced store => exact storeJob_log store
    | deliver move => exact move.log
    | _ => exact List.suffix_refl _
  | retry c =>
    obtain ⟨s₁, hmove, heq, -⟩ := retryStep_move h
    have hlog : s'.log = s₁.log := by
      rw [heq]
    rw [hlog]
    generalize s.retry = r at hmove
    generalize s'.retry = r' at hmove
    cases hmove with
    | deliver move => exact move.log
    | _ => exact List.suffix_refl _
  | crash =>
    cases h
    exact List.suffix_refl _

end Moves

end WqcNode.Application.PcsMachine
