import WqcNode.Lib.Retry
import WqcNode.Domain.BidWire
import WqcNode.Transport.StreamIo
import WqcNode.Transport.TaskIngress

/-! # Bids (`transport/p2p/bid_client.rs`, `infra/geoip.rs`, `infra/metrics.rs`)

Each announcement the node bids on has a task of its own, which loads the pending count, finds the
location, takes the metrics, mines the lottery and sends the bid up to three times until the
orchestrator's ack. These tasks run side by side and beside everything else the node does.

* `bids_vouched`: in every run, on any bytes from any peers, every bid the node tries to send is for
  an announcement the orchestrator signed, judged by the node's ledger as it was when the announcement
  came, and carries what the orchestrator will check: both signatures, a lottery proof of the
  announced difficulty, the features asked for.
* `bids_bounded`: an announcement gets one bid, at most three copies of it and none after an ack; a
  task reports success exactly if the orchestrator acknowledged its last copy. -/

namespace WqcNode.Transport.BidClient

open WqcNode.Lib WqcNode.Lib.Json WqcNode.Lib.Machine WqcNode.Lib.Retry WqcNode.Lib.Serde
open WqcNode.Lib.SerdeValue WqcNode.Infra WqcNode.Domain.Features WqcNode.Domain.WorkBudget
open WqcNode.Domain.Announcement WqcNode.Domain.Geo WqcNode.Domain.OperatorBid WqcNode.Domain.BidWire
open WqcNode.Transport.StreamIo WqcNode.Transport.TaskIngress
open WqcNode.Domain.AnnouncementAuth (golden)
open WqcNode.Domain.Bid (networkMinQubits shouldBidOn submitBid)
open WqcNode.Application.NodeMachine (Node)
open WqcNode.Infra.TaskJson (sampleFloats floatOfNumeral)

/-! ### The source's functions -/

/-- `PROTOCOL_BID`. -/
def protocolBid : String := "/wqc/tensor-net/1.0.0"

/-- `MAX_ATTEMPTS`. -/
def maxAttempts : ℕ := 3

structure Client (ed : Ed25519) where
  setup : Setup
  sha256 : Bytes → Bytes
  texts : Texts
  maxMpsQubits : UInt64
  signingKey : ed.SigningKey
  stakeAmount : ℤ
  /-- derived from `WQC_TESTNET_NODE_KEY`, if that is set -/
  operatorSigningKey : Option ed.SigningKey
  /-- `VerifyingKey::to_bytes` -/
  keyBytes : ed.VerifyingKey → Bytes

variable {ed : Ed25519} (x : Client ed)

/-- The operator's id, which comes with its key. -/
def Client.operatorIdOf (key : ed.SigningKey) : String :=
  operatorIdFromPubkey x.sha256 (x.keyBytes (ed.verifyingKey key))

/-- The settings `build_signed_bid` reads. -/
def Client.config : Domain.OperatorBid.NodeConfig ed where
  peerId := x.setup.config.peerId
  maxQubits := x.setup.bids.maxQubits
  maxMpsQubits := x.maxMpsQubits
  signingKey := x.signingKey
  stakeAmount := x.stakeAmount
  operatorId := x.operatorSigningKey.map x.operatorIdOf
  operatorSigningKey := x.operatorSigningKey

def Client.supportedFeatures : UInt32 :=
  nodeFeatures x.setup.env.supportedGates x.setup.bids.tnRates.isSome

/-- What the gauges of the process show. -/
structure Gauges where
  p2pConnectedPeers : UInt64 := 0
  orchestratorConnected : Bool := false
  coreTimeoutsTotal : UInt64 := 0
  uptimeSeconds : UInt64 := 0

/-- What the world decides in one step of a task. -/
structure Choice where
  /-- the statement of this step fails -/
  sql : Option String := none
  answers : Answers := {}
  gauges : Gauges := {}
  /-- the unix clock, and how many lottery attempts its window leaves -/
  now : Int64 := 0
  tries : ℕ := 0
  stream : Outcome := .notOpened "peer is not connected"

def snapshotForBid (s : Node) (c : Choice) : MetricsSummary where
  pendingTasks := UInt64.ofNat s.pendingTasks
  outboxPending := UInt64.ofNat (if c.sql.isSome then 0 else s.storage.countPendingResults)
  p2pConnectedPeers := c.gauges.p2pConnectedPeers
  p2pOrchestratorConnected := if c.gauges.orchestratorConnected then 1 else 0
  coreTimeoutsTotal := c.gauges.coreTimeoutsTotal
  uptimeSeconds := c.gauges.uptimeSeconds

/-- Where a task of `submit_bid` stands, once the work was judged. -/
inductive Pc
  | load
  /-- before `get_cached_geo` -/
  | locate (currentLoad : UInt32)
  /-- before `fetch_geolocation` -/
  | fetch (currentLoad : UInt32)
  | snapshot (currentLoad : UInt32) (location : Option GeoInfo)
  | mine (currentLoad : UInt32) (location : Option GeoInfo) (metrics : MetricsSummary)
  /-- `build_signed_bid` gave no bid -/
  | unmined
  /-- before the attempt with this number -/
  | send (payload : Bytes) (attempt : ℕ)
  | sent (result : Except String Unit)

/-- What `submit_bid` has returned. -/
def Pc.result : Pc → Option (Except String Unit)
  | .unmined => some (.error "failed to mine lottery proof within time window")
  | .sent result => some result
  | _ => none

structure Call where
  /-- the number of the announcement -/
  id : ℕ
  announcement : TaskAnnouncement
  pc : Pc

/-- The node, the row of `geo_cache`, the bidding tasks, the announcements bid on so far, and the
attempts to send a bid. -/
structure Bidder where
  node : Node
  geo : Option GeoRow
  calls : List Call
  count : ℕ
  log : List (Attempt Bytes String)

def Bidder.init : Bidder := ⟨Application.NodeMachine.init, none, [], 0, []⟩

inductive Event
  | net (e : TaskIngress.Event)
  /-- the next step of the `i`-th task -/
  | call (i : ℕ) (c : Choice)

def isCrash : TaskIngress.Event → Bool
  | .node .crash => true
  | _ => false

/-- The announcement the node builds a bid on after this step. -/
def bidsOn (s : Node) (e : TaskIngress.Event) : Option TaskAnnouncement := do
  let (a, instant) ← heard x.setup e
  if (submitBid x.setup.env.supportedGates x.setup.bids s.work a instant).builds then some a else none

def netStep (s : Bidder) (e : TaskIngress.Event) : Option Bidder := do
  let node ← TaskIngress.step x.setup s.node e
  if isCrash e then return { s with node, calls := [] }
  match bidsOn x s.node e with
  | some a => return { s with node, calls := s.calls ++ [⟨s.count, a, .load⟩], count := s.count + 1 }
  | none => return { s with node }

def pcOf (payload : Bytes) : Retry.Pc String → Pc
  | .attempt n => .send payload n
  | .stopped result => .sent result

/-- `save_geo_cache`; an error is only logged. -/
def saveGeoCache (geo : Option GeoRow) (fresh : GeoInfo) (c : Choice) : Option GeoRow :=
  if c.sql.isSome then geo else some ⟨fresh, c.now.toInt⟩

/-- What is cached after this step, where the task stands then, and the attempt it made. -/
def callStep (s : Bidder) (call : Call) (c : Choice) :
    Option (Option GeoRow × Pc × Option (Attempt Bytes String)) :=
  match call.pc with
  | .load => some (s.geo, .locate (UInt32.ofNat s.node.pendingTasks), none)
  | .locate currentLoad =>
    match if c.sql.isSome then none else getCachedGeo s.geo c.now.toInt with
    | some cached => some (s.geo, .snapshot currentLoad (some cached), none)
    | none => some (s.geo, .fetch currentLoad, none)
  | .fetch currentLoad =>
    match fetchGeolocation x.texts.floats c.answers with
    | some fresh => some (saveGeoCache s.geo fresh c, .snapshot currentLoad (some fresh), none)
    | none => some (s.geo, .snapshot currentLoad none, none)
  | .snapshot currentLoad location =>
    some (s.geo, .mine currentLoad location (snapshotForBid s.node c), none)
  | .mine currentLoad location metrics =>
    match buildSignedBid ed x.sha256 c.now c.tries call.announcement x.config currentLoad
      x.supportedFeatures location (some metrics) with
    | none => some (s.geo, .unmined, none)
    | some signedBid => some (s.geo, .send (bidToVec x.texts.floats signedBid) 0, none)
  | .send payload n =>
    let outcome := writeOutboundStreamExpectAck x.texts x.setup.orchestratorPeerId protocolBid c.stream
    some (s.geo, pcOf payload (Retry.next maxAttempts n outcome), some ⟨call.id, payload, outcome⟩)
  | .unmined | .sent _ => none

def step (s : Bidder) : Event → Option Bidder
  | .net e => netStep x s e
  | .call i c => do
    let call ← s.calls[i]?
    let (geo, pc, attempt) ← callStep x s call c
    return { s with
      geo
      calls := s.calls.set i { call with pc }
      log := s.log ++ attempt.toList }

/-! ### What a step can do -/

section Moves

variable {x} {s s' : Bidder} {call : Call} {c : Choice} {geo : Option GeoRow} {pc : Pc}
  {attempt : Option (Attempt Bytes String)} {e : Event}

inductive CallMove (x : Client ed) (s : Bidder) (call : Call) (c : Choice) :
    Option GeoRow → Pc → Option (Attempt Bytes String) → Prop
  | loaded (pc : call.pc = .load) :
      CallMove x s call c s.geo (.locate (UInt32.ofNat s.node.pendingTasks)) none
  | cached {currentLoad : UInt32} {cached : GeoInfo} (pc : call.pc = .locate currentLoad)
      (row : getCachedGeo s.geo c.now.toInt = some cached) :
      CallMove x s call c s.geo (.snapshot currentLoad (some cached)) none
  | missed {currentLoad : UInt32} (pc : call.pc = .locate currentLoad) :
      CallMove x s call c s.geo (.fetch currentLoad) none
  | fetched {currentLoad : UInt32} {fresh : GeoInfo} (pc : call.pc = .fetch currentLoad)
      (answer : fetchGeolocation x.texts.floats c.answers = some fresh) :
      CallMove x s call c (saveGeoCache s.geo fresh c) (.snapshot currentLoad (some fresh)) none
  | nowhere {currentLoad : UInt32} (pc : call.pc = .fetch currentLoad) :
      CallMove x s call c s.geo (.snapshot currentLoad none) none
  | measured {currentLoad : UInt32} {location : Option GeoInfo}
      (pc : call.pc = .snapshot currentLoad location) :
      CallMove x s call c s.geo (.mine currentLoad location (snapshotForBid s.node c)) none
  | unmined {currentLoad : UInt32} {location : Option GeoInfo} {metrics : MetricsSummary}
      (pc : call.pc = .mine currentLoad location metrics) :
      CallMove x s call c s.geo .unmined none
  | mined {currentLoad : UInt32} {location : Option GeoInfo} {metrics : MetricsSummary}
      {signedBid : SignedBid} (pc : call.pc = .mine currentLoad location metrics)
      (build : buildSignedBid ed x.sha256 c.now c.tries call.announcement x.config currentLoad
        x.supportedFeatures location (some metrics) = some signedBid) :
      CallMove x s call c s.geo (.send (bidToVec x.texts.floats signedBid) 0) none
  | attempted {payload : Bytes} {n : ℕ} {outcome : Except String Unit}
      (pc : call.pc = .send payload n)
      (result : writeOutboundStreamExpectAck x.texts x.setup.orchestratorPeerId protocolBid c.stream =
        outcome) :
      CallMove x s call c s.geo (pcOf payload (Retry.next maxAttempts n outcome))
        (some ⟨call.id, payload, outcome⟩)

theorem callStep_move (h : callStep x s call c = some (geo, pc, attempt)) :
    CallMove x s call c geo pc attempt := by
  unfold callStep at h
  split at h
  · cases h
    exact .loaded ‹_›
  · split at h
    · next hrow =>
      cases h
      split_ifs at hrow
      exact .cached ‹_› hrow
    · cases h
      exact .missed ‹_›
  · split at h
    · cases h
      exact .fetched ‹_› ‹_›
    · cases h
      exact .nowhere ‹_›
  · cases h
    exact .measured ‹_›
  · split at h
    · cases h
      exact .unmined ‹_›
    · cases h
      exact .mined ‹_› ‹_›
  · cases h
    exact .attempted ‹_› rfl
  · cases h
  · cases h

/-- A step of the bidder. -/
inductive Move (x : Client ed) (s : Bidder) : Event → Bidder → Prop
  | crashed {e : TaskIngress.Event} {node : Node} : Move x s (.net e) { s with node, calls := [] }
  | heard {e : TaskIngress.Event} {node : Node} {a : TaskAnnouncement} (alive : isCrash e = false)
      (bids : bidsOn x s.node e = some a) :
      Move x s (.net e)
        { s with node, calls := s.calls ++ [⟨s.count, a, .load⟩], count := s.count + 1 }
  | other {e : TaskIngress.Event} {node : Node} (alive : isCrash e = false) :
      Move x s (.net e) { s with node }
  | called {i : ℕ} {c : Choice} {call : Call} {geo : Option GeoRow} {pc : Pc}
      {attempt : Option (Attempt Bytes String)} (at' : s.calls[i]? = some call)
      (move : CallMove x s call c geo pc attempt) :
      Move x s (.call i c)
        { s with geo, calls := s.calls.set i { call with pc }, log := s.log ++ attempt.toList }

theorem step_move (h : step x s e = some s') : Move x s e s' := by
  cases e with
  | net e =>
    obtain ⟨node, -, h⟩ := Option.bind_eq_some_iff.mp h
    split_ifs at h with hcrash
    · cases h
      exact .crashed
    · have halive : isCrash e = false := by simpa using hcrash
      cases hbids : bidsOn x s.node e with
      | some a =>
        rw [hbids] at h
        cases h
        exact .heard halive hbids
      | none =>
        rw [hbids] at h
        cases h
        exact .other halive
  | call i c =>
    obtain ⟨call, hcall, h⟩ := Option.bind_eq_some_iff.mp h
    obtain ⟨⟨geo, pc, attempt⟩, hmove, h⟩ := Option.bind_eq_some_iff.mp h
    cases h
    exact .called hcall (callStep_move hmove)

end Moves

/-! ### One bid, a few copies -/

section Bounded

variable {x} {s s' : Bidder} {e : Event} {call : Call} {c : Choice} {geo : Option GeoRow} {pc : Pc}
  {attempt : Option (Attempt Bytes String)}

/-- What a task is at, as a sender. -/
def Pc.phase : Pc → Phase Bytes String
  | .load | .locate _ | .fetch _ | .snapshot .. | .mine .. => .preparing
  | .unmined => .dropped
  | .send payload n => .sending payload n
  | .sent result => .sent result

def Bidder.senders (s : Bidder) : List (ℕ × Phase Bytes String) := s.calls.map fun c => (c.id, c.pc.phase)

/-- The tasks are senders whose attempts are in the log. -/
def Sends (s : Bidder) : Prop := Counted maxAttempts s.senders s.count s.log

theorem phase_pcOf (payload : Bytes) (p : Retry.Pc String) :
    (pcOf payload p).phase = phaseOf payload p := by
  cases p <;> rfl

theorem CallMove.phaseStep (h : CallMove x s call c geo pc attempt) :
    PhaseStep maxAttempts call.id call.pc.phase pc.phase attempt := by
  cases h with
  | loaded pc | cached pc | missed pc | fetched pc | nowhere pc | measured pc =>
    rw [pc]
    exact .prepare
  | unmined pc =>
    rw [pc]
    exact .drop
  | mined pc =>
    rw [pc]
    exact .begin _
  | attempted pc =>
    rw [pc, phase_pcOf]
    exact .attempt ..

theorem sends_init : Sends Bidder.init := counted_nil

theorem result_ok_iff : pc.result = some (.ok ()) ↔ pc.phase = .sent (.ok ()) := by
  cases pc <;> simp [Pc.result, Pc.phase]

theorem step_sends (hs : Sends s) (h : step x s e = some s') : Sends s' := by
  have hs : Counted maxAttempts s.senders s.count s.log := hs
  unfold Sends Bidder.senders
  cases step_move h with
  | crashed => exact hs.clear
  | heard =>
    rw [List.map_append, List.map_singleton]
    exact hs.start
  | other => exact hs
  | @called i c call geo pc attempt hcall move =>
    have hsender : s.senders[i]? = some (call.id, call.pc.phase) := by
      unfold Bidder.senders
      rw [List.getElem?_map, hcall]
      rfl
    rw [List.map_set]
    exact hs.move (by decide) hsender move.phaseStep

/-- **Main result.** In every run, whatever the other tasks do and through any crashes: of the bid
for each announcement at most three copies are tried, all of the same bytes, and none after the
orchestrator has acknowledged one; and a task reports success exactly if the last copy it tried was
answered with an ack. -/
theorem bids_bounded {events : List Event} (h : run (step x) Bidder.init events = some s) :
    (∀ i, Bounded maxAttempts s.log i) ∧ s.log.length ≤ maxAttempts * s.count ∧
      ∀ c ∈ s.calls, c.pc.result = some (.ok ()) ↔
        ∃ y, (ofSender s.log c.id).getLast? = some y ∧ y.outcome = .ok () := by
  have hs : Counted maxAttempts s.senders s.count s.log :=
    run_inv (I := Sends) (fun _ _ _ hs h => step_sends hs h) sends_init h
  refine ⟨hs.bounded, length_le hs.known fun i _ => hs.bounded i, fun c hc => ?_⟩
  have hphase : InPhase maxAttempts s.log c.id c.pc.phase :=
    hs.phases (c.id, c.pc.phase) (List.mem_map_of_mem hc)
  rw [result_ok_iff]
  exact hphase.ok_iff

end Bounded

/-! ### What a bid vouches for -/

section Vouched

variable {signed : Set Bytes}

/-- The bid is for this announcement, and passes the checks of one who has the node's and the
operator's keys. -/
structure Vouches (x : Client ed) (a : TaskAnnouncement) (bid : SignedBid) : Prop where
  taskId : bid.taskId = a.taskId
  nodeId : bid.nodeId = x.setup.config.peerId
  stakeAmount : bid.stakeAmount = x.stakeAmount
  qubits : networkMinQubits ≤ bid.maxQubitCapability
  features : supportsRequiredFeatures bid.supportedFeatures a.requiredFeatures = true
  location : ∀ g, bid.location = some g → g.Finite
  proof : bid.lotteryProof =
    lotteryHash x.sha256 bid.nodeId a.nonce bid.timestamp bid.lotteryAttempt
  difficulty : meetsDifficulty bid.lotteryProof a.bidDifficulty = true
  signature : ed.verifyStrict (ed.verifyingKey x.signingKey) (serializeBidPayload bid) bid.signature =
    true
  operator : ∃ key sig, x.operatorSigningKey = some key ∧ bid.operatorId = some (x.operatorIdOf key) ∧
    IsOperatorId (x.operatorIdOf key) ∧ bid.operatorSig = some sig ∧
    ed.verifyStrict (ed.verifyingKey key)
      (serializeOperatorBidPayload (x.operatorIdOf key) bid.nodeId bid.taskId bid.stakeAmount) sig = true

/-- The orchestrator signed the announcement and the node chose it when it was heard; if the node has
rates, which it has if the announcement asks for the work budget, its ledger of that time judged the
announced work to fit. The process has not stopped since. -/
inductive Chosen (x : Client ed) (signed : Set Bytes) (a : TaskAnnouncement) : List Event → Prop
  | heard {earlier later : List Event} {e : TaskIngress.Event} {instant : ℚ} {s : Bidder}
      (alive : .net (.node .crash) ∉ later) (reached : run (step x) Bidder.init earlier = some s)
      (hear : heard x.setup e = some (a, instant)) (announced : SignedAnnouncement signed a)
      (chosen : shouldBidOn a x.setup.bids x.supportedFeatures = true)
      (asked : asksWorkBudget a.requiredFeatures → x.setup.bids.tnRates.isSome = true)
      (judged : ∀ work rates, a.work = some work → x.setup.bids.tnRates = some rates →
        ∃ budget, s.node.work.decide a.taskId work (a.deadlineSecs.getD 0)
          (x.setup.bids.policy rates) instant =
            ((submitBid x.setup.env.supportedGates x.setup.bids s.node.work a instant).ledger,
              .ok budget)) :
      Chosen x signed a (earlier ++ .net e :: later)

/-- The attempt sent a bid that vouches for an announcement chosen before, and succeeded only if the
peer answered with a JSON object that says `"ok": true`. -/
inductive Attempted (x : Client ed) (signed : Set Bytes) (y : Attempt Bytes String) :
    List Event → Prop
  | made {before after : List Event} {i : ℕ} {c : Choice} {a : TaskAnnouncement} {bid : SignedBid}
      (chosen : Chosen x signed a before) (bytes : y.body = bidToVec x.texts.floats bid)
      (vouches : Vouches x a bid)
      (acked : y.outcome = .ok () → ∃ response members, c.stream = .answered response ∧
        fromSlice response = some (.object members) ∧ last members "ok" = some (.bool true)) :
      Attempted x signed y (before ++ .call i c :: after)

variable {x} {s s' : Bidder} {e : Event} {call : Call} {c : Choice} {geo : Option GeoRow} {pc : Pc}
  {attempt : Option (Attempt Bytes String)} {a : TaskAnnouncement} {past : List Event}

theorem Chosen.snoc (h : Chosen x signed a past) (he : e ≠ .net (.node .crash)) :
    Chosen x signed a (past ++ [e]) := by
  obtain ⟨alive, reached, hear, announced, chosen, asked, judged⟩ := h
  rw [List.append_assoc, List.cons_append]
  refine .heard (fun hmem => ?_) reached hear announced chosen asked judged
  rcases List.mem_append.mp hmem with hmem | hmem
  · exact alive hmem
  · exact he (List.mem_singleton.mp hmem).symm

theorem Attempted.snoc {y : Attempt Bytes String} (h : Attempted x signed y past) (e : Event) :
    Attempted x signed y (past ++ [e]) := by
  obtain ⟨chosen, bytes, vouches, acked⟩ := h
  rw [List.append_assoc, List.cons_append]
  exact .made chosen bytes vouches acked

/-- Without rates the node chooses no announcement that asks for the work budget. -/
theorem tnRates_of_asked {gates : List String} {config : Domain.Bid.NodeConfig}
    (h : shouldBidOn a config (nodeFeatures gates config.tnRates.isSome) = true)
    (hasked : asksWorkBudget a.requiredFeatures) : config.tnRates.isSome = true := by
  by_contra hnone
  have hfalse : config.tnRates.isSome = false := by simpa using hnone
  rw [hfalse] at h
  unfold shouldBidOn at h
  split_ifs at h
  rw [not_supports_workBudget hasked] at h
  cases h

theorem judged_of_builds {gates : List String} {config : Domain.Bid.NodeConfig} {ledger : WorkLedger}
    {now : ℚ} (h : (submitBid gates config ledger a now).builds = true) :
    shouldBidOn a config (nodeFeatures gates config.tnRates.isSome) = true ∧
      ∀ work rates, a.work = some work → config.tnRates = some rates →
        ∃ budget, ledger.decide a.taskId work (a.deadlineSecs.getD 0) (config.policy rates) now =
          ((submitBid gates config ledger a now).ledger, .ok budget) := by
  unfold submitBid at h ⊢
  simp only at h ⊢
  split_ifs at h ⊢ with hskip
  have hchosen : shouldBidOn a config (nodeFeatures gates config.tnRates.isSome) = true := by
    simpa using hskip
  refine ⟨hchosen, fun work rates hwork hrates => ?_⟩
  rw [hwork, hrates] at h ⊢
  simp only at h ⊢
  split at h
  · cases h
  · next ledger' budget hdecide => exact ⟨budget, by rw [hdecide]⟩

theorem chosen_of_bidsOn (ht : Trusts x.setup signed) {e : TaskIngress.Event}
    (hreached : run (step x) Bidder.init past = some s) (h : bidsOn x s.node e = some a) :
    Chosen x signed a (past ++ [.net e]) := by
  obtain ⟨⟨a', instant⟩, hheard, h⟩ := Option.bind_eq_some_iff.mp h
  simp only at h
  split_ifs at h with hbuilds
  cases h
  obtain ⟨hchosen, hjudged⟩ := judged_of_builds hbuilds
  exact .heard List.not_mem_nil hreached hheard (heard_signed ht hheard) hchosen
    (tnRates_of_asked hchosen) hjudged

theorem Chosen.features (h : Chosen x signed a past) :
    networkMinQubits ≤ x.setup.bids.maxQubits.toUInt32 ∧
      supportsRequiredFeatures x.supportedFeatures a.requiredFeatures = true := by
  obtain ⟨-, -, -, -, chosen, -, -⟩ := h
  unfold shouldBidOn at chosen
  split_ifs at chosen with hqubits hnone
  exact ⟨by simpa using hqubits, chosen⟩

/-- **A bid that is built** vouches for its announcement. -/
theorem vouches_of_build (hed : ed.Ideal) (hsha : ∀ m, (x.sha256 m).length = 32)
    (ha : Chosen x signed a past) {currentLoad : UInt32} {location : Option GeoInfo}
    (hlocation : ∀ g, location = some g → g.Finite) {metrics : Option MetricsSummary} {now : Int64} {tries : ℕ} {bid : SignedBid}
    (h : buildSignedBid ed x.sha256 now tries a x.config currentLoad x.supportedFeatures location
      metrics = some bid) : Vouches x a bid := by
  unfold buildSignedBid at h
  obtain ⟨operatorId, hid, h⟩ := Option.bind_eq_some_iff.mp h
  obtain ⟨key, hkey, h⟩ := Option.bind_eq_some_iff.mp h
  obtain ⟨⟨timestamp, lotteryAttempt, proof⟩, hmined, h⟩ := Option.bind_eq_some_iff.mp h
  obtain ⟨htime, hproof, hmeets⟩ := mineLottery_spec hmined
  obtain ⟨hqubits, hfeatures⟩ := ha.features
  have hoperator : operatorId = x.operatorIdOf key := by
    have hsome : x.operatorSigningKey.map x.operatorIdOf = some operatorId := hid
    rw [show x.operatorSigningKey = some key from hkey] at hsome
    exact (Option.some.inj hsome).symm
  cases h
  subst htime hoperator
  exact {
    taskId := rfl
    nodeId := rfl
    stakeAmount := rfl
    qubits := hqubits
    features := hfeatures
    location := hlocation
    proof := hproof
    difficulty := hmeets
    signature := (hed ..).mpr rfl
    operator := ⟨key, _, hkey, rfl, isOperatorId_operatorIdFromPubkey hsha _, rfl, (hed ..).mpr rfl⟩ }

/-- What a task has found out is in order. -/
def Pc.Vouched (x : Client ed) (a : TaskAnnouncement) : Pc → Prop
  | .snapshot _ location | .mine _ location _ => ∀ g, location = some g → g.Finite
  | .send payload _ => ∃ bid, payload = bidToVec x.texts.floats bid ∧ Vouches x a bid
  | _ => True

/-- What the events so far have led to. -/
structure Inv (x : Client ed) (signed : Set Bytes) (past : List Event) (s : Bidder) : Prop where
  reached : run (step x) Bidder.init past = some s
  geo : ∀ r ∈ s.geo, r.info.Finite
  chosen : ∀ call ∈ s.calls, Chosen x signed call.announcement past
  calls : ∀ call ∈ s.calls, call.pc.Vouched x call.announcement
  log : ∀ y ∈ s.log, Attempted x signed y past

theorem inv_init : Inv x signed [] Bidder.init where
  reached := rfl
  geo := by simp [Bidder.init]
  chosen := by simp [Bidder.init]
  calls := by simp [Bidder.init]
  log := by simp [Bidder.init]

theorem CallMove.geo_finite (hgeo : ∀ r ∈ s.geo, r.info.Finite)
    (h : CallMove x s call c geo pc attempt) : ∀ r ∈ geo, r.info.Finite := by
  cases h with
  | @fetched _ fresh _ answer =>
    unfold saveGeoCache
    split_ifs
    · exact hgeo
    · intro r hr
      cases hr
      exact fetchGeolocation_finite answer
  | _ => exact hgeo

theorem CallMove.vouched (hed : ed.Ideal) (hsha : ∀ m, (x.sha256 m).length = 32)
    (hgeo : ∀ r ∈ s.geo, r.info.Finite) (hchosen : Chosen x signed call.announcement past) (hpc : call.pc.Vouched x call.announcement)
    (h : CallMove x s call c geo pc attempt) : pc.Vouched x call.announcement := by
  cases h with
  | loaded | missed | unmined => trivial
  | cached _ row =>
    obtain ⟨r, hr, rfl⟩ := getCachedGeo_mem row
    intro g hg
    cases hg
    exact hgeo r hr
  | fetched _ answer =>
    intro g hg
    cases hg
    exact fetchGeolocation_finite answer
  | nowhere =>
    intro g hg
    cases hg
  | measured pc =>
    rw [pc] at hpc
    exact hpc
  | mined pc build =>
    rw [pc] at hpc
    exact ⟨_, rfl, vouches_of_build hed hsha hchosen hpc build⟩
  | @attempted payload n outcome pc =>
    rw [pc] at hpc
    cases Retry.next maxAttempts n outcome with
    | attempt k => exact hpc
    | stopped result => trivial

theorem CallMove.attempt_vouched {i : ℕ} (hchosen : Chosen x signed call.announcement past)
    (hpc : call.pc.Vouched x call.announcement) (h : CallMove x s call c geo pc attempt) :
    ∀ y ∈ attempt.toList, Attempted x signed y (past ++ [.call i c]) := by
  cases h with
  | @attempted payload n outcome pc result =>
    intro y hy
    rw [Option.toList_some, List.mem_singleton] at hy
    subst hy
    rw [pc] at hpc
    obtain ⟨bid, hbytes, hvouches⟩ := hpc
    refine .made hchosen hbytes hvouches fun hok => ?_
    obtain ⟨response, hanswer, hack⟩ := expectAck_ok_iff.mp (result.trans hok)
    obtain ⟨members, hread, -, hlast⟩ := ack_ok_iff.mp hack
    exact ⟨response, members, hanswer, hread, hlast⟩
  | _ => simp

theorem ne_crash {e : TaskIngress.Event} (h : isCrash e = false) :
    Event.net e ≠ .net (.node .crash) := by
  rintro heq
  cases heq
  cases h

theorem step_vouched (ht : Trusts x.setup signed) (hed : ed.Ideal)
    (hsha : ∀ m, (x.sha256 m).length = 32) (hi : Inv x signed past s)
    (h : step x s e = some s') : Inv x signed (past ++ [e]) s' := by
  have hreached := run_snoc hi.reached h
  have hlog : ∀ y ∈ s.log, Attempted x signed y (past ++ [e]) := fun y hy => (hi.log y hy).snoc e
  have hchosen : e ≠ .net (.node .crash) → ∀ call ∈ s.calls,
      Chosen x signed call.announcement (past ++ [e]) :=
    fun he call hcall => (hi.chosen call hcall).snoc he
  cases step_move h with
  | crashed => exact ⟨hreached, hi.geo, by simp, by simp, hlog⟩
  | heard alive bids =>
    refine ⟨hreached, hi.geo, fun call hcall => ?_, fun call hcall => ?_, hlog⟩
    · rcases List.mem_append.mp hcall with hcall | hcall
      · exact hchosen (ne_crash alive) call hcall
      · rw [List.mem_singleton.mp hcall]
        exact chosen_of_bidsOn ht hi.reached bids
    · rcases List.mem_append.mp hcall with hcall | hcall
      · exact hi.calls call hcall
      · rw [List.mem_singleton.mp hcall]
        trivial
  | other alive => exact ⟨hreached, hi.geo, hchosen (ne_crash alive), hi.calls, hlog⟩
  | @called i c call geo pc attempt hcall move =>
    have hmem := List.mem_of_getElem? hcall
    have hpc := move.vouched hed hsha hi.geo (hi.chosen call hmem) (hi.calls call hmem)
    have hne : Event.call i c ≠ .net (.node .crash) := by simp
    refine ⟨hreached, move.geo_finite hi.geo, fun call' hcall' => ?_, fun call' hcall' => ?_,
      fun y hy => ?_⟩
    · rcases List.mem_or_eq_of_mem_set hcall' with hcall' | rfl
      · exact hchosen hne call' hcall'
      · exact hchosen hne call hmem
    · rcases List.mem_or_eq_of_mem_set hcall' with hcall' | rfl
      · exact hi.calls call' hcall'
      · exact hpc
    · rcases List.mem_append.mp hy with hy | hy
      · exact hlog y hy
      · exact move.attempt_vouched (hi.chosen call hmem) (hi.calls call hmem) y hy

end Vouched

/-! ### A bid on the announcement -/

section Sample

/-- The hash of the attempt that is mined. -/
def minedHash (bytes : Bytes) : Bytes :=
  if bytes = utf8 "node-a" ++ (be64 9 ++ (be64 1700000459 ++ be64 0)) then
    be 32 0x0037080e4ae155b0b35ce4c62eb7ef93191be5dbc2df961d34ccaffbc93d394e
  else be 32 (2 ^ 255)

def sampleClient : Client plainEd where
  setup := sampleSetup
  sha256 := minedHash
  texts := ⟨sampleFloats, fun _ => "EOF while parsing a value at line 1 column 0",
    fun _ => ""⟩
  maxMpsQubits := 2048
  signingKey := ()
  stakeAmount := 50
  operatorSigningKey := some ()
  keyBytes _ := be 32 7

theorem length_minedHash (m : Bytes) : (minedHash m).length = 32 := by
  unfold minedHash
  split_ifs <;> exact length_be ..

theorem netStep_gossip {x : Client ed} {s : Bidder} {data : Bytes} {instant : ℚ}
    {a : TaskAnnouncement} (hmain : s.node.main = .running)
    (h : handleGossipMessage x.setup data = .ok a)
    (hbuilds : (submitBid x.setup.env.supportedGates x.setup.bids s.node.work a instant).builds = true) :
    step x s (.net (.gossip data instant)) = some { s with
      node := { s.node with work :=
        (submitBid x.setup.env.supportedGates x.setup.bids s.node.work a instant).ledger }
      calls := s.calls ++ [⟨s.count, a, .load⟩]
      count := s.count + 1 } := by
  have hheard : heard x.setup (.gossip data instant) = some (a, instant) := by
    rw [heard, h]
    rfl
  have hbids : bidsOn x s.node (.gossip data instant) = some a := by
    simp only [bidsOn, hheard, Option.bind_eq_bind, Option.bind_some, hbuilds, if_true]
  simp only [step, netStep, step_gossip hmain h, hbids, isCrash, Option.bind_eq_bind, Option.bind_some]
  rfl

theorem step_call {x : Client ed} {s : Bidder} {i : ℕ} {call : Call} {c : Choice}
    {geo : Option GeoRow} {pc : Pc} {attempt : Option (Attempt Bytes String)}
    (hcall : s.calls[i]? = some call) (h : callStep x s call c = some (geo, pc, attempt)) :
    step x s (.call i c) = some { s with
      geo
      calls := s.calls.set i { call with pc }
      log := s.log ++ attempt.toList } := by
  simp only [step, hcall, h, Option.bind_eq_bind, Option.bind_some]
  rfl

theorem callStep_fetch {x : Client ed} {s : Bidder} {call : Call} {c : Choice} {fresh : GeoInfo}
    {currentLoad : UInt32} (h : fetchGeolocation x.texts.floats c.answers = some fresh)
    (hpc : call.pc = .fetch currentLoad) : callStep x s call c =
      some (saveGeoCache s.geo fresh c, .snapshot currentLoad (some fresh), none) := by
  simp only [callStep, hpc, h]

theorem callStep_mine {x : Client ed} {s : Bidder} {call : Call} {c : Choice} {bid : SignedBid}
    {currentLoad : UInt32} {location : Option GeoInfo} {metrics : MetricsSummary}
    (h : buildSignedBid ed x.sha256 c.now c.tries call.announcement x.config currentLoad
      x.supportedFeatures location (some metrics) = some bid)
    (hpc : call.pc = .mine currentLoad location metrics) : callStep x s call c =
      some (s.geo, .send (bidToVec x.texts.floats bid) 0, none) := by
  simp only [callStep, hpc, h]

theorem callStep_send {x : Client ed} {s : Bidder} {call : Call} {c : Choice} {payload : Bytes}
    {n : ℕ} {outcome : Except String Unit}
    (h : writeOutboundStreamExpectAck x.texts x.setup.orchestratorPeerId protocolBid c.stream = outcome)
    (hpc : call.pc = .send payload n) : callStep x s call c =
      some (s.geo, pcOf payload (Retry.next maxAttempts n outcome),
        some ⟨call.id, payload, outcome⟩) := by
  simp only [callStep, hpc, h]

/-- What the second provider answers. -/
def locationDoc : Document ℕ :=
  .object [("latitude", .number 5), ("longitude", .number 1), ("countryName", .string "Iceland"),
    ("cityName", .string "Reykjavik"), ("timeZone", .string "+00:00")]

def sampleAnswers : Answers where
  ipApi := some ⟨429, none⟩
  freeIpApi := some ⟨200, some (wire locationDoc)⟩

/-- The announcement is heard again after the reservation has lapsed, so that two tasks bid on it. -/
def heardTwice : List Event :=
  [.net (.node .start), .net (.node .main), .net (.gossip (wire announcementDoc) 0),
    .net (.gossip (wire announcementDoc) 1000)]

/-- The first task fetches the location, the second finds it in the cache; the second has its ack at
once, the first at its second attempt. -/
def sideBySide : List Event :=
  [.call 0 {}, .call 1 {}, .call 0 {}, .call 0 { answers := sampleAnswers, now := 1700000450 },
    .call 1 { now := 1700000451 }, .call 0 {}, .call 1 {}, .call 0 { now := 1700000459, tries := 1 },
    .call 1 { now := 1700000459, tries := 1 }, .call 0 { stream := .unread "connection lost" },
    .call 1 { stream := .answered (utf8 "\x7b\"ok\":true\x7d") },
    .call 0 { stream := .answered (utf8 "\x7b\"ok\":true\x7d") }]

theorem builds_first : (submitBid sampleSetup.env.supportedGates sampleSetup.bids .empty golden
    0).builds = true := by decide +kernel

theorem builds_again : (submitBid sampleSetup.env.supportedGates sampleSetup.bids
    (submitBid sampleSetup.env.supportedGates sampleSetup.bids .empty golden 0).ledger golden
    1000).builds = true := by decide +kernel

def reykjavik : GeoInfo :=
  ⟨floatOfNumeral (Decimal.ofNat 5), floatOfNumeral (Decimal.ofNat 1), "Iceland", "Reykjavik"⟩

theorem fetch_sample : fetchGeolocation sampleClient.texts.floats sampleAnswers = some reykjavik := by
  decide +kernel

theorem mined_sample (currentLoad : UInt32) (location : Option GeoInfo) (metrics : MetricsSummary) :
    ∃ bid, buildSignedBid plainEd sampleClient.sha256 1700000459 1 golden sampleClient.config
      currentLoad sampleClient.supportedFeatures location (some metrics) = some bid := by
  have hmined : (mineLottery minedHash "node-a" 9 1700000459 1 1).isSome = true := by decide +kernel
  obtain ⟨⟨timestamp, lotteryAttempt, proof⟩, hmined⟩ := Option.isSome_iff_exists.mp hmined
  have hbuild : mineLottery sampleClient.sha256 sampleClient.config.peerId golden.nonce 1700000459
      golden.bidDifficulty 1 = some (timestamp, lotteryAttempt, proof) := hmined
  unfold buildSignedBid
  rw [hbuild]
  exact ⟨_, rfl⟩

theorem lost_sample : writeOutboundStreamExpectAck sampleClient.texts "orch-peer" protocolBid
    (.unread "connection lost") =
      .error "failed to read ack on /wqc/tensor-net/1.0.0: connection lost" := by decide +kernel

theorem acked_sample : writeOutboundStreamExpectAck sampleClient.texts "orch-peer" protocolBid
    (.answered (utf8 "\x7b\"ok\":true\x7d")) = .ok () := by decide +kernel

theorem heard_run : ∃ node, run (step sampleClient) Bidder.init heardTwice =
    some ⟨node, none, [⟨0, golden, .load⟩, ⟨1, golden, .load⟩], 2, []⟩ :=
  ⟨_, run_cons_some.mpr ⟨_, rfl, run_cons_some.mpr ⟨_, rfl, run_cons_some.mpr
    ⟨_, netStep_gossip rfl handle_announcement builds_first, run_cons_some.mpr
      ⟨_, netStep_gossip rfl handle_announcement builds_again, rfl⟩⟩⟩⟩⟩

theorem bid_run : ∃ s, run (step sampleClient) Bidder.init (heardTwice ++ sideBySide) = some s ∧
    s.log.map (fun y => (y.sender, y.outcome.toOption)) = [(0, none), (1, some ()), (0, some ())] := by
  obtain ⟨node, hheard⟩ := heard_run
  obtain ⟨bid, hmined⟩ := mined_sample (UInt32.ofNat node.pendingTasks)
    (fetchGeolocation sampleClient.texts.floats sampleAnswers) (snapshotForBid node {})
  rw [fetch_sample] at hmined
  have hmine : ∀ s call, call.announcement = golden →
      call.pc = .mine (UInt32.ofNat node.pendingTasks) (some reykjavik) (snapshotForBid node {}) →
      callStep sampleClient s call { now := 1700000459, tries := 1 } =
        some (s.geo, .send (bidToVec sampleClient.texts.floats bid) 0, none) := by
    intro s call hcall hpc
    exact callStep_mine (hcall ▸ hmined) hpc
  refine ⟨_, run_append_some.mpr ⟨_, hheard, run_cons_some.mpr ⟨_, step_call rfl rfl,
    run_cons_some.mpr ⟨_, step_call rfl rfl, run_cons_some.mpr ⟨_, step_call rfl rfl,
      run_cons_some.mpr ⟨_, step_call rfl (callStep_fetch fetch_sample rfl),
        run_cons_some.mpr ⟨_, step_call rfl rfl, run_cons_some.mpr ⟨_, step_call rfl rfl,
          run_cons_some.mpr ⟨_, step_call rfl rfl,
            run_cons_some.mpr ⟨_, step_call rfl (hmine _ _ rfl rfl),
              run_cons_some.mpr ⟨_, step_call rfl (hmine _ _ rfl rfl),
                run_cons_some.mpr ⟨_, step_call rfl (callStep_send lost_sample rfl),
                  run_cons_some.mpr ⟨_, step_call rfl (callStep_send acked_sample rfl),
                    run_cons_some.mpr ⟨_, step_call rfl (callStep_send acked_sample rfl),
                      rfl⟩⟩⟩⟩⟩⟩⟩⟩⟩⟩⟩⟩⟩, rfl⟩

theorem bids_bounded_mined : ∃ s, run (step sampleClient) Bidder.init (heardTwice ++ sideBySide) =
      some s ∧
    s.log.map (fun y => (y.sender, y.outcome.toOption)) = [(0, none), (1, some ()), (0, some ())] ∧
    Bounded maxAttempts s.log 0 ∧ Bounded maxAttempts s.log 1 := by
  obtain ⟨s, hrun, hlog⟩ := bid_run
  obtain ⟨hbounded, -, -⟩ := bids_bounded hrun
  exact ⟨s, hrun, hlog, hbounded 0, hbounded 1⟩

end Sample

end WqcNode.Transport.BidClient
