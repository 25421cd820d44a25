import WqcNode.Application.TaskIntegrity
import WqcNode.Transport.DispatchHandler
import WqcNode.Domain.Bid
import WqcNode.Domain.DispatchTail

/-! # Work that comes over the network (`transport/p2p/host.rs`, `announce_handler.rs`,
`bid_client.rs`, `dispatch_handler.rs`)

Any peer can publish on the announcement topic, the orchestrator alone is heard on the announce and
dispatch streams, and whatever arrives is checked against the orchestrator's key. An announcement the
node bids on leaves a budget in the ledger; a dispatch takes its parent's budget from there. Here the
handlers run beside the tasks of the node, on any bytes from any peer in any order.

* `tasks_vouched`: in every run, every task the node has is as a sub-task the orchestrator signed was
  prepared, and its budget is that of an announcement the orchestrator signed and the node had judged
  to fit, in the life of the process the dispatch came in.
* `rejected_leave_no_trace`: a run without the messages that are not accepted ends in the same
  state. -/

namespace WqcNode.Transport.TaskIngress

open WqcNode.Lib WqcNode.Lib.Json WqcNode.Lib.JsonText WqcNode.Lib.Serde WqcNode.Lib.Machine
open WqcNode.Lib.SerdeShape WqcNode.Lib.SerdeValue WqcNode.Infra WqcNode.Infra.TaskJson
open WqcNode.Domain.Models WqcNode.Domain.WorkBudget WqcNode.Domain.Announcement
open WqcNode.Domain.AnnouncementAuth WqcNode.Domain.Bid WqcNode.Domain.Dispatch
open WqcNode.Application WqcNode.Application.TaskIntegrity WqcNode.Transport.DispatchHandler
open WqcNode.Application.NodeMachine hiding step Act

/-! ### The source's functions -/

section Read

def workOf (doc : Document Decimal) : Option Work :=
  match fieldsOnce ["traffic_bytes", "flops"] doc with
  | some [trafficBytes, flops] => do
    return ⟨← required u64Of trafficBytes, ← required u64Of flops⟩
  | _ => none

def taskAnnouncementOf (doc : Document Decimal) : Option TaskAnnouncement :=
  match fieldsOnce ["task_id", "global_qubit_count", "required_features", "bid_difficulty",
    "required_votes", "nonce", "deadline_secs", "work"] doc with
  | some [taskId, globalQubitCount, requiredFeatures, bidDifficulty, requiredVotes, nonce,
      deadlineSecs, work] => do
    return {
      taskId := ← required textOf taskId
      globalQubitCount := ← required u32Of globalQubitCount
      requiredFeatures := ← required u32Of requiredFeatures
      bidDifficulty := ← required u32Of bidDifficulty
      requiredVotes := ← required u32Of requiredVotes
      nonce := ← required u64Of nonce
      deadlineSecs := ← nullable u32Of deadlineSecs
      work := ← nullable workOf work }
  | _ => none

def announcementMessageShape : Shape :=
  .record [("announcement", .record [("task_id", .whole), ("global_qubit_count", .whole),
      ("required_features", .whole), ("bid_difficulty", .whole), ("required_votes", .whole),
      ("nonce", .whole), ("deadline_secs", .whole), ("work", .flat ["traffic_bytes", "flops"])]),
    ("signature", .whole), ("signature_v2", .whole)]

def announcementMessageOf (doc : Document Decimal) : Option TaskAnnouncementMessage :=
  match fieldsOnce ["announcement", "signature", "signature_v2"] doc with
  | some [announcement, signature, signatureV2] => do
    return {
      announcement := ← required taskAnnouncementOf announcement
      signature := ← required textOf signature
      signatureV2 := ← nullable textOf signatureV2 }
  | _ => none

/-- `serde_json::from_slice` of a message. -/
def announcementFromSlice (payload : Bytes) : Option TaskAnnouncementMessage :=
  (fromSliceAs announcementMessageShape payload).bind announcementMessageOf

end Read

/-- The node, its configuration, the orchestrator's peer, and the texts of the errors in an
announcement's JSON. -/
structure Setup where
  env : Env
  api : Crypto
  config : DispatchHandler.Config
  bids : NodeConfig
  orchestratorPeerId : String
  announcementError : Bytes → String

section Handlers

variable (x : Setup)

def parseSignedAnnouncement (payload : Bytes) (orchestratorPublicKeyB64 : String) :
    Except String TaskAnnouncement := do
  let some message := announcementFromSlice payload
    | let e := x.announcementError payload
      .error s!"invalid announcement JSON: {e}"
  verifyAnnouncementMessage x.api message orchestratorPublicKeyB64
  return message.announcement

/-- The announcement in a gossip message; an error is only logged. -/
def handleGossipMessage (data : Bytes) : Except String TaskAnnouncement := do
  let some orchestratorPubkey := x.config.orchestratorPublicKey
    | .error "orchestrator public key not configured"
  parseSignedAnnouncement x data orchestratorPubkey

/-- `handle_announce_stream` up to `submit_bid`. -/
def handleAnnounceStream (payload : Bytes) : Except String TaskAnnouncement := do
  let some orchestratorPubkey := x.config.orchestratorPublicKey
    | .error "orchestrator public key not configured"
  (parseSignedAnnouncement x payload orchestratorPubkey).mapError fun e =>
    s!"announcement rejected: {e}"

/-- What the network brings, with the clock at that time, and the other steps of the node. -/
inductive Event
  /-- from whichever peer -/
  | gossip (data : Bytes) (instant : ℚ)
  | announce (peerId : String) (payload : Bytes) (instant : ℚ)
  | dispatch (peerId : String) (payload : Bytes) (nowMs : UInt64)
  | node (a : NodeMachine.Act)

/-- The node bids, or not, on what it heard. -/
def bidOn (s : Node) (instant : ℚ) : Except String TaskAnnouncement → Node
  | .error _ => s
  | .ok a => { s with work := (submitBid x.env.supportedGates x.bids s.work a instant).ledger }

/-- The node takes the verified sub-task, with the budget it bid on its parent with. The ledger holds
the estimate as a double. -/
def take (s : Node) (nowMs : UInt64) : Except String (SubTask × String) → Option Node
  | .error _ => some s
  | .ok (subTask, orchestratorPubkey) =>
    NodeMachine.step x.env s (.dispatch (subTask.intoComputeRequest x.config.peerId)
      orchestratorPubkey ((s.work.budget subTask.parentTaskId).map x.config.json.round) nowMs)

/-- The handlers and the host, once they are spawned. -/
def receive (s : Node) : Event → Option Node
  | .gossip data instant => some (bidOn x s instant (handleGossipMessage x data))
  | .announce peerId payload instant =>
    if peerId ≠ x.orchestratorPeerId then some s
    else some (bidOn x s instant (handleAnnounceStream x payload))
  | .dispatch peerId payload nowMs =>
    if peerId ≠ x.orchestratorPeerId then some s
    else take x s nowMs (handleDispatchStream x.api x.config payload)
  | .node _ => none

def isDispatch : NodeMachine.Act → Bool
  | .dispatch .. => true
  | _ => false

def step (s : Node) : Event → Option Node
  | .node a => if isDispatch a then none else NodeMachine.step x.env s a
  | e => match s.main with
    | .running => receive x s e
    | _ => none

/-! ### What is accepted -/

/-- The announcement the node bids on, or not, in this step. -/
def heard : Event → Option (TaskAnnouncement × ℚ)
  | .gossip data instant => (handleGossipMessage x data).toOption.map (·, instant)
  | .announce peerId payload instant =>
    if peerId = x.orchestratorPeerId then
      (handleAnnounceStream x payload).toOption.map (·, instant)
    else none
  | _ => none

/-- The sub-task the node takes in this step, with the key and the clock. -/
def taken : Event → Option (SubTask × String × UInt64)
  | .dispatch peerId payload nowMs =>
    if peerId = x.orchestratorPeerId then
      (handleDispatchStream x.api x.config payload).toOption.map fun r => (r.1, r.2, nowMs)
    else none
  | _ => none

/-- The message passes its checks; the other steps always do. -/
def accepted : Event → Bool
  | .node _ => true
  | e => (heard x e).isSome || (taken x e).isSome

end Handlers

variable {x : Setup} {s s' : Node} {e : Event}

/-- What a step can do. -/
inductive Received (x : Setup) (s : Node) : Event → Node → Prop
  | stepped {a : NodeMachine.Act} {s' : Node} (other : isDispatch a = false)
      (step : NodeMachine.step x.env s a = some s') : Received x s (.node a) s'
  | rejected {e : Event} (reject : accepted x e = false) : Received x s e s
  | announced {e : Event} {a : TaskAnnouncement} {instant : ℚ} (hear : heard x e = some (a, instant)) :
      Received x s e
        { s with work := (submitBid x.env.supportedGates x.bids s.work a instant).ledger }
  | dispatched {e : Event} {subTask : SubTask} {pubkey : String} {nowMs : UInt64} {s' : Node}
      (take : taken x e = some (subTask, pubkey, nowMs))
      (step : NodeMachine.step x.env s (.dispatch (subTask.intoComputeRequest x.config.peerId) pubkey
        ((s.work.budget subTask.parentTaskId).map x.config.json.round) nowMs) = some s') :
      Received x s e s'

theorem received_bidOn {instant : ℚ} {r : Except String TaskAnnouncement}
    (hh : heard x e = r.toOption.map (·, instant)) (ht : taken x e = none) (hn : ∀ a, e ≠ .node a) :
    Received x s e (bidOn x s instant r) := by
  cases r with
  | ok a => exact .announced hh
  | error text =>
    refine .rejected ?_
    have hnone : heard x e = none := hh
    unfold accepted
    split
    · exact absurd rfl (hn _)
    · rw [hnone, ht]
      rfl

theorem step_received (h : step x s e = some s') : Received x s e s' := by
  have hrun : (∀ a, e ≠ .node a) → receive x s e = some s' := by
    intro hn
    unfold step at h
    split at h
    · exact absurd rfl (hn _)
    · split at h
      · exact h
      · cases h
  cases e with
  | node a =>
    unfold step at h
    simp only at h
    split_ifs at h with ha
    exact .stepped (by simpa using ha) h
  | gossip data instant =>
    obtain rfl := Option.some.inj (hrun fun _ => by simp)
    exact received_bidOn rfl rfl fun _ => by simp
  | announce peerId payload instant =>
    have hr := hrun fun _ => by simp
    unfold receive at hr
    simp only at hr
    by_cases hp : peerId = x.orchestratorPeerId
    · rw [if_neg (not_not.mpr hp)] at hr
      obtain rfl := Option.some.inj hr
      exact received_bidOn (by rw [heard, if_pos hp]) rfl fun _ => by simp
    · rw [if_pos hp] at hr
      obtain rfl := Option.some.inj hr
      exact .rejected (by simp [accepted, heard, taken, hp])
  | dispatch peerId payload nowMs =>
    have hr := hrun fun _ => by simp
    unfold receive at hr
    simp only at hr
    by_cases hp : peerId = x.orchestratorPeerId
    · rw [if_neg (not_not.mpr hp)] at hr
      cases hd : handleDispatchStream x.api x.config payload with
      | error text =>
        rw [hd] at hr
        obtain rfl := Option.some.inj hr
        exact .rejected (by simp [accepted, heard, taken, hd, Except.toOption])
      | ok r =>
        rw [hd] at hr
        exact .dispatched (by rw [taken, if_pos hp, hd]; rfl) hr
    · rw [if_pos hp] at hr
      obtain rfl := Option.some.inj hr
      exact .rejected (by simp [accepted, heard, taken, hp])

/-! ### What is accepted was signed -/

section Signed

variable {signed : Set Bytes}

/-- The node has the orchestrator's key, and Ed25519 is idealised: exactly the byte strings of
`signed` have a signature. -/
def Trusts (x : Setup) (signed : Set Bytes) : Prop :=
  ∃ key, x.config.orchestratorPublicKey = some key ∧ Ideal x.api key signed

/-- The orchestrator signed the announcement, under v2 if it has work. -/
def SignedAnnouncement (signed : Set Bytes) (a : TaskAnnouncement) : Prop :=
  (∃ p ∈ signed, serializeAnnouncementPayloadV2 a = some p) ∨
    a.work = none ∧ serializeAnnouncementPayload a ∈ signed

theorem announcement_signed {api : Crypto} {key : String} (hi : Ideal api key signed)
    {m : TaskAnnouncementMessage} (h : verifyAnnouncementMessage api m key = .ok ()) :
    SignedAnnouncement signed m.announcement := by
  unfold verifyAnnouncementMessage at h
  simp only at h
  split_ifs at h with hbit hwork
  · cases hp : serializeAnnouncementPayloadV2 m.announcement with
    | none => simp [hp] at h
    | some p =>
      cases hs : m.signatureV2 with
      | none => simp [hp, hs] at h
      | some signature =>
        rw [hp, hs] at h
        exact .inl ⟨p, signed_of_verify hi h, hp⟩
  · have hnone : m.announcement.work = none := by simpa using hwork
    exact .inr ⟨hnone, signed_of_verify hi h⟩

theorem parseSignedAnnouncement_ok {payload : Bytes} {key : String} {a : TaskAnnouncement}
    (h : parseSignedAnnouncement x payload key = .ok a) :
    ∃ m : TaskAnnouncementMessage, verifyAnnouncementMessage x.api m key = .ok () ∧
      m.announcement = a := by
  unfold parseSignedAnnouncement at h
  split at h
  · obtain ⟨u, hverify, h⟩ := Fallible.bind_eq_ok.mp h
    cases h
    exact ⟨_, hverify, rfl⟩
  · cases h

theorem handleGossipMessage_ok {payload : Bytes} {key : String} {m : TaskAnnouncementMessage}
    (hkey : x.config.orchestratorPublicKey = some key)
    (hread : announcementFromSlice payload = some m)
    (hverify : verifyAnnouncementMessage x.api m key = .ok ()) :
    handleGossipMessage x payload = .ok m.announcement := by
  unfold handleGossipMessage parseSignedAnnouncement
  simp only [hkey, hread, hverify]
  rfl

theorem toOption_map_eq_some {α β : Type} {r : Except String α} {f : α → β} {b : β}
    (h : r.toOption.map f = some b) : ∃ a, r = .ok a ∧ f a = b := by
  cases r with
  | error e => cases h
  | ok a => exact ⟨a, rfl, Option.some.inj h⟩

theorem heard_signed (ht : Trusts x signed) {a : TaskAnnouncement} {instant : ℚ}
    (h : heard x e = some (a, instant)) : SignedAnnouncement signed a := by
  obtain ⟨key, hkey, hi⟩ := ht
  have hparse : ∃ payload, parseSignedAnnouncement x payload key = .ok a := by
    unfold heard at h
    split at h
    · obtain ⟨b, hb, hab⟩ := toOption_map_eq_some h
      cases hab
      unfold handleGossipMessage at hb
      rw [hkey] at hb
      exact ⟨_, hb⟩
    · split_ifs at h
      obtain ⟨b, hb, hab⟩ := toOption_map_eq_some h
      cases hab
      unfold handleAnnounceStream at hb
      rw [hkey] at hb
      exact ⟨_, Fallible.mapError_eq_ok.mp hb⟩
    · cases h
  obtain ⟨payload, hpayload⟩ := hparse
  obtain ⟨m, hverify, rfl⟩ := parseSignedAnnouncement_ok hpayload
  exact announcement_signed hi hverify

/-- A sub-task is taken from a message of the orchestrator. -/
theorem taken_dispatch {subTask : SubTask} {pubkey : String} {nowMs : UInt64}
    (h : taken x e = some (subTask, pubkey, nowMs)) :
    ∃ payload, e = .dispatch x.orchestratorPeerId payload nowMs ∧
      handleDispatchStream x.api x.config payload = .ok (subTask, pubkey) := by
  unfold taken at h
  split at h
  case h_2 => cases h
  case h_1 peerId payload nowMs' =>
    split_ifs at h with hp
    obtain ⟨r, hr, hab⟩ := toOption_map_eq_some h
    cases hab
    exact ⟨payload, by rw [hp], hr⟩

/-- The event is a step of the node by itself, or the orchestrator signed the message. -/
inductive Genuine (x : Setup) (signed : Set Bytes) : Event → Prop
  | node (a : NodeMachine.Act) : Genuine x signed (.node a)
  | announcement {e : Event} {a : TaskAnnouncement} {instant : ℚ}
      (hear : heard x e = some (a, instant)) (signature : SignedAnnouncement signed a) :
      Genuine x signed e
  | dispatch {e : Event} {subTask : SubTask} {pubkey : String} {nowMs : UInt64} {p : Bytes}
      (take : taken x e = some (subTask, pubkey, nowMs)) (signature : p ∈ signed)
      (bytes : serializeDispatchPayload x.config.payload subTask = .ok p) : Genuine x signed e

theorem accepted_genuine (ht : Trusts x signed) (h : accepted x e = true) : Genuine x signed e := by
  unfold accepted at h
  split at h
  · exact .node _
  · rw [Bool.or_eq_true, Option.isSome_iff_exists, Option.isSome_iff_exists] at h
    rcases h with ⟨⟨a, instant⟩, hear⟩ | ⟨⟨subTask, pubkey, nowMs⟩, take⟩
    · exact .announcement hear (heard_signed ht hear)
    · obtain ⟨key, hkey, hi⟩ := ht
      obtain ⟨payload, rfl, hhandle⟩ := taken_dispatch take
      obtain ⟨message, p, -, rfl, hpubkey, hbytes, hverify⟩ := handleDispatchStream_ok hhandle
      obtain rfl : key = pubkey := Option.some.inj (hkey.symm.trans hpubkey)
      exact .dispatch take (signed_of_verify hi hverify) hbytes

end Signed

/-! ### The ledger -/

section Ledger

/-- The estimates in the ledger are not negative. -/
structure Sound (l : WorkLedger) : Prop where
  held : ∀ id h, l.held.lookup id = some h → h.Sound
  reserved : ∀ id r, l.reserved.lookup id = some r → 0 ≤ r.1

variable {l : WorkLedger}

theorem sound_empty : Sound .empty where
  held _ _ h := by cases h
  reserved _ _ h := by cases h

theorem counts_nonneg {h : Held} (hs : h.Sound) {now u : ℚ} (hu : 0 ≤ u) : 0 ≤ h.counts now u :=
  (Held.remaining_nonneg hs hu).trans (Held.remaining_le_counts hs)

theorem Sound.queuedSecs (hl : Sound l) {now u : ℚ} (hu : 0 ≤ u) : 0 ≤ l.queuedSecs now u := by
  unfold WorkLedger.queuedSecs
  have hheld : 0 ≤ Table.sumOf l.held fun _ h => h.counts now u :=
    Table.sumOf_nonneg fun id h hh => counts_nonneg (hl.held id h hh) hu
  have hreserved : 0 ≤ Table.sumOf (Table.retain l.reserved (WorkLedger.live now)) fun _ r => r.1 := by
    refine Table.sumOf_nonneg fun id r hr => ?_
    rw [Table.lookup_retain, Option.filter_eq_some_iff] at hr
    exact hl.reserved id r hr.1
  exact add_nonneg hheld hreserved

theorem Sound.purge (hl : Sound l) (now : ℚ) :
    Sound { l with reserved := Table.retain l.reserved (WorkLedger.live now) } where
  held := hl.held
  reserved id r hr := by
    rw [Table.lookup_retain, Option.filter_eq_some_iff] at hr
    exact hl.reserved id r hr.1

theorem Sound.hold (hl : Sound l) (id : String) (parent : Option String) {budget : Option Budget}
    (hb : ∀ b ∈ budget, 0 ≤ b.expectedSecs) : Sound (l.hold id parent budget) where
  held id' h hh := by
    simp only [WorkLedger.hold, Table.lookup_insert_if] at hh
    split_ifs at hh
    · cases hh
      intro expected hexp
      obtain ⟨b, hbudget, rfl⟩ := Option.map_eq_some_iff.mp hexp
      exact hb b hbudget
    · exact hl.held id' h hh
  reserved id' r hr := by
    cases parent with
    | none => exact hl.reserved id' r hr
    | some p =>
      simp only [WorkLedger.hold, Table.lookup_erase_if] at hr
      split_ifs at hr
      exact hl.reserved id' r hr

theorem Sound.start (hl : Sound l) (id : String) (now : ℚ) : Sound (l.start id now) where
  held id' h hh := by
    rw [WorkLedger.start, Table.lookup_adjust] at hh
    obtain ⟨h', hh', rfl⟩ := Option.map_eq_some_iff.mp hh
    have hs : h'.Sound := hl.held id' h' hh'
    split_ifs
    · exact hs
    · exact hs
  reserved := hl.reserved

theorem Sound.release (hl : Sound l) (id : String) : Sound (l.release id) where
  held id' h hh := by
    rw [WorkLedger.release, Table.lookup_erase_if] at hh
    split_ifs at hh
    exact hl.held id' h hh
  reserved := hl.reserved

/-- **What a step of the node does to the ledger**: it leaves the budgets announced alone or, when the
process stops, the ledger empty; and it keeps the estimates sound, if those of the tasks are. -/
theorem step_work {env : Env} {P : ComputeTask → Prop} {a : NodeMachine.Act}
    (hP : ∀ task, P task → ∀ b ∈ task.budget, 0 ≤ b.expectedSecs) (he : Everywhere P env s)
    (hl : Sound s.work) (h : NodeMachine.step env s a = some s') :
    (a ≠ .crash ∧ s'.work.announced = s.work.announced ∨ s'.work = .empty) ∧ Sound s'.work := by
  cases step_move h with
  | @restored q todo main =>
    refine ⟨.inl ⟨by simp, rfl⟩, hl.hold _ _ (hP _ (he.main q ?_))⟩
    simp [main, NodeInvariants.restoring]
  | @accept i c acc _ call move =>
    cases move with
    | held pc =>
      refine ⟨.inl ⟨by simp, rfl⟩, hl.hold _ _ (hP _ (he.calls acc (List.mem_of_getElem? call) ?_))⟩
      simp [pc]
    | released pc => exact ⟨.inl ⟨by simp, rfl⟩, hl.release _⟩
    | _ => exact ⟨.inl ⟨by simp, rfl⟩, hl⟩
  | worker move =>
    cases move with
    | started pc => exact ⟨.inl ⟨by simp, rfl⟩, hl.start _ _⟩
    | released pc => exact ⟨.inl ⟨by simp, rfl⟩, hl.release _⟩
    | _ => exact ⟨.inl ⟨by simp, rfl⟩, hl⟩
  | retry =>
    have hwork := (retryStep_frame h).2.2.2.2.2.1
    rw [hwork]
    exact ⟨.inl ⟨by simp, rfl⟩, hl⟩
  | crashed => exact ⟨.inr rfl, sound_empty⟩
  | _ => exact ⟨.inl ⟨by simp, rfl⟩, hl⟩

/-- **What a bid does to the ledger**: nothing, or it judges the announced work. -/
theorem submitBid_ledger (gates : List String) (config : NodeConfig) (l : WorkLedger)
    (a : TaskAnnouncement) (now : ℚ) :
    (submitBid gates config l a now).ledger = l ∨ ∃ work rates, a.work = some work ∧
      config.tnRates = some rates ∧ (submitBid gates config l a now).ledger =
        (l.decide a.taskId work (a.deadlineSecs.getD 0) (config.policy rates) now).1 := by
  unfold submitBid
  simp only
  split_ifs
  · exact .inl rfl
  · split
    case h_1 work rates hw hr =>
      refine .inr ⟨work, rates, hw, hr, ?_⟩
      split <;> simp_all
    case h_2 => exact .inl rfl

end Ledger

/-! ### What a task goes back to -/

section Past

variable (x) (signed : Set Bytes)

/-- An announcement for the parent, signed with its work, was heard, and the node's ledger of that
time judged it to fit, with this budget; the process has not stopped since. -/
inductive Announced (parent : String) (b : Budget) : List Event → Prop
  | judged {earlier later : List Event} {e : Event} {a : TaskAnnouncement} {instant : ℚ}
      {work : Work} {rates : TnRates} {p : Bytes} {s : Node} (alive : .node .crash ∉ later)
      (hear : heard x e = some (a, instant)) (task : a.taskId = parent) (signature : p ∈ signed)
      (payload : serializeAnnouncementPayloadV2 a = some p) (hasWork : a.work = some work)
      (deadline : a.deadlineSecs = some b.deadlineSecs) (hasRates : x.bids.tnRates = some rates)
      (reached : run (step x) init earlier = some s)
      (decision : s.work.decide parent work b.deadlineSecs (x.bids.policy rates) instant =
        ((submitBid x.env.supportedGates x.bids s.work a instant).ledger, .ok b)) :
      Announced parent b (earlier ++ e :: later)

/-- The task is as a sub-task the orchestrator signed and sent was prepared, and its budget, with the
estimate as a double, was announced before. -/
inductive Vouched (task : ComputeTask) : List Event → Prop
  | dispatched {before after : List Event} {payload p : Bytes} {nowMs : UInt64}
      {message : TaskDispatchMessage} {pubkey : String}
      (read : messageFromSlice x.config.json payload = some message) (signature : p ∈ signed)
      (bytes : serializeDispatchPayload x.config.payload message.subTask = .ok p)
      (key : x.config.orchestratorPublicKey = some pubkey)
      (prepared : prepare x.env (message.subTask.intoComputeRequest x.config.peerId) pubkey
        task.budget nowMs = .ok task)
      (budget : ∀ b ∈ task.budget, ∃ announced,
        Announced x signed message.subTask.parentTaskId announced before ∧
          b = x.config.json.round announced) :
      Vouched task (before ++ .dispatch x.orchestratorPeerId payload nowMs :: after)

variable {x signed} {past : List Event}

theorem Announced.snoc {parent : String} {b : Budget} (h : Announced x signed parent b past)
    (he : e ≠ .node .crash) : Announced x signed parent b (past ++ [e]) := by
  obtain ⟨alive, hear, task, signature, payload, work, deadline, rates, reached, decision⟩ := h
  rw [List.append_assoc, List.cons_append]
  refine .judged (fun hmem => ?_) hear task signature payload work deadline rates reached decision
  rcases List.mem_append.mp hmem with hmem | hmem
  · exact alive hmem
  · exact he (List.mem_singleton.mp hmem).symm

theorem Vouched.snoc {task : ComputeTask} (h : Vouched x signed task past) (e : Event) :
    Vouched x signed task (past ++ [e]) := by
  obtain ⟨read, signature, bytes, key, prepared, budget⟩ := h
  rw [List.append_assoc, List.cons_append]
  exact .dispatched read signature bytes key prepared budget

/-- The rates are what `TnRates::from_sysinfo` makes of two numbers, the other settings are those
`NodeConfig::from_env` lets through. -/
structure Admits (x : Setup) : Prop where
  rates : ∃ perByte perFlop, x.bids.tnRates = TnRates.fromSysinfo perByte perFlop
  overhead : 0 ≤ x.bids.workOverheadSecs
  unknown : 0 ≤ x.bids.workUnknownSecs
  margin_pos : 0 < x.bids.workBudgetMargin
  margin_le : x.bids.workBudgetMargin ≤ 1

theorem Admits.policy (ha : Admits x) {rates : TnRates} (h : x.bids.tnRates = some rates) :
    (x.bids.policy rates).Admitted := by
  obtain ⟨perByte, perFlop, hrates⟩ := ha.rates
  obtain ⟨hbyte, hflop⟩ := TnRates.fromSysinfo_pos (hrates.symm.trans h)
  exact ⟨hbyte, hflop, ha.overhead, ha.unknown, ha.margin_pos, ha.margin_le⟩

theorem Announced.nonneg (ha : Admits x) {parent : String} {b : Budget}
    (h : Announced x signed parent b past) : 0 ≤ b.expectedSecs := by
  obtain ⟨-, -, -, -, -, -, -, rates, -, decision⟩ := h
  obtain ⟨-, hb, -⟩ := WorkLedger.decide_ok decision
  rw [hb]
  exact WorkLedger.own_nonneg (ha.policy rates) _

theorem Vouched.budget_nonneg (hsecs : x.config.json.Rounds) (ha : Admits x) {task : ComputeTask}
    (h : Vouched x signed task past) : ∀ b ∈ task.budget, 0 ≤ b.expectedSecs := by
  intro b hb
  obtain ⟨-, -, -, -, -, budget⟩ := h
  obtain ⟨announced, hannounced, rfl⟩ := budget b hb
  exact hsecs.round_nonneg (hannounced.nonneg ha)

/-- What the events so far have led to. -/
structure Inv (x : Setup) (signed : Set Bytes) (past : List Event) (s : Node) : Prop where
  reached : run (step x) init past = some s
  tasks : Everywhere (fun task => Vouched x signed task past) x.env s
  announced : ∀ parent b at', s.work.announced.lookup parent = some (b, at') →
    Announced x signed parent b past ∧ b.expectedSecs ≤ b.deadlineSecs.toNat
  sound : Sound s.work

theorem inv_init : Inv x signed [] init where
  reached := rfl
  tasks := everywhere_init
  announced _ _ _ h := by cases h
  sound := sound_empty

/-- What an announcement leaves in the ledger. -/
theorem bid_inv (ht : Trusts x signed) (ha : Admits x) (hi : Inv x signed past s)
    {a : TaskAnnouncement} {instant : ℚ} (hear : heard x e = some (a, instant)) {l : WorkLedger}
    (hl : l = (submitBid x.env.supportedGates x.bids s.work a instant).ledger) :
    Sound l ∧ ∀ parent b at', l.announced.lookup parent = some (b, at') →
      Announced x signed parent b (past ++ [e]) ∧ b.expectedSecs ≤ b.deadlineSecs.toNat := by
  have hne : e ≠ .node .crash := by
    rintro rfl
    cases hear
  have hold : ∀ parent b at', s.work.announced.lookup parent = some (b, at') →
      Announced x signed parent b (past ++ [e]) ∧ b.expectedSecs ≤ b.deadlineSecs.toNat :=
    fun parent b at' h => ⟨(hi.announced parent b at' h).1.snoc hne, (hi.announced parent b at' h).2⟩
  rcases submitBid_ledger x.env.supportedGates x.bids s.work a instant with
    hsame | ⟨work, rates, hw, hr, hdec⟩
  · rw [hl, hsame]
    exact ⟨hi.sound, hold⟩
  · have hp := ha.policy hr
    rcases hd : s.work.decide a.taskId work (a.deadlineSecs.getD 0) (x.bids.policy rates) instant
      with ⟨l', total | b⟩
    · rw [hdec, hd] at hl
      obtain rfl : l = l' := hl
      rw [WorkLedger.decide_error hd]
      exact ⟨hi.sound.purge instant, hold⟩
    · have hledger : (submitBid x.env.supportedGates x.bids s.work a instant).ledger = l' := by
        rw [hdec, hd]
      obtain rfl : l = l' := hl.trans hledger
      obtain ⟨hfits, hb, hheld, hannounced, hreserved⟩ := WorkLedger.decide_ok hd
      have hown := WorkLedger.own_nonneg hp work
      refine ⟨⟨fun id h hh => hi.sound.held id h (hheld ▸ hh), fun id r hr => ?_⟩,
        fun parent b' at' hb' => ?_⟩
      · rw [hreserved, Table.lookup_insert_if] at hr
        split_ifs at hr
        · cases hr
          exact hown
        · exact (hi.sound.purge instant).reserved id r hr
      · rw [hannounced, Table.lookup_insert_if] at hb'
        split_ifs at hb' with hparent
        · cases hb'
          obtain ⟨p, hsigned, hpayload⟩ | ⟨hnone, -⟩ := heard_signed ht hear
          case inr => simp [hnone] at hw
          obtain ⟨-, d, -, hdeadline, -⟩ := payloadV2_eq_some.mp hpayload
          rw [hdeadline, Option.getD_some] at hd hfits hb
          have hd' : b.deadlineSecs = d := by rw [hb]
          have hqueue : 0 ≤ s.work.queuedSecs instant (x.bids.policy rates).unknownSecs :=
            hi.sound.queuedSecs hp.unknown
          have hlimit := WorkLedger.limit_le_deadline hp d
          refine ⟨.judged List.not_mem_nil hear hparent.symm hsigned hpayload hw (hd' ▸ hdeadline) hr
            hi.reached ?_, ?_⟩
          · rw [hledger, hd', hparent]
            exact hd
          · rw [hb]
            simp only
            linarith
        · rw [Table.lookup_retain, Option.filter_eq_some_iff] at hb'
          exact hold parent b' at' hb'.1

section Step

variable {errorText : String → String} (hjson : x.config.json.floats.RoundTrips)
  (hsecs : x.config.json.Rounds) (hserde : x.env.serde = serde x.config.json errorText)
  (ht : Trusts x signed) (ha : Admits x)

include hsecs ha in
theorem node_inv (hi : Inv x signed past s) {a : NodeMachine.Act} (hreached : step x s e = some s')
    (h : NodeMachine.step x.env s a = some s') (hcrash : e = .node .crash → a = .crash)
    (hprep : Prepares (fun task => Vouched x signed task (past ++ [e])) x.env a) :
    Inv x signed (past ++ [e]) s' := by
  have htasks : Everywhere (fun task => Vouched x signed task (past ++ [e])) x.env s :=
    hi.tasks.mono fun task hv => hv.snoc e
  obtain ⟨hannounced, hsound⟩ :=
    step_work (fun task hv => Vouched.budget_nonneg hsecs ha hv) htasks hi.sound h
  refine ⟨run_snoc hi.reached hreached, step_everywhere htasks hprep h,
    fun parent b at' hb => ?_, hsound⟩
  rcases hannounced with ⟨hne, hsame⟩ | hempty
  · rw [hsame] at hb
    obtain ⟨hannounced, hle⟩ := hi.announced parent b at' hb
    exact ⟨hannounced.snoc fun he => hne (hcrash he), hle⟩
  · rw [hempty] at hb
    cases hb

include hjson hsecs hserde ht ha in
/-- A dispatch prepares a task that is vouched for. -/
theorem prepares_taken (hi : Inv x signed past s) {subTask : SubTask} {pubkey : String}
    {nowMs : UInt64} (htake : taken x e = some (subTask, pubkey, nowMs)) :
    Prepares (fun task => Vouched x signed task (past ++ [e])) x.env
      (.dispatch (subTask.intoComputeRequest x.config.peerId) pubkey
        ((s.work.budget subTask.parentTaskId).map x.config.json.round) nowMs) := by
  obtain ⟨key, hkey, hi'⟩ := ht
  obtain ⟨payload, rfl, hhandle⟩ := taken_dispatch htake
  obtain ⟨message, p, hread, rfl, hpubkey, hbytes, hverify⟩ := handleDispatchStream_ok hhandle
  obtain rfl : key = pubkey := Option.some.inj (hkey.symm.trans hpubkey)
  have hbudget : ∀ b ∈ (s.work.budget message.subTask.parentTaskId).map x.config.json.round,
      ∃ announced, (Announced x signed message.subTask.parentTaskId announced past ∧
        announced.expectedSecs ≤ announced.deadlineSecs.toNat) ∧
          b = x.config.json.round announced := by
    intro b hb
    obtain ⟨announced, hannounced, rfl⟩ := Option.map_eq_some_iff.mp hb
    obtain ⟨⟨b', at'⟩, hlookup, rfl⟩ := Option.map_eq_some_iff.mp hannounced
    exact ⟨b', hi.announced _ _ at' hlookup, rfl⟩
  rintro request pubkey' budget nowMs' task hact hprep
  cases hact
  obtain ⟨-, -, rfl⟩ := prepare_ok hprep
  refine ⟨.dispatched hread (signed_of_verify hi' hverify) hbytes hkey hprep fun b hb => ?_, ?_⟩
  · obtain ⟨announced, ⟨hannounced, -⟩, rfl⟩ := hbudget b hb
    exact ⟨announced, hannounced, rfl⟩
  · obtain ⟨hsorted, hreadable⟩ := request_readable hread x.config.peerId
    rw [hserde]
    refine prepared_readsBack hjson hsorted hreadable (fun b hb => ?_) hprep
    obtain ⟨announced, ⟨hannounced, hle⟩, rfl⟩ := hbudget b hb
    exact hsecs.round_exact (hannounced.nonneg ha) hle

include hjson hsecs hserde ht ha in
/-- **One event.** -/
theorem step_inv (hi : Inv x signed past s) (h : step x s e = some s') :
    Inv x signed (past ++ [e]) s' := by
  have hreached := run_snoc hi.reached h
  cases step_received h with
  | @stepped a _ other hstep =>
    refine node_inv hsecs ha hi h hstep (fun he => by cases he; rfl) ?_
    rintro request pubkey budget nowMs task rfl
    cases other
  | rejected reject =>
    have hne : e ≠ .node .crash := by
      rintro rfl
      cases reject
    refine ⟨hreached, hi.tasks.mono fun task hv => hv.snoc e, fun parent b at' hb => ?_, hi.sound⟩
    obtain ⟨hannounced, hle⟩ := hi.announced parent b at' hb
    exact ⟨hannounced.snoc hne, hle⟩
  | announced hear =>
    obtain ⟨hsound, hannounced⟩ := bid_inv ht ha hi hear rfl
    have he := hi.tasks.mono fun task hv => hv.snoc e
    exact ⟨hreached, ⟨he.rows, he.calls, he.unsaved, he.queue, he.main, he.worker, he.retry⟩,
      hannounced, hsound⟩
  | dispatched htake hstep =>
    refine node_inv hsecs ha hi h hstep (fun he => ?_) (prepares_taken hjson hsecs hserde ht ha hi htake)
    subst he
    cases htake

include hjson hsecs hserde ht ha in
theorem run_ingress {events : List Event} (h : run (step x) init events = some s) :
    Inv x signed events s :=
  run_inv_past (fun _ _ _ _ hi _ h => step_inv hjson hsecs hserde ht ha hi h) inv_init
    (fun _ _ => trivial) h

include hjson hsecs hserde ht ha in
/-- **Main result.** In every run, on any bytes from any peers and through any crashes, each task the
node has is as a sub-task the orchestrator signed was prepared, on a budget the orchestrator
announced before and the node's ledger judged to fit; and a restart can read all the pending tasks. -/
theorem tasks_vouched {events : List Event} (h : run (step x) init events = some s) :
    Everywhere (fun task => Vouched x signed task events) x.env s ∧
      ∃ tasks, s.storage.getPendingTasks x.env.serde = .ok tasks ∧
        ∀ t ∈ tasks, Vouched x signed t.2 events := by
  have hi := run_ingress hjson hsecs hserde ht ha h
  exact ⟨hi.tasks, getPendingTasks_ok hi.tasks⟩

include hjson hserde in
/-- The JSON of two tasks the node has matches exactly if their requests do. -/
theorem matches_iff {past past' : List Event} {t t' : ComputeTask} (hv : Vouched x signed t past)
    (hv' : Vouched x signed t' past') :
    dispatchPayloadMatches x.env.serde t t' = true ↔ t.request = t'.request := by
  obtain ⟨read, -, -, key, prepared, -⟩ := hv
  obtain ⟨read', -, -, key', prepared', -⟩ := hv'
  cases key.symm.trans key'
  obtain ⟨hs, hr⟩ := request_readable read x.config.peerId
  obtain ⟨hs', hr'⟩ := request_readable read' x.config.peerId
  obtain ⟨ht, hrt⟩ := prepared_readable hs hr prepared
  obtain ⟨ht', hrt'⟩ := prepared_readable hs' hr' prepared'
  rw [dispatchPayloadMatches_iff hjson hserde ht hrt ht' hrt']
  obtain ⟨-, -, hprep⟩ := prepare_ok prepared
  obtain ⟨-, -, hprep'⟩ := prepare_ok prepared'
  constructor
  · rintro ⟨-, h⟩
    -- both requests have this node's id
    have hnode : t.request.nodeId = t'.request.nodeId := by rw [hprep, hprep']
    calc t.request = { withoutNode t.request with nodeId := t.request.nodeId } := rfl
      _ = { withoutNode t'.request with nodeId := t'.request.nodeId } := by rw [h, hnode]
      _ = t'.request := rfl
  · intro h
    refine ⟨?_, by rw [h]⟩
    rw [hprep, hprep']

include hjson hsecs hserde ht ha in
/-- **Main result.** In every run, a dispatch whose task is stored is confirmed exactly if the stored
request is its own, and refused otherwise, both when the call looks its task up first and when its
row runs into the stored one. -/
theorem duplicate_confirmed_iff {events : List Event} (h : run (step x) init events = some s) {i : ℕ}
    {acc : Accept} {existing : ComputeTask} {c : Choice} {s' : Node} (hcall : s.accepts[i]? = some acc)
    (hpc : acc.pc = .lookup ∨ ∃ text, acc.pc = .conflict text)
    (hload : loads x.env s c acc = .ok (some existing))
    (hstep : step x s (.node (.accept i c)) = some s') :
    ∃ result, s'.accepts = s.accepts.set i { acc with pc := .done result } ∧
      (result = .ok () ↔ existing.request = acc.task.request) := by
  have hi := run_ingress hjson hsecs hserde ht ha h
  have hmine : Vouched x signed acc.task events := by
    refine hi.tasks.calls acc (List.mem_of_getElem? hcall) fun text hdone => ?_
    rcases hpc with hpc | ⟨text', hpc⟩
    · simp [hpc] at hdone
    · simp [hpc] at hdone
  have hstored : Vouched x signed existing events := by
    unfold loads at hload
    cases hsql : c.sql with
    | some e =>
      rw [hsql] at hload
      cases hload
    | none =>
      rw [hsql] at hload
      exact loaded_prepared hi.tasks hload
  have hmatch := matches_iff hjson hserde hstored hmine
  unfold step at hstep
  simp only [isDispatch] at hstep
  obtain ⟨acc', hcall', hmove⟩ := acceptStep_move hstep
  cases hcall.symm.trans hcall'
  rcases hpc with hpc | ⟨text, hpc⟩
  · cases hmove with
    | duplicate pc load =>
      cases hload.symm.trans load
      refine ⟨_, rfl, ?_⟩
      unfold duplicateResult
      by_cases heq : existing.request = acc.task.request
      · simp [hmatch.mpr heq, heq]
      · have hne : dispatchPayloadMatches x.env.serde existing acc.task = false := by
          rw [← Bool.not_eq_true]
          exact fun hm => heq (hmatch.mp hm)
        simp [hne, heq]
    | lookupFailed pc load | absent pc load => cases hload.symm.trans load
    | _ pc => simp [hpc] at pc
  · cases hmove with
    | sameTask pc load same =>
      cases hload.symm.trans load
      exact ⟨_, rfl, by simp [hmatch.mp same]⟩
    | otherTask pc other =>
      refine ⟨_, rfl, ?_⟩
      have hne : existing.request ≠ acc.task.request := fun heq => by
        have hm := hmatch.mpr heq
        rw [other existing hload] at hm
        cases hm
      simp [hne]
    | _ pc => simp [hpc] at pc

end Step

end Past

/-! ### Steps that are accepted -/

theorem step_gossip {data : Bytes} {instant : ℚ} {a : TaskAnnouncement} (hmain : s.main = .running)
    (h : handleGossipMessage x data = .ok a) : step x s (.gossip data instant) =
      some { s with work := (submitBid x.env.supportedGates x.bids s.work a instant).ledger } := by
  simp only [step, hmain, receive, h, bidOn]

theorem step_dispatch {payload : Bytes} {nowMs : UInt64} {subTask : SubTask} {pubkey : String}
    (hmain : s.main = .running)
    (h : handleDispatchStream x.api x.config payload = .ok (subTask, pubkey)) :
    step x s (.dispatch x.orchestratorPeerId payload nowMs) =
      NodeMachine.step x.env s (.dispatch (subTask.intoComputeRequest x.config.peerId) pubkey
        ((s.work.budget subTask.parentTaskId).map x.config.json.round) nowMs) := by
  simp only [step, hmain, receive, h, take, ne_eq, not_true_eq_false, if_false]

theorem accepted_gossip {data : Bytes} {instant : ℚ} {a : TaskAnnouncement}
    (h : handleGossipMessage x data = .ok a) : accepted x (.gossip data instant) = true := by
  simp [accepted, heard, h, Except.toOption]

/-! ### What is rejected -/

section Elsewhere

variable {peerId : String} {payload : Bytes} (h : peerId ≠ x.orchestratorPeerId)

include h

theorem accepted_announce_elsewhere {instant : ℚ} :
    accepted x (.announce peerId payload instant) = false := by
  simp [accepted, heard, taken, h]

theorem accepted_dispatch_elsewhere {nowMs : UInt64} :
    accepted x (.dispatch peerId payload nowMs) = false := by
  simp [accepted, heard, taken, h]

theorem step_announce_elsewhere {instant : ℚ} (hmain : s.main = .running) :
    step x s (.announce peerId payload instant) = some s := by
  simp only [step, hmain, receive, ne_eq, h, not_false_eq_true, if_true]

theorem step_dispatch_elsewhere {nowMs : UInt64} (hmain : s.main = .running) :
    step x s (.dispatch peerId payload nowMs) = some s := by
  simp only [step, hmain, receive, ne_eq, h, not_false_eq_true, if_true]

end Elsewhere

theorem step_rejected (hr : accepted x e = false) (h : step x s e = some s') : s' = s := by
  cases step_received h with
  | stepped => cases hr
  | rejected => rfl
  | announced hear =>
    unfold accepted at hr
    split at hr
    · cases hear
    · rw [hear] at hr
      cases hr
  | dispatched htake =>
    unfold accepted at hr
    split at hr
    · cases htake
    · rw [htake, Bool.or_eq_false_iff] at hr
      cases hr.2

/-- **Main result.** Every run ends as it does without the messages that are not accepted, and each
event that is left is a step of the node by itself or signed by the orchestrator. -/
theorem rejected_leave_no_trace {signed : Set Bytes} (ht : Trusts x signed) {events : List Event}
    (h : run (step x) init events = some s) :
    run (step x) init (events.filter (accepted x)) = some s ∧
      ∀ e ∈ events.filter (accepted x), Genuine x signed e :=
  ⟨run_filter (fun _ _ _ hr h => step_rejected hr h) h,
    fun _ he => accepted_genuine ht (List.mem_filter.mp he).2⟩

/-! ### An announcement and its dispatch

The announcement of the tests, and a dispatch signed by the same key. -/

section Sample

open WqcNode.Domain.DispatchTail

def sampleRates : TnRates := ⟨1 / 2 ^ 33, 1 / 38000000000⟩

def dispatchedTask : SubTask :=
  { (default : SubTask) with
    taskId := "t-0"
    parentTaskId := "t"
    circuitId := "c"
    qubitCount := 2
    originalQubitCount := 2
    sliceId := "s"
    circuit := [⟨"H", .array [.number (.posInt 1)]⟩]
    requiredVotes := 2 }

def dispatchedPayload : Bytes :=
  ((serializeDispatchPayload sampleSerde dispatchedTask).toOption).getD []

def dispatchSignature : String :=
  "DXc57vcBdrWgJ02u+FiBIienh7emz78AnxQtxCBxosfQ/wMZd0pRmUSNzH78hy/hbeJ/prwc6gvtQxange06Cw=="

def dispatchSignatureBytes : Bytes :=
  be 64
    0xd7739eef70176b5a0274daef858812227a787b7a6cfbf009f142dc42071a2c7d0ff0319774a5199448dcc7efc872fe16de27fa6bc1cea0bed4316a781ed3a0b

def sampleRows : List (String × Bytes × Bytes) :=
  [(goldenSignature, goldenSignatureBytes, serializeAnnouncementPayload golden),
    (goldenSignatureV2, goldenSignatureV2Bytes,
      serializeAnnouncementPayload golden ++ workBytes 300 ⟨2 ^ 40, 38000000000⟩),
    (dispatchSignature, dispatchSignatureBytes, dispatchedPayload)]

/-- The payloads of the rows are those signed. -/
def payloadsOf (rows : List (String × Bytes × Bytes)) : Set Bytes := { p | ∃ row ∈ rows, row.2.2 = p }

def sampleSetup : Setup where
  env :=
    { maxQubits := 28
      maxMpsQubits := 2048
      computeTimeoutSecs := 300
      peerId := "node-a"
      supportedGates := ["H", "RX", "NETWORK_GATE_SPLIT"]
      serde := serde sampleJson id
      serdeError := fun _ => "invalid type: null, expected struct Gate"
      buildResultWireBody := fun _ _ _ => .error "no result"
      extractProofFromResultWire := fun _ => .error "no result" }
  api := tableCrypto sampleRows
  config := ⟨some goldenKey, "node-a", fun _ => "expected value at line 1 column 1", sampleJson,
    sampleSerde⟩
  bids := { ratedConfig with tnRates := some sampleRates }
  orchestratorPeerId := "orch-peer"
  announcementError _ := "expected value at line 1 column 1"

def announcementDoc : Document ℕ :=
  .object [("announcement", .object [("task_id", .string "t"), ("global_qubit_count", .number 100),
      ("required_features", .number 27), ("bid_difficulty", .number 1),
      ("required_votes", .number 2), ("nonce", .number 9), ("deadline_secs", .number 300),
      ("work", .object [("traffic_bytes", .number (2 ^ 40)), ("flops", .number 38000000000)])]),
    ("signature", .string goldenSignature), ("signature_v2", .string goldenSignatureV2)]

def dispatchDoc : Document ℕ :=
  .object [("sub_task", .object [("task_id", .string "t-0"), ("parent_task_id", .string "t"),
      ("circuit_id", .string "c"), ("qubit_count", .number 2), ("original_qubit_count", .number 2),
      ("slice_id", .string "s"),
      ("circuit", .array [.object [("type", .string "H"), ("params", .array [.number 1])]]),
      ("required_votes", .number 2)]),
    ("signature", .string dispatchSignature)]

/-- The bytes of a message. -/
def wire (doc : Document ℕ) : Bytes := toVec (Nat.toDigits 10) doc

theorem fromSliceAs_wire (shape : Shape) (doc : Document ℕ) :
    fromSliceAs shape (wire doc) = some (restrict shape (doc.map Decimal.ofNat)) :=
  fromSliceAs_toVec (fun n _ => ⟨(Decimal.ofNat_text n).symm, Decimal.ofNat_isJson n⟩) shape

theorem read_announcement : announcementFromSlice (wire announcementDoc) =
    some ⟨golden, goldenSignature, some goldenSignatureV2⟩ := by
  rw [announcementFromSlice, fromSliceAs_wire]
  decide +kernel

theorem read_dispatch : messageFromSlice sampleSetup.config.json (wire dispatchDoc) =
    some ⟨dispatchedTask, dispatchSignature⟩ := by
  rw [messageFromSlice, fromSliceAs_wire]
  rfl

theorem handle_announcement : handleGossipMessage sampleSetup (wire announcementDoc) = .ok golden :=
  handleGossipMessage_ok rfl read_announcement (by decide +kernel)

theorem handle_dispatch : handleDispatchStream sampleSetup.api sampleSetup.config (wire dispatchDoc) =
    .ok (dispatchedTask, goldenKey) :=
  handleDispatchStream_of rfl read_dispatch (by rfl) (by decide +kernel)

theorem sample_trusts : Trusts sampleSetup (payloadsOf sampleRows) := by
  refine ⟨goldenKey, rfl, goldenKeyBytes, goldenKeyBytes, by decide +kernel, by decide +kernel, rfl,
    fun p signature h => ?_, fun p hp => ?_⟩
  · have hboth : (goldenKeyBytes == goldenKeyBytes && sampleRows.any (·.2 == (signature, p))) = true := h
    have hrow := (Bool.and_eq_true_iff.mp hboth).2
    obtain ⟨row, hmem, heq⟩ := List.any_eq_true.mp hrow
    exact ⟨row, hmem, by rw [eq_of_beq heq]⟩
  · obtain ⟨row, hmem, rfl⟩ := hp
    simp only [sampleRows, List.mem_cons, List.not_mem_nil, or_false] at hmem
    rcases hmem with rfl | rfl | rfl
    · exact ⟨goldenSignature, goldenSignatureBytes, goldenSignatureBytes, by decide +kernel, rfl,
        by decide +kernel⟩
    · exact ⟨goldenSignatureV2, goldenSignatureV2Bytes, goldenSignatureV2Bytes, by decide +kernel,
        rfl, by decide +kernel⟩
    · exact ⟨dispatchSignature, dispatchSignatureBytes, dispatchSignatureBytes, by decide +kernel, rfl,
        by decide +kernel⟩

theorem sample_admits : Admits sampleSetup where
  rates := ⟨some sampleRates.secondsPerByte, some sampleRates.secondsPerFlop, by decide +kernel⟩
  overhead := by decide +kernel
  unknown := by decide +kernel
  margin_pos := by decide +kernel
  margin_le := by decide +kernel

/-- The node bids on the announcement, accepts the dispatch and saves its task. -/
def sampleEvents : List Event :=
  [.node .start, .node .main, .gossip (wire announcementDoc) 0,
    .dispatch "orch-peer" (wire dispatchDoc) 1700000000000, .node (.accept 0 {}),
    .node (.accept 0 {})]

theorem sample_rounds : sampleSetup.config.json.Rounds := ⟨rfl, rfl⟩

theorem sample_run : ∃ s, run (step sampleSetup) init sampleEvents = some s ∧
    s.storage.tasks.keys = [(goldenKey, "t-0")] ∧ s.accepts.map (·.task.budget) = [some ⟨300, 134⟩] := by
  refine ⟨_, run_cons_some.mpr ⟨_, rfl, run_cons_some.mpr ⟨_, rfl, run_cons_some.mpr
    ⟨_, step_gossip rfl handle_announcement, run_cons_some.mpr
      ⟨_, (step_dispatch rfl handle_dispatch).trans rfl, run_cons_some.mpr ⟨_, rfl, run_cons_some.mpr
        ⟨_, rfl, rfl⟩⟩⟩⟩⟩⟩, ?_, ?_⟩
  · decide +kernel
  · decide +kernel

theorem tasks_vouched_sample : ∃ s, run (step sampleSetup) init sampleEvents = some s ∧
    s.storage.tasks.keys = [(goldenKey, "t-0")] ∧
    Everywhere (fun task => Vouched sampleSetup (payloadsOf sampleRows) task sampleEvents)
      sampleSetup.env s := by
  obtain ⟨s, hrun, hkeys, -⟩ := sample_run
  exact ⟨s, hrun, hkeys,
    (tasks_vouched sampleFloats_roundTrips sample_rounds rfl sample_trusts sample_admits hrun).1⟩

/-- The announcement after a member no field has. -/
def annotatedDoc : Document ℕ :=
  match announcementDoc with
  | .object members => .object (("note", .array [.string "relayed", .null]) :: members)
  | doc => doc

theorem handle_annotated : handleGossipMessage sampleSetup (wire annotatedDoc) = .ok golden := by
  have hread : announcementFromSlice (wire annotatedDoc) =
      some ⟨golden, goldenSignature, some goldenSignatureV2⟩ := by
    rw [announcementFromSlice, fromSliceAs_wire]
    decide +kernel
  exact handleGossipMessage_ok rfl hread (by decide +kernel)

/-- A message on the topic is no JSON, the next is the announcement, and a peer that is not the
orchestrator repeats it and sends a dispatch. -/
def noisyEvents : List Event :=
  [.node .start, .node .main, .gossip [] 0, .gossip (wire annotatedDoc) 0,
    .announce "other-peer" (wire annotatedDoc) 0, .dispatch "other-peer" (wire dispatchDoc) 1700000000000]

theorem budget_golden : (submitBid sampleSetup.env.supportedGates sampleSetup.bids .empty golden
    0).ledger.budget "t" = some ⟨300, 134⟩ := by decide +kernel

theorem rejected_leave_no_trace_noisy : ∃ s, run (step sampleSetup) init noisyEvents = some s ∧
    s.work.budget "t" = some ⟨300, 134⟩ ∧
    noisyEvents.filter (accepted sampleSetup) =
      [.node .start, .node .main, .gossip (wire annotatedDoc) 0] ∧
    run (step sampleSetup) init (noisyEvents.filter (accepted sampleSetup)) = some s ∧
    ∀ e ∈ noisyEvents.filter (accepted sampleSetup), Genuine sampleSetup (payloadsOf sampleRows) e := by
  have hrun : ∃ s, run (step sampleSetup) init noisyEvents = some s ∧
      s.work.budget "t" = some ⟨300, 134⟩ :=
    ⟨_, run_cons_some.mpr ⟨_, rfl, run_cons_some.mpr ⟨_, rfl, run_cons_some.mpr ⟨_, rfl,
      run_cons_some.mpr ⟨_, step_gossip rfl handle_annotated, run_cons_some.mpr
        ⟨_, step_announce_elsewhere (by decide) rfl, run_cons_some.mpr
          ⟨_, step_dispatch_elsewhere (by decide) rfl, rfl⟩⟩⟩⟩⟩⟩, budget_golden⟩
  have hfilter : noisyEvents.filter (accepted sampleSetup) =
      [.node .start, .node .main, .gossip (wire annotatedDoc) 0] := by
    have hpeer : "other-peer" ≠ sampleSetup.orchestratorPeerId := by decide
    have hjunk : accepted sampleSetup (.gossip [] 0) = false := rfl
    simp only [noisyEvents, List.filter_cons, List.filter_nil, hjunk, accepted_gossip handle_annotated,
      accepted_announce_elsewhere hpeer, accepted_dispatch_elsewhere hpeer]
    rfl
  obtain ⟨s, hrun, hbudget⟩ := hrun
  obtain ⟨hsame, hgenuine⟩ := rejected_leave_no_trace sample_trusts hrun
  exact ⟨s, hrun, hbudget, hfilter, hsame, hgenuine⟩

/-- The dispatch comes again. -/
def repeatedEvents : List Event :=
  sampleEvents ++ [.dispatch "orch-peer" (wire dispatchDoc) 1700000000001]

theorem repeated_run : ∃ s acc, run (step sampleSetup) init repeatedEvents = some s ∧
    s.accepts[1]? = some acc ∧ acc.pc = .lookup ∧ acc.task.key = (goldenKey, "t-0") ∧
    (s.storage.tasks.lookup (goldenKey, "t-0")).isSome = true := by
  refine ⟨_, _, run_cons_some.mpr ⟨_, rfl, run_cons_some.mpr ⟨_, rfl, run_cons_some.mpr
    ⟨_, step_gossip rfl handle_announcement, run_cons_some.mpr
      ⟨_, (step_dispatch rfl handle_dispatch).trans rfl, run_cons_some.mpr ⟨_, rfl, run_cons_some.mpr
        ⟨_, rfl, run_cons_some.mpr ⟨_, (step_dispatch rfl handle_dispatch).trans rfl, rfl⟩⟩⟩⟩⟩⟩⟩,
    rfl, rfl, rfl, ?_⟩
  decide +kernel

/-- The second dispatch finds the task of the first. -/
theorem duplicate_confirmed_repeated : ∃ (s s' : Node) (acc : Accept) (existing : ComputeTask),
    run (step sampleSetup) init repeatedEvents = some s ∧ s.accepts[1]? = some acc ∧
      loads sampleSetup.env s {} acc = .ok (some existing) ∧
      step sampleSetup s (.node (.accept 1 {})) = some s' ∧
      ∃ result, s'.accepts = s.accepts.set 1 { acc with pc := .done result } ∧
        (result = .ok () ↔ existing.request = acc.task.request) := by
  obtain ⟨s, acc, hrun, hcall, hpc, hkey, hrow⟩ := repeated_run
  have hi := run_ingress sampleFloats_roundTrips sample_rounds rfl sample_trusts sample_admits hrun
  obtain ⟨row, hrow⟩ := Option.isSome_iff_exists.mp hrow
  obtain ⟨existing, -, -, hread⟩ := hi.tasks.rows _ row hrow
  have hload : loads sampleSetup.env s {} acc = .ok (some existing) := by
    rw [loads, hkey]
    simp only [Option.elim, Storage.loadTask, hrow, hread]
    rfl
  have hstep : step sampleSetup s (.node (.accept 1 {})) = some (setAccept s 1
      { acc with pc := .done (duplicateResult sampleSetup.env.serde existing acc.task) }) := by
    have hmove : acceptStep sampleSetup.env s 1 {} = some (setAccept s 1
        { acc with pc := .done (duplicateResult sampleSetup.env.serde existing acc.task) }) := by
      unfold loads at hload
      simp only [acceptStep, hcall, Option.bind_eq_bind, Option.bind_some, hpc, hload]
    exact hmove
  exact ⟨s, _, acc, existing, hrun, hcall, hload, hstep,
    duplicate_confirmed_iff sampleFloats_roundTrips sample_rounds rfl sample_trusts sample_admits hrun
      hcall (.inl hpc) hload hstep⟩

end Sample

end WqcNode.Transport.TaskIngress
