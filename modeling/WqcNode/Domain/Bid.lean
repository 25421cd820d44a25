import WqcNode.Domain.AnnouncementAuth

/-! # Bidding on an announcement (`domain/bid.rs`, `transport/p2p/bid_client.rs`)

`submitBid` runs up to the point where it builds a signed bid: the feature check, then the judgement
of announced work against the work budget. The judgement needs both the announced work and the
node's rates, and is passed over when either is missing: a node without rates bids unjudged on work
announced without bit 4 (`submitBid_judges_iff`). -/

namespace WqcNode.Domain.Bid

open WqcNode.Lib WqcNode.Domain.Features WqcNode.Domain.WorkBudget WqcNode.Domain.Announcement
open WqcNode.Domain.AnnouncementAuth

/-- The settings a bid depends on. -/
structure NodeConfig where
  maxQubits : UInt64
  tnRates : Option TnRates
  workOverheadSecs : ℚ
  workBudgetMargin : ℚ
  computeTimeoutSecs : UInt64
  workUnknownSecs : ℚ
deriving DecidableEq, Repr

/-- `NETWORK_MIN_QUBITS`. -/
def networkMinQubits : UInt32 := 10

/-- The node should participate in the bidding round. -/
def shouldBidOn (a : TaskAnnouncement) (config : NodeConfig) (supportedFeatures : UInt32) : Bool :=
  if config.maxQubits.toUInt32 < networkMinQubits then false
  else if supportedFeatures = 0 then false
  else supportsRequiredFeatures supportedFeatures a.requiredFeatures

/-- The policy `submit_bid` judges work by. -/
def NodeConfig.policy (config : NodeConfig) (rates : TnRates) : BudgetPolicy where
  rates := rates
  overheadSecs := config.workOverheadSecs
  margin := config.workBudgetMargin
  ownTimeoutSecs := config.computeTimeoutSecs
  unknownSecs := config.workUnknownSecs

/-- What `submit_bid` has done when it starts to build a bid or returns before. -/
structure BidAttempt where
  ledger : WorkLedger
  /-- What `decide` returned, if it was called. -/
  decision : Option (Except ℚ Budget)
  /-- `build_signed_bid` is called. -/
  builds : Bool

def submitBid (supportedGates : List String) (config : NodeConfig) (ledger : WorkLedger)
    (a : TaskAnnouncement) (now : ℚ) : BidAttempt :=
  let supportedFeatures := nodeFeatures supportedGates config.tnRates.isSome
  if !shouldBidOn a config supportedFeatures then ⟨ledger, none, false⟩
  else match a.work, config.tnRates with
    | some work, some rates =>
      match ledger.decide a.taskId work (a.deadlineSecs.getD 0) (config.policy rates) now with
      | (ledger, .error expected) => ⟨ledger, some (.error expected), false⟩
      | (ledger, .ok budget) => ⟨ledger, some (.ok budget), true⟩
    | _, _ => ⟨ledger, none, true⟩

variable {gates : List String} {config : NodeConfig} {ledger : WorkLedger} {a : TaskAnnouncement}
  {now : ℚ}

/-- A bid on announced work is built only after `decide` admitted this announcement. -/
def Judged (config : NodeConfig) (ledger : WorkLedger) (a : TaskAnnouncement) (now : ℚ)
    (r : BidAttempt) : Prop :=
  r.builds = true → ∀ work, a.work = some work →
    ∃ deadlineSecs rates budget, a.deadlineSecs = some deadlineSecs ∧
      config.tnRates = some rates ∧
      ledger.decide a.taskId work deadlineSecs (config.policy rates) now = (r.ledger, .ok budget) ∧
      r.decision = some (.ok budget)

/-- An accepted announcement with work has a deadline. -/
theorem deadline_of_accepted {api : Crypto} {key : String} {m : TaskAnnouncementMessage} {work : Work}
    (h : verifyAnnouncementMessage api m key = .ok ()) (hw : m.announcement.work = some work) :
    ∃ d, m.announcement.deadlineSecs = some d := by
  cases hd : m.announcement.deadlineSecs with
  | some d => exact ⟨d, rfl⟩
  | none =>
    simp only [verifyAnnouncementMessage, serializeAnnouncementPayloadV2, hw, hd] at h
    split_ifs at h <;> simp_all

theorem submitBid_skips (h : shouldBidOn a config (nodeFeatures gates config.tnRates.isSome) = false) :
    submitBid gates config ledger a now = ⟨ledger, none, false⟩ := by
  simp [submitBid, h]

theorem submitBid_unjudged
    (h : shouldBidOn a config (nodeFeatures gates config.tnRates.isSome) = true)
    (hr : config.tnRates = none) :
    submitBid gates config ledger a now = ⟨ledger, none, true⟩ := by
  simp only [submitBid, h]
  cases a.work <;> simp [hr]

theorem submitBid_judged {rates : TnRates} {work : Work} {d : UInt32}
    (hr : config.tnRates = some rates) (hw : a.work = some work) (hd : a.deadlineSecs = some d) :
    Judged config ledger a now (submitBid gates config ledger a now) := by
  intro hbuilds work' hw'
  obtain rfl : work = work' := Option.some.inj (hw.symm.trans hw')
  refine ⟨d, rates, ?_⟩
  cases hs : shouldBidOn a config (nodeFeatures gates config.tnRates.isSome) with
  | false => simp [submitBid_skips hs] at hbuilds
  | true =>
    have hs' : shouldBidOn a config (nodeFeatures gates true) = true := by simpa [hr] using hs
    rcases hdec : ledger.decide a.taskId work d (config.policy rates) now with ⟨ledger', e | budget⟩
    · simp [submitBid, hs', hw, hr, hd, hdec] at hbuilds
    · exact ⟨budget, hd, hr, by simp [submitBid, hs', hw, hr, hd, hdec]⟩

/-- **Main result.** For an accepted announcement, `submitBid` never bids on announced work past the
work budget exactly if the node has rates, or the announcement has no work, or the feature check
refuses it (as it does without rates whenever bit 4 is asked for). -/
theorem submitBid_judges_iff {api : Crypto} {key : String} {m : TaskAnnouncementMessage}
    (h : verifyAnnouncementMessage api m key = .ok ()) (gates : List String) (config : NodeConfig)
    (ledger : WorkLedger) (now : ℚ) :
    Judged config ledger m.announcement now (submitBid gates config ledger m.announcement now) ↔
      config.tnRates.isSome ∨ m.announcement.work = none ∨
        shouldBidOn m.announcement config (nodeFeatures gates config.tnRates.isSome) = false := by
  constructor
  · intro hj
    by_contra hnot
    push Not at hnot
    obtain ⟨hrates, hwork, hbid⟩ := hnot
    obtain ⟨work, hw⟩ := Option.ne_none_iff_exists'.mp hwork
    have hr : config.tnRates = none := by simpa using hrates
    rw [submitBid_unjudged (by simpa using hbid) hr] at hj
    obtain ⟨-, rates, -, -, hsome, -⟩ := hj rfl work hw
    rw [hr] at hsome
    cases hsome
  · rintro (hrates | hwork | hbid)
    · intro hbuilds work hw
      obtain ⟨rates, hr⟩ := Option.isSome_iff_exists.mp hrates
      obtain ⟨d, hd⟩ := deadline_of_accepted h hw
      exact submitBid_judged hr hw hd hbuilds work hw
    · intro _ work hw
      rw [hwork] at hw
      cases hw
    · intro hbuilds
      rw [submitBid_skips hbid] at hbuilds
      cases hbuilds

/-- The rates and settings of a node whose core was measured. -/
def ratedConfig : NodeConfig := ⟨28, some ⟨1 / 10 ^ 10, 1 / 10 ^ 11⟩, 5, 1 / 2, 300, 30⟩

theorem submitBid_judges_golden :
    verifyAnnouncementMessage goldenCrypto ⟨golden, goldenSignature, some goldenSignatureV2⟩
        goldenKey = .ok () ∧
      Judged ratedConfig .empty golden 0
        (submitBid ["H", "RX", "NETWORK_GATE_SPLIT"] ratedConfig .empty golden 0) := by
  have hverify : verifyAnnouncementMessage goldenCrypto
      ⟨golden, goldenSignature, some goldenSignatureV2⟩ goldenKey = .ok () := by decide +kernel
  exact ⟨hverify, (submitBid_judges_iff hverify ["H", "RX", "NETWORK_GATE_SPLIT"] ratedConfig .empty
    0).mpr (.inl rfl)⟩

/-! ### Work announced without bit 4

The announcement of the tests with bit 4 cleared and its v2 signature by the same key. -/

def unflagged : TaskAnnouncement := { golden with requiredFeatures := 11 }

def unflaggedSignatureV2 : String :=
  "id58DrCmDoX/0RqT2lmN4+ShKyGB1HNTesPCynjgIBK4GHjJgW/uZl28tvEa4LJzeTmpbEuYfF7e5LLp4RWRBA=="

def unflaggedSignatureV2Bytes : Bytes :=
  be 64
    0x89de7c0eb0a60e85ffd11a93da598de3e4a12b2181d473537ac3c2ca78e02012b81878c9816fee665dbcb6f11ae0b2737939a96c4b987c5edee4b2e9e1159104

def unflaggedCrypto : Crypto :=
  tableCrypto [(unflaggedSignatureV2, unflaggedSignatureV2Bytes,
    serializeAnnouncementPayload unflagged ++ workBytes 300 ⟨2 ^ 40, 38000000000⟩)]

/-- The accepted announcement carries work, the node has no rates and builds a bid without a
decision. -/
theorem unflagged_bid_unjudged :
    verifyAnnouncementMessage unflaggedCrypto ⟨unflagged, "", some unflaggedSignatureV2⟩
        goldenKey = .ok () ∧
      (submitBid ["H", "RX", "NETWORK_GATE_SPLIT"] { ratedConfig with tnRates := none } .empty
        unflagged 0).builds = true ∧
      unflagged.work.isSome ∧
      ¬ Judged { ratedConfig with tnRates := none } .empty unflagged 0
        (submitBid ["H", "RX", "NETWORK_GATE_SPLIT"] { ratedConfig with tnRates := none } .empty
          unflagged 0) := by
  refine ⟨by decide +kernel, by decide +kernel, by decide, fun hj => ?_⟩
  obtain ⟨-, rates, -, -, hsome, -⟩ := hj (by decide +kernel) _ rfl
  cases hsome

end WqcNode.Domain.Bid
