import WqcNode.Lib.Decimal
import WqcNode.Domain.Announcement

/-! # Signed bids (`build_signed_bid` in `domain/bid.rs`, `domain/operator.rs`)

A bid carries two signatures: the node's, over the bid without its stake, and the operator's, over
`operator_id ‖ node_id ‖ task_id ‖ stake` with no lengths between them. The operator id is 64 hex
digits, so the payload gives it and the three other texts joined (`payload_eq_iff`); where two of
the three have their lengths fixed, it gives them all (`operator_signature_binds`). -/

namespace WqcNode.Domain.OperatorBid

open WqcNode.Lib WqcNode.Domain.Announcement

/-! ### The operator's identity -/

/-- `hex::encode`. -/
def hexEncode (bytes : Bytes) : List Char :=
  bytes.flatMap fun b => [Nat.digitChar (b.toNat / 16), Nat.digitChar (b.toNat % 16)]

def isHexDigit (c : Char) : Bool := c.isDigit || ('a' ≤ c && c ≤ 'f')

/-- Of an Ed25519 public key, with SHA-256. -/
def operatorIdFromPubkey (sha256 : Bytes → Bytes) (pubkey : Bytes) : String :=
  String.ofList (hexEncode (sha256 pubkey))

/-- 64 hex digits. -/
structure IsOperatorId (operatorId : String) : Prop where
  length : operatorId.toList.length = 64
  hex : ∀ c ∈ operatorId.toList, isHexDigit c = true

theorem isHexDigit_digitChar {n : ℕ} (hn : n < 16) : isHexDigit (Nat.digitChar n) = true := by
  have hall : ∀ a : Fin 16, isHexDigit (Nat.digitChar a) = true := by decide
  exact hall ⟨n, hn⟩

theorem length_hexEncode (bytes : Bytes) : (hexEncode bytes).length = 2 * bytes.length := by
  induction bytes with
  | nil => rfl
  | cons b bytes ih =>
    have hcons : hexEncode (b :: bytes) =
        Nat.digitChar (b.toNat / 16) :: Nat.digitChar (b.toNat % 16) :: hexEncode bytes := rfl
    rw [hcons, List.length_cons, List.length_cons, ih, List.length_cons]
    omega

/-- The id of a key has the fixed form. -/
theorem isOperatorId_operatorIdFromPubkey {sha256 : Bytes → Bytes} (hsha : ∀ m, (sha256 m).length = 32)
    (pubkey : Bytes) : IsOperatorId (operatorIdFromPubkey sha256 pubkey) := by
  refine ⟨?_, ?_⟩
  · unfold operatorIdFromPubkey
    rw [String.toList_ofList, length_hexEncode, hsha]
  · intro c hc
    unfold operatorIdFromPubkey at hc
    rw [String.toList_ofList] at hc
    obtain ⟨b, -, hb⟩ := List.mem_flatMap.mp hc
    have hlt := b.toNat_lt
    simp only [List.mem_cons, List.not_mem_nil, or_false] at hb
    rcases hb with rfl | rfl
    · exact isHexDigit_digitChar (by omega)
    · exact isHexDigit_digitChar (by omega)

theorem IsOperatorId.length_utf8 {operatorId : String} (h : IsOperatorId operatorId) :
    (utf8 operatorId).length = 64 := by
  have hascii : ∀ c ∈ operatorId.toList, c.val ≤ 127 := by
    intro c hc
    have hhex := h.hex c hc
    unfold isHexDigit at hhex
    rw [Bool.or_eq_true, Bool.and_eq_true, decide_eq_true_eq, decide_eq_true_eq] at hhex
    rcases hhex with hdigit | ⟨-, hle⟩
    · unfold Char.isDigit at hdigit
      rw [Bool.and_eq_true, decide_eq_true_eq, decide_eq_true_eq] at hdigit
      exact UInt32.le_trans hdigit.2 (by decide)
    · exact UInt32.le_trans (Char.le_def.mp hle) (by decide)
  rw [← String.ofList_toList (s := operatorId), length_utf8_of_ascii hascii, h.length]

/-! ### The operator's payload -/

/-- `BigInt::to_string`. -/
def bigIntText (n : ℤ) : String :=
  String.ofList (if n < 0 then '-' :: Nat.toDigits 10 n.natAbs else Nat.toDigits 10 n.natAbs)

def serializeOperatorBidPayload (operatorId nodeId taskId : String) (stakeAmount : ℤ) : Bytes :=
  utf8 operatorId ++ (utf8 nodeId ++ (utf8 taskId ++ utf8 (bigIntText stakeAmount)))

/-- What the operator puts its name to. -/
structure StakedBid where
  operatorId : String
  nodeId : String
  taskId : String
  stakeAmount : ℤ
deriving DecidableEq, Repr

namespace StakedBid

def payload (x : StakedBid) : Bytes :=
  serializeOperatorBidPayload x.operatorId x.nodeId x.taskId x.stakeAmount

/-- The operator id has its fixed form, and the stake is not negative. -/
structure WellFormed (x : StakedBid) : Prop where
  operatorId : IsOperatorId x.operatorId
  stakeAmount : 0 ≤ x.stakeAmount

/-- Two of the three texts after the operator id have the same byte lengths. -/
def SameBoundaries (x y : StakedBid) : Prop :=
  let node := (utf8 x.nodeId).length = (utf8 y.nodeId).length
  let task := (utf8 x.taskId).length = (utf8 y.taskId).length
  let stake := (utf8 (bigIntText x.stakeAmount)).length = (utf8 (bigIntText y.stakeAmount)).length
  node ∧ task ∨ node ∧ stake ∨ task ∧ stake

end StakedBid

theorem bigIntText_inj {m n : ℤ} (hm : 0 ≤ m) (hn : 0 ≤ n) (h : bigIntText m = bigIntText n) :
    m = n := by
  unfold bigIntText at h
  rw [if_neg (not_lt.mpr hm), if_neg (not_lt.mpr hn)] at h
  have hdigits : Nat.toDigits 10 m.natAbs = Nat.toDigits 10 n.natAbs := by
    simpa using congrArg String.toList h
  have habs : m.natAbs = n.natAbs := by
    rw [← digitsVal_toDigits m.natAbs, hdigits, digitsVal_toDigits]
  omega

section Payload

variable {x y : StakedBid} (hx : x.WellFormed) (hy : y.WellFormed)
include hx hy

/-- **What the payload gives**: the operator id, and the three other texts joined. -/
theorem payload_eq_iff : x.payload = y.payload ↔ x.operatorId = y.operatorId ∧
    utf8 x.nodeId ++ (utf8 x.taskId ++ utf8 (bigIntText x.stakeAmount)) =
      utf8 y.nodeId ++ (utf8 y.taskId ++ utf8 (bigIntText y.stakeAmount)) := by
  unfold StakedBid.payload serializeOperatorBidPayload
  constructor
  · intro h
    have hlen : (utf8 x.operatorId).length = (utf8 y.operatorId).length := by
      rw [hx.operatorId.length_utf8, hy.operatorId.length_utf8]
    obtain ⟨hid, hrest⟩ := List.append_inj h hlen
    exact ⟨utf8_inj hid, hrest⟩
  · rintro ⟨hid, hrest⟩
    rw [hid, hrest]

/-- With two lengths fixed, the third is too, and the payload gives everything. -/
theorem eq_of_payload_eq (h : x.payload = y.payload) (hb : x.SameBoundaries y) : x = y := by
  obtain ⟨hid, hrest⟩ := (payload_eq_iff hx hy).mp h
  have hlen := congrArg List.length hrest
  simp only [List.length_append] at hlen
  have hnode : (utf8 x.nodeId).length = (utf8 y.nodeId).length := by
    rcases hb with hb | hb | hb <;> omega
  have htask : (utf8 x.taskId).length = (utf8 y.taskId).length := by
    rcases hb with hb | hb | hb <;> omega
  obtain ⟨hn, hrest⟩ := List.append_inj hrest hnode
  obtain ⟨ht, hs⟩ := List.append_inj hrest htask
  have hstake := bigIntText_inj hx.stakeAmount hy.stakeAmount (utf8_inj hs)
  cases x
  cases y
  simp only [StakedBid.mk.injEq]
  exact ⟨hid, utf8_inj hn, utf8_inj ht, hstake⟩

end Payload

/-! ### The lottery -/

section Lottery

variable (sha256 : Bytes → Bytes) (nodeId : String) (nonce : UInt64) (timestamp : Int64)

/-- SHA256(node_id || nonce_be || timestamp_as_u64_be || attempt_be). -/
def lotteryHash (attempt : UInt64) : Bytes :=
  sha256 (utf8 nodeId ++ (be64 nonce ++ (be64 timestamp.toUInt64 ++ be64 attempt)))

def meetsDifficulty (hash : Bytes) (difficulty : UInt32) : Bool :=
  if difficulty = 0 then true
  else if hash.length < difficulty.toNat then false
  else (hash.take difficulty.toNat).all (· == 0)

/-- The loop of `mine_lottery`; the clock leaves it `tries` more attempts. -/
def mineFrom (difficulty : UInt32) : ℕ → UInt64 → Option (UInt64 × Bytes)
  | 0, _ => none
  | tries + 1, attempt =>
    let proof := lotteryHash sha256 nodeId nonce timestamp attempt
    if meetsDifficulty proof difficulty then some (attempt, proof)
    else mineFrom difficulty tries (attempt + 1)

/-- At `timestamp`, with time for `tries` attempts. -/
def mineLottery (difficulty : UInt32) (tries : ℕ) : Option (Int64 × UInt64 × Bytes) :=
  if difficulty = 0 then some (timestamp, 0, lotteryHash sha256 nodeId nonce timestamp 0)
  else (mineFrom sha256 nodeId nonce timestamp difficulty tries 0).map (timestamp, ·)

variable {sha256 nodeId nonce timestamp}

theorem mineFrom_spec {difficulty : UInt32} : ∀ {tries : ℕ} {attempt : UInt64} {r : UInt64 × Bytes},
    mineFrom sha256 nodeId nonce timestamp difficulty tries attempt = some r →
      r.2 = lotteryHash sha256 nodeId nonce timestamp r.1 ∧ meetsDifficulty r.2 difficulty = true
  | 0, _, _, h => by cases h
  | tries + 1, attempt, r, h => by
    unfold mineFrom at h
    simp only at h
    split_ifs at h with hmeets
    · cases h
      exact ⟨rfl, hmeets⟩
    · exact mineFrom_spec h

/-- **A proof that is found** is the hash of its attempt, and meets the difficulty. -/
theorem mineLottery_spec {difficulty : UInt32} {tries : ℕ} {t : Int64} {attempt : UInt64}
    {proof : Bytes}
    (h : mineLottery sha256 nodeId nonce timestamp difficulty tries = some (t, attempt, proof)) :
    t = timestamp ∧ proof = lotteryHash sha256 nodeId nonce timestamp attempt ∧
      meetsDifficulty proof difficulty = true := by
  unfold mineLottery at h
  split_ifs at h with hzero
  · cases h
    exact ⟨rfl, rfl, by rw [meetsDifficulty, if_pos hzero]⟩
  · obtain ⟨r, hr, hpair⟩ := Option.map_eq_some_iff.mp h
    cases hpair
    exact ⟨rfl, mineFrom_spec hr⟩

end Lottery

/-! ### The bid -/

/-- `ed25519-dalek`. -/
structure Ed25519 where
  SigningKey : Type
  VerifyingKey : Type
  verifyingKey : SigningKey → VerifyingKey
  sign : SigningKey → Bytes → Bytes
  verifyStrict : VerifyingKey → Bytes → Bytes → Bool

/-- Ed25519 idealised: a signature verifies for the bytes that were signed and for no others. -/
def Ed25519.Ideal (ed : Ed25519) : Prop :=
  ∀ key m m', ed.verifyStrict (ed.verifyingKey key) m' (ed.sign key m) = true ↔ m' = m

/-- The settings a signed bid is made from. -/
structure NodeConfig (ed : Ed25519) where
  peerId : String
  maxQubits : UInt64
  maxMpsQubits : UInt64
  signingKey : ed.SigningKey
  stakeAmount : ℤ
  operatorId : Option String
  operatorSigningKey : Option ed.SigningKey

/-- The location and the metrics are passed on as they are. -/
structure Bid (GeoInfo MetricsSummary : Type) where
  taskId : String
  nodeId : String
  maxQubitCapability : UInt32
  maxMpsQubits : UInt32
  currentLoadFactors : UInt32
  timestamp : Int64
  lotteryAttempt : UInt64
  signature : Bytes
  lotteryProof : Bytes
  stakeAmount : ℤ
  supportedFeatures : UInt32
  location : Option GeoInfo
  operatorId : Option String
  operatorSig : Option Bytes
  metricsSummary : Option MetricsSummary

variable {GeoInfo MetricsSummary : Type}

/-- Mirrors orchestrator `bid.SerializeBidPayload` byte layout exactly. -/
def serializeBidPayload (bid : Bid GeoInfo MetricsSummary) : Bytes :=
  utf8 bid.taskId ++ (utf8 bid.nodeId ++ (be32 bid.maxQubitCapability ++
    (be32 bid.currentLoadFactors ++ (be64 bid.timestamp.toUInt64 ++ (be64 bid.lotteryAttempt ++
    (bid.lotteryProof ++ be32 bid.supportedFeatures))))))

/-- `u32::try_from(n).unwrap_or(u32::MAX)`. -/
def saturateU32 (n : UInt64) : UInt32 := if n.toNat < 2 ^ 32 then n.toUInt32 else 0xffffffff

/-- Builds a signed bid at `now`, with time for `tries` lottery attempts. -/
def buildSignedBid (ed : Ed25519) (sha256 : Bytes → Bytes) (now : Int64) (tries : ℕ)
    (announcement : TaskAnnouncement) (config : NodeConfig ed) (currentLoad supportedFeatures : UInt32)
    (location : Option GeoInfo) (metricsSummary : Option MetricsSummary) :
    Option (Bid GeoInfo MetricsSummary) := do
  let operatorId ← config.operatorId
  let operatorSigningKey ← config.operatorSigningKey
  let (timestamp, lotteryAttempt, lotteryProof) ←
    mineLottery sha256 config.peerId announcement.nonce now announcement.bidDifficulty tries
  let bid : Bid GeoInfo MetricsSummary :=
    { taskId := announcement.taskId
      nodeId := config.peerId
      maxQubitCapability := config.maxQubits.toUInt32
      maxMpsQubits := saturateU32 config.maxMpsQubits
      currentLoadFactors := currentLoad
      timestamp, lotteryAttempt
      signature := []
      lotteryProof
      stakeAmount := config.stakeAmount
      supportedFeatures, location
      operatorId := some operatorId
      operatorSig := none
      metricsSummary }
  let signature := ed.sign config.signingKey (serializeBidPayload bid)
  let operatorPayload :=
    serializeOperatorBidPayload operatorId bid.nodeId bid.taskId bid.stakeAmount
  let operatorSig := ed.sign operatorSigningKey operatorPayload
  pure { bid with signature, operatorSig := some operatorSig }

/-- The operator's part of a bid. -/
def StakedBid.ofConfig {ed : Ed25519} (config : NodeConfig ed) (operatorId taskId : String) :
    StakedBid :=
  ⟨operatorId, config.peerId, taskId, config.stakeAmount⟩

section Bids

variable {ed : Ed25519} {sha256 : Bytes → Bytes} {now : Int64} {tries : ℕ}
  {announcement : TaskAnnouncement} {config : NodeConfig ed} {currentLoad supportedFeatures : UInt32}
  {location : Option GeoInfo} {metricsSummary : Option MetricsSummary}
  {bid : Bid GeoInfo MetricsSummary}

/-- **What a bid says and what the operator signed in it.** -/
theorem buildSignedBid_spec (h : buildSignedBid ed sha256 now tries announcement config currentLoad
      supportedFeatures location metricsSummary = some bid) :
    ∃ operatorId key, config.operatorId = some operatorId ∧ config.operatorSigningKey = some key ∧
      bid.operatorId = some operatorId ∧ bid.nodeId = config.peerId ∧
      bid.taskId = announcement.taskId ∧ bid.stakeAmount = config.stakeAmount ∧
      bid.operatorSig =
        some (ed.sign key (StakedBid.ofConfig config operatorId announcement.taskId).payload) := by
  unfold buildSignedBid at h
  obtain ⟨operatorId, hid, h⟩ := Option.bind_eq_some_iff.mp h
  obtain ⟨key, hkey, h⟩ := Option.bind_eq_some_iff.mp h
  obtain ⟨⟨timestamp, attempt, proof⟩, -, h⟩ := Option.bind_eq_some_iff.mp h
  cases h
  exact ⟨operatorId, key, hid, hkey, rfl, rfl, rfl, rfl, rfl⟩

end Bids

/-! ### What the operator's signature binds -/

/-- Whatever passes for `x` names its operator, and is `x` if its lengths are those of `x`. -/
def Binds (x : StakedBid) (passes : StakedBid → Prop) : Prop :=
  ∀ y, y.WellFormed → passes y → y.operatorId = x.operatorId ∧ (x.SameBoundaries y → y = x)

theorem binds_payload {x : StakedBid} (hx : x.WellFormed) : Binds x fun y => y.payload = x.payload := by
  intro y hy h
  exact ⟨((payload_eq_iff hy hx).mp h).1, fun hb => (eq_of_payload_eq hx hy h.symm hb).symm⟩

/-- **Main result.** The payload binds the operator and, where two of the three lengths are fixed,
the node, the task and the stake; and so does the operator's signature in a bid. -/
theorem operator_signature_binds {ed : Ed25519} (hed : ed.Ideal) :
    (∀ x : StakedBid, x.WellFormed → Binds x fun y => y.payload = x.payload) ∧
    ∀ (sha256 : Bytes → Bytes) (now : Int64) (tries : ℕ) (announcement : TaskAnnouncement)
      (config : NodeConfig ed) (currentLoad supportedFeatures : UInt32) (location : Option GeoInfo)
      (metricsSummary : Option MetricsSummary) (bid : Bid GeoInfo MetricsSummary),
      buildSignedBid ed sha256 now tries announcement config currentLoad supportedFeatures location
        metricsSummary = some bid →
      ∃ operatorId key signature, config.operatorId = some operatorId ∧
        config.operatorSigningKey = some key ∧ bid.operatorSig = some signature ∧
        ∀ x : StakedBid, x = ⟨operatorId, bid.nodeId, bid.taskId, bid.stakeAmount⟩ → x.WellFormed →
          ed.verifyStrict (ed.verifyingKey key) x.payload signature = true ∧
          Binds x fun y => ed.verifyStrict (ed.verifyingKey key) y.payload signature = true := by
  refine ⟨fun x hx => binds_payload hx, ?_⟩
  intro sha256 now tries announcement config currentLoad supportedFeatures location metricsSummary
    bid h
  obtain ⟨operatorId, key, hid, hkey, -, hnode, htask, hstake, hsig⟩ := buildSignedBid_spec h
  refine ⟨operatorId, key, _, hid, hkey, hsig, ?_⟩
  rintro x hxeq hx
  have hsigned : StakedBid.ofConfig config operatorId announcement.taskId = x := by
    rw [hxeq, hnode, htask, hstake]
    rfl
  rw [hsigned]
  refine ⟨(hed ..).mpr rfl, ?_⟩
  intro y hy hverify
  exact binds_payload hx y hy ((hed ..).mp hverify)

/-! ### Bids of one operator -/

/-- The operator of the repository's golden vector, on a task with a stake of 50. -/
def staked : StakedBid :=
  ⟨"ffd5bedd67236d70d73de1ebb588fe1701068af1eb7f7754e3fcc850df70d01b", "12D3KooWTest", "task-1", 50⟩

/-- The same bytes, for another task without a stake. -/
def restaked : StakedBid := { staked with taskId := "task-15", stakeAmount := 0 }

theorem staked_wellFormed : staked.WellFormed :=
  ⟨⟨by decide, List.all_eq_true.mp (by decide)⟩, by decide⟩

theorem restaked_wellFormed : restaked.WellFormed := ⟨staked_wellFormed.operatorId, by decide⟩

/-- Signs with the message itself. -/
def plainEd : Ed25519 where
  SigningKey := Unit
  VerifyingKey := Unit
  verifyingKey := id
  sign _ m := m
  verifyStrict _ m signature := m == signature

theorem plainEd_ideal : plainEd.Ideal := by
  intro _ m m'
  exact beq_iff_eq

/-- The node of the golden vector. -/
def stakedConfig : NodeConfig plainEd where
  peerId := staked.nodeId
  maxQubits := 28
  maxMpsQubits := 2048
  signingKey := ()
  stakeAmount := staked.stakeAmount
  operatorId := some staked.operatorId
  operatorSigningKey := some ()

/-- The task of the golden vector, without a lottery. -/
def stakedTask : TaskAnnouncement := ⟨staked.taskId, 28, 0, 0, 2, 9, none, none⟩

theorem operator_signature_binds_staked : (Binds staked fun y => y.payload = staked.payload) ∧
    ∃ (bid : Bid Unit Unit) (signature : Bytes),
      buildSignedBid plainEd (fun m => m) 1700000459 1 stakedTask stakedConfig 0 11 none none =
        some bid ∧ bid.operatorSig = some signature ∧
      plainEd.verifyStrict () staked.payload signature = true ∧
      Binds staked fun y => plainEd.verifyStrict () y.payload signature = true := by
  obtain ⟨hpayload, hsigned⟩ := @operator_signature_binds Unit Unit plainEd plainEd_ideal
  obtain ⟨bid, hbuild, hstaked⟩ : ∃ bid : Bid Unit Unit, buildSignedBid plainEd (fun m => m)
      1700000459 1 stakedTask stakedConfig 0 11 none none = some bid ∧
      staked = ⟨staked.operatorId, bid.nodeId, bid.taskId, bid.stakeAmount⟩ := ⟨_, rfl, rfl⟩
  obtain ⟨operatorId, key, signature, hid, -, hsig, hbinds⟩ := hsigned _ _ _ _ _ _ _ _ _ _ hbuild
  obtain rfl : staked.operatorId = operatorId := Option.some.inj hid
  obtain ⟨hverify, hbind⟩ := hbinds staked hstaked staked_wellFormed
  exact ⟨hpayload staked staked_wellFormed, bid, signature, hbuild, hsig, hverify, hbind⟩

/-- **The payload does not bind the stake by itself**: a digit of the stake can be read as the end
of the task id. -/
theorem stake_read_as_task : staked.WellFormed ∧ restaked.WellFormed ∧
    staked.payload = restaked.payload ∧ staked.taskId ≠ restaked.taskId ∧
    staked.stakeAmount ≠ restaked.stakeAmount := by
  refine ⟨staked_wellFormed, restaked_wellFormed, ?_, by decide, by decide⟩
  refine (payload_eq_iff staked_wellFormed restaked_wellFormed).mpr ⟨rfl, ?_⟩
  decide

end WqcNode.Domain.OperatorBid
