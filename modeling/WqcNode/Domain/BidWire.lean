import WqcNode.Lib.Base64
import WqcNode.Domain.Geo
import WqcNode.Domain.OperatorBid
import WqcNode.Infra.TaskJson

/-! # Bids on the wire (`Bid` in `domain/bid.rs`, `MetricsSummary` in `infra/metrics.rs`)

A bid is written as JSON: the byte strings in base64, the stake as a string, and without the fields
that have nothing to say. What is written tells bids apart (`bid_json_eq_iff`), also what is not under the
node's signature. -/

namespace WqcNode.Domain.BidWire

open WqcNode.Lib WqcNode.Lib.Json WqcNode.Lib.JsonText WqcNode.Lib.Serde WqcNode.Lib.SerdeValue
open WqcNode.Domain.Geo WqcNode.Domain.OperatorBid
open WqcNode.Infra.TaskJson

structure MetricsSummary where
  pendingTasks : UInt64
  outboxPending : UInt64
  p2pConnectedPeers : UInt64
  p2pOrchestratorConnected : UInt8
  coreTimeoutsTotal : UInt64
  uptimeSeconds : UInt64
deriving DecidableEq

abbrev SignedBid := Bid GeoInfo MetricsSummary

/-! ### Writing -/

section Write

def i64Doc (n : Int64) : Document Literal := .number (.int n.toInt)

def geoInfoFields (g : GeoInfo) : Fields :=
  [("latitude", some (floatDoc g.latitude)), ("longitude", some (floatDoc g.longitude)),
    ("country", some (textDoc g.country)), ("city", some (textDoc g.city))]

def metricsSummaryFields (m : MetricsSummary) : Fields :=
  [("pending_tasks", some (u64Doc m.pendingTasks)), ("outbox_pending", some (u64Doc m.outboxPending)),
    ("p2p_connected_peers", some (u64Doc m.p2pConnectedPeers)),
    ("p2p_orchestrator_connected", some (natDoc m.p2pOrchestratorConnected.toNat)),
    ("core_timeouts_total", some (u64Doc m.coreTimeoutsTotal)),
    ("uptime_seconds", some (u64Doc m.uptimeSeconds))]

/-- `skip_serializing_if = "is_zero_u32"`. -/
def skipZero (n : UInt32) : Option (Document Literal) := if n = 0 then none else some (u32Doc n)

def bidFields (bid : SignedBid) : Fields :=
  [("task_id", some (textDoc bid.taskId)), ("node_id", some (textDoc bid.nodeId)),
    ("max_qubit_capability", some (u32Doc bid.maxQubitCapability)),
    ("max_mps_qubits", skipZero bid.maxMpsQubits),
    ("current_load_factors", some (u32Doc bid.currentLoadFactors)),
    ("timestamp", some (i64Doc bid.timestamp)), ("lottery_attempt", some (u64Doc bid.lotteryAttempt)),
    ("signature", some (textDoc (Base64.encode bid.signature))),
    ("lottery_proof", some (textDoc (Base64.encode bid.lotteryProof))),
    ("stake_amount", some (textDoc (bigIntText bid.stakeAmount))),
    ("supported_features", some (u32Doc bid.supportedFeatures)),
    ("location", bid.location.map fun g => record (geoInfoFields g)),
    ("operator_id", bid.operatorId.map textDoc),
    ("operator_sig", bid.operatorSig.map fun sig => textDoc (Base64.encode sig)),
    ("metrics_summary", bid.metricsSummary.map fun m => record (metricsSummaryFields m))]

def bidToVec (fc : FloatCodec) (bid : SignedBid) : Bytes :=
  toVec (numText fc) (record (bidFields bid))

end Write

/-! ### What is written tells bids apart -/

theorem bigIntText_injective : Function.Injective bigIntText := by
  intro m n h
  have hminus : ∀ k : ℕ, '-' ∉ Nat.toDigits 10 k := fun k hmem => by
    have hdigit := Nat.isDigit_of_mem_toDigits (by norm_num) (by norm_num) hmem
    exact absurd hdigit (by decide)
  have htext : (if m < 0 then '-' :: Nat.toDigits 10 m.natAbs else Nat.toDigits 10 m.natAbs) =
      if n < 0 then '-' :: Nat.toDigits 10 n.natAbs else Nat.toDigits 10 n.natAbs := by
    unfold bigIntText at h
    simpa using congrArg String.toList h
  have hdigits : (m < 0 ↔ n < 0) ∧ Nat.toDigits 10 m.natAbs = Nat.toDigits 10 n.natAbs := by
    split_ifs at htext with hm hn hn
    · exact ⟨⟨fun _ => hn, fun _ => hm⟩, (List.cons.inj htext).2⟩
    · exact absurd (htext ▸ List.mem_cons_self ..) (hminus n.natAbs)
    · exact absurd (htext ▸ List.mem_cons_self ..) (hminus m.natAbs)
    · exact ⟨⟨fun h => absurd h hm, fun h => absurd h hn⟩, htext⟩
  have habs : m.natAbs = n.natAbs := by
    rw [← digitsVal_toDigits m.natAbs, hdigits.2, digitsVal_toDigits]
  have hsign := hdigits.1
  omega

section Tells

variable {fc : FloatCodec} {α β : Type}

/-- Values with `P` that are written alike are equal. -/
def Tells (fc : FloatCodec) (doc : α → Document Literal) (P : α → Prop) : Prop :=
  ∀ a b, P a → P b → (doc a).map (numeral fc) = (doc b).map (numeral fc) → a = b

theorem tells_of_read {doc : α → Document Literal} {P : α → Prop}
    (read : Document Decimal → Option α) (h : ∀ a, P a → read ((doc a).map (numeral fc)) = some a) :
    Tells fc doc P := by
  intro a b ha hb heq
  have hread := h a ha
  rw [heq, h b hb] at hread
  exact (Option.some.inj hread).symm

theorem Tells.comp {doc : α → Document Literal} {P : α → Prop} (h : Tells fc doc P) {f : β → α}
    (hf : Function.Injective f) : Tells fc (fun b => doc (f b)) fun b => P (f b) :=
  fun a b ha hb heq => hf (h (f a) (f b) ha hb heq)

/-- A field that is left out is told from one that is written. -/
theorem Tells.optional {doc : α → Document Literal} {P : α → Prop} (h : Tells fc doc P)
    {a b : Option α} (ha : ∀ x ∈ a, P x) (hb : ∀ x ∈ b, P x)
    (heq : (a.map doc).map (Document.map (numeral fc)) = (b.map doc).map (Document.map (numeral fc))) :
    a = b := by
  cases a with
  | none =>
    cases b with
    | none => rfl
    | some b => cases heq
  | some a =>
    cases b with
    | none => cases heq
    | some b => rw [h a b (ha a rfl) (hb b rfl) (Option.some.inj heq)]

/-- **Records of the same names** that are written alike have their fields written alike. -/
theorem fields_eq {fields fields' : Fields} (hnames : fields.map (·.1) = fields'.map (·.1))
    (hnodup : (fields.map (·.1)).Nodup)
    (h : (record fields).map (numeral fc) = (record fields').map (numeral fc)) :
    fields.map (fun e => e.2.map (Document.map (numeral fc))) =
      fields'.map fun e => e.2.map (Document.map (numeral fc)) := by
  have hread := fieldsOnce_map_record (numeral fc) fields hnodup
  rw [h, hnames, fieldsOnce_map_record (numeral fc) fields' (hnames ▸ hnodup)] at hread
  exact (Option.some.inj hread).symm

theorem tells_text : Tells fc textDoc fun _ => True := by
  refine tells_of_read textOf fun text _ => ?_
  simp only [textDoc, Document.map, textOf]

theorem tells_nat : Tells fc natDoc fun _ => True := by
  have hint : Tells fc (fun i : ℤ => .number (.int i)) fun _ => True := by
    refine tells_of_read intOf fun i _ => ?_
    simp only [Document.map, numeral, intOf_ofInt]
  exact hint.comp Int.ofNat_injective

theorem tells_float (hfc : fc.RoundTrips) : Tells fc floatDoc fun f => isFinite f = true :=
  tells_of_read (f64Of fc) fun f hf => (f64Of_floatDoc hfc f f).mpr ⟨hf, rfl⟩

theorem tells_u32 : Tells fc u32Doc fun _ => True :=
  tells_nat.comp fun _ _ h => UInt32.toNat_inj.mp h

theorem tells_u64 : Tells fc u64Doc fun _ => True :=
  tells_nat.comp fun _ _ h => UInt64.toNat_inj.mp h

theorem tells_i64 : Tells fc i64Doc fun _ => True := by
  refine tells_of_read i64Of fun n _ => ?_
  simp only [i64Doc, Document.map, numeral, i64Of_ofInt]

theorem tells_skipZero {m n : UInt32} (h : (skipZero m).map (Document.map (numeral fc)) =
    (skipZero n).map (Document.map (numeral fc))) : m = n := by
  unfold skipZero at h
  split_ifs at h with hm hn hn
  · rw [hm, hn]
  · cases h
  · cases h
  · exact tells_u32 m n trivial trivial (Option.some.inj h)

theorem tells_geoInfo (hfc : fc.RoundTrips) :
    Tells fc (fun g => record (geoInfoFields g)) GeoInfo.Finite := by
  intro g g' hg hg' h
  have hfields := fields_eq (by rfl) (by simp [geoInfoFields]) h
  simp only [geoInfoFields, List.map_cons, List.map_nil, Option.map_some, List.cons.injEq,
    Option.some.injEq] at hfields
  obtain ⟨hlat, hlon, hcountry, hcity, -⟩ := hfields
  cases g
  cases g'
  rw [GeoInfo.mk.injEq]
  exact ⟨tells_float hfc _ _ hg.latitude hg'.latitude hlat,
    tells_float hfc _ _ hg.longitude hg'.longitude hlon, tells_text _ _ trivial trivial hcountry,
    tells_text _ _ trivial trivial hcity⟩

theorem tells_metricsSummary :
    Tells fc (fun m => record (metricsSummaryFields m)) fun _ => True := by
  intro m m' _ _ h
  have hfields := fields_eq (by rfl) (by simp [metricsSummaryFields]) h
  simp only [metricsSummaryFields, List.map_cons, List.map_nil, Option.map_some, List.cons.injEq,
    Option.some.injEq] at hfields
  obtain ⟨hpending, houtbox, hpeers, hconnected, htimeouts, huptime, -⟩ := hfields
  have hu64 : ∀ {a b : UInt64}, (u64Doc a).map (numeral fc) = (u64Doc b).map (numeral fc) → a = b :=
    fun h => tells_u64 _ _ trivial trivial h
  cases m
  cases m'
  rw [MetricsSummary.mk.injEq]
  exact ⟨hu64 hpending, hu64 houtbox, hu64 hpeers,
    UInt8.toNat_inj.mp (tells_nat _ _ trivial trivial hconnected), hu64 htimeouts, hu64 huptime⟩

/-- **The document of a bid** gives the bid. -/
theorem tells_bid (hfc : fc.RoundTrips) :
    Tells fc (fun bid => record (bidFields bid)) fun bid => ∀ g ∈ bid.location, g.Finite := by
  intro bid bid' hg hg' h
  have hfields := fields_eq (by rfl) (by simp [bidFields]) h
  simp only [bidFields, List.map_cons, List.map_nil, Option.map_some, List.cons.injEq,
    Option.some.injEq] at hfields
  obtain ⟨htask, hnode, hqubits, hmps, hload, htime, hattempt, hsig, hproof, hstake, hfeatures,
    hlocation, hoperator, hopsig, hmetrics, -⟩ := hfields
  have htext : ∀ {a b : String}, (textDoc a).map (numeral fc) = (textDoc b).map (numeral fc) → a = b :=
    fun h => tells_text _ _ trivial trivial h
  have hu32 : ∀ {a b : UInt32}, (u32Doc a).map (numeral fc) = (u32Doc b).map (numeral fc) → a = b :=
    fun h => tells_u32 _ _ trivial trivial h
  have hbytes : Tells fc (fun b => textDoc (Base64.encode b)) fun _ => True :=
    tells_text.comp Base64.encode_injective
  cases bid
  cases bid'
  rw [Bid.mk.injEq]
  exact ⟨htext htask, htext hnode, hu32 hqubits, tells_skipZero hmps, hu32 hload,
    tells_i64 _ _ trivial trivial htime, tells_u64 _ _ trivial trivial hattempt,
    hbytes _ _ trivial trivial hsig, hbytes _ _ trivial trivial hproof,
    bigIntText_injective (htext hstake), hu32 hfeatures,
    (tells_geoInfo hfc).optional hg hg' hlocation,
    tells_text.optional (fun _ _ => trivial) (fun _ _ => trivial) hoperator,
    hbytes.optional (fun _ _ => trivial) (fun _ _ => trivial) hopsig,
    tells_metricsSummary.optional (fun _ _ => trivial) (fun _ _ => trivial) hmetrics⟩

end Tells

/-- **Main result.** Two bids with the same JSON are the same bid, whatever they say, if their
locations are as the providers give them. -/
theorem bid_json_eq_iff {fc : FloatCodec} (hfc : fc.RoundTrips) {bid bid' : SignedBid}
    (hg : ∀ g ∈ bid.location, g.Finite) (hg' : ∀ g ∈ bid'.location, g.Finite) :
    bidToVec fc bid = bidToVec fc bid' ↔ bid = bid' := by
  constructor
  · intro h
    have hread : ∀ b : SignedBid, fromSlice (bidToVec fc b) =
        some ((record (bidFields b)).map (numeral fc)) := fun b => fromSlice_toVec (numerals hfc _)
    have hdoc := hread bid
    rw [h, hread bid'] at hdoc
    exact tells_bid hfc bid bid' hg hg' (Option.some.inj hdoc).symm
  · rintro rfl
    rfl

def tokyo : GeoInfo := ⟨Dispatch.half, Dispatch.one, "Japan", "Tokyo"⟩

/-- A bid of a node in Tokyo. -/
def tokyoBid : SignedBid where
  taskId := "t"
  nodeId := "node-a"
  maxQubitCapability := 28
  maxMpsQubits := 2048
  currentLoadFactors := 0
  timestamp := 1700000459
  lotteryAttempt := 0
  signature := [1]
  lotteryProof := [0]
  stakeAmount := 50
  supportedFeatures := 27
  location := some tokyo
  operatorId := none
  operatorSig := none
  metricsSummary := none

/-- Without the width that is not under the signature. -/
def narrowBid : SignedBid := { tokyoBid with maxMpsQubits := 0 }

theorem bid_json_eq_iff_tokyo : bidToVec sampleFloats tokyoBid ≠ bidToVec sampleFloats narrowBid := by
  have hfinite : ∀ g ∈ some tokyo, g.Finite := by
    rintro _ ⟨⟩
    exact ⟨by decide, by decide⟩
  have hwide : ∀ g ∈ tokyoBid.location, g.Finite := hfinite
  have hnarrow : ∀ g ∈ narrowBid.location, g.Finite := hfinite
  intro h
  have heq : tokyoBid = narrowBid := (bid_json_eq_iff sampleFloats_roundTrips hwide hnarrow).mp h
  have hwidth : (2048 : UInt32) = 0 := congrArg (·.maxMpsQubits) heq
  exact absurd hwidth (by decide)

end WqcNode.Domain.BidWire
