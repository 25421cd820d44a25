import WqcNode.Domain.Announcement
import WqcNode.Lib.Fallible
import Mathlib.Data.Set.Basic

/-! # Which announcements a relay can make the node accept

With Ed25519 idealised, a signature vouches for a byte string and nothing else. The two layouts
share the key, have no version tag, and start with a task id of unknown length: the 44 number bytes
of a v2 payload are also 20 bytes of task id and the 24 number bytes of a v1 payload. A message the
node accepts is therefore one the orchestrator published exactly if no published payload can be read
in the other layout as something it did not publish (`accepted_published_iff`). -/

namespace WqcNode.Domain.AnnouncementAuth

open WqcNode.Lib WqcNode.Lib.Text WqcNode.Domain.Features WqcNode.Domain.WorkBudget
open WqcNode.Domain.Announcement WqcNode.Lib.Fallible

/-! ### The layouts as byte strings -/

@[simp] theorem length_fieldBytes (a : TaskAnnouncement) : (fieldBytes a).length = 24 := by
  simp [fieldBytes]

@[simp] theorem length_workBytes (d : UInt32) (w : Work) : (workBytes d w).length = 20 := by
  simp [workBytes]

theorem fieldBytes_inj {x a : TaskAnnouncement} (h : fieldBytes x = fieldBytes a) :
    x.globalQubitCount = a.globalQubitCount ∧ x.requiredFeatures = a.requiredFeatures ∧
      x.bidDifficulty = a.bidDifficulty ∧ x.requiredVotes = a.requiredVotes ∧ x.nonce = a.nonce := by
  simp only [fieldBytes, List.append_assoc] at h
  obtain ⟨hg, h⟩ := List.append_inj h (by simp)
  obtain ⟨hf, h⟩ := List.append_inj h (by simp)
  obtain ⟨hb, h⟩ := List.append_inj h (by simp)
  obtain ⟨hr, hn⟩ := List.append_inj h (by simp)
  exact ⟨be32_inj hg, be32_inj hf, be32_inj hb, be32_inj hr, be64_inj hn⟩

theorem workBytes_inj {d d' : UInt32} {w w' : Work} (h : workBytes d w = workBytes d' w') :
    d = d' ∧ w = w' := by
  simp only [workBytes, List.append_assoc] at h
  obtain ⟨hd, h⟩ := List.append_inj h (by simp)
  obtain ⟨ht, hf⟩ := List.append_inj h (by simp)
  refine ⟨be32_inj hd, ?_⟩
  cases w
  cases w'
  simp only [Work.mk.injEq]
  exact ⟨be64_inj ht, be64_inj hf⟩

/-- Every 24 bytes are the numbers of an announcement without work. -/
theorem exists_fieldBytes (t : String) (bs : Bytes) (h : bs.length = 24) :
    ∃ x : TaskAnnouncement, x.taskId = t ∧ x.work = none ∧ fieldBytes x = bs := by
  obtain ⟨g, hg⟩ := exists_be32 (bs.take 4) (by simp [h])
  obtain ⟨f, hf⟩ := exists_be32 ((bs.drop 4).take 4) (by simp [h])
  obtain ⟨b, hb⟩ := exists_be32 ((bs.drop 8).take 4) (by simp [h])
  obtain ⟨r, hr⟩ := exists_be32 ((bs.drop 12).take 4) (by simp [h])
  obtain ⟨n, hn⟩ := exists_be64 (bs.drop 16) (by simp [h])
  refine ⟨⟨t, g, f, b, r, n, none, none⟩, rfl, rfl, ?_⟩
  simp only [fieldBytes, hg, hf, hb, hr, hn]
  rw [← List.take_add, ← List.take_add, ← List.take_add, List.take_append_drop]

/-- Every 20 bytes are a deadline and work counts. -/
theorem exists_workBytes (bs : Bytes) (h : bs.length = 20) : ∃ d w, workBytes d w = bs := by
  obtain ⟨d, hd⟩ := exists_be32 (bs.take 4) (by simp [h])
  obtain ⟨t, ht⟩ := exists_be64 ((bs.drop 4).take 8) (by simp [h])
  obtain ⟨f, hf⟩ := exists_be64 (bs.drop 12) (by simp [h])
  refine ⟨d, ⟨t, f⟩, ?_⟩
  simp only [workBytes, hd, ht, hf]
  rw [← List.take_add, List.take_append_drop]

theorem payloadV2_eq_some {a : TaskAnnouncement} {p : Bytes} :
    serializeAnnouncementPayloadV2 a = some p ↔
      ∃ w d, a.work = some w ∧ a.deadlineSecs = some d ∧
        p = serializeAnnouncementPayload a ++ workBytes d w := by
  unfold serializeAnnouncementPayloadV2
  cases hw : a.work <;> cases hd : a.deadlineSecs <;> simp [eq_comm]

theorem payload_inj {x a : TaskAnnouncement}
    (h : serializeAnnouncementPayload x = serializeAnnouncementPayload a) :
    x.taskId = a.taskId ∧ fieldBytes x = fieldBytes a := by
  obtain ⟨ht, hf⟩ := List.append_inj' h (by simp)
  exact ⟨utf8_inj ht, hf⟩

/-- A v2 payload read as a v1 payload: 20 number bytes go to the task id, and the deadline takes the
place of the features. -/
theorem payload_eq_v2 {x a : TaskAnnouncement} {d : UInt32} {w : Work}
    (h : serializeAnnouncementPayload x = serializeAnnouncementPayload a ++ workBytes d w) :
    utf8 x.taskId = utf8 a.taskId ++ (fieldBytes a).take 20 ∧ x.requiredFeatures = d := by
  have hsplit : serializeAnnouncementPayload a ++ workBytes d w =
      (utf8 a.taskId ++ (fieldBytes a).take 20) ++ ((fieldBytes a).drop 20 ++ workBytes d w) := by
    simp only [serializeAnnouncementPayload, List.append_assoc]
    rw [← List.append_assoc ((fieldBytes a).take 20), List.take_append_drop]
  rw [hsplit] at h
  obtain ⟨ht, hf⟩ := List.append_inj' h (by simp)
  refine ⟨ht, ?_⟩
  simp only [fieldBytes, workBytes, List.append_assoc] at hf
  obtain ⟨-, hf⟩ := List.append_inj hf (by simp)
  obtain ⟨hd, -⟩ := List.append_inj hf (by simp)
  exact be32_inj hd

/-- Conversely, it can be read so whenever the longer task id is text. -/
theorem exists_payload_eq_v2 {a : TaskAnnouncement} (d : UInt32) (w : Work)
    (hv : ValidUtf8 (utf8 a.taskId ++ (fieldBytes a).take 20)) :
    ∃ x : TaskAnnouncement, x.work = none ∧
      serializeAnnouncementPayload x = serializeAnnouncementPayload a ++ workBytes d w := by
  obtain ⟨t, ht⟩ := hv
  obtain ⟨x, rfl, hw, hx⟩ :=
    exists_fieldBytes t ((fieldBytes a).drop 20 ++ workBytes d w) (by simp)
  refine ⟨x, hw, ?_⟩
  rw [serializeAnnouncementPayload, ht, hx, serializeAnnouncementPayload, List.append_assoc,
    ← List.append_assoc ((fieldBytes a).take 20), List.take_append_drop, List.append_assoc]

/-- A v1 payload whose task id ends in 20 bytes more than a text is also a v2 payload. -/
theorem exists_v2_eq_payload {a : TaskAnnouncement} {t : String} {rest : Bytes}
    (hsplit : utf8 a.taskId = utf8 t ++ rest) (hlen : rest.length = 20) :
    ∃ (x : TaskAnnouncement) (d : UInt32) (w : Work), x.work = some w ∧ x.deadlineSecs = some d ∧
      serializeAnnouncementPayload x ++ workBytes d w = serializeAnnouncementPayload a := by
  obtain ⟨x, rfl, -, hx⟩ :=
    exists_fieldBytes t (rest ++ (fieldBytes a).take 4) (by simp [hlen])
  obtain ⟨d, w, hdw⟩ := exists_workBytes ((fieldBytes a).drop 4) (by simp)
  refine ⟨{ x with deadlineSecs := some d, work := some w }, d, w, rfl, rfl, ?_⟩
  have hx' : fieldBytes { x with deadlineSecs := some d, work := some w } = fieldBytes x := rfl
  rw [serializeAnnouncementPayload, hx', hx, hdw, serializeAnnouncementPayload, hsplit]
  simp only [List.append_assoc, List.take_append_drop]

/-! ### What a signature vouches for -/

/-- The orchestrator sets bit 4 exactly on the announcements with work. -/
def Published (A : Set TaskAnnouncement) : Prop :=
  ∀ a ∈ A, asksWorkBudget a.requiredFeatures ↔ a.work.isSome

/-- The byte strings it signs: each v1 payload, and the v2 payload of each announcement with
work. -/
def signedBy (A : Set TaskAnnouncement) : Set Bytes :=
  { p | ∃ a ∈ A, p = serializeAnnouncementPayload a ∨ serializeAnnouncementPayloadV2 a = some p }

/-- Ed25519 idealised: the text `key` is a public key under which exactly the byte strings of
`signed` have a signature. -/
def Ideal (api : Crypto) (key : String) (signed : Set Bytes) : Prop :=
  ∃ keyBytes k, api.decode (trim key) = .ok keyBytes ∧ keyBytes.length = 32 ∧
    api.keyFromBytes keyBytes = .ok k ∧
    (∀ p signature, api.verify k p signature = true → p ∈ signed) ∧
    ∀ p ∈ signed, ∃ text bytes signature, api.decode (trim text) = .ok bytes ∧
      api.signatureFromSlice bytes = .ok signature ∧ api.verify k p signature = true

variable {api : Crypto} {key : String} {signed : Set Bytes} {A : Set TaskAnnouncement}

/-- A signature passes if all of its parts are read and it verifies. -/
theorem verify_ok_iff {p : Bytes} {signature label : String} :
    verifyOrchestratorSignature api p signature key label = .ok () ↔
      ∃ bytes sig keyBytes k, api.decode (trim signature) = .ok bytes ∧
        api.signatureFromSlice bytes = .ok sig ∧ api.decode (trim key) = .ok keyBytes ∧
        keyBytes.length = 32 ∧ api.keyFromBytes keyBytes = .ok k ∧ api.verify k p sig = true := by
  unfold verifyOrchestratorSignature
  simp only [bind_eq_ok, mapError_eq_ok]
  constructor
  · rintro ⟨bytes, hbytes, sig, hsig, keyBytes, hdec, h⟩
    by_cases hlen : keyBytes.length = 32
    · rw [if_neg (not_not.mpr hlen)] at h
      obtain ⟨k, hkey, h⟩ := bind_eq_ok.mp h
      split_ifs at h with hv
      exact ⟨bytes, sig, keyBytes, k, hbytes, hsig, hdec, hlen, mapError_eq_ok.mp hkey, hv⟩
    · rw [if_pos hlen] at h
      cases h
  · rintro ⟨bytes, sig, keyBytes, k, hbytes, hsig, hdec, hlen, hkey, hv⟩
    refine ⟨bytes, hbytes, sig, hsig, keyBytes, hdec, ?_⟩
    rw [if_neg (not_not.mpr hlen)]
    exact bind_eq_ok.mpr ⟨k, mapError_eq_ok.mpr hkey, if_pos hv⟩

theorem signed_of_verify (hi : Ideal api key signed) {p : Bytes} {signature label : String}
    (h : verifyOrchestratorSignature api p signature key label = .ok ()) : p ∈ signed := by
  obtain ⟨keyBytes, k, hdec, -, hkey, hsound, -⟩ := hi
  obtain ⟨bytes, sig, keyBytes', k', -, -, hdec', -, hkey', hv⟩ := verify_ok_iff.mp h
  cases hdec.symm.trans hdec'
  cases hkey.symm.trans hkey'
  exact hsound p sig hv

theorem exists_verify (hi : Ideal api key signed) {p : Bytes} (hp : p ∈ signed) :
    ∃ signature, ∀ label, verifyOrchestratorSignature api p signature key label = .ok () := by
  obtain ⟨keyBytes, k, hdec, hlen, hkey, -, hcomplete⟩ := hi
  obtain ⟨text, bytes, sig, hbytes, hsig, hv⟩ := hcomplete p hp
  exact ⟨text, fun label =>
    verify_ok_iff.mpr ⟨bytes, sig, keyBytes, k, hbytes, hsig, hdec, hlen, hkey, hv⟩⟩

/-! ### What the node accepts -/

/-- The accepted announcement and a published one agree, on the deadline when there is work. -/
def Agrees (x a : TaskAnnouncement) : Prop :=
  x.taskId = a.taskId ∧ x.globalQubitCount = a.globalQubitCount ∧
    x.requiredFeatures = a.requiredFeatures ∧ x.bidDifficulty = a.bidDifficulty ∧
    x.requiredVotes = a.requiredVotes ∧ x.nonce = a.nonce ∧ x.work = a.work ∧
    (x.work.isSome → x.deadlineSecs = a.deadlineSecs)

/-- Whatever the node accepts under `key` was published. -/
def Authentic (api : Crypto) (key : String) (A : Set TaskAnnouncement) : Prop :=
  ∀ message, verifyAnnouncementMessage api message key = .ok () →
    ∃ a ∈ A, Agrees message.announcement a

/-- Neither layout of a published announcement reads as an unpublished one in the other layout. -/
structure NoMisreading (A : Set TaskAnnouncement) : Prop where
  /-- A v2 payload reads as v1 when its deadline has bit 4 clear and the 20 bytes after the task id
  continue its text. -/
  v2AsV1 : ∀ a ∈ A, ∀ w d, a.work = some w → a.deadlineSecs = some d → ¬ asksWorkBudget d →
    ValidUtf8 (utf8 a.taskId ++ (fieldBytes a).take 20) →
      ∃ a' ∈ A, a'.work = none ∧
        serializeAnnouncementPayload a' = serializeAnnouncementPayload a ++ workBytes d w
  /-- A v1 payload reads as v2 when its task id is a text followed by 20 bytes. -/
  v1AsV2 : ∀ a ∈ A, ∀ t rest, utf8 a.taskId = utf8 t ++ rest → rest.length = 20 →
    ∃ a' ∈ A, serializeAnnouncementPayloadV2 a' = some (serializeAnnouncementPayload a)

theorem accepts_cases (hi : Ideal api key (signedBy A)) {m : TaskAnnouncementMessage}
    (h : verifyAnnouncementMessage api m key = .ok ()) :
    (∃ p, m.announcement.work.isSome ∧ serializeAnnouncementPayloadV2 m.announcement = some p ∧
      p ∈ signedBy A) ∨
    (m.announcement.work = none ∧ ¬ asksWorkBudget m.announcement.requiredFeatures ∧
      serializeAnnouncementPayload m.announcement ∈ signedBy A) := by
  simp only [verifyAnnouncementMessage] at h
  split_ifs at h with hbit hwork
  · left
    cases hp : serializeAnnouncementPayloadV2 m.announcement with
    | none => simp [hp] at h
    | some p =>
      cases hs : m.signatureV2 with
      | none => simp [hp, hs] at h
      | some signature =>
        rw [hp, hs] at h
        exact ⟨p, hwork, rfl, signed_of_verify hi h⟩
  · right
    have hnone : m.announcement.work = none := by simpa using hwork
    refine ⟨hnone, fun hb => hbit ⟨hb, by simp [hnone]⟩, signed_of_verify hi h⟩

theorem accepts_v1 (hi : Ideal api key (signedBy A)) {x : TaskAnnouncement} (hw : x.work = none)
    (hb : ¬ asksWorkBudget x.requiredFeatures)
    (hs : serializeAnnouncementPayload x ∈ signedBy A) :
    ∃ signature, verifyAnnouncementMessage api ⟨x, signature, none⟩ key = .ok () := by
  obtain ⟨signature, hv⟩ := exists_verify hi hs
  refine ⟨signature, ?_⟩
  simp [verifyAnnouncementMessage, hb, hw, hv]

theorem accepts_v2 (hi : Ideal api key (signedBy A)) {x : TaskAnnouncement} {p : Bytes}
    (hp : serializeAnnouncementPayloadV2 x = some p) (hs : p ∈ signedBy A) :
    ∃ signature, verifyAnnouncementMessage api ⟨x, "", some signature⟩ key = .ok () := by
  obtain ⟨w, d, hw, hd, -⟩ := payloadV2_eq_some.mp hp
  obtain ⟨signature, hv⟩ := exists_verify hi hs
  refine ⟨signature, ?_⟩
  simp [verifyAnnouncementMessage, hw, hd, hp, hv]

theorem agrees_of_payload {x a : TaskAnnouncement}
    (h : serializeAnnouncementPayload x = serializeAnnouncementPayload a) (hw : x.work = a.work)
    (hd : x.work.isSome → x.deadlineSecs = a.deadlineSecs) : Agrees x a := by
  obtain ⟨ht, hf⟩ := payload_inj h
  obtain ⟨hg, hr, hb, hv, hn⟩ := fieldBytes_inj hf
  exact ⟨ht, hg, hr, hb, hv, hn, hw, hd⟩

theorem Agrees.payload {x a : TaskAnnouncement} (h : Agrees x a) :
    serializeAnnouncementPayload x = serializeAnnouncementPayload a := by
  obtain ⟨ht, hg, hf, hb, hr, hn, -, -⟩ := h
  rw [serializeAnnouncementPayload, serializeAnnouncementPayload, fieldBytes, fieldBytes, ht, hg, hf,
    hb, hr, hn]

theorem agrees_of_payloadV2 {x a : TaskAnnouncement} {p : Bytes}
    (hx : serializeAnnouncementPayloadV2 x = some p)
    (ha : serializeAnnouncementPayloadV2 a = some p) : Agrees x a := by
  obtain ⟨w, d, hxw, hxd, rfl⟩ := payloadV2_eq_some.mp hx
  obtain ⟨w', d', haw, had, heq⟩ := payloadV2_eq_some.mp ha
  obtain ⟨hpay, hwork⟩ := List.append_inj' heq (by simp)
  obtain ⟨rfl, rfl⟩ := workBytes_inj hwork
  exact agrees_of_payload hpay (hxw.trans haw.symm) fun _ => hxd.trans had.symm

theorem authentic_of_noMisreading (hi : Ideal api key (signedBy A)) (hA : Published A)
    (hn : NoMisreading A) : Authentic api key A := by
  intro m hm
  rcases accepts_cases hi hm with ⟨p, hwork, hp, a, ha, hsig | hsig⟩ | ⟨hw, hb, a, ha, hsig | hsig⟩
  · -- the v1 signature of `a` in the v2 slot
    subst hsig
    obtain ⟨w, d, hxw, hxd, heq⟩ := payloadV2_eq_some.mp hp
    have hsplit : utf8 a.taskId ++ fieldBytes a =
        (utf8 m.announcement.taskId ++ (fieldBytes m.announcement ++ workBytes d w).take 20) ++
          (fieldBytes m.announcement ++ workBytes d w).drop 20 := by
      rw [List.append_assoc, List.take_append_drop, ← List.append_assoc]
      exact heq
    obtain ⟨htask, -⟩ := List.append_inj' hsplit (by simp)
    obtain ⟨a', ha', hv2⟩ := hn.v1AsV2 a ha _ _ htask (by simp)
    exact ⟨a', ha', agrees_of_payloadV2 hp hv2⟩
  · exact ⟨a, ha, agrees_of_payloadV2 hp hsig⟩
  · -- the v1 signature of `a`; bit 4 is clear, so `a` has no work either
    obtain ⟨-, hf⟩ := payload_inj hsig
    have hbit : ¬ asksWorkBudget a.requiredFeatures := by rwa [← (fieldBytes_inj hf).2.1]
    have haw : a.work = none := by simpa using mt (hA a ha).mpr hbit
    exact ⟨a, ha, agrees_of_payload hsig (hw.trans haw.symm) (by simp [hw])⟩
  · -- the v2 signature of `a` in the v1 slot
    obtain ⟨w, d, haw, had, heq⟩ := payloadV2_eq_some.mp hsig
    obtain ⟨htask, hfeat⟩ := payload_eq_v2 heq
    obtain ⟨a', ha', hw', hpay⟩ :=
      hn.v2AsV1 a ha w d haw had (by rwa [← hfeat]) ⟨_, htask⟩
    exact ⟨a', ha', agrees_of_payload (heq.trans hpay.symm) (hw.trans hw'.symm) (by simp [hw])⟩

theorem noMisreading_of_authentic (hi : Ideal api key (signedBy A))
    (h : Authentic api key A) : NoMisreading A := by
  refine ⟨fun a ha w d haw had hd hv => ?_, fun a ha t rest hsplit hlen => ?_⟩
  · obtain ⟨x, hxw, hx⟩ := exists_payload_eq_v2 d w hv
    have hbit : ¬ asksWorkBudget x.requiredFeatures := by rwa [(payload_eq_v2 hx).2]
    have hs : serializeAnnouncementPayload x ∈ signedBy A :=
      ⟨a, ha, .inr (payloadV2_eq_some.mpr ⟨w, d, haw, had, hx⟩)⟩
    obtain ⟨signature, hacc⟩ := accepts_v1 hi hxw hbit hs
    obtain ⟨a', ha', hag⟩ := h _ hacc
    refine ⟨a', ha', ?_, hag.payload.symm.trans hx⟩
    obtain ⟨-, -, -, -, -, -, hwork, -⟩ := hag
    exact hwork.symm.trans hxw
  · obtain ⟨x, d, w, hxw, hxd, hx⟩ := exists_v2_eq_payload hsplit hlen
    have hp : serializeAnnouncementPayloadV2 x = some (serializeAnnouncementPayload a) :=
      payloadV2_eq_some.mpr ⟨w, d, hxw, hxd, hx.symm⟩
    obtain ⟨signature, hacc⟩ := accepts_v2 hi hp ⟨a, ha, .inl rfl⟩
    obtain ⟨a', ha', hag⟩ := h _ hacc
    have hpay : serializeAnnouncementPayload x = serializeAnnouncementPayload a' := hag.payload
    obtain ⟨-, -, -, -, -, -, hwork, hdead⟩ := hag
    refine ⟨a', ha', payloadV2_eq_some.mpr ⟨w, d, hwork.symm.trans hxw, ?_, ?_⟩⟩
    · rw [← hdead (by simp [hxw]), hxd]
    · rw [← hpay, hx]

/-- **Main result.** With Ed25519 idealised, every accepted announcement is a published one exactly
if no published payload can be read in the other layout as something that was not published. -/
theorem accepted_published_iff (hi : Ideal api key (signedBy A)) (hA : Published A) :
    Authentic api key A ↔ NoMisreading A :=
  ⟨noMisreading_of_authentic hi, authentic_of_noMisreading hi hA⟩

/-! ### The announcement of the tests

`announcement_work_needs_the_v2_signature` signs this announcement with the key of 32 sevens. Its
deadline 300 has bit 4 clear and the 20 bytes after its task id are ASCII. -/

def golden : TaskAnnouncement :=
  ⟨"t", 100, 27, 1, 2, 9, some 300, some ⟨2 ^ 40, 38000000000⟩⟩

def goldenKey : String := "6kpsY+KcUgq+9VB7Ey7F+ZVHdq6+vnuSQh7qaRRG0iw="

def goldenSignature : String :=
  "nflDUzojl3O0Siz4AwEvMzm7z08J21FSCfl7sKRC/Fce/8QSxzKLD2TbyK7nabxy7GWvo16f/rGIGbsG32CYDA=="

def goldenSignatureV2 : String :=
  "aCou2lfKUV+nAk9awslaCfijbrFjHxIreGAbR+kx0lcN3li2PXhmGh/737ixh7yEJhJtM4Ia1GYrI5fGAW5RAA=="

def goldenKeyBytes : Bytes :=
  be 32 0xea4a6c63e29c520abef5507b132ec5f9954776aebebe7b92421eea691446d22c

def goldenSignatureBytes : Bytes :=
  be 64
    0x9df943533a239773b44a2cf803012f3339bbcf4f09db515209f97bb0a442fc571effc412c7328b0f64dbc8aee769bc72ec65afa35e9ffeb18819bb06df60980c

def goldenSignatureV2Bytes : Bytes :=
  be 64
    0x682a2eda57ca515fa7024f5ac2c95a09f8a36eb1631f122b78601b47e931d2570dde58b63d78661a1ffbdfb8b187bc8426126d33821ad4662b2397c6016e5100

/-- base64 and Ed25519 as they behave on the key of the tests and the signatures of `rows`: each a
base64 text, its bytes and the payload signed. -/
def tableCrypto (rows : List (String × Bytes × Bytes)) : Crypto where
  Signature := Bytes
  VerifyingKey := Bytes
  decode text :=
    if text = goldenKey then .ok goldenKeyBytes
    else match rows.find? (·.1 = text) with
      | some row => .ok row.2.1
      | none => .error "Invalid padding"
  signatureFromSlice bytes := if bytes.length = 64 then .ok bytes else .error "signature error"
  keyFromBytes := .ok
  verify key payload signature := key == goldenKeyBytes && rows.any (·.2 == (signature, payload))

def goldenCrypto : Crypto :=
  tableCrypto [(goldenSignature, goldenSignatureBytes, serializeAnnouncementPayload golden),
    (goldenSignatureV2, goldenSignatureV2Bytes,
      serializeAnnouncementPayload golden ++ workBytes 300 ⟨2 ^ 40, 38000000000⟩)]

theorem golden_ideal : Ideal goldenCrypto goldenKey (signedBy {golden}) := by
  refine ⟨goldenKeyBytes, goldenKeyBytes, by decide +kernel, by decide +kernel, rfl, ?_, ?_⟩
  · intro p signature h
    refine ⟨golden, rfl, ?_⟩
    simp only [goldenCrypto, tableCrypto, List.any_cons, List.any_nil, Bool.or_false,
      Bool.and_eq_true, Bool.or_eq_true, beq_iff_eq] at h
    obtain ⟨-, hp | hp⟩ := h
    · exact .inl (Prod.mk.inj hp).2.symm
    · exact .inr (congrArg some (Prod.mk.inj hp).2)
  · rintro p ⟨a, rfl, rfl | hp⟩
    · exact ⟨goldenSignature, goldenSignatureBytes, goldenSignatureBytes, by decide +kernel, rfl,
        by decide +kernel⟩
    · obtain rfl : _ = p := Option.some.inj hp
      exact ⟨goldenSignatureV2, goldenSignatureV2Bytes, goldenSignatureV2Bytes, by decide +kernel,
        rfl, by decide +kernel⟩

theorem golden_published : Published {golden} := by
  rintro a rfl
  decide +kernel

theorem accepted_published_iff_golden :
    Authentic goldenCrypto goldenKey {golden} ↔ NoMisreading {golden} :=
  accepted_published_iff golden_ideal golden_published

/-- The message a relay makes of `golden`: the v2 signature in the v1 slot, 20 number bytes in the
task id, the deadline as the required features. -/
def relayed : TaskAnnouncementMessage :=
  ⟨⟨"t\x00\x00\x00d\x00\x00\x00\x1b\x00\x00\x00\x01\x00\x00\x00\x02\x00\x00\x00\x00", 9, 300, 256, 0,
    38000000000, none, none⟩, goldenSignatureV2, none⟩

theorem relayed_accepted : Ideal goldenCrypto goldenKey (signedBy {golden}) ∧ Published {golden} ∧
    verifyAnnouncementMessage goldenCrypto relayed goldenKey = .ok () ∧
    ¬ ∃ a ∈ ({golden} : Set TaskAnnouncement), Agrees relayed.announcement a := by
  refine ⟨golden_ideal, golden_published, by decide +kernel, ?_⟩
  rintro ⟨a, rfl, -, hg, -⟩
  exact absurd hg (by decide)

end WqcNode.Domain.AnnouncementAuth
