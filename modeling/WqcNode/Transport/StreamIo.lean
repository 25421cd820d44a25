import WqcNode.Lib.SerdeValue

/-! # Outbound streams (`transport/p2p/stream_io.rs`)

The node opens a stream, writes and half-closes it; where it expects an ack it reads the answer to its
end and takes it for a confirmation if it is a JSON object whose `ok` is `true` (`ack_ok_iff`). -/

namespace WqcNode.Transport.StreamIo

open WqcNode.Lib WqcNode.Lib.Json WqcNode.Lib.JsonText WqcNode.Lib.Serde WqcNode.Lib.SerdeValue

/-- What becomes of a stream. -/
inductive Outcome
  | notOpened (error : String)
  /-- `write_all` or the close failed; the peer may have all the bytes or not -/
  | notWritten (error : String)
  /-- the answer cannot be read -/
  | unread (error : String)
  | answered (response : Bytes)

/-- `serde_json` and `String::from_utf8_lossy`. -/
structure Texts where
  floats : FloatCodec
  error : Bytes → String
  lossy : Bytes → String

/-- `Value::get`. -/
def get (key : String) : Value → Option Value
  | .object map => map.lookup key
  | _ => none

/-- `Value::as_bool`. -/
def asBool : Value → Option Bool
  | .bool b => some b
  | _ => none

/-- `Value::as_str`. -/
def asStr : Value → Option String
  | .string s => some s
  | _ => none

section Streams

variable (texts : Texts) (peerId protocol : String)

def writeOutboundStream : Outcome → Except String Unit
  | .notOpened e => .error s!"failed to open stream to {peerId} on {protocol}: {e}"
  | .notWritten e => .error e
  | .unread _ | .answered _ => .ok ()

/-- What the answer says. -/
def ackOf (response : Bytes) : Except String Unit :=
  match (fromSlice response).bind (valueWithin texts.floats depthLimit) with
  | none =>
    let e := texts.error response
    let body := texts.lossy response
    .error s!"invalid ack on {protocol}: {e}; body={body}"
  | some ack =>
    if (get "ok" ack).bind asBool = some true then .ok ()
    else
      let err := ((get "error" ack).bind asStr).getD "orchestrator rejected stream"
      .error s!"{protocol} rejected: {err}"

def writeOutboundStreamExpectAck : Outcome → Except String Unit
  | .notOpened e => .error s!"failed to open stream to {peerId} on {protocol}: {e}"
  | .notWritten e => .error e
  | .unread e => .error s!"failed to read ack on {protocol}: {e}"
  | .answered response => ackOf texts protocol response

end Streams

variable {texts : Texts} {peerId protocol : String} {outcome : Outcome}

theorem asBool_eq_some {v : Value} {b : Bool} : asBool v = some b ↔ v = .bool b := by
  cases v <;> simp [asBool]

theorem valueOf_eq_bool {fc : FloatCodec} {doc : Document Decimal} {b : Bool} :
    valueOf fc doc = some (.bool b) ↔ doc = .bool b := by
  cases doc <;> simp [valueOf]

/-- **An ack is one exactly if** it is a JSON object that can be read and whose last member `ok` is
`true`. -/
theorem ack_ok_iff {response : Bytes} : ackOf texts protocol response = .ok () ↔
    ∃ members, fromSlice response = some (.object members) ∧
      (valueWithin texts.floats depthLimit (.object members)).isSome ∧
      last members "ok" = some (.bool true) := by
  unfold ackOf
  constructor
  · intro h
    split at h
    · cases h
    · next ack hread =>
      split_ifs at h with hok
      obtain ⟨doc, hdoc, hvalue⟩ := Option.bind_eq_some_iff.mp hread
      obtain ⟨v, hget, hv⟩ := Option.bind_eq_some_iff.mp hok
      rw [asBool_eq_some] at hv
      subst hv
      have hread' := hvalue
      unfold valueWithin at hvalue
      split_ifs at hvalue
      cases doc with
      | object members =>
        rw [valueOf] at hvalue
        obtain ⟨map, hmap, rfl⟩ := Option.map_eq_some_iff.mp hvalue
        rw [get, lookup_membersInto hmap] at hget
        refine ⟨members, hdoc, by rw [hread']; rfl, ?_⟩
        cases hlast : last members "ok" with
        | none =>
          rw [hlast] at hget
          cases hget
        | some doc =>
          rw [hlast] at hget
          rw [valueOf_eq_bool.mp hget]
      | null | bool | string =>
        cases hvalue
        cases hget
      | number d | array items =>
        rw [valueOf] at hvalue
        obtain ⟨_, -, rfl⟩ := Option.map_eq_some_iff.mp hvalue
        cases hget
  · rintro ⟨members, hdoc, hread, hlast⟩
    obtain ⟨ack, hack⟩ := Option.isSome_iff_exists.mp hread
    have hget : (get "ok" ack).bind asBool = some true := by
      unfold valueWithin at hack
      split_ifs at hack
      rw [valueOf] at hack
      obtain ⟨map, hmap, rfl⟩ := Option.map_eq_some_iff.mp hack
      rw [get, lookup_membersInto hmap, hlast]
      rfl
    rw [hdoc, Option.bind_some, hack]
    exact if_pos hget

/-- A send that expects an ack succeeds only after the bytes arrived and were acknowledged. -/
theorem expectAck_ok_iff : writeOutboundStreamExpectAck texts peerId protocol outcome = .ok () ↔
    ∃ response, outcome = .answered response ∧ ackOf texts protocol response = .ok () := by
  cases outcome <;> simp [writeOutboundStreamExpectAck]

end WqcNode.Transport.StreamIo
