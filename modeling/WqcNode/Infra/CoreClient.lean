import WqcNode.Infra.CoreHealth
import WqcNode.Lib.Machine
import Mathlib.Tactic.Linarith

/-! # Calls of core side by side (`infra/core_client.rs`)

The worker and the loops over the open proofs share one client. Its gate is an atomic counter and a
lock, and a call reads and writes them in several steps, so that the calls meet between any two of
them. Here every such step is one step of a machine, and a log says what was done.

* `run_explained`: the counter and the lock are read off the log, and each entry is accounted for by
  those before it: the gate is opened only by a call whose own failure was one too many in a row, a
  call is turned away only for the opening before it, and a request is sent only after the call
  passed the gate and its own probe was answered.
* `run_sequential`: as long as no two calls are in the middle of an update, the gate is that of
  `CoreHealth` after the updates one by one. -/

namespace WqcNode.Infra.CoreClient

open WqcNode.Lib.Machine WqcNode.Infra.CoreHealth

/-! ### The source's functions -/

/-- What the client asks an error of `reqwest` for. -/
structure ReqwestError where
  isTimeout : Bool
  isBody : Bool
  isDecode : Bool
  isConnect : Bool
  isRequest : Bool
  text : String

/-- Not long prove and compute timeouts. -/
def isUnreachable (err : ReqwestError) : Bool :=
  if err.isTimeout || err.isBody || err.isDecode then false else err.isConnect || err.isRequest

/-- `dispatch_task` and `post_leaf_pcs`. -/
inductive Kind
  | compute
  | leafPcs
deriving DecidableEq

/-- What became of the request for `/health`. -/
inductive Health
  | failed (text : String)
  | answered (status : String) (success : Bool)

def probeHealth : Health → Except String Unit
  | .failed text => .error s!"Failed to reach wqc-core /health: {text}"
  | .answered status success =>
    if success then .ok () else .error s!"wqc-core /health returned {status}"

/-- What became of the request itself: its error, an answer that is not `200 OK` and its text, or
what the JSON of the answer is. -/
inductive Reply (ρ : Type)
  | failed (err : ReqwestError)
  | status (status errorText : String)
  | ok (json : Except String ρ)

def backoffText : String := "wqc-core unhealthy (backoff); skipping request"

/-- The contexts of the errors of a call. -/
def healthContext (text : String) : String := "wqc-core health check failed: " ++ text

def Kind.sendContext : Kind → String → String
  | .compute, text => "Failed to send request to wqc-core: " ++ text
  | .leafPcs, text => "Failed to send leaf_pcs request to wqc-core: " ++ text

def Kind.parseContext : Kind → String → String
  | .compute, text => "Failed to parse success response body: " ++ text
  | .leafPcs, text => "Failed to parse leaf_pcs response: " ++ text

def Kind.statusText : Kind → String → String → String
  | .compute, status, errorText =>
    "wqc-core returned error status: " ++ (status ++ (" - " ++ errorText))
  | .leafPcs, status, errorText =>
    "wqc-core leaf_pcs error status: " ++ (status ++ (" - " ++ errorText))

variable {ρ : Type}

/-- What a call does after `mark_healthy`. -/
inductive Next (ρ : Type)
  | post
  | finish (result : Except String ρ)

/-- Where a call stands. -/
inductive Pc (ρ : Type)
  /-- before `is_in_backoff` -/
  | check
  /-- waiting for `/health` -/
  | probe
  /-- in `mark_healthy`, before the counter is set -/
  | zero (next : Next ρ)
  /-- in `mark_healthy`, before the lock is taken -/
  | clear (next : Next ρ)
  /-- in `record_unreachable`, before `fetch_add`; `err` is returned after it -/
  | count (err : String)
  /-- the threshold is reached: before `Instant::now()` -/
  | stamp (err : String)
  /-- before the lock is taken, with the time read -/
  | trip (at' : ℚ) (err : String)
  /-- before the counter is set back -/
  | reset (at' : ℚ) (err : String)
  /-- before the request is sent -/
  | post
  /-- waiting for the answer -/
  | sent
  | done (result : Except String ρ)
  /-- `record_unreachable` panicked -/
  | panicked

structure Call (ρ : Type) where
  kind : Kind
  pc : Pc ρ

/-- What a call did: it passed the gate or was turned away, its probe was answered, its request was
sent and answered; it counted a failure, set the counter to zero, opened the gate or cleared it, came
to the end of `record_unreachable`, or panicked in it. -/
inductive Event
  | passed (now : ℚ)
  | refused (now : ℚ)
  | probed
  | posted
  | answered
  | counted
  | zeroed
  | opened (at' : ℚ)
  | cleared (now : ℚ)
  | recorded (at' : ℚ)
  | panicked (at' : ℚ)
deriving DecidableEq

/-- The client, its clock and its calls; what the calls did, the last first. -/
structure State (ρ : Type) where
  consecutiveFailures : UInt32
  unhealthyUntil : Option ℚ
  clock : ℚ
  calls : List (Call ρ)
  log : List (ℕ × Event)

def init : State ρ := ⟨0, none, 0, [], []⟩

def State.gate (s : State ρ) : Gate := ⟨s.consecutiveFailures, s.unhealthyUntil⟩

/-- What core and the network do in one step of a call. -/
structure Choice (ρ : Type) where
  health : Health
  reply : Reply ρ

inductive Act (ρ : Type)
  | tick (secs : ℚ)
  | call (kind : Kind)
  | move (i : ℕ) (c : Choice ρ)

section Step

variable (failThreshold : UInt32) (backoff : ℚ)

/-- The gate after a step of a call, where the call stands then, and what it did. -/
def callStep (gate : Gate) (now : ℚ) (c : Choice ρ) (kind : Kind) :
    Pc ρ → Option (Gate × Pc ρ × List Event)
  | .check =>
    if gate.isInBackoff now then some (gate, .done (.error backoffText), [.refused now])
    else some (gate, .probe, [.passed now])
  | .probe =>
    match probeHealth c.health with
    | .ok () => some (gate, .zero .post, [.probed])
    | .error e => some (gate, .count (healthContext e), [])
  | .zero next => some (⟨0, gate.unhealthyUntil⟩, .clear next, [.zeroed])
  | .clear next => some (⟨gate.consecutiveFailures, none⟩,
      match next with
      | .post => .post
      | .finish result => .done result, [.cleared now])
  | .count err =>
    let n := gate.consecutiveFailures + 1
    if n ≥ failThreshold then some (⟨n, gate.unhealthyUntil⟩, .stamp err, [.counted])
    else some (⟨n, gate.unhealthyUntil⟩, .done (.error err), [.recorded now, .counted])
  | .stamp err =>
    match checkedAdd now backoff with
    | some _ => some (gate, .trip now err, [])
    -- the failure stays counted and the lock as it was
    | none => some (gate, .panicked, [.panicked now])
  | .trip at' err =>
    some (⟨gate.consecutiveFailures, some (at' + backoff)⟩, .reset at' err, [.opened at'])
  | .reset at' err =>
    some (⟨0, gate.unhealthyUntil⟩, .done (.error err), [.recorded at', .zeroed])
  | .post => some (gate, .sent, [.posted])
  | .sent =>
    match c.reply with
    | .failed err =>
      let e := kind.sendContext err.text
      if isUnreachable err then some (gate, .count e, [])
      else some (gate, .done (.error e), [])
    | .status status errorText =>
      some (gate, .done (.error (kind.statusText status errorText)), [.answered])
    | .ok json =>
      match kind, json with
      -- a computation is parsed before core counts as healthy, a proof after it
      | .compute, .error e => some (gate, .done (.error (kind.parseContext e)), [.answered])
      | .compute, .ok body => some (gate, .zero (.finish (.ok body)), [.answered])
      | .leafPcs, json =>
        some (gate, .zero (.finish (json.mapError kind.parseContext)), [.answered])
  | .done _ | .panicked => none

def step (s : State ρ) : Act ρ → Option (State ρ)
  | .tick secs => if 0 ≤ secs then some { s with clock := s.clock + secs } else none
  | .call kind => some { s with calls := s.calls ++ [⟨kind, .check⟩] }
  | .move i c => do
    let call ← s.calls[i]?
    let (gate, pc, events) ← callStep failThreshold backoff s.gate s.clock c call.kind call.pc
    return {
      consecutiveFailures := gate.consecutiveFailures
      unhealthyUntil := gate.unhealthyUntil
      clock := s.clock
      calls := s.calls.set i { call with pc := pc }
      log := events.map (i, ·) ++ s.log }

end Step

/-! ### What the log says -/

section Log

variable {failThreshold : UInt32} {backoff : ℚ} {log before : List (ℕ × Event)} {i j : ℕ}

/-- The failures since the counter was last set to zero. -/
def countedSince : List (ℕ × Event) → ℕ
  | [] => 0
  | (_, .zeroed) :: _ => 0
  | (_, .counted) :: log => countedSince log + 1
  | _ :: log => countedSince log

/-- The opening of the gate, if it was not cleared after it. -/
def lastOpening : List (ℕ × Event) → Option ℚ
  | [] => none
  | (_, .opened at') :: _ => some at'
  | (_, .cleared _) :: _ => none
  | _ :: log => lastOpening log

/-- The failure the call counted was at least the `failThreshold`-th in a row. -/
def Tripped (failThreshold : UInt32) (log : List (ℕ × Event)) (i : ℕ) : Prop :=
  ∃ earlier, (i, .counted) :: earlier <:+ log ∧
    failThreshold.toNat ≤ countedSince ((i, .counted) :: earlier)

/-- The failure the call counted left the counter below the threshold. -/
def Untripped (failThreshold : UInt32) (log : List (ℕ × Event)) (i : ℕ) : Prop :=
  ∃ earlier, (i, .counted) :: earlier <:+ log ∧
    UInt32.ofNat (countedSince ((i, .counted) :: earlier)) < failThreshold

/-- What must have been done before an entry of the log. -/
def Explains (failThreshold : UInt32) (backoff : ℚ) (before : List (ℕ × Event)) :
    ℕ × Event → Prop
  | (_, .passed now) => ∀ t ∈ lastOpening before, t + backoff ≤ now
  | (_, .refused now) => ∃ t, lastOpening before = some t ∧ t ≤ now ∧ now < t + backoff
  | (i, .probed) => ∃ now, (i, .passed now) ∈ before
  | (i, .posted) => (i, .probed) ∈ before
  | (i, .answered) => (i, .posted) ∈ before
  | (i, .counted) => (∃ now, (i, .passed now) ∈ before) ∧ (i, .counted) ∉ before ∧
      (i, .answered) ∉ before
  | (i, .zeroed) => (i, .probed) ∈ before ∨ (i, .answered) ∈ before ∨
      ∃ t, (i, .opened t) ∈ before
  | (i, .opened at') => Tripped failThreshold before i ∧ (∀ t, (i, .opened t) ∉ before) ∧
      at' + backoff < instantEnd
  | (i, .cleared _) => (i, .zeroed) ∈ before
  | (i, .recorded at') => Untripped failThreshold before i ∨ (i, .opened at') ∈ before
  | (i, .panicked at') => Tripped failThreshold before i ∧ instantEnd ≤ at' + backoff

/-- Each entry is accounted for by those before it. -/
def Explained (failThreshold : UInt32) (backoff : ℚ) : List (ℕ × Event) → Prop
  | [] => True
  | entry :: before =>
    Explains failThreshold backoff before entry ∧ Explained failThreshold backoff before

theorem Explained.explains {later : List (ℕ × Event)} {entry : ℕ × Event}
    (h : Explained failThreshold backoff (later ++ entry :: before)) :
    Explains failThreshold backoff before entry := by
  induction later with
  | nil => exact h.1
  | cons _ later ih => exact ih h.2

theorem Tripped.mono {log' : List (ℕ × Event)} (h : Tripped failThreshold log i)
    (hs : log <:+ log') : Tripped failThreshold log' i := by
  obtain ⟨earlier, hsuffix, hle⟩ := h
  exact ⟨earlier, hsuffix.trans hs, hle⟩

/-- The entries of a call are its own. -/
theorem mem_others {events : List Event} {e : Event} (h : i ≠ j) :
    (i, e) ∈ events.map (j, ·) ++ log ↔ (i, e) ∈ log := by
  simp only [List.mem_append, List.mem_map, Prod.mk.injEq, or_iff_right_iff_imp]
  rintro ⟨_, -, hij, -⟩
  exact absurd hij.symm h

end Log

/-! ### The invariant -/

section Inv

variable {failThreshold : UInt32} {backoff : ℚ} {log log' : List (ℕ × Event)} {i : ℕ} {now : ℚ}
  {kind : Kind} {s s' : State ρ}

/-- The call passed the gate, and waits for core. -/
structure Waiting (log : List (ℕ × Event)) (i : ℕ) : Prop where
  passed : ∃ now, (i, .passed now) ∈ log
  uncounted : (i, .counted) ∉ log
  unanswered : (i, .answered) ∉ log
  unopened : ∀ t, (i, .opened t) ∉ log

/-- The error of a call that core did not answer. -/
def Missed (kind : Kind) (log : List (ℕ × Event)) (i : ℕ) (err : String) : Prop :=
  (i, .answered) ∉ log ∧
    (err = backoffText ∨ (∃ e, err = healthContext e) ∨ ∃ e, err = kind.sendContext e)

/-- The error of a call that core answered. -/
def Rejected (kind : Kind) (log : List (ℕ × Event)) (i : ℕ) (err : String) : Prop :=
  (i, .answered) ∈ log ∧
    ((∃ status text, err = kind.statusText status text) ∨ ∃ e, err = kind.parseContext e)

/-- The result of a call. -/
def Ends (kind : Kind) (log : List (ℕ × Event)) (i : ℕ) : Except String ρ → Prop
  | .ok _ => (i, .answered) ∈ log
  | .error err => Missed kind log i err ∨ Rejected kind log i err

/-- What a call has done. -/
def CallInv (failThreshold : UInt32) (backoff : ℚ) (log : List (ℕ × Event)) (now : ℚ) (i : ℕ)
    (kind : Kind) : Pc ρ → Prop
  | .check => ∀ e, (i, e) ∉ log
  | .probe => Waiting log i
  | .zero .post => Waiting log i ∧ (i, .probed) ∈ log
  | .zero (.finish result) => (i, .answered) ∈ log ∧ Ends kind log i result
  | .clear .post => Waiting log i ∧ (i, .probed) ∈ log ∧ (i, .zeroed) ∈ log
  | .clear (.finish result) => (i, .zeroed) ∈ log ∧ Ends kind log i result
  | .count err => Waiting log i ∧ Missed kind log i err
  | .stamp err => Tripped failThreshold log i ∧ (∀ t, (i, .opened t) ∉ log) ∧ Missed kind log i err
  | .trip at' err => Tripped failThreshold log i ∧ (∀ t, (i, .opened t) ∉ log) ∧ at' ≤ now ∧
      at' + backoff < instantEnd ∧ Missed kind log i err
  | .reset at' err => (i, .opened at') ∈ log ∧ Missed kind log i err
  | .post => Waiting log i ∧ (i, .probed) ∈ log
  | .sent => Waiting log i ∧ (i, .posted) ∈ log
  | .done result => Ends kind log i result
  | .panicked => Tripped failThreshold log i

theorem Waiting.cons (h : Waiting log i) {e : Event} (hc : e ≠ .counted) (ha : e ≠ .answered)
    (ho : ∀ t, e ≠ .opened t) : Waiting ((i, e) :: log) i := by
  obtain ⟨⟨t, passed⟩, uncounted, unanswered, unopened⟩ := h
  refine ⟨⟨t, .tail _ passed⟩, fun hm => ?_, fun hm => ?_, fun t' hm => ?_⟩
  · rcases List.mem_cons.mp hm with heq | hm
    · exact hc (Prod.mk.inj heq).2.symm
    · exact uncounted hm
  · rcases List.mem_cons.mp hm with heq | hm
    · exact ha (Prod.mk.inj heq).2.symm
    · exact unanswered hm
  · rcases List.mem_cons.mp hm with heq | hm
    · exact ho t' (Prod.mk.inj heq).2.symm
    · exact unopened t' hm

theorem Missed.cons {err : String} (h : Missed kind log i err) {e : Event} (ha : e ≠ .answered) :
    Missed kind ((i, e) :: log) i err := by
  refine ⟨fun hm => ?_, h.2⟩
  rcases List.mem_cons.mp hm with heq | hm
  · exact ha (Prod.mk.inj heq).2.symm
  · exact h.1 hm

theorem Ends.cons {result : Except String ρ} (h : Ends kind log i result) {e : Event}
    (ha : e ≠ .answered) : Ends kind ((i, e) :: log) i result := by
  cases result with
  | error err => exact h.imp (Missed.cons · ha) fun ⟨hm, herr⟩ => ⟨.tail _ hm, herr⟩
  | ok body => exact .tail _ h

/-- What has been done is not undone by the other calls. -/
theorem CallInv.others {pc : Pc ρ} {now' : ℚ} (hown : ∀ e, (i, e) ∈ log' ↔ (i, e) ∈ log)
    (hs : log <:+ log') (hnow : now ≤ now') (h : CallInv failThreshold backoff log now i kind pc) :
    CallInv failThreshold backoff log' now' i kind pc := by
  have hwaiting : Waiting log i → Waiting log' i := by
    rintro ⟨⟨t, passed⟩, uncounted, unanswered, unopened⟩
    exact ⟨⟨t, (hown _).mpr passed⟩, fun hm => uncounted ((hown _).mp hm),
      fun hm => unanswered ((hown _).mp hm), fun t hm => unopened t ((hown _).mp hm)⟩
  have hmissed : ∀ {err}, Missed kind log i err → Missed kind log' i err := fun ⟨hn, herr⟩ =>
    ⟨fun hm => hn ((hown _).mp hm), herr⟩
  have hends : ∀ {result : Except String ρ}, Ends kind log i result → Ends kind log' i result := by
    rintro (err | body) hr
    · exact hr.imp hmissed fun ⟨ha, herr⟩ => ⟨(hown _).mpr ha, herr⟩
    · exact (hown _).mpr hr
  cases pc with
  | check => exact fun e hm => h e ((hown e).mp hm)
  | probe => exact hwaiting h
  | zero next =>
    cases next with
    | post => exact ⟨hwaiting h.1, (hown _).mpr h.2⟩
    | finish result => exact ⟨(hown _).mpr h.1, hends h.2⟩
  | clear next =>
    cases next with
    | post => exact ⟨hwaiting h.1, (hown _).mpr h.2.1, (hown _).mpr h.2.2⟩
    | finish result => exact ⟨(hown _).mpr h.1, hends h.2⟩
  | count err => exact ⟨hwaiting h.1, hmissed h.2⟩
  | stamp err =>
    obtain ⟨htripped, hunopened, hm⟩ := h
    exact ⟨htripped.mono hs, fun t hm => hunopened t ((hown _).mp hm), hmissed hm⟩
  | trip at' err =>
    obtain ⟨htripped, hunopened, hle, hends', hm⟩ := h
    exact ⟨htripped.mono hs, fun t hm => hunopened t ((hown _).mp hm), hle.trans hnow, hends',
      hmissed hm⟩
  | reset at' err => exact ⟨(hown _).mpr h.1, hmissed h.2⟩
  | post => exact ⟨hwaiting h.1, (hown _).mpr h.2⟩
  | sent => exact ⟨hwaiting h.1, (hown _).mpr h.2⟩
  | done result => exact hends h
  | panicked => exact Tripped.mono h hs

/-- The gate is read off the log. -/
structure GateInv (backoff : ℚ) (gate : Gate) (now : ℚ) (log : List (ℕ × Event)) : Prop where
  count : gate.consecutiveFailures = UInt32.ofNat (countedSince log)
  until' : gate.unhealthyUntil = (lastOpening log).map (· + backoff)
  opened : ∀ t ∈ lastOpening log, t ≤ now

structure Inv (failThreshold : UInt32) (backoff : ℚ) (s : State ρ) : Prop where
  gate : GateInv backoff s.gate s.clock s.log
  explained : Explained failThreshold backoff s.log
  calls : ∀ i call, s.calls[i]? = some call →
    CallInv failThreshold backoff s.log s.clock i call.kind call.pc
  fresh : ∀ i, s.calls.length ≤ i → ∀ e, (i, e) ∉ s.log

/-! ### One step of a call -/

variable {gate gate' : Gate} {pc pc' : Pc ρ} {c : Choice ρ} {events : List Event}

theorem inBackoff_iff (hg : GateInv backoff gate now log) :
    gate.isInBackoff now = true ↔ ∃ t, lastOpening log = some t ∧ now < t + backoff := by
  rw [Gate.isInBackoff, hg.until', Option.any_map, Option.any_eq_true]
  constructor
  · rintro ⟨t, ht, hlt⟩
    exact ⟨t, ht, of_decide_eq_true hlt⟩
  · rintro ⟨t, ht, hlt⟩
    exact ⟨t, ht, decide_eq_true hlt⟩

theorem ofNat_succ (n : ℕ) : UInt32.ofNat (n + 1) = UInt32.ofNat n + 1 := by
  rw [UInt32.ofNat_add]
  rfl

/-- A counter at the threshold has counted as many failures, whether or not it wrapped. -/
theorem tripped_of_le (h : failThreshold ≤ UInt32.ofNat (countedSince log + 1)) :
    Tripped failThreshold ((i, .counted) :: log) i := by
  refine ⟨log, List.suffix_refl _, ?_⟩
  rw [UInt32.le_iff_toNat_le, UInt32.toNat_ofNat'] at h
  exact h.trans (Nat.mod_le _ _)

theorem callStep_inv (hg : GateInv backoff gate now log) (he : Explained failThreshold backoff log)
    (hc : CallInv failThreshold backoff log now i kind pc)
    (h : callStep failThreshold backoff gate now c kind pc = some (gate', pc', events)) :
    GateInv backoff gate' now (events.map (i, ·) ++ log) ∧
      Explained failThreshold backoff (events.map (i, ·) ++ log) ∧
      CallInv failThreshold backoff (events.map (i, ·) ++ log) now i kind pc' := by
  cases pc with
  | check =>
    have hnone : (i, Event.answered) ∉ log := hc _
    unfold callStep at h
    simp only at h
    split_ifs at h with hb
    · obtain ⟨rfl, rfl, rfl⟩ := h
      obtain ⟨t, ht, hlt⟩ := (inBackoff_iff hg).mp hb
      refine ⟨⟨hg.count, hg.until', hg.opened⟩, ⟨⟨t, ht, hg.opened t ht, hlt⟩, he⟩, ?_⟩
      exact .inl ⟨by simpa using hnone, .inl rfl⟩
    · obtain ⟨rfl, rfl, rfl⟩ := h
      refine ⟨⟨hg.count, hg.until', hg.opened⟩, ⟨fun t ht => ?_, he⟩,
        ⟨⟨now, by simp⟩, ?_, ?_, fun t => ?_⟩⟩
      · by_contra hlt
        exact hb ((inBackoff_iff hg).mpr ⟨t, ht, not_le.mp hlt⟩)
      · simpa using hc _
      · simpa using hnone
      · simpa using hc _
  | probe =>
    unfold callStep at h
    simp only at h
    split at h
    · obtain ⟨rfl, rfl, rfl⟩ := h
      exact ⟨⟨hg.count, hg.until', hg.opened⟩, ⟨hc.passed, he⟩, hc.cons nofun nofun nofun, .head _⟩
    · obtain ⟨rfl, rfl, rfl⟩ := h
      exact ⟨hg, he, hc, hc.unanswered, .inr (.inl ⟨_, rfl⟩)⟩
  | zero next =>
    obtain ⟨rfl, rfl, rfl⟩ := h
    cases next with
    | post =>
      obtain ⟨hw, hprobed⟩ := hc
      exact ⟨⟨rfl, hg.until', hg.opened⟩, ⟨.inl hprobed, he⟩, hw.cons nofun nofun nofun, .tail _ hprobed,
        .head _⟩
    | finish result =>
      obtain ⟨hanswered, hends⟩ := hc
      exact ⟨⟨rfl, hg.until', hg.opened⟩, ⟨.inr (.inl hanswered), he⟩, .head _, hends.cons nofun⟩
  | clear next =>
    obtain ⟨rfl, rfl, rfl⟩ := h
    cases next with
    | post =>
      obtain ⟨hw, hprobed, hzeroed⟩ := hc
      exact ⟨⟨hg.count, rfl, nofun⟩, ⟨hzeroed, he⟩, hw.cons nofun nofun nofun, .tail _ hprobed⟩
    | finish result =>
      obtain ⟨hzeroed, hends⟩ := hc
      exact ⟨⟨hg.count, rfl, nofun⟩, ⟨hzeroed, he⟩, hends.cons nofun⟩
  | count err =>
    obtain ⟨hw, hmissed⟩ := hc
    have hn : gate.consecutiveFailures + 1 = UInt32.ofNat (countedSince log + 1) := by
      rw [hg.count, ofNat_succ]
    have hcounted : Explains failThreshold backoff log (i, .counted) :=
      ⟨hw.passed, hw.uncounted, hw.unanswered⟩
    unfold callStep at h
    simp only at h
    split_ifs at h with hk
    · obtain ⟨rfl, rfl, rfl⟩ := h
      rw [ge_iff_le, hn] at hk
      refine ⟨⟨hn, hg.until', hg.opened⟩, ⟨hcounted, he⟩, tripped_of_le hk, fun t hm => ?_,
        hmissed.cons nofun⟩
      rcases List.mem_cons.mp hm with heq | hm
      · cases heq
      · exact hw.unopened t hm
    · obtain ⟨rfl, rfl, rfl⟩ := h
      rw [hn] at hk
      have huntripped : Untripped failThreshold ((i, .counted) :: log) i :=
        ⟨log, List.suffix_refl _, UInt32.not_le.mp hk⟩
      exact ⟨⟨hn, hg.until', hg.opened⟩, ⟨.inl huntripped, hcounted, he⟩,
        .inl (Missed.cons (e := .recorded now) (hmissed.cons (e := .counted) nofun) nofun)⟩
  | stamp err =>
    obtain ⟨htripped, hunopened, hmissed⟩ := hc
    unfold callStep checkedAdd at h
    simp only at h
    split_ifs at h with hend
    · obtain ⟨rfl, rfl, rfl⟩ := h
      exact ⟨hg, he, htripped, hunopened, le_rfl, hend, hmissed⟩
    · obtain ⟨rfl, rfl, rfl⟩ := h
      exact ⟨⟨hg.count, hg.until', hg.opened⟩, ⟨⟨htripped, not_lt.mp hend⟩, he⟩,
        htripped.mono (List.suffix_cons _ _)⟩
  | trip at' err =>
    obtain ⟨rfl, rfl, rfl⟩ := h
    obtain ⟨htripped, hunopened, hle, hend, hmissed⟩ := hc
    refine ⟨⟨hg.count, rfl, fun t ht => ?_⟩, ⟨⟨htripped, hunopened, hend⟩, he⟩, .head _,
      hmissed.cons nofun⟩
    obtain rfl : at' = t := Option.some.inj ht
    exact hle
  | reset at' err =>
    obtain ⟨rfl, rfl, rfl⟩ := h
    obtain ⟨hopened, hmissed⟩ := hc
    exact ⟨⟨rfl, hg.until', hg.opened⟩,
      ⟨.inr (.tail _ hopened), .inr (.inr ⟨at', hopened⟩), he⟩,
      .inl (Missed.cons (e := .recorded at') (hmissed.cons (e := .zeroed) nofun) nofun)⟩
  | post =>
    obtain ⟨rfl, rfl, rfl⟩ := h
    obtain ⟨hw, hprobed⟩ := hc
    exact ⟨⟨hg.count, hg.until', hg.opened⟩, ⟨hprobed, he⟩, hw.cons nofun nofun nofun, .head _⟩
  | sent =>
    obtain ⟨hw, hposted⟩ := hc
    have hanswer : GateInv backoff gate now ((i, .answered) :: log) ∧
        Explained failThreshold backoff ((i, .answered) :: log) :=
      ⟨⟨hg.count, hg.until', hg.opened⟩, hposted, he⟩
    unfold callStep at h
    simp only at h
    split at h
    case h_1 err _ =>
      have hmissed : Missed kind log i (kind.sendContext err.text) :=
        ⟨hw.unanswered, .inr (.inr ⟨_, rfl⟩)⟩
      split_ifs at h
      · obtain ⟨rfl, rfl, rfl⟩ := h
        exact ⟨hg, he, hw, hmissed⟩
      · obtain ⟨rfl, rfl, rfl⟩ := h
        exact ⟨hg, he, .inl hmissed⟩
    case h_2 =>
      obtain ⟨rfl, rfl, rfl⟩ := h
      exact ⟨hanswer.1, hanswer.2, .inr ⟨.head _, .inl ⟨_, _, rfl⟩⟩⟩
    case h_3 json _ =>
      split at h
      · obtain ⟨rfl, rfl, rfl⟩ := h
        exact ⟨hanswer.1, hanswer.2, .inr ⟨.head _, .inr ⟨_, rfl⟩⟩⟩
      · obtain ⟨rfl, rfl, rfl⟩ := h
        exact ⟨hanswer.1, hanswer.2, .head _, .head _⟩
      · obtain ⟨rfl, rfl, rfl⟩ := h
        refine ⟨hanswer.1, hanswer.2, .head _, ?_⟩
        cases json with
        | error e => exact .inr ⟨.head _, .inr ⟨e, rfl⟩⟩
        | ok body => exact .head _
  | done result | panicked => cases h

/-! ### Every run -/

theorem inv_init : Inv failThreshold backoff (init : State ρ) where
  gate := ⟨rfl, rfl, nofun⟩
  explained := trivial
  calls _ _ h := by cases h
  fresh _ _ _ h := by cases h

/-- The clock goes on. -/
theorem GateInv.later (hg : GateInv backoff gate now log) {now' : ℚ} (h : now ≤ now') :
    GateInv backoff gate now' log :=
  ⟨hg.count, hg.until', fun t ht => (hg.opened t ht).trans h⟩

/-- **One step.** -/
theorem step_inv {a : Act ρ} (hi : Inv failThreshold backoff s)
    (h : step failThreshold backoff s a = some s') : Inv failThreshold backoff s' := by
  cases a with
  | tick secs =>
    unfold step at h
    simp only at h
    split_ifs at h with hsecs
    cases h
    have hle : s.clock ≤ s.clock + secs := le_add_of_nonneg_right hsecs
    exact ⟨hi.gate.later hle, hi.explained, fun i call hcall =>
      (hi.calls i call hcall).others (fun _ => Iff.rfl) (List.suffix_refl _) hle, hi.fresh⟩
  | call kind =>
    cases h
    refine ⟨hi.gate, hi.explained, fun i call hcall => ?_, fun i hle => hi.fresh i ?_⟩
    · rcases lt_trichotomy i s.calls.length with hlt | rfl | hgt
      · rw [List.getElem?_append_left hlt] at hcall
        exact hi.calls i call hcall
      · rw [List.getElem?_concat_length] at hcall
        cases hcall
        exact hi.fresh _ le_rfl
      · rw [List.getElem?_eq_none (by simp; omega)] at hcall
        cases hcall
    · simp only [List.length_append, List.length_singleton] at hle
      omega
  | move i c =>
    unfold step at h
    obtain ⟨call, hcall, h⟩ := Option.bind_eq_some_iff.mp h
    obtain ⟨⟨gate, pc, events⟩, hstep, h⟩ := Option.bind_eq_some_iff.mp h
    cases h
    have hlt : i < s.calls.length := (List.getElem?_eq_some_iff.mp hcall).1
    obtain ⟨hgate, hexplained, hpc⟩ :=
      callStep_inv hi.gate hi.explained (hi.calls i call hcall) hstep
    refine ⟨hgate, hexplained, fun j call' hcall' => ?_, fun j hle e => ?_⟩
    · by_cases hij : j = i
      · subst hij
        rw [List.getElem?_set_self hlt] at hcall'
        cases hcall'
        exact hpc
      · rw [List.getElem?_set_ne (Ne.symm hij)] at hcall'
        exact (hi.calls j call' hcall').others (fun e => mem_others hij) (List.suffix_append _ _)
          le_rfl
    · simp only [List.length_set] at hle
      rw [mem_others (by omega)]
      exact hi.fresh j hle e

theorem run_inv_client {as : List (Act ρ)} (h : run (step failThreshold backoff) init as = some s) :
    Inv failThreshold backoff s :=
  run_inv (fun _ _ _ hi h => step_inv hi h) inv_init h

/-- **Main result.** In every run of any calls side by side, the counter and the lock are read off what
the calls did, the gate is never shut for more than the backoff from now on, and whatever a call did is
accounted for by what was done before: a call opens the gate, or panics for the backoff would never
end, only if the failure it has counted itself was at least the `failThreshold`-th in a row, of as
many calls; a call is turned away within the backoff of an opening that was not cleared; and a request
is sent after the call passed the gate and had its probe answered. -/
theorem run_explained {as : List (Act ρ)} (h : run (step failThreshold backoff) init as = some s) :
    s.consecutiveFailures = UInt32.ofNat (countedSince s.log) ∧
      s.unhealthyUntil = (lastOpening s.log).map (· + backoff) ∧
      (∀ t ∈ s.unhealthyUntil, t ≤ s.clock + backoff) ∧
      ∀ later before i e, s.log = later ++ (i, e) :: before →
        Explains failThreshold backoff before (i, e) := by
  obtain ⟨⟨hcount, huntil, hopened⟩, hexplained, -, -⟩ := run_inv_client h
  refine ⟨hcount, huntil, fun t ht => ?_, fun later before i e heq => ?_⟩
  · have hmem : t ∈ (lastOpening s.log).map (· + backoff) := huntil ▸ ht
    obtain ⟨t', hlast, rfl⟩ := Option.map_eq_some_iff.mp hmem
    have hle : t' ≤ s.clock := hopened t' hlast
    linarith
  · rw [heq] at hexplained
    exact hexplained.explains

end Inv

section Sample

def down : Choice Unit := ⟨.failed "connection refused", .ok (.ok ())⟩

/-- Two calls that cannot reach core side by side, and one after them. -/
def downRun : List (Act Unit) :=
  [.call .compute, .call .leafPcs, .call .leafPcs] ++
    List.replicate 3 (.move 0 down) ++ List.replicate 6 (.move 1 down) ++ [.tick 10, .move 2 down]

theorem run_explained_down : ∃ s : State Unit, run (step 2 30) init downRun = some s ∧
    s.log.head? = some (2, .refused 10) ∧
    s.unhealthyUntil = (lastOpening s.log).map (· + 30) ∧
    ∀ before, s.log = (2, .refused 10) :: before → Explains 2 30 before (2, .refused 10) := by
  have hlog : (run (step 2 30) init downRun).bind (·.log.head?) = some (2, .refused 10) := by
    decide +kernel
  obtain ⟨s, hrun, hhead⟩ := Option.bind_eq_some_iff.mp hlog
  obtain ⟨-, huntil, -, hexplains⟩ := run_explained hrun
  exact ⟨s, hrun, hhead, huntil, fun before heq => hexplains [] before 2 _ heq⟩

end Sample

/-! ### Updates one by one -/

section Sequential

variable {failThreshold : UInt32} {backoff : ℚ} {log : List (ℕ × Event)} {i : ℕ} {now : ℚ}
  {kind : Kind} {s s' : State ρ} {g gate gate' : Gate} {pc pc' : Pc ρ} {c : Choice ρ}
  {events : List Event}

/-- The update that came to its end. -/
def update : Event → Option CoreHealth.Event
  | .recorded at' | .panicked at' => some (.unreachable at')
  | .cleared now => some (.healthy now)
  | _ => none

/-- The updates of the gate in the order in which they came to their end. -/
def history (log : List (ℕ × Event)) : List CoreHealth.Event :=
  log.reverse.filterMap fun entry => update entry.2

theorem history_cons (i : ℕ) (e : Event) (log : List (ℕ × Event)) :
    history ((i, e) :: log) = history log ++ (update e).toList := by
  unfold history
  rw [List.reverse_cons, List.filterMap_append]
  cases h : update e <;> simp [h]

/-- The call is in the middle of an update. -/
def Pc.updating : Pc ρ → Bool
  | .clear _ | .stamp _ | .trip .. | .reset .. => true
  | _ => false

/-- The next step of the call belongs to an update. -/
def Pc.updates : Pc ρ → Bool
  | .zero _ | .count _ => true
  | pc => pc.updating

/-- A step of an update is made while no other call is in the middle of one. -/
def Alone (s : State ρ) : Act ρ → Prop
  | .move i _ => s.calls[i]?.any (·.pc.updates) = true →
      ∀ other ∈ s.calls.eraseIdx i, other.pc.updating = false
  | _ => True

instance (s : State ρ) : ∀ a : Act ρ, Decidable (Alone s a)
  | .move _ _ => inferInstanceAs (Decidable (_ → _))
  | .tick _ | .call _ => isTrue trivial

/-- How far an update of `g` has come. -/
def Mid (failThreshold : UInt32) (backoff : ℚ) (g gate : Gate) : Pc ρ → Prop
  | .clear _ => gate = ⟨0, g.unhealthyUntil⟩
  | .stamp _ => gate = ⟨g.consecutiveFailures + 1, g.unhealthyUntil⟩ ∧
      g.consecutiveFailures + 1 ≥ failThreshold
  | .trip at' _ => gate = ⟨g.consecutiveFailures + 1, g.unhealthyUntil⟩ ∧
      g.consecutiveFailures + 1 ≥ failThreshold ∧ at' + backoff < instantEnd
  | .reset at' _ => gate = ⟨g.consecutiveFailures + 1, some (at' + backoff)⟩ ∧
      g.consecutiveFailures + 1 ≥ failThreshold ∧ at' + backoff < instantEnd
  | _ => False

/-- The gate is that of the updates one by one, but for the update a call is in the middle of. -/
structure Sequential (failThreshold : UInt32) (backoff : ℚ) (s : State ρ) : Prop where
  one : ∀ (i j : ℕ) (call other : Call ρ), s.calls[i]? = some call → s.calls[j]? = some other →
    call.pc.updating = true → other.pc.updating = true → i = j
  busy : ∀ (i : ℕ) (call : Call ρ), s.calls[i]? = some call → call.pc.updating = true →
    Mid failThreshold backoff (after failThreshold backoff (history s.log)) s.gate call.pc
  idle : (∀ (i : ℕ) (call : Call ρ), s.calls[i]? = some call → call.pc.updating = false) →
    s.gate = after failThreshold backoff (history s.log)

/-- A step that belongs to no update. -/
theorem callStep_quiet (i : ℕ) (log : List (ℕ × Event)) (hq : pc.updates = false)
    (h : callStep failThreshold backoff gate now c kind pc = some (gate', pc', events)) :
    gate' = gate ∧ pc'.updating = false ∧
      history (events.map (i, ·) ++ log) = history log := by
  unfold callStep at h
  cases pc with
  | check =>
    simp only at h
    split_ifs at h
    · obtain ⟨rfl, rfl, rfl⟩ := h
      exact ⟨rfl, rfl, (history_cons ..).trans (List.append_nil _)⟩
    · obtain ⟨rfl, rfl, rfl⟩ := h
      exact ⟨rfl, rfl, (history_cons ..).trans (List.append_nil _)⟩
  | probe =>
    simp only at h
    split at h
    · obtain ⟨rfl, rfl, rfl⟩ := h
      exact ⟨rfl, rfl, (history_cons ..).trans (List.append_nil _)⟩
    · obtain ⟨rfl, rfl, rfl⟩ := h
      exact ⟨rfl, rfl, rfl⟩
  | post =>
    obtain ⟨rfl, rfl, rfl⟩ := h
    exact ⟨rfl, rfl, (history_cons ..).trans (List.append_nil _)⟩
  | sent =>
    have hanswered : history ((i, .answered) :: log) = history log :=
      (history_cons ..).trans (List.append_nil _)
    simp only at h
    split at h
    · split_ifs at h
      · obtain ⟨rfl, rfl, rfl⟩ := h
        exact ⟨rfl, rfl, rfl⟩
      · obtain ⟨rfl, rfl, rfl⟩ := h
        exact ⟨rfl, rfl, rfl⟩
    · obtain ⟨rfl, rfl, rfl⟩ := h
      exact ⟨rfl, rfl, hanswered⟩
    · split at h
      all_goals
        obtain ⟨rfl, rfl, rfl⟩ := h
        exact ⟨rfl, rfl, hanswered⟩
  | done result | panicked => cases h
  | _ => cases hq

/-- A step of an update begins it, carries it on, or ends it. -/
theorem callStep_update (i : ℕ) (log : List (ℕ × Event)) (hu : pc.updates = true)
    (hg : g = after failThreshold backoff (history log))
    (hmid : pc.updating = false ∧ gate = g ∨
      pc.updating = true ∧ Mid failThreshold backoff g gate pc)
    (h : callStep failThreshold backoff gate now c kind pc = some (gate', pc', events)) :
    pc'.updating = false ∧
        gate' = after failThreshold backoff (history (events.map (i, ·) ++ log)) ∨
      pc'.updating = true ∧ Mid failThreshold backoff
        (after failThreshold backoff (history (events.map (i, ·) ++ log))) gate' pc' := by
  have hsame : ∀ {e}, update e = none →
      after failThreshold backoff (history ((i, e) :: log)) = g := by
    intro e he
    rw [history_cons, he, Option.toList_none, List.append_nil, hg]
  have hends : ∀ {e u log'}, update e = some u →
      after failThreshold backoff (history log') = g →
      after failThreshold backoff (history ((i, e) :: log')) = g.see failThreshold backoff u := by
    intro e u log' he hlog
    rw [history_cons, he, Option.toList_some, after_concat, hlog]
  rcases hmid with ⟨hnot, rfl⟩ | ⟨hmiddle, hmid⟩
  · cases pc with
    | zero next =>
      obtain ⟨rfl, rfl, rfl⟩ := h
      refine .inr ⟨rfl, ?_⟩
      change Mid _ _ (after _ _ (history ((i, .zeroed) :: log))) _ _
      rw [hsame rfl]
      rfl
    | count err =>
      unfold callStep at h
      simp only at h
      split_ifs at h with hk
      · obtain ⟨rfl, rfl, rfl⟩ := h
        refine .inr ⟨rfl, ?_⟩
        change Mid _ _ (after _ _ (history ((i, .counted) :: log))) _ _
        rw [hsame rfl]
        exact ⟨rfl, hk⟩
      · obtain ⟨rfl, rfl, rfl⟩ := h
        refine .inl ⟨rfl, ?_⟩
        change _ = after _ _ (history ((i, .recorded now) :: (i, .counted) :: log))
        rw [hends rfl (hsame rfl)]
        simp only [Gate.see, Gate.recordUnreachable, if_neg hk]
    | check | probe | post | sent | done | panicked => cases hu
    | _ => cases hnot
  · cases pc with
    | clear next =>
      obtain ⟨rfl, rfl, rfl⟩ := h
      refine .inl ⟨by cases next <;> rfl, ?_⟩
      change _ = after _ _ (history ((i, .cleared now) :: log))
      rw [hends rfl hg.symm, hmid]
      rfl
    | stamp err =>
      unfold callStep at h
      cases hadd : checkedAdd now backoff with
      | some until' =>
        have hend : now + backoff < instantEnd := by
          by_contra hlate
          rw [checkedAdd, if_neg hlate] at hadd
          cases hadd
        simp only [hadd] at h
        obtain ⟨rfl, rfl, rfl⟩ := h
        refine .inr ⟨rfl, ?_⟩
        change Mid _ _ (after _ _ (history log)) _ _
        rw [← hg]
        exact ⟨hmid.1, hmid.2, hend⟩
      | none =>
        simp only [hadd] at h
        obtain ⟨rfl, rfl, rfl⟩ := h
        refine .inl ⟨rfl, ?_⟩
        change _ = after _ _ (history ((i, .panicked now) :: log))
        rw [hends rfl hg.symm]
        simp only [Gate.see, Gate.recordUnreachable, if_pos hmid.2, hadd, hmid.1]
    | trip at' err =>
      obtain ⟨rfl, rfl, rfl⟩ := h
      refine .inr ⟨rfl, ?_⟩
      change Mid _ _ (after _ _ (history ((i, .opened at') :: log))) _ _
      rw [hsame rfl]
      exact ⟨by rw [hmid.1], hmid.2⟩
    | reset at' err =>
      obtain ⟨rfl, rfl, rfl⟩ := h
      refine .inl ⟨rfl, ?_⟩
      change _ = after _ _ (history ((i, .recorded at') :: (i, .zeroed) :: log))
      rw [hends rfl (hsame rfl)]
      simp only [Gate.see, Gate.recordUnreachable, if_pos hmid.2.1, checkedAdd, if_pos hmid.2.2, hmid.1]
    | check | probe | post | sent | done | panicked => cases hu
    | _ => cases hmiddle

theorem sequential_init : Sequential failThreshold backoff (init : State ρ) where
  one _ _ _ _ h := by cases h
  busy _ _ h := by cases h
  idle _ := rfl

/-- **One step**, of a call that is alone. -/
theorem step_sequential {a : Act ρ} (hs : Sequential failThreshold backoff s) (ha : Alone s a)
    (h : step failThreshold backoff s a = some s') : Sequential failThreshold backoff s' := by
  cases a with
  | tick secs =>
    unfold step at h
    simp only at h
    split_ifs at h
    cases h
    exact ⟨hs.one, hs.busy, hs.idle⟩
  | call kind =>
    cases h
    have hnew : ∀ {i : ℕ} {call : Call ρ}, (s.calls ++ [⟨kind, .check⟩])[i]? = some call →
        call.pc.updating = true → s.calls[i]? = some call := by
      intro i call hcall hu
      rcases lt_trichotomy i s.calls.length with hlt | rfl | hgt
      · rwa [List.getElem?_append_left hlt] at hcall
      · rw [List.getElem?_concat_length] at hcall
        cases hcall
        cases hu
      · rw [List.getElem?_eq_none (by simp; omega)] at hcall
        cases hcall
    refine ⟨fun i j call other hi hj hui huj => hs.one i j call other (hnew hi hui) (hnew hj huj) hui
      huj, fun i call hi hu => hs.busy i call (hnew hi hu) hu, fun hidle => hs.idle fun i call hi => ?_⟩
    refine hidle i call ?_
    rwa [List.getElem?_append_left (List.getElem?_eq_some_iff.mp hi).1]
  | move i c =>
    unfold step at h
    obtain ⟨call, hcall, h⟩ := Option.bind_eq_some_iff.mp h
    obtain ⟨⟨gate, pc, events⟩, hstep, h⟩ := Option.bind_eq_some_iff.mp h
    cases h
    have hlt : i < s.calls.length := (List.getElem?_eq_some_iff.mp hcall).1
    have hself : (s.calls.set i { call with pc := pc })[i]? = some { call with pc := pc } :=
      List.getElem?_set_self hlt
    have hother : ∀ {j : ℕ}, j ≠ i →
        (s.calls.set i { call with pc := pc })[j]? = s.calls[j]? := fun hj =>
      List.getElem?_set_ne (Ne.symm hj)
    cases hu : call.pc.updates with
    | false =>
      have hquiet : call.pc.updating = false := by
        cases hpc : call.pc <;> simp_all [Pc.updates, Pc.updating]
      obtain ⟨hgate, hpc, hhistory⟩ := callStep_quiet i s.log hu hstep
      -- whoever is in the middle of an update is another call
      have hold : ∀ {j : ℕ} {other : Call ρ},
          (s.calls.set i { call with pc := pc })[j]? = some other → other.pc.updating = true →
          s.calls[j]? = some other := by
        intro j other hj huj
        by_cases hij : j = i
        · subst hij
          cases hself.symm.trans hj
          rw [hpc] at huj
          cases huj
        · rwa [hother hij] at hj
      refine ⟨fun j j' call other hj hj' huj huj' =>
        hs.one j j' call other (hold hj huj) (hold hj' huj') huj huj', fun j other hj huj => ?_,
        fun hidle => ?_⟩
      · change Mid _ _ (after _ _ (history (events.map (i, ·) ++ s.log))) gate _
        rw [hhistory, hgate]
        exact hs.busy j other (hold hj huj) huj
      · change gate = after _ _ (history (events.map (i, ·) ++ s.log))
        rw [hhistory, hgate]
        refine hs.idle fun j other hj => ?_
        by_cases hij : j = i
        · subst hij
          cases hcall.symm.trans hj
          exact hquiet
        · exact hidle j other ((hother hij).trans hj)
    | true =>
      have halone : ∀ (j : ℕ) (other : Call ρ), s.calls[j]? = some other →
          other.pc.updating = true → j = i := by
        intro j other hj huj
        by_contra hij
        have hmem : other ∈ s.calls.eraseIdx i := List.mem_eraseIdx_iff_getElem?.mpr ⟨j, hij, hj⟩
        rw [ha (by rw [hcall]; exact hu) other hmem] at huj
        cases huj
      have hmid : call.pc.updating = false ∧ s.gate = after failThreshold backoff (history s.log) ∨
          call.pc.updating = true ∧
            Mid failThreshold backoff (after failThreshold backoff (history s.log)) s.gate call.pc := by
        cases hupdating : call.pc.updating with
        | false =>
          refine .inl ⟨rfl, hs.idle fun j other hj => ?_⟩
          by_contra huj
          rw [Bool.not_eq_false] at huj
          obtain rfl := halone j other hj huj
          cases hcall.symm.trans hj
          rw [hupdating] at huj
          cases huj
        | true => exact .inr ⟨rfl, hs.busy i call hcall hupdating⟩
      have honly : ∀ {j : ℕ} {other : Call ρ},
          (s.calls.set i { call with pc := pc })[j]? = some other → other.pc.updating = true →
          j = i := by
        intro j other hj huj
        by_contra hij
        rw [hother hij] at hj
        exact hij (halone j other hj huj)
      have hupdate := callStep_update i s.log hu rfl hmid hstep
      refine ⟨fun j j' call other hj hj' huj huj' => (honly hj huj).trans (honly hj' huj').symm,
        fun j other hj huj => ?_, fun hidle => ?_⟩
      · obtain rfl := honly hj huj
        cases hself.symm.trans hj
        rcases hupdate with ⟨hnot, -⟩ | ⟨-, hmid⟩
        · rw [hnot] at huj
          cases huj
        · exact hmid
      · rcases hupdate with ⟨-, hgate⟩ | ⟨hmiddle, -⟩
        · exact hgate
        · rw [hidle i _ hself] at hmiddle
          cases hmiddle

/-- **Main result.** In every run in which no update of the gate is made in the middle of another,
whatever else the calls do side by side, the gate is that of the updates one by one in the order in
which they came to their end, whenever no call is in the middle of one; and only one is at a time. -/
theorem run_sequential {as : List (Act ρ)}
    (hseq : StepsMeet (step failThreshold backoff) Alone init as)
    (h : run (step failThreshold backoff) init as = some s) :
    ((∀ (i : ℕ) (call : Call ρ), s.calls[i]? = some call → call.pc.updating = false) →
        s.gate = after failThreshold backoff (history s.log)) ∧
      ∀ (i j : ℕ) (call other : Call ρ), s.calls[i]? = some call → s.calls[j]? = some other →
        call.pc.updating = true → other.pc.updating = true → i = j := by
  have hs := run_inv_of_stepsMeet (fun _ _ _ hs ha h => step_sequential hs ha h)
    sequential_init hseq h
  exact ⟨hs.idle, hs.one⟩

end Sequential

section Sample

/-- Core answers the probe, but not the request. -/
def deaf : Choice Unit :=
  ⟨.answered "200 OK" true, .failed ⟨false, false, false, true, false, "connection reset"⟩⟩

/-- Two calls pass the gate and wait for core side by side. One finds core healthy, then the other
counts a failure, then the first counts one and opens the gate. -/
def besideRun : List (Act Unit) :=
  [.call .compute, .call .leafPcs, .move 0 deaf, .move 1 down, .move 0 deaf, .move 1 down,
    .move 0 deaf, .move 0 deaf, .move 1 down, .move 0 deaf, .tick 5, .move 0 deaf, .move 0 deaf,
    .move 0 deaf, .move 0 deaf, .move 0 deaf]

theorem run_sequential_beside : ∃ s : State Unit, run (step 2 30) init besideRun = some s ∧
    s.log.map Prod.fst = [0, 0, 0, 0, 0, 1, 1, 0, 0, 0, 1, 0] ∧
    s.gate = ⟨0, some 35⟩ ∧ s.gate = after 2 30 (history s.log) := by
  have hdone : (run (step 2 30) init besideRun).any (fun s : State Unit =>
      decide (s.log.map Prod.fst = [0, 0, 0, 0, 0, 1, 1, 0, 0, 0, 1, 0] ∧ s.gate = ⟨0, some 35⟩ ∧
        ∀ call ∈ s.calls, call.pc.updating = false)) = true := by
    decide +kernel
  obtain ⟨s, hrun, hs⟩ := (Option.any_eq_true _ _).mp hdone
  obtain ⟨hlog, hgate, hidle⟩ := of_decide_eq_true hs
  have hmeet : StepsMeet (step 2 30) Alone init besideRun := by decide +kernel
  exact ⟨s, hrun, hlog, hgate,
    (run_sequential hmeet hrun).1 fun i call hcall => hidle call (List.mem_of_getElem? hcall)⟩

end Sample

end WqcNode.Infra.CoreClient
