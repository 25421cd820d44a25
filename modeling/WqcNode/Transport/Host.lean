import WqcNode.Lib.Machine

/-! # The orchestrator link (`transport/p2p/host.rs`)

The host keeps one peer, the orchestrator, reachable: it redials after a delay that doubles from one
second to a minute, and subscribes to the announcements anew each time the peer is reached again.
What is kept is spread over four branches: the timer, the attempts so far, and whether the
subscription was made for the present link.

The swarm counts the live connections to the orchestrator, over TCP and QUIC alike; an event is
handled after the swarm has counted it. Its subscription is gossipsub's own: `subscribe` says
whether it is new, or fails and leaves things as they are.

* `linked_of_run`: after every run, the orchestrator is connected or a redial is planned within a
  minute; and a subscription that is marked as live is one.
* `linked_step`: no event unsubscribes while the mark is set and the orchestrator is connected. -/

namespace WqcNode.Transport.Host

open WqcNode.Lib.Machine

/-! ### State and events -/

/-- What the swarm keeps, and the variables of `run`. -/
structure State where
  /-- the swarm's live connections to the orchestrator -/
  connections : ℕ
  /-- gossipsub is subscribed to the announcements -/
  subscribed : Bool
  redialAttempt : ℕ
  /-- the delay the redial timer was set with, in seconds -/
  redialSleep : Option ℕ
  orchGossipLive : Bool
  /-- each `unsubscribe` so far: the mark and the connections when it was called -/
  unsubscribes : List (Bool × ℕ)
deriving DecidableEq, Repr

/-- The events `handle_swarm_event` acts on, and the redial timer. -/
inductive Event
  /-- with the error `subscribe` fails with, if it is called and fails -/
  | connectionEstablished (peerId : String) (subscribeError : Option String)
  | connectionClosed (peerId : String)
  | outgoingConnectionError (peerId : Option String)
  | redialTimer
deriving DecidableEq, Repr

/-! ### The source's functions -/

def bootstrapRedialInitial : ℕ := 1
def bootstrapRedialMax : ℕ := 60

/-- The delay in seconds; the shift stays within a `u32`. -/
def bootstrapRedialDelay (attempt : ℕ) : ℕ :=
  min (bootstrapRedialInitial * 2 ^ min attempt 16) bootstrapRedialMax

/-- `gossipsub.unsubscribe`. -/
def unsubscribe (s : State) : State :=
  { s with
    subscribed := false
    unsubscribes := (s.orchGossipLive, s.connections) :: s.unsubscribes }

/-- `gossipsub.subscribe`: true if the subscription is new. -/
def subscribe (s : State) (error : Option String) : State × Except String Bool :=
  match error with
  | some e => (s, .error e)
  | none => ({ s with subscribed := true }, .ok !s.subscribed)

/-- A subscription that predates the link is made anew, once for each time the link comes up. -/
def ensureOrchestratorGossipSubscription (s : State) (error : Option String) : State :=
  if s.orchGossipLive then s
  else match subscribe (unsubscribe s) error with
    | (s', .ok true) => { s' with orchGossipLive := true }
    | (s', _) => s'

def unsubscribeOrchestratorAnnouncements (s : State) : State := unsubscribe s

def scheduleBootstrapRedial (s : State) : State :=
  { s with redialSleep := some (bootstrapRedialDelay s.redialAttempt) }

variable (orchestratorPeerId : String)

def handleSwarmEvent (s : State) : Event → State
  | .connectionEstablished peerId error =>
    if peerId = orchestratorPeerId then
      ensureOrchestratorGossipSubscription { s with redialAttempt := 0, redialSleep := none } error
    else s
  | .connectionClosed peerId =>
    if peerId = orchestratorPeerId then
      let s := if s.connections = 0 then
        { unsubscribeOrchestratorAnnouncements s with orchGossipLive := false } else s
      scheduleBootstrapRedial s
    else s
  | .outgoingConnectionError peerId =>
    if peerId = some orchestratorPeerId then scheduleBootstrapRedial s else s
  | .redialTimer => s

/-- The timer has fired; the attempts are a `u32` that saturates. -/
def redial (s : State) : State :=
  let s := { s with redialAttempt := min (s.redialAttempt + 1) (2 ^ 32 - 1), redialSleep := none }
  if s.connections = 0 then scheduleBootstrapRedial s else s

/-- The connections when the event is handled; only one that is there can close. -/
def countConnections (connections : ℕ) : Event → Option ℕ
  | .connectionEstablished peerId _ =>
    some (if peerId = orchestratorPeerId then connections + 1 else connections)
  | .connectionClosed peerId =>
    if peerId = orchestratorPeerId then
      if connections = 0 then none else some (connections - 1)
    else some connections
  | _ => some connections

/-- A turn of the loop in `run`. -/
def step (s : State) (e : Event) : Option State :=
  match e with
  | .redialTimer => if s.redialSleep.isSome then some (redial s) else none
  | e => (countConnections orchestratorPeerId s.connections e).map fun connections =>
    handleSwarmEvent orchestratorPeerId { s with connections := connections } e

/-- The state `run` enters its loop in, given the connections the swarm has by then. -/
def start (connections : ℕ) : State :=
  let s : State := ⟨connections, false, 0, none, false, []⟩
  if connections = 0 then scheduleBootstrapRedial s else s

/-! ### The delay -/

/-- The delay is between a second and a minute. -/
theorem bootstrapRedialDelay_bounds (attempt : ℕ) :
    1 ≤ bootstrapRedialDelay attempt ∧ bootstrapRedialDelay attempt ≤ 60 := by
  have hpos : 0 < 2 ^ min attempt 16 := Nat.pow_pos (by omega)
  unfold bootstrapRedialDelay bootstrapRedialInitial bootstrapRedialMax
  omega

/-! ### What every event keeps -/

/-- The link is up or will be redialled within a minute, the mark is set only on a link that is up
and has its subscription, and no subscription was given up while that was so. -/
structure Linked (s : State) : Prop where
  redial : s.connections = 0 → ∃ delay, s.redialSleep = some delay ∧ 1 ≤ delay ∧ delay ≤ 60
  live : s.orchGossipLive = true → 0 < s.connections ∧ s.subscribed = true
  kept : ∀ u ∈ s.unsubscribes, ¬ (u.1 = true ∧ 0 < u.2)

variable {orchestratorPeerId} {s s' : State} {e : Event}

theorem scheduled (s : State) : ∃ delay, (scheduleBootstrapRedial s).redialSleep = some delay ∧
    1 ≤ delay ∧ delay ≤ 60 := ⟨_, rfl, bootstrapRedialDelay_bounds _⟩

theorem linked_start (connections : ℕ) : Linked (start connections) := by
  unfold start
  split_ifs with hzero
  · exact ⟨fun _ => scheduled _, by simp [scheduleBootstrapRedial], by simp [scheduleBootstrapRedial]⟩
  · exact ⟨fun h => absurd h hzero, by simp, by simp⟩

/-- A timer that is set does no harm. -/
theorem Linked.schedule (h : Linked s) : Linked (scheduleBootstrapRedial s) :=
  ⟨fun _ => scheduled s, h.live, h.kept⟩

/-- Subscribing on a link that is up: the timer plays no part. -/
theorem linked_ensure (hup : 0 < s.connections)
    (hlive : s.orchGossipLive = true → s.subscribed = true)
    (hkept : ∀ u ∈ s.unsubscribes, ¬ (u.1 = true ∧ 0 < u.2)) (error : Option String) :
    Linked (ensureOrchestratorGossipSubscription s error) := by
  unfold ensureOrchestratorGossipSubscription
  split_ifs with hmark
  · exact ⟨fun h => absurd h hup.ne', fun h => ⟨hup, hlive h⟩, hkept⟩
  · have hgiven : ∀ u ∈ (unsubscribe s).unsubscribes, ¬ (u.1 = true ∧ 0 < u.2) := by
      intro u hu
      rcases List.mem_cons.mp hu with rfl | hu
      · exact fun h => hmark h.1
      · exact hkept u hu
    cases error with
    | some e =>
      refine ⟨fun h => absurd h hup.ne', fun h => ?_, hgiven⟩
      exact absurd h hmark
    | none => exact ⟨fun h => absurd h hup.ne', fun _ => ⟨hup, rfl⟩, hgiven⟩

theorem linked_closed (hlive : s.orchGossipLive = true → s.subscribed = true)
    (hkept : ∀ u ∈ s.unsubscribes, ¬ (u.1 = true ∧ 0 < u.2)) :
    Linked (handleSwarmEvent orchestratorPeerId s (.connectionClosed orchestratorPeerId)) := by
  simp only [handleSwarmEvent, if_true]
  split_ifs with hzero
  · refine ⟨fun _ => scheduled _, fun h => absurd h Bool.false_ne_true, fun u hu => ?_⟩
    -- the last connection is gone when the subscription is given up
    rcases List.mem_cons.mp hu with rfl | hu
    · rintro ⟨-, hpos⟩
      exact absurd hzero hpos.ne'
    · exact hkept u hu
  · exact ⟨fun _ => scheduled _, fun h => ⟨Nat.pos_of_ne_zero hzero, hlive h⟩, hkept⟩

theorem linked_step (h : Linked s) (hs : step orchestratorPeerId s e = some s') : Linked s' := by
  cases e with
  | redialTimer =>
    simp only [step] at hs
    split_ifs at hs
    cases hs
    simp only [redial]
    split_ifs with hzero
    · exact ⟨fun _ => scheduled _, h.live, h.kept⟩
    · exact ⟨fun h => absurd h hzero, h.live, h.kept⟩
  | connectionEstablished peerId error =>
    simp only [step, countConnections, Option.map_some, Option.some.injEq] at hs
    subst hs
    by_cases horch : peerId = orchestratorPeerId
    · simp only [handleSwarmEvent, if_pos horch]
      let up : State := { s with
        connections := s.connections + 1, redialAttempt := 0, redialSleep := none }
      have hlive : up.orchGossipLive = true → up.subscribed = true := fun hl => (h.live hl).2
      exact linked_ensure (Nat.succ_pos s.connections : 0 < up.connections) hlive h.kept error
    · simp only [handleSwarmEvent, if_neg horch]
      exact h
  | connectionClosed peerId =>
    simp only [step, countConnections] at hs
    by_cases horch : peerId = orchestratorPeerId
    · subst horch
      rw [if_pos rfl] at hs
      split_ifs at hs
      · cases hs
      · cases hs
        exact linked_closed (fun hl => (h.live hl).2) h.kept
    · rw [if_neg horch] at hs
      cases hs
      simp only [handleSwarmEvent, if_neg horch]
      exact h
  | outgoingConnectionError peerId =>
    simp only [step, countConnections, Option.map_some] at hs
    cases hs
    simp only [handleSwarmEvent]
    split_ifs
    · exact h.schedule
    · exact h

/-- **Main result.** In every order of events and timer firings: while the orchestrator is not
connected, a redial is planned, within a minute; the mark is set only if it is connected and the
announcements are subscribed to; and every time they were unsubscribed from, the mark was not set or
no connection was left. -/
theorem linked_of_run {connections : ℕ} {events : List Event}
    (h : run (step orchestratorPeerId) (start connections) events = some s) : Linked s :=
  run_inv (fun _ _ _ hi hs => linked_step hi hs) (linked_start connections) h

/-- The peer is reached over TCP and QUIC, both close, and the timer fires before it is reached
again. -/
def flappingEvents : List Event :=
  [.redialTimer, .connectionEstablished "orch" none, .connectionEstablished "orch" none,
    .connectionClosed "orch", .connectionEstablished "peer" none, .connectionClosed "orch",
    .outgoingConnectionError (some "orch"), .redialTimer, .redialTimer]

theorem linked_flapping : ∃ s, run (step "orch") (start 0) flappingEvents = some s ∧
    s.connections = 0 ∧ s.redialSleep = some 4 ∧ s.unsubscribes = [(true, 0), (false, 1)] ∧
    Linked s := by
  have hrun : ∃ s, run (step "orch") (start 0) flappingEvents = some s ∧ s.connections = 0 ∧
      s.redialSleep = some 4 ∧ s.unsubscribes = [(true, 0), (false, 1)] :=
    ⟨_, rfl, rfl, rfl, rfl⟩
  obtain ⟨s, hs, hconnections, hsleep, hunsubscribes⟩ := hrun
  exact ⟨s, hs, hconnections, hsleep, hunsubscribes, linked_of_run hs⟩

end WqcNode.Transport.Host
