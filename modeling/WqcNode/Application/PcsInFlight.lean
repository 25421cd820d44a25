import WqcNode.Application.PcsReproves

/-! # Sub-tasks in flight (`claim_inflight`, `release_inflight` in `application/pcs_outbox.rs`)

A delivering call takes the sub-task by adding it to a shared set, and gives it back on every way
out after that. So a sub-task is in the set exactly while one call holds it (`guards_of_run`),
whatever the other calls, the retry loop and the request handlers do in between. A call that finds
it taken returns at once: its one step changes nothing but the call itself (`skips_of_step`). -/

namespace WqcNode.Application.PcsInFlight

open WqcNode.Lib.Machine WqcNode.Infra WqcNode.Domain.Pcs
open WqcNode.Application.PcsMachine WqcNode.Application.PcsReproves

variable {env : Env} {s s' s₁ : State} {a : Act} {c : Choice}

/-! ### What a step does to the calls -/

/-- Nothing but the threads and the place of the retry loop differs. -/
structure SameShared (s s' : State) : Prop where
  storage : s'.storage = s.storage
  inFlight : s'.inFlight = s.inFlight
  openCallCache : s'.openCallCache = s.openCallCache
  log : s'.log = s.log

/-- What a step does to the calls: one of them moves; or none does, and new ones may come up; or the
process starts anew. -/
inductive CallStep (env : Env) (s s' : State) : Prop
  | moves (p : Option ℕ) (d d' : Deliver) (s₁ : State) (c : Choice) (call : callAt s p = some d)
      (step : deliverStep env s d c = some (s₁, d'))
      (calls : callAt s' = Function.update (callAt s) p (some d')) (shared : SameShared s₁ s')
  | stays (inFlight : s'.inFlight = s.inFlight) (held : heldAt s' = heldAt s)
      (calls : ∀ p d, callAt s' p = some d → callAt s p = some d ∨ d.pc = .claim)
  | restarts (inFlight : s'.inFlight = ∅) (calls : ∀ p, callAt s' p = none)

theorem heldAt_set {i : ℕ} {t : Thread} (hget : s.threads[i]? = some t)
    (hthreads : s₁.threads = s.threads) (hretry : s₁.retry = s.retry) (t' : Thread) :
    heldAt { s₁ with threads := s₁.threads.set i t' } =
      Function.update (heldAt s) (some i) ((threadCall t').bind held) := by
  funext p
  rw [heldAt, callAt_set hget hthreads hretry, Function.update_apply, Function.update_apply]
  split_ifs <;> rfl

theorem heldAt_retry (hthreads : s₁.threads = s.threads) (r : RetryPc) :
    heldAt { s₁ with retry := r } = Function.update (heldAt s) none ((retryCall r).bind held) := by
  funext p
  rw [heldAt, callAt_retry hthreads, Function.update_apply, Function.update_apply]
  split_ifs <;> rfl

theorem callStep_append {t : Thread} (hthreads : s'.threads = s.threads ++ [t])
    (hretry : s'.retry = s.retry) (hflight : s'.inFlight = s.inFlight) (ht : threadCall t = none) :
    CallStep env s s' := by
  have hcalls := callAt_append hthreads hretry ht
  refine .stays hflight ?_ fun p d hp => .inl (hcalls ▸ hp)
  funext p
  rw [heldAt, heldAt, hcalls]

/-- The step of a thread that is no call. -/
theorem callStep_thread {i : ℕ} {t t' : Thread} (hget : s.threads[i]? = some t)
    (ht : threadCall t = none) (h : ThreadMove env s c t s₁ t') :
    CallStep env s { s₁ with threads := s₁.threads.set i t' } := by
  obtain ⟨hthreads, hretry⟩ := h.frame
  have hnew : s₁.inFlight = s.inFlight ∧ ∀ d, threadCall t' = some d → d.pc = .claim := by
    cases h with
    | retained store next =>
      obtain ⟨-, -, hflight, -⟩ := storeJob_ok store
      refine ⟨hflight, fun d hd => ?_⟩
      rcases next with rfl | ⟨-, rfl⟩ <;> cases hd
      rfl
    | marked store | replaced store =>
      obtain ⟨-, -, hflight, -⟩ := storeJob_ok store
      refine ⟨hflight, fun d hd => ?_⟩
      cases hd
      rfl
    | deliver move => cases ht
    | _ =>
      refine ⟨rfl, fun d hd => ?_⟩
      cases hd
      try rfl
  have hheld : (threadCall t').bind held = none := by
    cases hcall : threadCall t' with
    | none => rfl
    | some d => simp [held, hnew.2 d hcall]
  have hold : heldAt s (some i) = none := by
    simp [heldAt, callAt, hget, ht]
  refine .stays hnew.1 ?_ fun p d hp => ?_
  · rw [heldAt_set hget hthreads hretry, hheld, ← hold, Function.update_eq_self]
  · rw [callAt_set hget hthreads hretry, Function.update_apply] at hp
    split_ifs at hp
    · exact .inr (hnew.2 d hp)
    · exact .inl hp

/-- The step of the retry loop between its calls. -/
theorem callStep_retry {r : RetryPc} (h : RetryMove env s c s.retry s₁ r)
    (hno : ∀ d, retryCall s.retry = some d → ∃ result, d.pc = .done result)
    (hthreads : s₁.threads = s.threads) : CallStep env s { s₁ with retry := r } := by
  have hold : heldAt s none = none := by
    cases hcall : retryCall s.retry with
    | none => simp [heldAt, callAt, hcall]
    | some d =>
      obtain ⟨result, hpc⟩ := hno d hcall
      simp [heldAt, callAt, hcall, held, hpc]
  have hnew : s₁.inFlight = s.inFlight ∧ ∀ d, retryCall r = some d → d.pc = .claim := by
    generalize s.retry = q at h hno
    cases h with
    | listed next =>
      refine ⟨rfl, fun d hd => ?_⟩
      rcases next with rfl | rfl <;> cases hd
    | taken =>
      refine ⟨rfl, fun d hd => ?_⟩
      cases hd
      rfl
    | deliver move =>
      obtain ⟨result, hpc⟩ := hno _ rfl
      exact absurd hpc (move.not_done result)
    | next pc next =>
      refine ⟨rfl, fun d hd => ?_⟩
      rcases next with rfl | rfl <;> cases hd
    | _ =>
      refine ⟨rfl, fun d hd => ?_⟩
      cases hd
  have hheld : (retryCall r).bind held = none := by
    cases hcall : retryCall r with
    | none => rfl
    | some d => simp [held, hnew.2 d hcall]
  refine .stays hnew.1 ?_ fun p d hp => ?_
  · rw [heldAt_retry hthreads, hheld, ← hold, Function.update_eq_self]
  · rw [callAt_retry hthreads, Function.update_apply] at hp
    split_ifs at hp
    · exact .inr (hnew.2 d hp)
    · exact .inl hp

theorem step_calls (h : step env s a = some s') : CallStep env s s' := by
  cases a with
  | retain key proof =>
    cases h
    exact callStep_append (t := .retainRead key proof) rfl rfl rfl rfl
  | request pubkey request =>
    cases h
    refine callStep_append (t := if request.isOpenCall then .openLookup pubkey request
      else .lookup (pubkey, request.subTaskId) 0) rfl rfl rfl ?_
    split_ifs <;> rfl
  | announce call =>
    cases h
    exact .stays rfl rfl fun p d hp => .inl hp
  | thread i c =>
    obtain ⟨t, t₁, s₁, hget, ht, rfl⟩ := step_thread h
    cases hcall : threadCall t with
    | none => exact callStep_thread hget hcall (threadStep_move ht)
    | some d =>
      obtain rfl : t = .deliver d := by
        cases t <;> cases hcall
        rfl
      obtain ⟨⟨s₂, d'⟩, hd, heq⟩ := Option.map_eq_some_iff.mp ht
      cases heq
      obtain ⟨hthreads, hretry, -⟩ := (deliverStep_move hd).frame
      exact .moves (some i) d d' s₂ c (by simp [callAt, hget, threadCall]) hd
        (callAt_set hget hthreads hretry _) ⟨rfl, rfl, rfl, rfl⟩
  | retry c =>
    by_cases hno : ∀ d, retryCall s.retry = some d → ∃ result, d.pc = .done result
    · obtain ⟨s₂, hmove, heq, hthreads⟩ := retryStep_move h
      rw [heq]
      exact callStep_retry hmove hno hthreads
    · push Not at hno
      obtain ⟨d, hcall, hpc⟩ := hno
      obtain ⟨now, entry, rest, hretry⟩ : ∃ now entry rest, s.retry = .deliver now entry d rest := by
        cases hr : s.retry <;> rw [hr] at hcall <;> cases hcall
        exact ⟨_, _, _, rfl⟩
      obtain ⟨⟨s₁, d'⟩, hd, rfl⟩ : ∃ r, deliverStep env s d c = some r ∧
          { r.1 with retry := .deliver now entry r.2 rest } = s' := by
        simp only [step, retryStep, hretry] at h
        split at h
        · exact absurd ‹_› (hpc _)
        · exact absurd ‹_› (hpc _)
        · exact Option.map_eq_some_iff.mp h
      exact .moves none d d' s₁ c hcall hd (callAt_retry (deliverStep_move hd).frame.1 _)
        ⟨rfl, rfl, rfl, rfl⟩
  | crash =>
    cases h
    refine .restarts rfl fun p => ?_
    cases p <;> rfl

/-! ### What a call returns -/

theorem openCallFailed_ne (e : String) : openCallFailed e ≠ .release (.ok .skippedInFlight) := by
  unfold openCallFailed
  split_ifs <;> simp

theorem proveFailed_ne (e : String) : proveFailed e ≠ .release (.ok .skippedInFlight) := by
  unfold proveFailed
  split_ifs <;> simp

/-- A call that has the sub-task does not return that another one has it. -/
theorem deliverStep_result {d d' : Deliver} (h : deliverStep env s d c = some (s', d')) :
    d'.pc ≠ .release (.ok .skippedInFlight) := by
  cases hpc : d.pc with
  | claim =>
    simp only [deliverStep, hpc] at h
    split_ifs at h <;> cases h <;> simp
  | choose =>
    simp only [deliverStep, hpc] at h
    split at h
    · cases h
      simp
    · split_ifs at h
      · cases h
        simp
      · split at h <;> cases h <;> simp
  | fetch source =>
    simp only [deliverStep, hpc] at h
    split at h <;> cases h
    · simp
    · exact openCallFailed_ne _
  | proveBytes source data =>
    simp only [deliverStep, hpc] at h
    split at h <;> cases h
    · simp
    · exact openCallFailed_ne _
  | prove =>
    simp only [deliverStep, hpc] at h
    split at h <;> cases h
    · simp
    · exact proveFailed_ne _
  | persist | send | refuse =>
    simp only [deliverStep, hpc] at h
    split at h <;> cases h <;> simp
  | delete refused =>
    simp only [deliverStep, hpc] at h
    split at h <;> cases h
    · simp
    · dsimp only
      split_ifs <;> simp
  | clear refused =>
    simp only [deliverStep, hpc] at h
    cases h
    cases refused <;> simp
  | release result =>
    simp only [deliverStep, hpc] at h
    cases h
    simp
  | done result => simp [deliverStep, hpc] at h

/-- A call that returns that another one has the sub-task has just begun and found it taken. -/
theorem skip_of_step {d d' : Deliver} (h : deliverStep env s d c = some (s₁, d'))
    (hd : d.pc ≠ .release (.ok .skippedInFlight)) (hd' : d'.pc = .done (.ok .skippedInFlight)) :
    d.pc = .claim ∧ d.key.2 ∈ s.inFlight ∧ s₁ = s := by
  cases deliverStep_move h with
  | busy pc busy => exact ⟨pc, busy, rfl⟩
  | failed pc next =>
    rcases next with ⟨result, rfl⟩ | ⟨err, rfl⟩ <;> cases hd'
  | deleted pc sql next =>
    rcases next with rfl | rfl <;> cases hd'
  | released pc =>
    cases hd'
    exact absurd pc hd
  | _ => cases hd'

/-! ### What a run keeps -/

/-- No sub-task is in flight, and of the calls there are, if any, none has begun. -/
structure Unbegun (s : State) : Prop where
  inFlight : s.inFlight = ∅
  calls : ∀ p d, callAt s p = some d → d.pc = .claim

/-- A sub-task is in the set exactly while one call has it, and no call that has one is about to say
that another call has it. -/
structure Guards (s : State) : Prop where
  guard : Guarded (heldAt s) s.inFlight
  results : ∀ p d, callAt s p = some d → d.pc ≠ .release (.ok .skippedInFlight)

theorem guards_of_unbegun (h : Unbegun s) : Guards s := by
  have hheld : ∀ p, heldAt s p = none := by
    intro p
    cases hp : callAt s p with
    | none => simp [heldAt, hp]
    | some d => simp [heldAt, hp, held, h.calls p d hp]
  refine ⟨⟨⟨fun p i hi => ?_, fun p q i hi => ?_⟩, fun i hi => ?_⟩, fun p d hp => ?_⟩
  · simp [hheld] at hi
  · simp [hheld] at hi
  · simp [h.inFlight] at hi
  · simp [h.calls p d hp]

theorem guards_moves (hg : Guards s) {p : Option ℕ} {d d' : Deliver} (hp : callAt s p = some d)
    (hstep : deliverStep env s d c = some (s₁, d'))
    (hcalls : callAt s' = Function.update (callAt s) p (some d')) (hshared : SameShared s₁ s') :
    Guards s' := by
  have hheld : heldAt s p = held d := by rw [heldAt, hp, Option.bind_some]
  refine ⟨?_, fun q e hq => ?_⟩
  · rw [heldAt_update hcalls, hshared.inFlight]
    rcases deliver_guard (deliverStep_move hstep) with ⟨hflight, hsame⟩ |
      ⟨hbefore, hfree, hafter, hflight⟩ | ⟨hbefore, hafter, hflight⟩
    · rw [hflight, hsame, ← hheld, Function.update_eq_self]
      exact hg.guard
    · rw [hflight, hafter]
      exact hg.guard.claim (hheld.trans hbefore) hfree
    · rw [hflight, hafter]
      exact hg.guard.release (hheld.trans hbefore)
  · rw [hcalls, Function.update_apply] at hq
    split_ifs at hq
    · cases hq
      exact deliverStep_result hstep
    · exact hg.results q e hq

theorem guards_step (hg : Guards s) (h : step env s a = some s') : Guards s' := by
  rcases step_calls h with ⟨p, d, d', s₁, c, hp, hstep, hcalls, hshared⟩ | ⟨hflight, hheld, hcalls⟩ |
    ⟨hflight, hcalls⟩
  · exact guards_moves hg hp hstep hcalls hshared
  · refine ⟨?_, fun p d hp => ?_⟩
    · rw [hflight, hheld]
      exact hg.guard
    · rcases hcalls p d hp with hold | hpc
      · exact hg.results p d hold
      · simp [hpc]
  · refine guards_of_unbegun ⟨hflight, fun p d hp => ?_⟩
    rw [hcalls p] at hp
    cases hp

theorem guards_of_run {acts : List Act} (hstart : Unbegun s) (h : run (step env) s acts = some s') :
    Guards s' :=
  run_inv (fun _ _ _ hg h => guards_step hg h) (guards_of_unbegun hstart) h

/-- A call comes up before its claim. -/
theorem begins_of_step (h : step env s a = some s') {p : Option ℕ} {d' : Deliver}
    (hp' : callAt s' p = some d') (hp : callAt s p = none) : d'.pc = .claim := by
  rcases step_calls h with ⟨q, d, d₁, s₁, c, hq, hstep, hcalls, hshared⟩ | ⟨hflight, hheld, hcalls⟩ |
    ⟨hflight, hcalls⟩
  · rw [hcalls, Function.update_apply] at hp'
    split_ifs at hp' with heq
    · rw [heq, hq] at hp
      cases hp
    · rw [hp] at hp'
      cases hp'
  · rcases hcalls p d' hp' with hold | hpc
    · rw [hp] at hold
      cases hold
    · exact hpc
  · rw [hcalls p] at hp'
    cases hp'

/-- What a step does by which the call at `p` returns that another one has its sub-task: the call
has just begun and its sub-task is taken, by another call that goes on having it; and nothing
changes but the call itself. -/
structure Skips (s s' : State) (p : Option ℕ) (d : Deliver) : Prop where
  begun : d.pc = .claim
  other : ∃ q ≠ p, heldAt s q = some d.key.2 ∧ heldAt s' q = some d.key.2
  inFlight : s'.inFlight = s.inFlight
  storage : s'.storage = s.storage
  openCallCache : s'.openCallCache = s.openCallCache
  log : s'.log = s.log
  calls : ∀ q ≠ p, callAt s' q = callAt s q

theorem skips_of_step (hg : Guards s) (h : step env s a = some s') {p : Option ℕ} {d d' : Deliver}
    (hp : callAt s p = some d) (hp' : callAt s' p = some d')
    (hpc : d.pc ≠ .done (.ok .skippedInFlight)) (hpc' : d'.pc = .done (.ok .skippedInFlight)) :
    Skips s s' p d := by
  rcases step_calls h with ⟨q, e, e', s₁, c, hq, hstep, hcalls, hshared⟩ | ⟨hflight, hheld, hcalls⟩ |
    ⟨hflight, hcalls⟩
  · rw [hcalls, Function.update_apply] at hp'
    split_ifs at hp' with heq
    · subst heq
      cases hp'
      cases hp.symm.trans hq
      obtain ⟨hclaim, hbusy, rfl⟩ := skip_of_step hstep (hg.results p d hp) hpc'
      obtain ⟨r, hr⟩ := hg.guard.owner _ hbusy
      have hne : r ≠ p := by
        rintro rfl
        simp [heldAt, hp, held, hclaim] at hr
      refine ⟨hclaim, ⟨r, hne, hr, ?_⟩, hshared.inFlight, hshared.storage, hshared.openCallCache,
        hshared.log, fun q hq => by rw [hcalls, Function.update_of_ne hq]⟩
      rw [heldAt, hcalls, Function.update_of_ne hne]
      exact hr
    · cases hp.symm.trans hp'
      exact absurd hpc' hpc
  · rcases hcalls p d' hp' with hold | hclaim
    · cases hp.symm.trans hold
      exact absurd hpc' hpc
    · simp [hclaim] at hpc'
  · rw [hcalls p] at hp'
    cases hp'

/-- **Main result.** However many calls run, for whichever sub-tasks, and however their steps
interleave with one another, with the requests and with the retry loop: a sub-task is in flight
exactly if a call has it, and then one call has it; a call begins before its claim; and one that
returns that another call has its sub-task has taken no other step, and has changed nothing. -/
theorem one_build_in_flight {s₀ : State} {acts : List Act} (hstart : Unbegun s₀)
    (h : run (step env) s₀ acts = some s) :
    (∀ id, id ∈ s.inFlight ↔ ∃ p, heldAt s p = some id) ∧
      (∀ id p q, heldAt s p = some id → heldAt s q = some id → p = q) ∧
      ∀ a s', step env s a = some s' → ∀ p d', callAt s' p = some d' →
        (callAt s p = none → d'.pc = .claim) ∧
        ∀ d, callAt s p = some d → d.pc ≠ .done (.ok .skippedInFlight) →
          d'.pc = .done (.ok .skippedInFlight) → Skips s s' p d := by
  have hg := guards_of_run hstart h
  refine ⟨fun id => ⟨fun hid => hg.guard.owner id hid, ?_⟩, fun id p q => hg.guard.unique p q id,
    fun a s' hs' p d' hp' => ⟨fun hp => begins_of_step hs' hp' hp, fun d hp hpc hpc' => ?_⟩⟩
  · rintro ⟨p, hp⟩
    exact hg.guard.taken p id hp
  · exact skips_of_step hg hs' hp hp' hpc hpc'

/-- Two calls for one sub-task, both before their claim. -/
def twoCalls : State :=
  { init with threads := [.deliver ⟨("orch", "sub-1"), PcsRequests.built, .claim⟩,
      .deliver ⟨("orch", "sub-1"), PcsRequests.built, .claim⟩] }

theorem unbegun_twoCalls : Unbegun twoCalls := by
  refine ⟨rfl, fun p d hp => ?_⟩
  match p with
  | none => cases hp
  | some 0 | some 1 =>
    cases hp
    rfl
  | some (i + 2) => simp [callAt, twoCalls] at hp

theorem one_build_in_flight_twoCalls :
    ∃ s s' d, run (step PcsRequests.nodeA) twoCalls [.thread 0 {}] = some s ∧
      step PcsRequests.nodeA s (.thread 1 {}) = some s' ∧ "sub-1" ∈ s.inFlight ∧
      callAt s (some 1) = some d ∧ Skips s s' (some 1) d := by
  have hrun : ∃ s, run (step PcsRequests.nodeA) twoCalls [.thread 0 {}] = some s ∧
      ∃ s', step PcsRequests.nodeA s (.thread 1 {}) = some s' ∧
        heldAt s (some 0) = some "sub-1" ∧
        callAt s (some 1) = some ⟨("orch", "sub-1"), PcsRequests.built, .claim⟩ ∧
        callAt s' (some 1) =
          some ⟨("orch", "sub-1"), PcsRequests.built, .done (.ok .skippedInFlight)⟩ :=
    ⟨_, rfl, _, rfl, rfl, rfl, rfl⟩
  obtain ⟨s, hs, s', hs', hheld, hcall, hcall'⟩ := hrun
  obtain ⟨hflight, -, hsteps⟩ := one_build_in_flight unbegun_twoCalls hs
  exact ⟨s, s', _, hs, hs', (hflight "sub-1").mpr ⟨_, hheld⟩, hcall,
    (hsteps _ s' hs' _ _ hcall').2 _ hcall (by simp) rfl⟩

end WqcNode.Application.PcsInFlight
