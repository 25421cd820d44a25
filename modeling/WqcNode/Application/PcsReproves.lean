import WqcNode.Application.PcsRequests

/-! # A built bundle is not built again

A delivering call decides between the cached bundle and a new build by the job it was handed. A call
of the retry loop has the job of a row that was listed before, and a call that waits for its claim
has the job it was spawned with, so core can be asked again although the row has the bundle, or
although the bundle was delivered and the row deleted. `retain_after_result` can in turn write a
copy without the bundle back.

* `not_reproved`: if every claim for a sub-task whose bundle was persisted is made with the row's
  job, or with the bundle, and no requested job without the bundle is written for it, core is not
  asked again.
* `stale_retry_reproves`: the retry loop asks again after a delivery that failed. -/

namespace WqcNode.Application.PcsReproves

open WqcNode.Lib WqcNode.Lib.Machine WqcNode.Infra WqcNode.Domain.Models WqcNode.Domain.Pcs
open WqcNode.Application.PcsMachine WqcNode.Application.PcsRequests

variable {env : Env} {s s' s₁ : State} {a : Act} {c : Choice}

/-! ### What an observer sees -/

/-- What a step has added to the log. -/
def news (s s' : State) : List Event := s'.log.take (s'.log.length - s.log.length)

def askedKey : Event → Option Key
  | .asked key _ => some key
  | _ => none

def persistedKey : Event → Option Key
  | .persisted key _ => some key
  | _ => none

/-- The pairs core is asked for in a step. -/
def asked (s s' : State) : List Key := (news s s').filterMap askedKey

/-- The pairs whose bundle is persisted in a step. -/
def persisted (s s' : State) : List Key := (news s s').filterMap persistedKey

/-- The pair whose job a new open-call request replaces in a step. -/
def replaced (env : Env) (s : State) : Act → Option Key
  | .thread i c => match s.threads[i]? with
    | some (.openStore key job) => match storeJob env s key job true c with
      | .ok _ => some key
      | .error _ => none
    | _ => none
  | _ => none

/-- The pairs whose bundle was persisted and whose job no open-call request has replaced since, and
those of them that core was asked for again. -/
structure Seen where
  cached : List Key
  reproved : List Key

def unseen : Seen := ⟨[], []⟩

def see (env : Env) (o : Seen) (s : State) (a : Act) (s' : State) : Seen where
  cached := persisted s s' ++ o.cached.filter fun key => replaced env s a ≠ some key
  reproved := (asked s s').filter (· ∈ o.cached) ++ o.reproved

/-- A claim for a pair that has its bundle is not free, has the bundle or has the row's job. -/
def claimsCurrent (env : Env) (s : State) (o : Seen) (d : Deliver) : Bool :=
  match d.pc with
  | .claim => decide (d.key.2 ∈ s.inFlight) || d.job.leafPcsB64.isSome ||
      decide (jobAt env s.storage d.key = some d.job) || decide (d.key ∉ o.cached)
  | _ => true

/-- The calls claim with current jobs, and no requested job without a bundle is written for a pair
that has its bundle, but by an open-call request. -/
def keepsBundles (env : Env) (x : State × Seen) : Act → Bool
  | .thread i c => match x.1.threads[i]? with
    | some (.retainWrite key job) | some (.mark key job) =>
      c.sql.isSome || !job.requested || job.leafPcsB64.isSome || decide (key ∉ x.2.cached)
    | some (.deliver d) => claimsCurrent env x.1 x.2 d
    | _ => true
  | .retry _ => match x.1.retry with
    | .deliver _ _ d _ => claimsCurrent env x.1 x.2 d
    | _ => true
  | _ => true

theorem news_of_append {es : List Event} (h : s'.log = es ++ s.log) : news s s' = es := by
  simp [news, h]

theorem asked_of_append (es : List Event) (h : s'.log = es ++ s.log) :
    asked s s' = es.filterMap askedKey := by rw [asked, news_of_append h]

theorem persisted_of_append (es : List Event) (h : s'.log = es ++ s.log) :
    persisted s s' = es.filterMap persistedKey := by rw [persisted, news_of_append h]

/-! ### The calls -/

def threadCall : Thread → Option Deliver
  | .deliver d => some d
  | _ => none

def retryCall : RetryPc → Option Deliver
  | .deliver _ _ d _ => some d
  | _ => none

/-- The call of a thread, or of the retry loop. -/
def callAt (s : State) : Option ℕ → Option Deliver
  | none => retryCall s.retry
  | some i => s.threads[i]?.bind threadCall

/-- The sub-task the call has in flight. -/
def held (d : Deliver) : Option String :=
  match d.pc with
  | .claim | .done _ => none
  | _ => some d.key.2

def heldAt (s : State) (p : Option ℕ) : Option String := (callAt s p).bind held

/-- The call will ask core, unless something fails. -/
def Asks (d : Deliver) : Prop :=
  d.pc = .choose ∧ d.job.leafPcsB64 = none ∨ ∃ source, d.pc = .fetch source

theorem held_of_asks {d : Deliver} (h : Asks d) : held d = some d.key.2 := by
  rcases h with ⟨hpc, -⟩ | ⟨source, hpc⟩ <;> simp [held, hpc]

theorem callAt_set {i : ℕ} {t : Thread} (hget : s.threads[i]? = some t)
    (hthreads : s₁.threads = s.threads) (hretry : s₁.retry = s.retry) (t' : Thread) :
    callAt { s₁ with threads := s₁.threads.set i t' } =
      Function.update (callAt s) (some i) (threadCall t') := by
  have hi : i < s.threads.length := (List.getElem?_eq_some_iff.mp hget).1
  funext p
  cases p with
  | none => simp [callAt, hretry]
  | some j =>
    rw [Function.update_apply]
    simp only [callAt, hthreads, List.getElem?_set, hi, if_true, Option.some.injEq]
    by_cases hij : i = j
    · simp [hij]
    · simp [hij, Ne.symm hij]

theorem callAt_retry (hthreads : s₁.threads = s.threads) (r : RetryPc) :
    callAt { s₁ with retry := r } = Function.update (callAt s) none (retryCall r) := by
  funext p
  cases p with
  | none => simp [callAt]
  | some j => simp [callAt, hthreads]

theorem callAt_append {t : Thread} (hthreads : s'.threads = s.threads ++ [t])
    (hretry : s'.retry = s.retry) (ht : threadCall t = none) : callAt s' = callAt s := by
  funext p
  cases p with
  | none => simp [callAt, hretry]
  | some j =>
    simp only [callAt, hthreads, List.getElem?_append]
    split_ifs with hj
    · rfl
    · rw [List.getElem?_eq_none (Nat.not_lt.mp hj)]
      cases j - s.threads.length <;> simp [ht]

theorem heldAt_update {p : Option ℕ} {d : Deliver}
    (h : callAt s' = Function.update (callAt s) p (some d)) :
    heldAt s' = Function.update (heldAt s) p (held d) := by
  funext q
  rw [heldAt, h, Function.update_apply, Function.update_apply]
  split_ifs <;> rfl

/-- A move of a call leaves the claims alone, or takes the call's sub-task, or gives it back. -/
theorem deliver_guard {d d' : Deliver} (h : DeliverMove env s c d s' d') :
    s'.inFlight = s.inFlight ∧ held d' = held d ∨
    held d = none ∧ d.key.2 ∉ s.inFlight ∧ held d' = some d.key.2 ∧
      s'.inFlight = insert d.key.2 s.inFlight ∨
    held d = some d.key.2 ∧ held d' = none ∧ s'.inFlight = s.inFlight.erase d.key.2 := by
  cases h with
  | claimed pc free => exact .inr (.inl ⟨by simp [held, pc], free, rfl, rfl⟩)
  | released pc => exact .inr (.inr ⟨by simp [held, pc], rfl, rfl⟩)
  | persisted pc store =>
    obtain ⟨-, -, hflight, -⟩ := storeJob_ok store
    exact .inl ⟨hflight, by simp [held, pc]⟩
  | failed pc next =>
    refine .inl ⟨rfl, ?_⟩
    rcases pc with ⟨source, pc⟩ | ⟨source, data, pc⟩ | pc <;>
      rcases next with ⟨result, rfl⟩ | ⟨err, rfl⟩ <;> simp [held, pc]
  | unsent pc =>
    refine .inl ⟨rfl, ?_⟩
    rcases pc with ⟨bundle, pc⟩ | ⟨err, pc⟩ <;> simp [held, pc]
  | deleted pc sql next =>
    refine .inl ⟨rfl, ?_⟩
    rcases next with rfl | rfl <;> simp [held, pc]
  | _ => exact .inl ⟨rfl, by simp [held, *]⟩

/-! ### What a call does -/

/-- What a move of a call does to the claims, to the log and to the rows. -/
structure CallEffect (env : Env) (s s' : State) (d d' : Deliver) : Prop where
  key : d'.key = d.key
  requested : d'.job.requested = d.job.requested
  asks : ∀ key ∈ asked s s', key = d.key ∧ Asks d
  persists : ∀ key ∈ persisted s s', key = d.key ∧ held d = some d.key.2 ∧ ¬ Asks d'
  rows : ∀ key job, jobAt env s'.storage key = some job →
    jobAt env s.storage key = some job ∧ key ∉ persisted s s' ∨ job.leafPcsB64.isSome = true
  next : Asks d' → Asks d ∨
    d.pc = .claim ∧ d.key.2 ∉ s.inFlight ∧ d.job.leafPcsB64 = none
  guard : s'.inFlight = s.inFlight ∧ held d' = held d ∨
    d.key.2 ∉ s.inFlight ∧ held d' = some d.key.2 ∧ s'.inFlight = insert d.key.2 s.inFlight ∨
    held d = some d.key.2 ∧ held d' = none ∧ s'.inFlight = s.inFlight.erase d.key.2

theorem CallEffect.copy {d d' : Deliver} (h : CallEffect env s s₁ d d') {threads : List Thread}
    {retry : RetryPc} : CallEffect env s { s₁ with threads := threads, retry := retry } d d' :=
  ⟨h.key, h.requested, h.asks, h.persists, h.rows, h.next, h.guard⟩

/-- A move that persists no bundle. -/
theorem callEffect_of_log {d d' : Deliver} (es : List Event) (hlog : s'.log = es ++ s.log)
    (hnone : es.filterMap persistedKey = []) (hkey : d'.key = d.key)
    (hjob : d'.job.requested = d.job.requested)
    (hasked : ∀ key ∈ es.filterMap askedKey, key = d.key ∧ Asks d)
    (hrows : ∀ key job, jobAt env s'.storage key = some job → jobAt env s.storage key = some job)
    (hasks : Asks d' → Asks d ∨ d.pc = .claim ∧ d.key.2 ∉ s.inFlight ∧ d.job.leafPcsB64 = none)
    (hguard : s'.inFlight = s.inFlight ∧ held d' = held d ∨
      d.key.2 ∉ s.inFlight ∧ held d' = some d.key.2 ∧ s'.inFlight = insert d.key.2 s.inFlight ∨
      held d = some d.key.2 ∧ held d' = none ∧ s'.inFlight = s.inFlight.erase d.key.2) :
    CallEffect env s s' d d' := by
  have hpersisted : persisted s s' = [] := by rw [persisted_of_append es hlog, hnone]
  refine ⟨hkey, hjob, ?_, ?_, fun key job h => .inl ⟨hrows key job h, ?_⟩, hasks, hguard⟩
  · rwa [asked_of_append es hlog]
  · simp [hpersisted]
  · simp [hpersisted]

theorem deliver_effect (hserde : env.serde.RoundTrips) {d d' : Deliver}
    (h : DeliverMove env s c d s' d') : CallEffect env s s' d d' := by
  have hguard := (deliver_guard h).imp_right (Or.imp_left And.right)
  have hlogged : ∀ (es : List Event), s'.log = es ++ s.log → s'.storage = s.storage →
      d'.job = d.job → es.filterMap persistedKey = [] →
      (∀ key ∈ es.filterMap askedKey, key = d.key ∧ Asks d) →
      (Asks d' → Asks d ∨ d.pc = .claim ∧ d.key.2 ∉ s.inFlight ∧ d.job.leafPcsB64 = none) →
      CallEffect env s s' d d' := fun es hlog hstorage hjob hnone hasked hasks =>
    callEffect_of_log es hlog hnone h.frame.2.2 (by rw [hjob]) hasked
      (fun _ _ hrow => hstorage ▸ hrow) hasks hguard
  cases h with
  | busy pc => exact hlogged [] rfl rfl rfl rfl (by simp) (by simp [Asks])
  | claimed pc free =>
    refine hlogged [] rfl rfl rfl rfl (by simp) fun h => ?_
    rcases h with ⟨-, hnone⟩ | ⟨source, hpc⟩
    · exact .inr ⟨pc, free, hnone⟩
    · cases hpc
  | cached pc | backoff pc => exact hlogged [] rfl rfl rfl rfl (by simp) (by simp [Asks])
  | toStore pc has => exact hlogged [] rfl rfl rfl rfl (by simp) fun _ => .inl (.inl ⟨pc, has⟩)
  | asked pc has =>
    exact hlogged [.asked d.key d.job] rfl rfl rfl rfl (by simp [askedKey, Asks, pc, has])
      (by simp [Asks])
  | fetched pc =>
    exact hlogged [.asked d.key d.job] rfl rfl rfl rfl (by simp [askedKey, Asks, pc])
      (by simp [Asks])
  | @built source data pcs pc =>
    exact hlogged [.built d.key d.job (some data) pcs] rfl rfl rfl rfl (by simp [askedKey])
      (by simp [Asks])
  | @proved pcs pc =>
    exact hlogged [.built d.key d.job none pcs] rfl rfl rfl rfl (by simp [askedKey])
      (by simp [Asks])
  | failed pc next =>
    refine hlogged [] rfl rfl rfl rfl (by simp) ?_
    rcases next with ⟨result, rfl⟩ | ⟨err, rfl⟩ <;> simp [Asks]
  | unpersisted pc =>
    exact callEffect_of_log [] rfl rfl rfl rfl (by simp) (fun _ _ h => h) (by simp [Asks]) hguard
  | @persisted pcs s₁ pc store =>
    obtain ⟨-, hstore, -, -, -, -, hlog⟩ := storeJob_ok store
    have hjob := jobAt_upsert hserde hstore
    obtain ⟨es, hes, hasked, hpersisted⟩ : ∃ es, (record s₁ (.persisted d.key pcs)).log = es ++ s.log ∧
        es.filterMap askedKey = [] ∧ es.filterMap persistedKey = [d.key] := by
      rcases hlog with hlog | hlog
      · exact ⟨[.persisted d.key pcs], by simp [record, hlog], rfl, rfl⟩
      · exact ⟨[.persisted d.key pcs, .marked d.key], by simp [record, hlog], rfl, rfl⟩
    refine ⟨rfl, rfl, ?_, ?_, fun key job h => ?_, by simp [Asks], hguard⟩
    · simp [asked_of_append es hes, hasked]
    · simp [persisted_of_append es hes, hpersisted, held, pc, Asks]
    · have hrow := (hjob key).symm.trans h
      split_ifs at hrow with heq
      · cases hrow
        exact .inr rfl
      · exact .inl ⟨hrow, by simp [persisted_of_append es hes, hpersisted, heq]⟩
  | unsent | undeleted | cleared | released =>
    exact hlogged [] rfl rfl rfl rfl (by simp) (by simp [Asks])
  | @acked bundle pc =>
    exact hlogged [.acked d.key (bundleMessage env d.key.2 bundle)] rfl rfl rfl rfl
      (by simp [askedKey]) (by simp [Asks])
  | @refused err pc =>
    exact hlogged [.acked d.key (refusalMessage env d.key.2 (pcsRefuseReason err))]
      rfl rfl rfl rfl (by simp [askedKey]) (by simp [Asks])
  | deleted pc sql next =>
    refine callEffect_of_log [] rfl rfl rfl rfl (by simp) (fun key job hrow => ?_) ?_ hguard
    · rw [jobAt_delete] at hrow
      split_ifs at hrow
      exact hrow
    · rcases next with rfl | rfl <;> simp [Asks]

/-! ### What a run keeps -/

variable {o : Seen}

/-- What holds in a run in which no bundle is built again. -/
structure Fresh (env : Env) (s : State) (o : Seen) : Prop where
  guard : Exclusive (heldAt s) s.inFlight
  rows : ∀ key ∈ o.cached, ∀ job, jobAt env s.storage key = some job → job.requested = true →
    job.leafPcsB64.isSome = true
  requested : ∀ p d, callAt s p = some d → d.job.requested = true
  calls : ∀ p d, callAt s p = some d → Asks d → d.key ∉ o.cached
  threads : ∀ t ∈ s.threads, ThreadRequested t
  quiet : o.reproved = []

theorem fresh_init : Fresh env init unseen := by
  have hcall : ∀ p, callAt init p = none := by
    intro p
    cases p <;> rfl
  refine ⟨⟨fun p i h => ?_, fun p q i h => ?_⟩, by simp [unseen], fun p d h => ?_, fun p d h => ?_,
    by simp [init], rfl⟩
  · simp [heldAt, hcall] at h
  · simp [heldAt, hcall] at h
  · simp [hcall] at h
  · simp [hcall] at h

/-- A step of the call at `p`. -/
theorem Fresh.moved (hf : Fresh env s o) {p : Option ℕ} {d d' : Deliver} (hp : callAt s p = some d)
    (he : CallEffect env s s' d d') (hclaim : claimsCurrent env s o d = true)
    (hcalls : callAt s' = Function.update (callAt s) p (some d'))
    (hthreads : ∀ t ∈ s'.threads, ThreadRequested t) (hreplaced : replaced env s a = none) :
    Fresh env s' (see env o s a s') := by
  have hcached : ∀ key, key ∈ (see env o s a s').cached ↔ key ∈ persisted s s' ∨ key ∈ o.cached := by
    simp [see, hreplaced]
  have hheld : heldAt s p = held d := by rw [heldAt, hp, Option.bind_some]
  have hcases : ∀ q e, callAt s' q = some e → q = p ∧ e = d' ∨ q ≠ p ∧ callAt s q = some e := by
    intro q e hq
    rw [hcalls, Function.update_apply] at hq
    split_ifs at hq with hqp
    · exact .inl ⟨hqp, (Option.some.inj hq).symm⟩
    · exact .inr ⟨hqp, hq⟩
  refine ⟨?_, fun key hkey job hjob hreq => ?_, fun q e hq => ?_, fun q e hq hasks hkey => ?_,
    hthreads, ?_⟩
  · rw [heldAt_update hcalls]
    rcases he.guard with ⟨hflight, hsame⟩ | ⟨hfree, hnow, hflight⟩ | ⟨hnow, hnone, hflight⟩
    · rw [hflight, hsame, ← hheld, Function.update_eq_self]
      exact hf.guard
    · rw [hflight, hnow]
      exact hf.guard.claim hfree
    · rw [hflight, hnone]
      exact hf.guard.release (hheld.trans hnow)
  · rcases he.rows key job hjob with ⟨hrow, hnot⟩ | hsome
    · exact hf.rows key (((hcached key).mp hkey).resolve_left hnot) job hrow hreq
    · exact hsome
  · rcases hcases q e hq with ⟨-, rfl⟩ | ⟨-, hold⟩
    · exact he.requested.trans (hf.requested p d hp)
    · exact hf.requested q e hold
  · rcases hcases q e hq with ⟨-, rfl⟩ | ⟨hne, hold⟩
    · rcases (hcached _).mp hkey with hnew | hkey
      · exact (he.persists _ hnew).2.2 hasks
      · rw [he.key] at hkey
        rcases he.next hasks with hasks | ⟨hpc, hfree, hnone⟩
        · exact hf.calls p d hp hasks hkey
        · -- the claim is made with the row's job, which has the bundle
          simp only [claimsCurrent, hpc, hfree, hnone, hkey, decide_false, Option.isSome_none,
            not_true_eq_false, Bool.or_false, Bool.false_or, decide_eq_true_eq] at hclaim
          have := hf.rows d.key hkey d.job hclaim (hf.requested p d hp)
          simp [hnone] at this
    · rcases (hcached _).mp hkey with hnew | hkey
      · -- the call at `p` persists the bundle, so that no other call has the sub-task in flight
        obtain ⟨hsame, hheld', -⟩ := he.persists _ hnew
        refine hne (hf.guard.unique q p d.key.2 ?_ (hheld.trans hheld'))
        rw [heldAt, hold, Option.bind_some, held_of_asks hasks, hsame]
      · exact hf.calls q e hold hasks hkey
  · have hnone : (asked s s').filter (· ∈ o.cached) = [] := by
      refine List.filter_eq_nil_iff.mpr fun key hkey => ?_
      obtain ⟨rfl, hasks⟩ := he.asks key hkey
      simpa using hf.calls p d hp hasks
    rw [see, hnone, List.nil_append, hf.quiet]

/-- A step of no call. -/
theorem Fresh.still (hf : Fresh env s o) (es : List Event) (hlog : s'.log = es ++ s.log)
    (hasked : es.filterMap askedKey = []) (hpersisted : es.filterMap persistedKey = [])
    (hflight : s'.inFlight = s.inFlight)
    (hcalls : ∀ p d, callAt s' p = some d → callAt s p = some d ∨
      d.pc = .claim ∧ d.job.requested = true)
    (hthreads : ∀ t ∈ s'.threads, ThreadRequested t)
    (hrows : ∀ key ∈ o.cached, replaced env s a ≠ some key → ∀ job,
      jobAt env s'.storage key = some job → jobAt env s.storage key = some job ∨
        job.requested = false ∨ job.leafPcsB64.isSome = true) :
    Fresh env s' (see env o s a s') := by
  have hcached : ∀ key, key ∈ (see env o s a s').cached ↔
      key ∈ o.cached ∧ replaced env s a ≠ some key := by
    simp [see, persisted_of_append es hlog, hpersisted]
  refine ⟨?_, fun key hkey job hjob hreq => ?_, fun p d hp => ?_, fun p d hp hasks hkey => ?_,
    hthreads, ?_⟩
  · rw [hflight]
    refine hf.guard.mono fun p i hi => ?_
    obtain ⟨d, hp, hheld⟩ := Option.bind_eq_some_iff.mp hi
    rcases hcalls p d hp with hold | ⟨hpc, -⟩
    · rw [heldAt, hold, Option.bind_some, hheld]
    · simp [held, hpc] at hheld
  · obtain ⟨hkey, hno⟩ := (hcached key).mp hkey
    rcases hrows key hkey hno job hjob with hold | hunrequested | hsome
    · exact hf.rows key hkey job hold hreq
    · simp [hreq] at hunrequested
    · exact hsome
  · rcases hcalls p d hp with hold | ⟨-, hreq⟩
    · exact hf.requested p d hold
    · exact hreq
  · rcases hcalls p d hp with hold | ⟨hpc, -⟩
    · exact hf.calls p d hold hasks ((hcached _).mp hkey).1
    · simp [Asks, hpc] at hasks
  · rw [see, asked_of_append es hlog, hasked, List.filter_nil, List.nil_append, hf.quiet]

/-- An upsert, of a job that may be stored for a pair that has its bundle. -/
theorem Fresh.stored (hserde : env.serde.RoundTrips) (hf : Fresh env s o) {key : Key}
    {job : PendingPcsJob} {asked : Bool} (store : storeJob env s key job asked c = .ok s₁)
    (hjob : replaced env s a = some key ∨ job.requested = false ∨ job.leafPcsB64.isSome = true ∨
      key ∉ o.cached)
    (hcopy : s'.storage = s₁.storage ∧ s'.inFlight = s₁.inFlight ∧ s'.log = s₁.log)
    (hcalls : ∀ p d, callAt s' p = some d → callAt s p = some d ∨
      d.pc = .claim ∧ d.job.requested = true)
    (hthreads : ∀ t ∈ s'.threads, ThreadRequested t) : Fresh env s' (see env o s a s') := by
  obtain ⟨-, hstore, hflight, -, -, -, hlog⟩ := storeJob_ok store
  obtain ⟨es, hes, hasked, hpersisted⟩ : ∃ es, s'.log = es ++ s.log ∧
      es.filterMap askedKey = [] ∧ es.filterMap persistedKey = [] := by
    rw [hcopy.2.2]
    rcases hlog with hlog | hlog
    · exact ⟨[], hlog, rfl, rfl⟩
    · exact ⟨[.marked key], hlog, rfl, rfl⟩
  refine hf.still es hes hasked hpersisted (hcopy.2.1.trans hflight) hcalls hthreads
    fun k hk hno job' hrow => ?_
  rw [hcopy.1, jobAt_upsert hserde hstore] at hrow
  split_ifs at hrow with heq
  · cases hrow
    rcases hjob with hreplaced | hjob | hjob | hjob
    · exact absurd (heq ▸ hreplaced) hno
    · exact .inr (.inl hjob)
    · exact .inr (.inr hjob)
    · exact absurd (heq ▸ hk) hjob
  · exact .inl hrow

/-! ### Steps -/

theorem DeliverMove.requested {d d' : Deliver} (h : DeliverMove env s c d s' d') :
    d'.job.requested = d.job.requested := by
  cases h <;> rfl

theorem ThreadMove.requested {t t' : Thread} (h : ThreadMove env s c t s' t')
    (ht : ThreadRequested t) : ThreadRequested t' := by
  cases h with
  | retained store next =>
    rcases next with rfl | ⟨hreq, rfl⟩
    · trivial
    · exact hreq
  | found read requested => exact requested
  | deliver move => exact (DeliverMove.requested move).trans ht
  | marked store | replaced store => exact ht
  | toMark | toOpen => rfl
  | _ => trivial

/-- The calls after a thread's step that is none of a call's. -/
theorem calls_of_thread {i : ℕ} {t : Thread} (hget : s.threads[i]? = some t)
    (hthreads : s₁.threads = s.threads) (hretry : s₁.retry = s.retry) (t' : Thread)
    (ht' : ∀ d, threadCall t' = some d → d.pc = .claim ∧ d.job.requested = true) :
    ∀ p d, callAt { s₁ with threads := s₁.threads.set i t' } p = some d →
      callAt s p = some d ∨ d.pc = .claim ∧ d.job.requested = true := by
  intro p d hp
  rw [callAt_set hget hthreads hretry, Function.update_apply] at hp
  split_ifs at hp with heq
  · exact .inr (ht' d hp)
  · exact .inl hp

theorem thread_fresh (hserde : env.serde.RoundTrips) (hf : Fresh env s o) {i : ℕ} {t t' : Thread}
    (hget : s.threads[i]? = some t) (h : ThreadMove env s c t s₁ t')
    (hok : keepsBundles env (s, o) (.thread i c) = true) :
    Fresh env { s₁ with threads := s₁.threads.set i t' }
      (see env o s (.thread i c) { s₁ with threads := s₁.threads.set i t' }) := by
  obtain ⟨hthreads, hretry⟩ := h.frame
  have hrequested : ∀ t₁ ∈ s₁.threads.set i t', ThreadRequested t₁ := by
    intro t₁ ht₁
    rw [hthreads] at ht₁
    rcases List.mem_or_eq_of_mem_set ht₁ with ht₁ | rfl
    · exact hf.threads t₁ ht₁
    · exact ThreadMove.requested h (hf.threads t (List.mem_of_getElem? hget))
  have hcalls := calls_of_thread hget hthreads hretry t'
  have hthread := hf.threads t (List.mem_of_getElem? hget)
  simp only [keepsBundles, hget] at hok
  cases h with
  | @deliver d d' _ move =>
    exact hf.moved (p := some i) (by simp [callAt, hget, threadCall])
      (deliver_effect hserde move).copy hok (callAt_set hget hthreads hretry _) hrequested
      (by simp [replaced, hget])
  | @retained key job _ _ store next =>
    refine hf.stored hserde store ?_ ⟨rfl, rfl, rfl⟩ (hcalls fun d hd => ?_) hrequested
    · simp only [Bool.or_eq_true, (storeJob_ok store).1, Option.isSome_none, Bool.false_eq_true,
        Bool.not_eq_true', decide_eq_true_eq] at hok
      tauto
    · rcases next with rfl | ⟨hreq, rfl⟩
      · cases hd
      · cases hd
        exact ⟨rfl, hreq⟩
  | @marked key job _ store =>
    refine hf.stored hserde store ?_ ⟨rfl, rfl, rfl⟩ (hcalls fun d hd => ?_) hrequested
    · simp only [Bool.or_eq_true, (storeJob_ok store).1, Option.isSome_none, Bool.false_eq_true,
        Bool.not_eq_true', decide_eq_true_eq] at hok
      tauto
    · cases hd
      exact ⟨rfl, hthread⟩
  | @replaced key job _ store =>
    refine hf.stored hserde store (.inl ?_) ⟨rfl, rfl, rfl⟩ (hcalls fun d hd => ?_) hrequested
    · simp only [PcsReproves.replaced, hget, store]
    · cases hd
      exact ⟨rfl, hthread⟩
  | found read requested =>
    exact hf.still [] rfl rfl rfl rfl
      (hcalls fun d hd => by cases hd; exact ⟨rfl, requested⟩) hrequested fun _ _ _ _ h => .inl h
  | read | unstored | absent | again | toMark | toOpen =>
    exact hf.still [] rfl rfl rfl rfl (hcalls fun d hd => by cases hd) hrequested
      fun _ _ _ _ h => .inl h

theorem retry_fresh (hserde : env.serde.RoundTrips) (hf : Fresh env s o) {r' : RetryPc}
    (h : RetryMove env s c s.retry s₁ r') (hthreads : s₁.threads = s.threads)
    (hok : keepsBundles env (s, o) (.retry c) = true) :
    Fresh env { s₁ with retry := r' } (see env o s (.retry c) { s₁ with retry := r' }) := by
  have hrequested : ∀ t ∈ s₁.threads, ThreadRequested t := hthreads ▸ hf.threads
  have hcalls : (∀ d, retryCall r' = some d → d.pc = .claim ∧ d.job.requested = true) →
      ∀ p d, callAt { s₁ with retry := r' } p = some d →
        callAt s p = some d ∨ d.pc = .claim ∧ d.job.requested = true := by
    intro hr' p d hp
    rw [callAt_retry hthreads, Function.update_apply] at hp
    split_ifs at hp with heq
    · exact .inr (hr' d hp)
    · exact .inl hp
  generalize hr : s.retry = r at h
  cases h with
  | @deliver now entry rest d d' _ move =>
    simp only [keepsBundles, hr] at hok
    exact hf.moved (p := none) (by rw [callAt, hr, retryCall]) (deliver_effect hserde move).copy
      hok (callAt_retry hthreads _) hrequested rfl
  | taken read requested =>
    exact hf.still [] rfl rfl rfl rfl
      (hcalls fun d hd => by cases hd; exact ⟨rfl, requested⟩) hrequested fun _ _ _ _ h => .inl h
  | pruned sql read requested due =>
    exact hf.still [] rfl rfl rfl rfl (hcalls fun d hd => by cases hd) hrequested
      fun _ _ _ _ h => .inl (jobAt_of_deleteById h)
  | bumped =>
    refine hf.still [] rfl rfl rfl rfl (hcalls fun d hd => by cases hd) hrequested
      fun key _ _ job h => .inl ?_
    rwa [jobAt_increment] at h
  | listed next | next pc next =>
    refine hf.still [] rfl rfl rfl rfl (hcalls fun d hd => ?_) hrequested
      fun _ _ _ _ h => .inl h
    rcases next with rfl | rfl <;> cases hd
  | through | passed | unbumped =>
    exact hf.still [] rfl rfl rfl rfl (hcalls fun d hd => by cases hd) hrequested
      fun _ _ _ _ h => .inl h

theorem step_fresh (hserde : env.serde.RoundTrips) (hf : Fresh env s o)
    (hok : keepsBundles env (s, o) a = true) (h : step env s a = some s') :
    Fresh env s' (see env o s a s') := by
  have happend : ∀ (es : List Event) {t : Thread} {s' : State}, s'.threads = s.threads ++ [t] →
      s'.retry = s.retry → s'.storage = s.storage → s'.inFlight = s.inFlight →
      s'.log = es ++ s.log → es.filterMap askedKey = [] → es.filterMap persistedKey = [] →
      threadCall t = none → ThreadRequested t → Fresh env s' (see env o s a s') := by
    intro es t s' hthreads hretry hstorage hflight hlog hasked hpersisted hcall ht
    refine hf.still es hlog hasked hpersisted hflight (fun p d hp => .inl ?_) (fun t' ht' => ?_)
      fun _ _ _ job hrow => .inl (hstorage ▸ hrow)
    · rwa [callAt_append hthreads hretry hcall] at hp
    · rw [hthreads] at ht'
      rcases List.mem_append.mp ht' with ht' | ht'
      · exact hf.threads t' ht'
      · exact List.mem_singleton.mp ht' ▸ ht
  cases a with
  | retain key proof =>
    cases h
    exact happend [] rfl rfl rfl rfl rfl rfl rfl rfl trivial
  | request pubkey request =>
    cases h
    refine happend [.requested pubkey request] rfl rfl rfl rfl rfl rfl rfl ?_ ?_
    · split_ifs <;> rfl
    · split_ifs <;> trivial
  | announce call =>
    cases h
    exact hf.still [.announced call] rfl rfl rfl rfl (fun _ _ h => .inl h) hf.threads
      fun _ _ _ _ h => .inl h
  | thread i c =>
    obtain ⟨t, t₁, s₁, hget, ht, rfl⟩ := step_thread h
    exact thread_fresh hserde hf hget (threadStep_move ht) hok
  | retry c =>
    obtain ⟨s₁, hmove, heq, hthreads⟩ := retryStep_move h
    rw [heq]
    exact retry_fresh hserde hf hmove hthreads hok
  | crash =>
    have hs' : s' = { init with storage := s.storage, log := s.log } := (Option.some.inj h).symm
    have hlog : s'.log = [] ++ s.log := by rw [hs']; rfl
    have hcall : ∀ p, callAt s' p = none := by
      intro p
      rw [hs']
      cases p <;> rfl
    refine ⟨⟨fun p i h => ?_, fun p q i h => ?_⟩, fun key hkey job hjob hreq => ?_, fun p d h => ?_,
      fun p d h => ?_, by simp [hs', init], ?_⟩
    · simp [heldAt, hcall] at h
    · simp [heldAt, hcall] at h
    · simp only [see, persisted_of_append [] hlog, List.filterMap_nil, List.nil_append,
        List.mem_filter] at hkey
      rw [hs'] at hjob
      exact hf.rows key hkey.1 job hjob hreq
    · simp [hcall] at h
    · simp [hcall] at h
    · rw [see, asked_of_append [] hlog]
      exact hf.quiet

/-- **Main result.** In every run in which each claim for a pair that has its bundle is made with
the row's job or with the bundle, and nothing but an open-call request writes a requested job
without the bundle for it, core is asked for no pair that has its bundle. -/
theorem not_reproved (hserde : env.serde.RoundTrips) {acts : List Act}
    (hok : StepsMeet (observe (step env) (see env)) (fun x a => keepsBundles env x a = true)
      (init, unseen) acts)
    (h : run (step env) init acts = some s) :
    ∃ o, run (observe (step env) (see env)) (init, unseen) acts = some (s, o) ∧ o.reproved = [] := by
  obtain ⟨o, ho⟩ := run_observe (see env) h unseen
  have hfresh : Fresh env s o := by
    refine run_inv_of_stepsMeet (I := fun x => Fresh env x.1 x.2) (fun x a x' hf hok hx => ?_)
      fresh_init hok ho
    obtain ⟨s', hs', rfl⟩ := Option.map_eq_some_iff.mp hx
    exact step_fresh hserde hf hok hs'
  exact ⟨o, ho, hfresh.quiet⟩

/-! ### Runs of the concrete node -/

/-- The bundle is built and its delivery fails; the retry loop sends the cached bundle. -/
def resentActs : List Act :=
  unsentActs ++ [.retry {}, .retry {}, .retry {}, .retry {}, .retry {}, .retry {}, .retry {}, .retry {}]

theorem not_reproved_resent :
    ∃ s o, run (step nodeA) init resentActs = some s ∧
      run (observe (step nodeA) (see nodeA)) (init, unseen) resentActs = some (s, o) ∧
      s.storage.rows.lookup ("orch", "sub-1") = none ∧ o.cached = [("orch", "sub-1")] ∧
      o.reproved = [] := by
  have hrun : (run (observe (step nodeA) (see nodeA)) (init, unseen) resentActs).any (fun x =>
      decide (x.1.storage.rows.lookup ("orch", "sub-1") = none ∧
        x.2.cached = [("orch", "sub-1")])) = true := by decide +kernel
  have hsome : (run (step nodeA) init resentActs).isSome = true := by decide +kernel
  obtain ⟨⟨s, o⟩, ho, hp⟩ := (Option.any_eq_true _ _).mp hrun
  obtain ⟨s', hs⟩ := Option.isSome_iff_exists.mp hsome
  obtain ⟨o', ho', hquiet⟩ := not_reproved nodeA_roundTrips (by decide +kernel) hs
  cases ho.symm.trans ho'
  obtain ⟨hrow, hcached⟩ := of_decide_eq_true hp
  exact ⟨s, o, hs, ho, hrow, hcached, hquiet⟩

/-- **The retry loop asks again**: it has listed the requested job before the bundle is built; the
delivery fails, and the retry loop's call builds from the job it has, although the row has the
bundle. -/
theorem stale_retry_reproves :
    ∃ s o, run (observe (step nodeA) (see nodeA)) (init, unseen)
        [.retain ("orch", "sub-1") subTaskProof, .thread 0 {}, .thread 0 {},
          .request "orch" winnerRequest, .thread 1 {}, .thread 1 {}, .retry {}, .retry {},
          .thread 1 {}, .thread 1 {}, .thread 1 { core := .ok ⟨"cGNz", 3⟩ }, .thread 1 {},
          .thread 1 { send := some "stream reset" }, .thread 1 {}, .retry {}, .retry {}] =
        some (s, o) ∧
      jobAt nodeA s.storage ("orch", "sub-1") = some built ∧ o.reproved = [("orch", "sub-1")] := by
  have hrun : (run (observe (step nodeA) (see nodeA)) (init, unseen)
        [.retain ("orch", "sub-1") subTaskProof, .thread 0 {}, .thread 0 {},
          .request "orch" winnerRequest, .thread 1 {}, .thread 1 {}, .retry {}, .retry {},
          .thread 1 {}, .thread 1 {}, .thread 1 { core := .ok ⟨"cGNz", 3⟩ }, .thread 1 {},
          .thread 1 { send := some "stream reset" }, .thread 1 {}, .retry {}, .retry {}]).any
      (fun x => decide (jobAt nodeA x.1.storage ("orch", "sub-1") = some built ∧
        x.2.reproved = [("orch", "sub-1")])) = true := by decide +kernel
  obtain ⟨⟨s, o⟩, hs, hp⟩ := (Option.any_eq_true _ _).mp hrun
  exact ⟨s, o, hs, of_decide_eq_true hp⟩

end WqcNode.Application.PcsReproves
