import WqcNode.Application.PcsInFlight
import WqcNode.Application.PcsOpenCalls
import WqcNode.Infra.PcsJobJson

/-! # A PCS outbox that is left alone settles

The calls of the outbox get in each other's way: a call that finds its sub-task in flight gives up,
and what it was to deliver stays in the table. Where nothing fails from some state on and core and
the store answer for good, the threads come to an end, and then one iteration of the retry loop
delivers what is left.

* `outbox_settles`: from every state a run can lead to, the outbox can get to where no call is under
  way, no sub-task is in flight and no row is requested; and each request that no pending write or
  delete was about to drop has been acknowledged on the way, with a bundle or a refusal. -/

namespace WqcNode.Application.PcsSettling

open WqcNode.Lib WqcNode.Lib.Machine WqcNode.Infra WqcNode.Domain.Models WqcNode.Domain.Pcs
open WqcNode.Application.PcsMachine WqcNode.Application.PcsRequests WqcNode.Application.PcsOpenCalls
open WqcNode.Application.PcsReproves WqcNode.Application.PcsInFlight

variable {env : Env} {s s' s₁ : State} {a : Act} {c : Choice} {answer : PendingPcsJob → Choice}

/-! ### What can be reached without a failure -/

/-- The texts the outbox writes can be written, and a job is read back. -/
structure Encodes (env : Env) : Prop where
  serde : env.serde.RoundTrips
  job : ∀ job, ∃ bytes, env.serde.toVec job = .ok bytes
  message : ∀ message, ∃ bytes, env.messageToVec message = .ok bytes

/-- Sends go through, and core and the store decide: core answers with a bundle or refuses, and the
store with the proof or another one. -/
structure Conclusive (env : Env) (job : PendingPcsJob) (c : Choice) : Prop where
  send : c.send = none
  up : c.inBackoff = false
  proved : job.openCall = none → ∀ e, c.core = .error e → proveFailed e = .refuse e
  built : ∀ source, job.openCall = some source → ∀ e, c.core = .error e → openCallFailed e = .refuse e
  fetched : ∀ source, job.openCall = some source → ∀ e,
    (c.cas.bind fun data => verifyCasBlob env data source.leafProofHash) = .error e →
    openCallFailed e = .refuse e

def announcedHash : Event → Option String
  | .announced call => some call.leafProofHash
  | _ => none

/-- An open call that was announced names the proof the job is built from, if it is fetched. -/
def Named (log : List Event) (job : PendingPcsJob) : Prop :=
  ∀ source, job.openCall = some source → source.leafProofHash ∈ log.filterMap announcedHash

/-- The job of a step that is about none. -/
def noJob : PendingPcsJob := ⟨"", placeholderProof "" "" "", false, none, none, none⟩

/-- The job of the thread's step. -/
def threadJob : Thread → PendingPcsJob
  | .deliver d => d.job
  | _ => noJob

def retryJob : RetryPc → PendingPcsJob
  | .deliver _ _ d _ => d.job
  | _ => noJob

/-- A step of a thread or of the retry loop, with the answer for its job. -/
def Given (answer : PendingPcsJob → Choice) (s : State) : Act → Prop
  | .thread i c => ∃ t, s.threads[i]? = some t ∧ c = answer (threadJob t)
  | .retry c => c = answer (retryJob s.retry)
  | _ => False

def Idle : Thread → Prop
  | .finished => True
  | .deliver d => ∃ result, d.pc = .done result
  | _ => False

/-- No call is under way. -/
structure Quiet (s : State) : Prop where
  threads : ∀ t ∈ s.threads, Idle t
  retry : s.retry = .sleep

structure Settled (env : Env) (s : State) : Prop extends Quiet s where
  inFlight : s.inFlight = ∅
  requested : ∀ key, isRequested env s.storage key = false

/-! ### What holds in every run -/

/-- The ids are those given out so far, each to one row. -/
structure Ids (st : PcsStorage) : Prop where
  below : ∀ k row, st.rows.lookup k = some row → row.id < st.nextId
  unique : ∀ k k' row row', st.rows.lookup k = some row → st.rows.lookup k' = some row' →
    row.id = row'.id → k = k'

def rowId (st : PcsStorage) (key : Key) : Option ℕ := (st.rows.lookup key).map (·.id)

/-- What is built from rows that were there. -/
theorem Ids.shrink {st st' : PcsStorage} (h : Ids st) (hnext : st'.nextId = st.nextId)
    (hrows : ∀ k row, st'.rows.lookup k = some row → ∃ row', st.rows.lookup k = some row' ∧
      row'.id = row.id) : Ids st' := by
  constructor
  · intro k row hk
    obtain ⟨row', hk', hid⟩ := hrows k row hk
    have hlt := h.below k row' hk'
    omega
  · intro k k' row row' hk hk' hid
    obtain ⟨r, hr, hrid⟩ := hrows k row hk
    obtain ⟨r', hr', hrid'⟩ := hrows k' row' hk'
    exact h.unique k k' r r' hr hr' (by omega)

theorem Ids.upsert {st st' : PcsStorage} (h : Ids st) {key : Key} {job : PendingPcsJob} {now : ℤ}
    (hst : st.upsertPendingPcs env.serde key job now = .ok st') : Ids st' := by
  obtain ⟨row, hrow⟩ := PcsStorage.upserted hst
  rcases hrow.id with ⟨old, hold, hid, hnext⟩ | ⟨hnone, hid, hnext⟩
  · refine h.shrink hnext fun k row' hk => ?_
    rw [hrow.rows, Table.lookup_insert_if] at hk
    split_ifs at hk with heq
    · cases hk
      exact ⟨old, heq ▸ hold, hid.symm⟩
    · exact ⟨row', hk, rfl⟩
  · -- the new id is above the others
    constructor
    · intro k row' hk
      rw [hrow.rows, Table.lookup_insert_if] at hk
      split_ifs at hk
      · cases hk
        omega
      · have hlt := h.below k row' hk
        omega
    · intro k k' row₁ row₂ hk hk' heqid
      rw [hrow.rows, Table.lookup_insert_if] at hk hk'
      split_ifs at hk hk' with heq heq' heq'
      · exact heq.trans heq'.symm
      · cases hk
        have hlt := h.below k' row₂ hk'
        omega
      · cases hk'
        have hlt := h.below k row₁ hk
        omega
      · exact h.unique k k' row₁ row₂ hk hk' heqid

theorem lookup_upsert_ne {st st' : PcsStorage} {key k : Key} {job : PendingPcsJob} {now : ℤ}
    (hst : st.upsertPendingPcs env.serde key job now = .ok st') (hne : k ≠ key) :
    st'.rows.lookup k = st.rows.lookup k := by
  obtain ⟨row, hrow⟩ := PcsStorage.upserted hst
  rw [hrow.rows]
  exact AList.lookup_insert_ne hne

/-- An upsert keeps the id of a row that is there. -/
theorem rowId_upsert {st st' : PcsStorage} {key : Key} {job : PendingPcsJob} {now : ℤ}
    (hst : st.upsertPendingPcs env.serde key job now = .ok st') {k : Key} {id : ℕ}
    (hid : rowId st k = some id) : rowId st' k = some id := by
  by_cases heq : k = key
  · obtain ⟨row, hrow⟩ := PcsStorage.upserted hst
    unfold rowId at hid ⊢
    rw [hrow.rows, heq, AList.lookup_insert, Option.map_some]
    rw [heq] at hid
    obtain ⟨old, hold, rfl⟩ := Option.map_eq_some_iff.mp hid
    rcases hrow.id with ⟨old', hold', hrowid, -⟩ | ⟨hnone, -⟩
    · rw [hrowid, Option.some.inj (hold'.symm.trans hold)]
    · rw [hnone] at hold
      cases hold
  · unfold rowId at hid ⊢
    rw [lookup_upsert_ne hst heq]
    exact hid

theorem ids_delete {st : PcsStorage} (h : Ids st) (key : Key) : Ids (st.deletePendingPcs key) := by
  refine h.shrink rfl fun k row hk => ?_
  have hk : (st.rows.erase key).lookup k = some row := hk
  rw [Table.lookup_erase_if] at hk
  split_ifs at hk
  exact ⟨row, hk, rfl⟩

theorem ids_deleteById {st : PcsStorage} (h : Ids st) (id : ℕ) : Ids (st.deletePendingPcsById id) := by
  refine h.shrink rfl fun k row hk => ?_
  have hk : (Table.retain st.rows fun _ row => row.id != id).lookup k = some row := hk
  rw [Table.lookup_retain] at hk
  exact ⟨row, (Option.filter_eq_some_iff.mp hk).1, rfl⟩

theorem ids_increment {st : PcsStorage} (h : Ids st) (id : ℕ) :
    Ids (st.incrementPendingPcsAttempts id) := by
  refine h.shrink rfl fun k row hk => ?_
  unfold PcsStorage.incrementPendingPcsAttempts at hk
  rw [Table.lookup_updateAll] at hk
  obtain ⟨row', hrow', rfl⟩ := Option.map_eq_some_iff.mp hk
  refine ⟨row', hrow', ?_⟩
  split_ifs <;> rfl

theorem rowId_delete {st : PcsStorage} {key k : Key} (hne : k ≠ key) :
    rowId (st.deletePendingPcs key) k = rowId st k := by
  unfold rowId PcsStorage.deletePendingPcs
  rw [Table.lookup_erase_if, if_neg hne]

theorem rowId_deleteById {st : PcsStorage} {id : ℕ} {k : Key} (hne : rowId st k ≠ some id) :
    rowId (st.deletePendingPcsById id) k = rowId st k := by
  unfold rowId at hne
  unfold rowId PcsStorage.deletePendingPcsById
  rw [Table.lookup_retain]
  cases hrow : st.rows.lookup k with
  | none => rfl
  | some row =>
    have hrowid : row.id ≠ id := by simpa [hrow] using hne
    simp [Option.filter, hrowid]

theorem rowId_increment (st : PcsStorage) (id : ℕ) (k : Key) :
    rowId (st.incrementPendingPcsAttempts id) k = rowId st k :=
  Table.map_lookup_updateAll _ fun row => by split_ifs <;> rfl

theorem storeJob_ids {key : Key} {job : PendingPcsJob} {asked : Bool} (h : Ids s.storage)
    (hs : storeJob env s key job asked c = .ok s') : Ids s'.storage :=
  h.upsert (storeJob_ok hs).2.1

/-- The jobs calls deliver, and those about to be marked, are requested; ids are not shared; and what
is in flight is held. -/
structure Sound (env : Env) (s : State) : Prop where
  threads : ∀ t ∈ s.threads, ThreadRequested t
  retry : RetryRequested s.retry
  ids : Ids s.storage
  guards : Guards s

theorem deliver_requested {d d' : Deliver} (hd : d.job.requested = true) (hi : Ids s.storage)
    (h : DeliverMove env s c d s' d') : d'.job.requested = true ∧ Ids s'.storage := by
  cases h with
  | @persisted pcs s₁ pc store =>
    have hids : Ids s₁.storage := storeJob_ids hi store
    exact ⟨hd, hids⟩
  | unpersisted => exact ⟨hd, hi⟩
  | deleted => exact ⟨hd, ids_delete hi _⟩
  | _ => exact ⟨hd, hi⟩

theorem thread_requested {t t' : Thread} (ht : ThreadRequested t) (hi : Ids s.storage)
    (h : ThreadMove env s c t s' t') : ThreadRequested t' ∧ Ids s'.storage := by
  cases h with
  | retained store next =>
    refine ⟨?_, storeJob_ids hi store⟩
    rcases next with rfl | ⟨hreq, rfl⟩
    · trivial
    · exact hreq
  | marked store | replaced store => exact ⟨ht, storeJob_ids hi store⟩
  | found read requested => exact ⟨requested, hi⟩
  | toMark | toOpen => exact ⟨rfl, hi⟩
  | deliver move => exact deliver_requested ht hi move
  | _ => exact ⟨trivial, hi⟩

theorem retry_requested {r r' : RetryPc} (hr : RetryRequested r) (hi : Ids s.storage)
    (h : RetryMove env s c r s' r') : RetryRequested r' ∧ Ids s'.storage := by
  cases h with
  | listed next | next pc next =>
    refine ⟨?_, hi⟩
    rcases next with rfl | rfl <;> trivial
  | taken read requested => exact ⟨requested, hi⟩
  | pruned => exact ⟨trivial, ids_deleteById hi _⟩
  | deliver move => exact deliver_requested hr hi move
  | bumped => exact ⟨trivial, ids_increment hi _⟩
  | _ => exact ⟨trivial, hi⟩

theorem sound_init : Sound env init := by
  refine ⟨by simp [init], trivial, ⟨by simp [init, PcsStorage.new], by simp [init, PcsStorage.new]⟩,
    guards_of_unbegun ⟨rfl, fun p d hp => ?_⟩⟩
  cases p <;> simp [callAt, init, retryCall] at hp

theorem step_sound (hi : Sound env s) (h : step env s a = some s') : Sound env s' := by
  have hg := guards_step hi.guards h
  have happend : ∀ t, ThreadRequested t → ∀ t' ∈ s.threads ++ [t], ThreadRequested t' := by
    intro t ht t' ht'
    rcases List.mem_append.mp ht' with ht' | ht'
    · exact hi.threads t' ht'
    · rw [List.mem_singleton.mp ht']
      exact ht
  cases a with
  | retain key proof =>
    cases h
    exact ⟨happend _ trivial, hi.retry, hi.ids, hg⟩
  | request pubkey request =>
    cases h
    refine ⟨happend _ ?_, hi.retry, hi.ids, hg⟩
    split_ifs <;> trivial
  | announce call =>
    cases h
    exact ⟨hi.threads, hi.retry, hi.ids, hg⟩
  | thread i c =>
    obtain ⟨t, t₁, s₁, hget, ht, rfl⟩ := step_thread h
    have hmove := threadStep_move ht
    obtain ⟨hthreads, hretry⟩ := hmove.frame
    obtain ⟨ht₁, hids⟩ := thread_requested (hi.threads t (List.mem_of_getElem? hget)) hi.ids hmove
    refine ⟨fun t' ht' => ?_, hretry ▸ hi.retry, hids, hg⟩
    simp only [hthreads] at ht'
    rcases List.mem_or_eq_of_mem_set ht' with ht' | rfl
    · exact hi.threads t' ht'
    · exact ht₁
  | retry c =>
    obtain ⟨s₁, hmove, heq, hthreads⟩ := retryStep_move h
    obtain ⟨hretry, hids⟩ := retry_requested hi.retry hi.ids hmove
    rw [heq] at hg ⊢
    exact ⟨fun t ht => hi.threads t (hthreads ▸ ht), hretry, hids, hg⟩
  | crash =>
    cases h
    exact ⟨by simp [init], trivial, hi.ids, hg⟩

/-! ### A request waits for its acknowledgement -/

/-- The entries the retry loop has yet to take. -/
def listed : RetryPc → List PendingPcs
  | .sleep => []
  | .entries _ rest | .deliver _ _ _ rest | .bump _ _ rest => rest

/-- The time the iteration was begun. -/
def begun : RetryPc → ℤ
  | .sleep => 0
  | .entries now _ | .deliver now _ _ _ | .bump now _ _ => now

/-- The row is requested, and no write, delete or prune under way is about to drop the request. -/
structure Waits (env : Env) (s : State) (key : Key) : Prop where
  requested : isRequested env s.storage key = true
  writes : ∀ job, .retainWrite key job ∈ s.threads → job.requested = true
  deletes : ∀ p d, callAt s p = some d → d.key = key → ∀ refused, d.pc ≠ .delete refused
  prunes : ∀ entry ∈ listed s.retry, rowId s.storage key = some entry.id →
    prunes env (begun s.retry) entry = false

/-- The message is a bundle of the sub-task, or a refusal. -/
def Answers (env : Env) (key : Key) (m : PcsMessage) : Prop :=
  (∃ bundle, m = bundleMessage env key.2 bundle) ∨ ∃ reason, m = refusalMessage env key.2 reason

/-- The request is acknowledged in the step. -/
def AckedIn (env : Env) (s s' : State) (key : Key) : Prop :=
  ∃ m, Answers env key m ∧ s'.log = .acked key m :: s.log

/-- The row stays requested, with its id. -/
structure RowKept (env : Env) (s s' : State) (key : Key) : Prop where
  requested : isRequested env s'.storage key = true
  id : rowId s'.storage key = rowId s.storage key

variable {key : Key}

theorem RowKept.of_eq (hreq : isRequested env s.storage key = true)
    (hjob : jobAt env s'.storage key = jobAt env s.storage key)
    (hid : rowId s'.storage key = rowId s.storage key) : RowKept env s s' key := by
  refine ⟨?_, hid⟩
  unfold isRequested
  rw [hjob]
  exact hreq

theorem RowKept.same (hreq : isRequested env s.storage key = true) (h : s'.storage = s.storage) :
    RowKept env s s' key :=
  .of_eq hreq (by rw [h]) (by rw [h])

/-- A delete by the id of another row. -/
theorem RowKept.deletedById (hreq : isRequested env s.storage key = true) {id : ℕ}
    (hne : rowId s.storage key ≠ some id) (h : s'.storage = s.storage.deletePendingPcsById id) :
    RowKept env s s' key := by
  have hout : (s.storage.rows.lookup key).any (·.id = id) = false := by
    unfold rowId at hne
    cases hrow : s.storage.rows.lookup key with
    | none => rfl
    | some row => simpa [hrow] using hne
  refine .of_eq hreq ?_ ?_
  · rw [h, jobAt_deleteById, hout, if_neg Bool.false_ne_true]
  · rw [h, rowId_deleteById hne]

theorem rowId_of_requested {st : PcsStorage} (h : isRequested env st key = true) :
    ∃ id, rowId st key = some id := by
  unfold isRequested jobAt at h
  cases hrow : st.rows.lookup key with
  | none => simp [hrow] at h
  | some row => exact ⟨row.id, by simp [rowId, hrow]⟩

/-- An upsert of a requested job, or of another row's job. -/
theorem storeJob_keepsRow (hserde : env.serde.RoundTrips) (hreq : isRequested env s.storage key = true)
    {k : Key} {job : PendingPcsJob} {asked : Bool} (hjob : k = key → job.requested = true)
    (h : storeJob env s k job asked c = .ok s') : RowKept env s s' key := by
  have hst := (storeJob_ok h).2.1
  constructor
  · unfold isRequested
    rw [jobAt_upsert hserde hst]
    split_ifs with heq
    · simpa using hjob heq.symm
    · exact hreq
  · obtain ⟨id, hid⟩ := rowId_of_requested hreq
    rw [hid]
    exact rowId_upsert hst hid

/-- A step of a delivering call acknowledges the request, or keeps its row. -/
theorem deliver_keepsRow (hserde : env.serde.RoundTrips) (hreq : isRequested env s.storage key = true)
    {d d' : Deliver} (hd : d.job.requested = true)
    (hdel : d.key = key → ∀ refused, d.pc ≠ .delete refused) (h : DeliverMove env s c d s' d') :
    AckedIn env s s' key ∨
      RowKept env s s' key ∧ (d'.key = key → ∀ refused, d'.pc ≠ .delete refused) := by
  cases h with
  | @acked bundle pc =>
    by_cases heq : d.key = key
    · left
      rw [← heq]
      exact ⟨_, .inl ⟨bundle, rfl⟩, rfl⟩
    · right
      exact ⟨.same hreq rfl, fun h => absurd h heq⟩
  | @refused err pc =>
    by_cases heq : d.key = key
    · left
      rw [← heq]
      exact ⟨_, .inr ⟨pcsRefuseReason err, rfl⟩, rfl⟩
    · right
      exact ⟨.same hreq rfl, fun h => absurd h heq⟩
  | @persisted pcs s₁ pc store =>
    have hbundle : (withBundle d.job pcs).requested = true := hd
    have hkept := storeJob_keepsRow hserde hreq (fun _ => hbundle) store
    right
    exact ⟨⟨hkept.requested, hkept.id⟩, fun _ refused => by simp⟩
  | deleted pc sql next =>
    have hne : d.key ≠ key := fun heq => hdel heq _ pc
    right
    refine ⟨.of_eq hreq ?_ (rowId_delete (Ne.symm hne)), fun h => absurd h hne⟩
    rw [jobAt_delete, if_neg (Ne.symm hne)]
  | failed pc next =>
    right
    refine ⟨.same hreq rfl, fun _ refused => ?_⟩
    rcases next with ⟨result, rfl⟩ | ⟨err, rfl⟩ <;> simp
  | _ =>
    right
    exact ⟨.same hreq rfl, fun _ refused => by simp⟩

/-- `retain_after_result` keeps the request of a row it reads. -/
theorem retainedJob_requested {proof : Proof} (h : isRequested env s.storage key = true) :
    (retainedJob key proof (jobAt env s.storage key)).requested = true := by
  unfold isRequested at h
  obtain ⟨job, hjob, hreq⟩ := (Option.any_eq_true _ _).mp h
  rw [hjob]
  unfold retainedJob
  dsimp only
  split_ifs <;> exact hreq

/-- **A thread's step** acknowledges a request that waits, or leaves it waiting. -/
theorem thread_waits (hserde : env.serde.RoundTrips) (hi : Sound env s) (hw : Waits env s key)
    {i : ℕ} {t t' : Thread} (hget : s.threads[i]? = some t) (hsql : c.sql = none)
    (h : threadStep env s c t = some (s₁, t')) :
    AckedIn env s s₁ key ∨
      Waits env { s₁ with threads := s₁.threads.set i t' } key := by
  have hmem := List.mem_of_getElem? hget
  have hmove := threadStep_move h
  obtain ⟨hthreads, hretry⟩ := hmove.frame
  have hcalls := callAt_set hget hthreads hretry t'
  -- what is left to show when the row is kept and the thread's next step is known
  have hrest : RowKept env s s₁ key → (∀ job, t' = .retainWrite key job → job.requested = true) →
      (∀ d, threadCall t' = some d → d.key = key → ∀ refused, d.pc ≠ .delete refused) →
      Waits env { s₁ with threads := s₁.threads.set i t' } key := by
    intro hkept hwrite hdelete
    refine ⟨hkept.requested, fun job hjob => ?_, fun p d hp => ?_, fun entry hentry hid => ?_⟩
    · rw [hthreads] at hjob
      rcases List.mem_or_eq_of_mem_set hjob with hjob | heq
      · exact hw.writes job hjob
      · exact hwrite job heq.symm
    · rw [hcalls, Function.update_apply] at hp
      split_ifs at hp
      · exact hdelete d hp
      · exact hw.deletes p d hp
    · have hid : rowId s₁.storage key = some entry.id := hid
      have hentry : entry ∈ listed s₁.retry := hentry
      show prunes env (begun s₁.retry) entry = false
      rw [hretry] at hentry ⊢
      rw [hkept.id] at hid
      exact hw.prunes entry hentry hid
  have hsame : s₁ = s → RowKept env s s₁ key := fun h => .same hw.requested (by rw [h])
  by_cases hread : ∃ k proof, t = .retainRead k proof
  · obtain ⟨k, proof, rfl⟩ := hread
    simp only [threadStep, hsql, Option.elim_none] at h
    cases h
    refine .inr (hrest (hsame rfl) (fun job hjob => ?_) fun d hd => by cases hd)
    cases hjob
    exact retainedJob_requested hw.requested
  cases hmove with
  | read => exact absurd ⟨_, _, rfl⟩ hread
  | retained store next =>
    right
    refine hrest (storeJob_keepsRow hserde hw.requested (fun hk => ?_) store) (fun job hjob => ?_)
      fun d hd => ?_
    · exact hw.writes _ (hk ▸ hmem)
    · rcases next with rfl | ⟨-, rfl⟩ <;> cases hjob
    · rcases next with rfl | ⟨-, rfl⟩ <;> cases hd
      simp
  | marked store | replaced store =>
    right
    have hjob := hi.threads _ hmem
    refine hrest (storeJob_keepsRow hserde hw.requested (fun _ => hjob) store)
      (fun job hjob => by cases hjob) fun d hd => ?_
    cases hd
    simp
  | @deliver d d' _ move =>
    have hcall : callAt s (some i) = some d := by simp [callAt, hget, threadCall]
    rcases deliver_keepsRow hserde hw.requested (hi.threads _ hmem) (hw.deletes _ d hcall) move with
      hacked | ⟨hkept, hdel⟩
    · exact .inl hacked
    · refine .inr (hrest hkept (fun job hjob => by cases hjob) fun e he => ?_)
      cases he
      exact hdel
  | found =>
    right
    refine hrest (hsame rfl) (fun job hjob => by cases hjob) fun d hd => ?_
    cases hd
    simp
  | _ =>
    right
    exact hrest (hsame rfl) (fun job hjob => by cases hjob) fun d hd => by cases hd

/-- A listed row that is requested is not pruned. -/
theorem prunes_listed {now : ℤ} {entry : PendingPcs} (hreq : isRequested env s.storage key = true)
    (hi : Ids s.storage) (hentry : entry ∈ s.storage.listPendingPcs)
    (hid : rowId s.storage key = some entry.id) : prunes env now entry = false := by
  obtain ⟨row, hrow, hrowid, hjson⟩ := mem_listPendingPcs hentry
  unfold rowId at hid
  obtain ⟨row', hrow', hid'⟩ := Option.map_eq_some_iff.mp hid
  obtain rfl : key = entry.key := hi.unique _ _ row' row hrow' hrow (by omega)
  obtain rfl : row' = row := Option.some.inj (hrow'.symm.trans hrow)
  unfold isRequested jobAt at hreq
  rw [hrow', Option.bind_some, hjson] at hreq
  unfold prunes
  cases hread : env.serde.fromSlice entry.jobJson with
  | error e => rfl
  | ok job =>
    have hjob : job.requested = true := by simpa [hread, Except.toOption] using hreq
    simp [hjob]

/-- **The retry loop's step** does as well. -/
theorem retry_waits (hserde : env.serde.RoundTrips) (hi : Sound env s) (hw : Waits env s key)
    (h : retryStep env s c = some s') :
    AckedIn env s s' key ∨ Waits env s' key := by
  obtain ⟨s₁, hmove, heq, hthreads⟩ := retryStep_move h
  have hcalls := callAt_retry hthreads s'.retry
  -- what is left to show when the row is kept and the loop's next place is known
  have hrest : RowKept env s s₁ key →
      (∀ d, retryCall s'.retry = some d → d.key = key → ∀ refused, d.pc ≠ .delete refused) →
      (∀ entry ∈ listed s'.retry, rowId s.storage key = some entry.id →
        prunes env (begun s'.retry) entry = false) → Waits env s' key := by
    intro hkept hdelete hprune
    rw [heq]
    refine ⟨hkept.requested, fun job hjob => ?_, fun p d hp => ?_, fun entry hentry hid => ?_⟩
    · exact hw.writes job (hthreads ▸ hjob)
    · rw [hcalls, Function.update_apply] at hp
      split_ifs at hp
      · exact hdelete d hp
      · exact hw.deletes p d hp
    · have hid : rowId s₁.storage key = some entry.id := hid
      rw [hkept.id] at hid
      exact hprune entry hentry hid
  have hsame : s₁ = s → RowKept env s s₁ key := fun h => .same hw.requested (by rw [h])
  have hcall : ∀ d, retryCall s.retry = some d → d.key = key → ∀ refused, d.pc ≠ .delete refused :=
    fun d hd => hw.deletes none d hd
  have hprunes := hw.prunes
  have hrequested := hi.retry
  have hlog : s'.log = s₁.log := by rw [heq]
  unfold AckedIn
  rw [hlog]
  clear hlog hcalls heq h
  generalize s.retry = r at hmove hcall hprunes hrequested
  generalize s'.retry = r' at hmove hrest
  cases hmove with
  | listed next =>
    right
    rcases next with rfl | rfl
    · exact hrest (hsame rfl) (fun d hd => by cases hd) (by simp [listed])
    · refine hrest (hsame rfl) (fun d hd => by cases hd) fun entry hentry hid => ?_
      exact prunes_listed hw.requested hi.ids hentry hid
  | through => exact .inr (hrest (hsame rfl) (fun d hd => by cases hd) (by simp [listed]))
  | passed =>
    right
    exact hrest (hsame rfl) (fun d hd => by cases hd) fun entry hentry =>
      hprunes entry (List.mem_cons_of_mem _ hentry)
  | taken =>
    right
    refine hrest (hsame rfl) (fun d hd => ?_) fun entry hentry =>
      hprunes entry (List.mem_cons_of_mem _ hentry)
    cases hd
    simp
  | @pruned now entry rest job sql read requested due =>
    right
    -- the row has another id than the entry that is pruned
    have hne : rowId s.storage key ≠ some entry.id := by
      intro hid
      have hno := hprunes entry (List.mem_cons_self ..) hid
      simp only [begun, prunes, read, requested, due, Bool.not_false, decide_true, Bool.and_true] at hno
      cases hno
    exact hrest (.deletedById hw.requested hne rfl) (fun d hd => by cases hd) fun entry hentry =>
      hprunes entry (List.mem_cons_of_mem _ hentry)
  | @deliver now entry rest d d' _ move =>
    rcases deliver_keepsRow hserde hw.requested hrequested (hcall d rfl) move with
      hacked | ⟨hkept, hdel⟩
    · exact .inl hacked
    · refine .inr (hrest hkept (fun e he => ?_) hprunes)
      cases he
      exact hdel
  | next pc next =>
    right
    rcases next with rfl | rfl
    · exact hrest (hsame rfl) (fun d hd => by cases hd) hprunes
    · exact hrest (hsame rfl) (fun d hd => by cases hd) hprunes
  | @bumped now entry rest =>
    right
    exact hrest (.of_eq hw.requested (jobAt_increment ..) (rowId_increment ..))
      (fun d hd => by cases hd) hprunes
  | unbumped => exact .inr (hrest (hsame rfl) (fun d hd => by cases hd) hprunes)

/-- The request was acknowledged after `s₀`. -/
def AckedSince (env : Env) (s₀ s : State) (key : Key) : Prop :=
  ∃ es m, s.log = es ++ s₀.log ∧ Answers env key m ∧ .acked key m ∈ es

/-- It was, or it waits. -/
structure Owed (env : Env) (s₀ s : State) (key : Key) : Prop where
  log : s₀.log <:+ s.log
  acked : AckedSince env s₀ s key ∨ Waits env s key

theorem step_owed (hserde : env.serde.RoundTrips) {s₀ : State} (hsql : ∀ job, (answer job).sql = none)
    (hi : Sound env s) (ho : Owed env s₀ s key) (ha : Given answer s a) (h : step env s a = some s') :
    Owed env s₀ s' key := by
  have hsuffix := step_log h
  refine ⟨ho.log.trans hsuffix, ?_⟩
  rcases ho.acked with ⟨es, m, hlog, hanswers, hm⟩ | hw
  · obtain ⟨new, hnew⟩ := hsuffix
    left
    refine ⟨new ++ es, m, ?_, hanswers, List.mem_append_right _ hm⟩
    rw [← hnew, hlog, List.append_assoc]
  have hstep : AckedIn env s s' key ∨ Waits env s' key := by
    cases a with
    | thread i c =>
      obtain ⟨t, -, rfl⟩ := ha
      obtain ⟨t, t₁, s₁, hget, ht, rfl⟩ := step_thread h
      exact thread_waits hserde hi hw hget (hsql _) ht
    | retry c => exact retry_waits hserde hi hw h
    | retain | request | announce | crash => cases ha
  rcases hstep with ⟨m, hanswers, hm⟩ | hw'
  · obtain ⟨es, hes⟩ := ho.log
    left
    refine ⟨.acked key m :: es, m, ?_, hanswers, List.mem_cons_self ..⟩
    rw [hm, ← hes, List.cons_append]
  · exact .inr hw'

/-! ### The jobs stay those of the open calls there were -/

theorem deliver_announced {d d' : Deliver} {call : PcsOpenCall} (h : DeliverMove env s c d s' d')
    (hcall : .announced call ∈ s'.log) : .announced call ∈ s.log := by
  cases h with
  | persisted pc store =>
    obtain ⟨-, -, -, -, -, -, hlog⟩ := storeJob_ok store
    rcases hlog with hlog | hlog <;> simpa [record, hlog] using hcall
  | asked | fetched | built | proved | acked | refused => simpa [record] using hcall
  | _ => exact hcall

theorem thread_announced {t t' : Thread} {call : PcsOpenCall} (h : ThreadMove env s c t s' t')
    (hcall : .announced call ∈ s'.log) : .announced call ∈ s.log := by
  cases h with
  | retained store | marked store | replaced store =>
    obtain ⟨-, -, -, -, -, -, hlog⟩ := storeJob_ok store
    rcases hlog with hlog | hlog <;> simpa [hlog] using hcall
  | deliver move => exact deliver_announced move hcall
  | _ => exact hcall

theorem retry_announced {r r' : RetryPc} {call : PcsOpenCall} (h : RetryMove env s c r s' r')
    (hcall : .announced call ∈ s'.log) : .announced call ∈ s.log := by
  cases h with
  | deliver move => exact deliver_announced move hcall
  | _ => exact hcall

theorem step_announced {call : PcsOpenCall} (ha : Given answer s a) (h : step env s a = some s')
    (hcall : .announced call ∈ s'.log) : .announced call ∈ s.log := by
  cases a with
  | thread i c =>
    obtain ⟨t, t', s₁, -, ht, rfl⟩ := step_thread h
    exact thread_announced (threadStep_move ht) hcall
  | retry c =>
    obtain ⟨s₁, hmove, heq, -⟩ := retryStep_move h
    rw [heq] at hcall
    exact retry_announced hmove hcall
  | retain | request | announce | crash => cases ha

/-! ### The threads come to an end -/

def deliverRank : DeliverPc → ℕ
  | .claim => 12
  | .choose => 11
  | .fetch _ => 10
  | .proveBytes .. | .prove => 9
  | .persist _ => 8
  | .send _ | .refuse _ => 7
  | .delete _ => 6
  | .clear _ => 5
  | .release _ => 4
  | .done _ => 0

/-- The steps to go; a lookup is tried again ten times at most. -/
def threadRank : Thread → ℕ
  | .retainRead .. | .openLookup .. => 14
  | .retainWrite .. | .mark .. | .openStore .. => 13
  | .lookup _ attempt => 14 + (retainedProofLookupAttempts - attempt)
  | .deliver d => deliverRank d.pc
  | .finished => 0

def retryRank : RetryPc → ℕ
  | .sleep => 0
  | .entries _ rest => 16 * rest.length + 1
  | .deliver _ _ d rest => 16 * rest.length + 3 + deliverRank d.pc
  | .bump _ _ rest => 16 * rest.length + 2

theorem deliver_rank {d d' : Deliver} (h : DeliverMove env s c d s' d') :
    deliverRank d'.pc < deliverRank d.pc := by
  cases h with
  | failed pc next =>
    rcases next with ⟨result, rfl⟩ | ⟨err, rfl⟩
    all_goals rcases pc with ⟨source, pc⟩ | ⟨source, data, pc⟩ | pc <;> simp [deliverRank, pc]
  | unsent pc => rcases pc with ⟨bundle, pc⟩ | ⟨err, pc⟩ <;> simp [deliverRank, pc]
  | deleted pc sql next => rcases next with rfl | rfl <;> simp [deliverRank, pc]
  | busy pc | claimed pc | cached pc | backoff pc | toStore pc | asked pc | fetched pc | built pc
  | proved pc | unpersisted pc | persisted pc | acked pc | refused pc | undeleted pc | cleared pc
  | released pc => simp [deliverRank, pc]

theorem thread_rank {t t' : Thread} (h : threadStep env s c t = some (s', t')) :
    threadRank t' < threadRank t := by
  have hmove := threadStep_move h
  by_cases hlookup : ∃ k attempt, t = .lookup k attempt
  · obtain ⟨k, attempt, rfl⟩ := hlookup
    simp only [threadStep] at h
    split at h
    · cases h
      simp [threadRank]
    · split at h
      · cases h
        simp [threadRank]
      · split_ifs at h <;> cases h
        · show 12 < 14 + (retainedProofLookupAttempts - attempt)
          omega
        · show 13 < 14 + (retainedProofLookupAttempts - attempt)
          omega
    · split_ifs at h with hmore <;> cases h
      · show 14 + (retainedProofLookupAttempts - (attempt + 1)) <
          14 + (retainedProofLookupAttempts - attempt)
        omega
      · simp [threadRank]
  cases hmove with
  | read | toOpen => simp [threadRank]
  | retained store next => rcases next with rfl | ⟨-, rfl⟩ <;> simp [threadRank, deliverRank]
  | marked | replaced => simp [threadRank, deliverRank]
  | unstored at' => rcases at' with rfl | rfl | rfl <;> simp [threadRank]
  | absent at' =>
    rcases at' with ⟨k, attempt, rfl⟩ | ⟨pubkey, request, rfl⟩
    · exact absurd ⟨k, attempt, rfl⟩ hlookup
    · simp [threadRank]
  | again | found | toMark => exact absurd ⟨_, _, rfl⟩ hlookup
  | deliver move => exact deliver_rank move

theorem retry_rank (h : retryStep env s c = some s') (hawake : s.retry ≠ .sleep) :
    retryRank s'.retry < retryRank s.retry := by
  obtain ⟨s₁, hmove, -, -⟩ := retryStep_move h
  generalize s.retry = r at hmove hawake
  generalize s'.retry = r' at hmove
  cases hmove with
  | listed => exact absurd rfl hawake
  | through => simp [retryRank]
  | passed | pruned =>
    simp only [retryRank, List.length_cons]
    omega
  | taken =>
    simp only [retryRank, List.length_cons, deliverRank]
    omega
  | deliver move =>
    have hrank := deliver_rank move
    simp only [retryRank]
    omega
  | next pc next => rcases next with rfl | rfl <;> simp only [retryRank, pc] <;> omega
  | bumped | unbumped =>
    simp only [retryRank]
    omega

theorem deliver_enabled (env : Env) (s : State) (c : Choice) {d : Deliver}
    (h : ∀ result, d.pc ≠ .done result) : ∃ r, deliverStep env s d c = some r := by
  cases hpc : d.pc with
  | done result => exact absurd hpc (h result)
  | choose =>
    simp only [deliverStep, hpc]
    split
    · exact ⟨_, rfl⟩
    · split
      · exact ⟨_, rfl⟩
      · split <;> exact ⟨_, rfl⟩
  | claim | fetch | proveBytes | prove | persist | send | refuse | delete =>
    simp only [deliverStep, hpc]
    split <;> exact ⟨_, rfl⟩
  | clear | release =>
    simp only [deliverStep, hpc]
    exact ⟨_, rfl⟩

theorem thread_enabled (env : Env) (s : State) (c : Choice) {t : Thread} (h : ¬ Idle t) :
    ∃ r, threadStep env s c t = some r := by
  cases t with
  | finished => exact absurd trivial h
  | deliver d =>
    obtain ⟨r, hr⟩ := deliver_enabled env s c fun result hpc => h ⟨result, hpc⟩
    exact ⟨(r.1, .deliver r.2), by simp [threadStep, hr]⟩
  | retainRead => exact ⟨_, rfl⟩
  | retainWrite | mark | openStore =>
    simp only [threadStep]
    split <;> exact ⟨_, rfl⟩
  | lookup =>
    simp only [threadStep]
    split
    · exact ⟨_, rfl⟩
    · split
      · exact ⟨_, rfl⟩
      · split <;> exact ⟨_, rfl⟩
    · split <;> exact ⟨_, rfl⟩
  | openLookup =>
    simp only [threadStep]
    split
    · exact ⟨_, rfl⟩
    · split <;> exact ⟨_, rfl⟩

theorem retry_enabled (env : Env) (s : State) (c : Choice) : ∃ s', retryStep env s c = some s' := by
  cases hpc : s.retry with
  | sleep => exact ⟨_, by simp only [retryStep, hpc]; rfl⟩
  | entries now rest =>
    cases rest with
    | nil => exact ⟨_, by simp only [retryStep, hpc]; rfl⟩
    | cons entry rest =>
      simp only [retryStep, hpc]
      split
      · exact ⟨_, rfl⟩
      · split
        · exact ⟨_, rfl⟩
        · split <;> exact ⟨_, rfl⟩
  | deliver now entry d rest =>
    simp only [retryStep, hpc]
    split
    · exact ⟨_, rfl⟩
    · exact ⟨_, rfl⟩
    · next herror hok =>
      obtain ⟨r, hr⟩ := deliver_enabled env s c (d := d) fun result hdone => by
        cases result with
        | error e => exact herror e hdone
        | ok outcome => exact hok outcome hdone
      exact ⟨_, by rw [hr]; rfl⟩
  | bump now entry rest => exact ⟨_, by simp only [retryStep, hpc]; rfl⟩

/-- The steps to go. -/
def toGo (s : State) : ℕ := (s.threads.map threadRank).sum + retryRank s.retry

/-- What a run from `s₀` with such answers keeps. -/
structure Going (env : Env) (s₀ s : State) : Prop where
  sound : Sound env s
  sourced : AllSourced env s
  announced : ∀ call, .announced call ∈ s.log → .announced call ∈ s₀.log
  owed : ∀ key, Waits env s₀ key → Owed env s₀ s key

variable {s₀ : State}

theorem Going.self (hi : Sound env s) (hsourced : AllSourced env s) : Going env s s :=
  ⟨hi, hsourced, fun _ h => h, fun _ hw => ⟨List.suffix_refl _, .inr hw⟩⟩

theorem Going.step (hserde : env.serde.RoundTrips) (hsql : ∀ job, (answer job).sql = none)
    (hg : Going env s₀ s) (ha : Given answer s a) (h : step env s a = some s') : Going env s₀ s' where
  sound := step_sound hg.sound h
  sourced := step_sourced hserde hg.sourced h
  announced := fun call hcall => hg.announced call (step_announced ha h hcall)
  owed := fun key hkey => step_owed hserde hsql hg.sound (hg.owed key hkey) ha h

/-- The job the loop delivers is one of an open call there was. -/
theorem Going.named (hg : Going env s₀ s) : Named s₀.log (retryJob s.retry) := by
  have hsourced := hg.sourced.retry
  cases hpc : s.retry with
  | deliver now entry d rest =>
    rw [hpc] at hsourced
    intro source hsource
    obtain ⟨call, hcall, -, hhash⟩ := (hsourced.1.job.nominated source hsource).call
    refine List.mem_filterMap.mpr ⟨_, hg.announced call hcall, ?_⟩
    rw [← hhash]
    rfl
  | sleep | entries | bump =>
    intro source hsource
    cases hsource

theorem thread_toGo {i : ℕ} (h : PcsMachine.step env s (.thread i c) = some s') : toGo s' < toGo s := by
  obtain ⟨t, t', s₁, hget, ht, rfl⟩ := step_thread h
  have hrank := thread_rank ht
  obtain ⟨hthreads, hretry⟩ := (threadStep_move ht).frame
  have hsum := sum_map_set threadRank hget t'
  unfold toGo
  dsimp only
  rw [hthreads, hretry]
  omega

theorem retry_toGo (h : retryStep env s c = some s') (hawake : s.retry ≠ .sleep) :
    toGo s' < toGo s := by
  have hrank := retry_rank h hawake
  obtain ⟨s₁, -, heq, hthreads⟩ := retryStep_move h
  have hsame : s'.threads = s.threads := by rw [heq, ← hthreads]
  unfold toGo
  rw [hsame]
  omega

theorem step_of_thread {i : ℕ} {t t' : Thread} (hget : s.threads[i]? = some t)
    (h : threadStep env s c t = some (s₁, t')) :
    step env s (.thread i c) = some { s₁ with threads := s₁.threads.set i t' } := by
  simp only [PcsMachine.step, hget, h, Option.bind_eq_bind, Option.bind_some]

/-- **All threads come to an end**, and so does the iteration of the retry loop. -/
theorem exists_quiet (hserde : env.serde.RoundTrips) (hsql : ∀ job, (answer job).sql = none)
    (hg : Going env s₀ s) : ∃ as t, StepsMeet (step env) (Given answer) s as ∧
      run (step env) s as = some t ∧ Going env s₀ t ∧ Quiet t := by
  refine exists_meeting_run toGo (fun s hg hnot => ?_) hg
  by_cases hthreads : ∀ t ∈ s.threads, Idle t
  · have hawake : s.retry ≠ .sleep := fun h => hnot ⟨hthreads, h⟩
    have hgiven : Given answer s (.retry (answer (retryJob s.retry))) := rfl
    obtain ⟨s', hs'⟩ := retry_enabled env s (answer (retryJob s.retry))
    exact ⟨_, s', hgiven, hs', hg.step hserde hsql hgiven hs', retry_toGo hs' hawake⟩
  · obtain ⟨t, hmem, hbusy⟩ : ∃ t ∈ s.threads, ¬ Idle t := by simpa using hthreads
    obtain ⟨i, hi⟩ := List.mem_iff_getElem?.mp hmem
    have hgiven : Given answer s (.thread i (answer (threadJob t))) := ⟨t, hi, rfl⟩
    obtain ⟨⟨s₁, t'⟩, ht⟩ := thread_enabled env s (answer (threadJob t)) hbusy
    have hstep := step_of_thread hi ht
    exact ⟨_, _, hgiven, hstep, hg.step hserde hsql hgiven hstep, thread_toGo hstep⟩

/-! ### The retry loop delivers what is left -/

/-- The rows of the entries are as they were when they were listed. -/
structure Fresh (st : PcsStorage) (rest : List PendingPcs) : Prop where
  rows : ∀ entry ∈ rest, ∃ row, st.rows.lookup entry.key = some row ∧ row.id = entry.id ∧
    row.jobJson = entry.jobJson
  keys : (rest.map (·.key)).Nodup

/-- Each requested row is listed, but for the one under `key`. -/
def Covered (env : Env) (st : PcsStorage) (key : Option Key) (rest : List PendingPcs) : Prop :=
  ∀ k, isRequested env st k = true → key = some k ∨ k ∈ rest.map (·.key)

/-- A call at this place will not fail. -/
def GoesThrough (job : PendingPcsJob) : DeliverPc → Prop
  | .fetch source | .proveBytes source _ => job.openCall = some source
  | .prove => job.openCall = none
  | .release result | .done result => ∃ outcome, result = .ok outcome
  | _ => True

/-- The row the call has yet to delete. -/
def toDelete (d : Deliver) : Option Key :=
  match d.pc with
  | .clear _ | .release _ | .done _ => none
  | _ => some d.key

/-- The loop delivers `d`, and then what is in `rest`. -/
structure Sweeping (env : Env) (st : PcsStorage) (d : Deliver) (rest : List PendingPcs) : Prop where
  pc : GoesThrough d.job d.pc
  key : d.key ∉ rest.map (·.key)
  fresh : Fresh st rest
  covered : Covered env st (toDelete d) rest

def SweepAt (env : Env) (st : PcsStorage) : RetryPc → Prop
  | .sleep => Covered env st none []
  | .entries _ rest => Fresh st rest ∧ Covered env st none rest
  | .deliver _ _ d rest => Sweeping env st d rest
  | .bump .. => False

variable {st st' : PcsStorage} {rest : List PendingPcs} {entry : PendingPcs}

theorem Fresh.frame (h : Fresh st rest)
    (hrows : ∀ k ∈ rest.map (·.key), st'.rows.lookup k = st.rows.lookup k) : Fresh st' rest := by
  refine ⟨fun entry hentry => ?_, h.keys⟩
  rw [hrows _ (List.mem_map_of_mem hentry)]
  exact h.rows entry hentry

theorem Fresh.tail (h : Fresh st (entry :: rest)) : entry.key ∉ rest.map (·.key) ∧ Fresh st rest := by
  have hkeys := List.nodup_cons.mp h.keys
  exact ⟨hkeys.1, fun e he => h.rows e (List.mem_cons_of_mem _ he), hkeys.2⟩

/-- The row of an entry holds the entry's job. -/
theorem Fresh.jobAt_head (h : Fresh st (entry :: rest)) :
    jobAt env st entry.key = (env.serde.fromSlice entry.jobJson).toOption := by
  obtain ⟨row, hrow, -, hjson⟩ := h.rows entry (List.mem_cons_self ..)
  rw [jobAt, hrow, Option.bind_some, hjson]

/-- What is listed is what there is. -/
theorem fresh_listed (st : PcsStorage) : Fresh st st.listPendingPcs := by
  constructor
  · intro entry hentry
    exact mem_listPendingPcs hentry
  · have hperm := List.perm_insertionSort (fun a b : Σ _ : Key, PcsRow =>
      a.2.createdAt < b.2.createdAt ∨ a.2.createdAt = b.2.createdAt ∧ a.2.id ≤ b.2.id) st.rows.entries
    unfold PcsStorage.listPendingPcs
    rw [List.map_map]
    exact ((hperm.map Sigma.fst).nodup_iff).mpr st.rows.nodupKeys

theorem covered_listed (env : Env) (st : PcsStorage) : Covered env st none st.listPendingPcs := by
  intro k hreq
  right
  unfold isRequested jobAt at hreq
  cases hrow : st.rows.lookup k with
  | none => simp [hrow] at hreq
  | some row =>
    simp only [PcsStorage.listPendingPcs, List.map_map, List.mem_map, List.mem_insertionSort]
    exact ⟨⟨k, row⟩, Table.mem_entries.mpr hrow, rfl⟩

/-- An entry that is not requested can be passed over. -/
theorem Covered.pass (h : Covered env st none (entry :: rest))
    (hreq : isRequested env st entry.key = false) : Covered env st none rest := by
  intro k hk
  rcases h k hk with hk' | hk'
  · cases hk'
  · rcases List.mem_cons.mp hk' with rfl | hk'
    · rw [hreq] at hk
      cases hk
    · exact .inr hk'

/-- An entry that is taken is the call's. -/
theorem Covered.take (h : Covered env st none (entry :: rest)) :
    Covered env st (some entry.key) rest := by
  intro k hk
  rcases h k hk with hk' | hk'
  · cases hk'
  · rcases List.mem_cons.mp hk' with rfl | hk'
    · exact .inl rfl
    · exact .inr hk'

/-- A step that leaves the table and the job alone. -/
theorem Sweeping.goTo {d : Deliver} (h : Sweeping env st d rest) {pc : DeliverPc}
    (hpc : GoesThrough d.job pc) (hkeep : toDelete { d with pc := pc } = toDelete d) :
    Sweeping env st { d with pc := pc } rest :=
  ⟨hpc, h.key, h.fresh, hkeep ▸ h.covered⟩

theorem isRequested_congr {k : Key} (h : st'.rows.lookup k = st.rows.lookup k) :
    isRequested env st' k = isRequested env st k := by
  rw [isRequested, isRequested, jobAt, jobAt, h]

theorem toDelete_eq {d : Deliver} {k : Key} (h : toDelete d = some k) : k = d.key := by
  unfold toDelete at h
  split at h
  · cases h
  · cases h
  · cases h
  · exact (Option.some.inj h).symm

/-- A statement of the call changes its own row only. -/
theorem Sweeping.ownRow {d d' : Deliver} (h : Sweeping env st d rest) (hkey : d'.key = d.key)
    (hpc : GoesThrough d'.job d'.pc)
    (hrows : ∀ k, k ≠ d.key → st'.rows.lookup k = st.rows.lookup k)
    (hown : isRequested env st' d.key = true → toDelete d' = some d.key) :
    Sweeping env st' d' rest := by
  refine ⟨hpc, hkey ▸ h.key, h.fresh.frame fun k hk => hrows k ?_, fun k hreq => ?_⟩
  · rintro rfl
    exact h.key hk
  · by_cases hk : k = d.key
    · subst hk
      exact .inl (hown hreq)
    · rw [isRequested_congr (hrows k hk)] at hreq
      rcases h.covered k hreq with hdelete | hlisted
      · exact absurd (toDelete_eq hdelete) hk
      · exact .inr hlisted

/-- The call's upsert goes through. -/
theorem storeJob_conclusive (henc : Encodes env) (hsql : c.sql = none) (s : State) (key : Key)
    (job : PendingPcsJob) (asked : Bool) : ∃ s', storeJob env s key job asked c = .ok s' := by
  obtain ⟨bytes, hbytes⟩ := henc.job job
  obtain ⟨st, hst⟩ := PcsStorage.exists_upsert hbytes s.storage key c.now
  unfold storeJob
  rw [hsql, Option.elim_none, hst]
  exact ⟨_, rfl⟩

theorem sendMessage_conclusive (henc : Encodes env) (hsend : c.send = none) (m : PcsMessage) :
    sendMessage env m c = .ok () := by
  obtain ⟨bytes, hbytes⟩ := henc.message m
  simp [sendMessage, hbytes, hsend]

/-- What a call asks for is answered, or refused for good. -/
theorem deliver_sweep (henc : Encodes env) {d d' : Deliver} (hsql : c.sql = none)
    (hc : Conclusive env d.job c) (hfree : d.pc = .claim → s.inFlight = ∅)
    (hd : Sweeping env s.storage d rest) (h : deliverStep env s d c = some (s', d')) :
    Sweeping env s'.storage d' rest := by
  have hat := hd.pc
  cases hpc : d.pc with
  | claim =>
    have hout : d.key.2 ∉ s.inFlight := by simp [hfree hpc]
    simp only [deliverStep, hpc, if_neg hout] at h
    cases h
    exact hd.goTo trivial (by simp [toDelete, hpc])
  | choose =>
    simp only [deliverStep, hpc, hc.up, Bool.false_eq_true, if_false] at h
    split at h
    · cases h
      exact hd.goTo trivial (by simp [toDelete, hpc])
    · split at h
      · next hcall =>
        cases h
        exact hd.goTo hcall (by simp [toDelete, hpc])
      · next hcall =>
        cases h
        exact hd.goTo hcall (by simp [toDelete, hpc])
  | fetch source =>
    rw [hpc] at hat
    simp only [deliverStep, hpc] at h
    split at h
    · cases h
      exact hd.goTo hat (by simp [toDelete, hpc])
    · next e he =>
      rw [hc.fetched source hat e he] at h
      cases h
      exact hd.goTo trivial (by simp [toDelete, hpc])
  | proveBytes source data =>
    rw [hpc] at hat
    simp only [deliverStep, hpc] at h
    split at h
    · cases h
      exact hd.goTo trivial (by simp [toDelete, hpc])
    · next e he =>
      rw [hc.built source hat e he] at h
      cases h
      exact hd.goTo trivial (by simp [toDelete, hpc])
  | prove =>
    rw [hpc] at hat
    simp only [deliverStep, hpc] at h
    split at h
    · cases h
      exact hd.goTo trivial (by simp [toDelete, hpc])
    · next e he =>
      rw [hc.proved hat e he] at h
      cases h
      exact hd.goTo trivial (by simp [toDelete, hpc])
  | persist pcs =>
    obtain ⟨s₁, hs₁⟩ := storeJob_conclusive henc hsql s d.key (withBundle d.job pcs) false
    have hst := (storeJob_ok hs₁).2.1
    unfold withBundle at hs₁
    simp only [deliverStep, hpc, hs₁] at h
    cases h
    exact hd.ownRow rfl trivial (fun k hk => lookup_upsert_ne hst hk) fun _ => rfl
  | send bundle =>
    simp only [deliverStep, hpc, sendMessage_conclusive henc hc.send] at h
    cases h
    exact hd.goTo trivial (by simp [toDelete, hpc])
  | refuse err =>
    simp only [deliverStep, hpc, sendMessage_conclusive henc hc.send] at h
    cases h
    exact hd.goTo trivial (by simp [toDelete, hpc])
  | delete refused =>
    simp only [deliverStep, hpc, hsql] at h
    cases h
    refine hd.ownRow rfl ?_ (fun k hk => AList.lookup_erase_ne hk) fun hreq => ?_
    · dsimp only
      split_ifs
      · trivial
      · exact ⟨_, rfl⟩
    · -- the row is gone
      unfold isRequested at hreq
      rw [jobAt_delete, if_pos rfl] at hreq
      cases hreq
  | clear refused =>
    simp only [deliverStep, hpc] at h
    cases h
    exact hd.goTo ⟨_, rfl⟩ (by simp [toDelete, hpc])
  | release result =>
    rw [hpc] at hat
    simp only [deliverStep, hpc] at h
    cases h
    exact hd.goTo hat (by simp [toDelete, hpc])
  | done result => simp [deliverStep, hpc] at h

/-- Pruning the row of an entry touches no other. -/
theorem lookup_prune (hi : Ids st) (hfresh : Fresh st (entry :: rest)) {k : Key} (hk : k ≠ entry.key) :
    (st.deletePendingPcsById entry.id).rows.lookup k = st.rows.lookup k := by
  obtain ⟨row, hrow, hid, -⟩ := hfresh.rows entry (List.mem_cons_self ..)
  unfold PcsStorage.deletePendingPcsById
  rw [Table.lookup_retain]
  cases hother : st.rows.lookup k with
  | none => rfl
  | some other =>
    have hne : other.id ≠ entry.id := fun heq =>
      hk (hi.unique k entry.key other row hother hrow (heq.trans hid.symm))
    simp [Option.filter, hne]

theorem Fresh.pruned (hi : Ids st) (hfresh : Fresh st (entry :: rest))
    (hcovered : Covered env st none rest) :
    Fresh (st.deletePendingPcsById entry.id) rest ∧
      Covered env (st.deletePendingPcsById entry.id) none rest := by
  obtain ⟨hkey, htail⟩ := hfresh.tail
  refine ⟨htail.frame fun k hk => lookup_prune hi hfresh ?_, fun k hk => hcovered k ?_⟩
  · rintro rfl
    exact hkey hk
  · obtain ⟨kept, hkept, hreq⟩ := (Option.any_eq_true _ _).mp hk
    exact (Option.any_eq_true _ _).mpr ⟨kept, jobAt_of_deleteById hkept, hreq⟩

/-- **The loop's step** goes on through the entries. -/
theorem sweep_step (henc : Encodes env) (hi : Ids s.storage) (hsql : c.sql = none)
    (hc : Conclusive env (retryJob s.retry) c)
    (hfree : (∀ d, retryCall s.retry = some d → d.pc = .claim) → s.inFlight = ∅)
    (hw : SweepAt env s.storage s.retry) (hawake : s.retry ≠ .sleep)
    (h : retryStep env s c = some s') : SweepAt env s'.storage s'.retry := by
  cases hpc : s.retry with
  | sleep => exact absurd hpc hawake
  | bump now entry rest =>
    rw [hpc] at hw
    exact hw.elim
  | entries now rest =>
    rw [hpc] at hw
    obtain ⟨hfresh, hcovered⟩ := hw
    cases rest with
    | nil =>
      simp only [retryStep, hpc] at h
      cases h
      exact hcovered
    | cons entry rest =>
      obtain ⟨hkey, htail⟩ := hfresh.tail
      have hjob : jobAt env s.storage entry.key = (env.serde.fromSlice entry.jobJson).toOption :=
        hfresh.jobAt_head
      simp only [retryStep, hpc] at h
      split at h
      · next e he =>
        cases h
        refine ⟨htail, hcovered.pass ?_⟩
        simp [isRequested, hjob, he, Except.toOption]
      · next job he =>
        have hreq : isRequested env s.storage entry.key = job.requested := by
          simp [isRequested, hjob, he, Except.toOption]
        split_ifs at h with hrequested hdue
        · cases h
          exact ⟨trivial, hkey, htail, hcovered.take⟩
        · rw [hsql, Option.elim_none] at h
          cases h
          exact hfresh.pruned hi (hcovered.pass (hreq.trans (by simpa using hrequested)))
        · cases h
          exact ⟨htail, hcovered.pass (hreq.trans (by simpa using hrequested))⟩
  | deliver now entry d rest =>
    rw [hpc] at hw hc hfree
    have hat := hw.pc
    simp only [retryStep, hpc] at h
    split at h
    · next e hdone =>
      rw [hdone] at hat
      obtain ⟨outcome, houtcome⟩ := hat
      cases houtcome
    · next outcome hdone =>
      cases h
      have hcovered := hw.covered
      rw [toDelete, hdone] at hcovered
      exact ⟨hw.fresh, hcovered⟩
    · obtain ⟨⟨s₁, d₁⟩, hd, heq⟩ := Option.map_eq_some_iff.mp h
      cases heq
      have hnext : Sweeping env s₁.storage d₁ rest := by
        refine deliver_sweep henc hsql hc (fun hclaim => hfree fun e he => ?_) hw hd
        cases he
        exact hclaim
      exact hnext

/-! ### The main result -/

/-- Where nothing is held, nothing is in flight. -/
theorem inFlight_idle (hg : Guards s) (hthreads : ∀ t ∈ s.threads, Idle t)
    (hretry : ∀ d, retryCall s.retry = some d → d.pc = .claim) : s.inFlight = ∅ := by
  rw [Finset.eq_empty_iff_forall_notMem]
  intro id hid
  obtain ⟨p, hp⟩ := hg.guard.owner id hid
  obtain ⟨d, hd, hheld⟩ := Option.bind_eq_some_iff.mp hp
  have hnone : held d = none := by
    cases p with
    | none => simp [held, hretry d hd]
    | some i =>
      obtain ⟨t, ht, hcall⟩ := Option.bind_eq_some_iff.mp hd
      have hidle := hthreads t (List.mem_of_getElem? ht)
      cases t with
      | deliver e =>
        cases hcall
        obtain ⟨result, hdone⟩ := hidle
        simp [held, hdone]
      | _ => cases hcall
  rw [hnone] at hheld
  cases hheld

/-- The threads are through, and the loop is on its way through the rows. -/
structure Sweep (env : Env) (s₀ s : State) : Prop where
  going : Going env s₀ s
  threads : ∀ t ∈ s.threads, Idle t
  place : SweepAt env s.storage s.retry

/-- The loop, woken up, lists every row. -/
theorem sweep_begin (hserde : env.serde.RoundTrips) (hsql : ∀ job, (answer job).sql = none)
    (hg : Going env s₀ s) (hq : Quiet s) :
    ∃ s', Given answer s (.retry (answer noJob)) ∧ step env s (.retry (answer noJob)) = some s' ∧
      Sweep env s₀ s' := by
  have hgiven : Given answer s (.retry (answer noJob)) := by
    show answer noJob = answer (retryJob s.retry)
    rw [hq.retry]
    rfl
  have hstep : step env s (.retry (answer noJob)) = some { s with
      retry := .entries (answer noJob).now s.storage.listPendingPcs } := by
    simp only [PcsMachine.step, retryStep, hq.retry, hsql, Option.elim_none]
  exact ⟨_, hgiven, hstep, hg.step hserde hsql hgiven hstep, hq.threads, fresh_listed _,
    covered_listed env _⟩

theorem Sweep.step (henc : Encodes env) (hsql : ∀ job, (answer job).sql = none)
    (hanswer : ∀ job, Named s₀.log job → Conclusive env job (answer job)) (hw : Sweep env s₀ s)
    (hawake : s.retry ≠ .sleep) :
    ∃ a s', Given answer s a ∧ step env s a = some s' ∧ Sweep env s₀ s' ∧
      retryRank s'.retry < retryRank s.retry := by
  have hgiven : Given answer s (.retry (answer (retryJob s.retry))) := rfl
  obtain ⟨s', hs'⟩ := retry_enabled env s (answer (retryJob s.retry))
  obtain ⟨s₁, -, heq, hthreads⟩ := retryStep_move hs'
  have hsame : s'.threads = s.threads := by rw [heq, ← hthreads]
  have hplace : SweepAt env s'.storage s'.retry :=
    sweep_step henc hw.going.sound.ids (hsql _) (hanswer _ hw.going.named)
      (inFlight_idle hw.going.sound.guards hw.threads) hw.place hawake hs'
  exact ⟨_, s', hgiven, hs', ⟨hw.going.step henc.serde hsql hgiven hs', hsame ▸ hw.threads, hplace⟩,
    retry_rank hs' hawake⟩

theorem Sweep.settled (hw : Sweep env s₀ s) (hsleep : s.retry = .sleep) : Settled env s := by
  have hplace := hw.place
  rw [hsleep] at hplace
  refine ⟨⟨hw.threads, hsleep⟩, ?_, fun key => ?_⟩
  · refine inFlight_idle hw.going.sound.guards hw.threads fun d hd => ?_
    rw [hsleep] at hd
    cases hd
  · cases hreq : isRequested env s.storage key with
    | false => rfl
    | true => rcases hplace key hreq with h | h <;> cases h

/-- **Main result.** From every state a run can lead to, with answers of core and the store that
decide and nothing that fails, the threads and the retry loop can go on to a state in which no call
is under way, no sub-task is in flight and no row is requested; and each request that waited has then
been acknowledged. -/
theorem outbox_settles (henc : Encodes env) (hsql : ∀ job, (answer job).sql = none)
    (hanswer : ∀ job, Named s.log job → Conclusive env job (answer job)) {acts : List Act}
    (h : run (step env) init acts = some s) :
    ∃ as t, StepsMeet (step env) (Given answer) s as ∧ run (step env) s as = some t ∧
      Settled env t ∧ ∀ key, Waits env s key → AckedSince env s t key := by
  have hsound : Sound env s := run_inv (fun _ _ _ hi h => step_sound hi h) sound_init h
  have hsourced : AllSourced env s :=
    run_inv (fun _ _ _ hi h => step_sourced henc.serde hi h) allSourced_init h
  obtain ⟨as₁, s₁, hmeet₁, hrun₁, hg₁, hquiet⟩ :=
    exists_quiet henc.serde hsql (Going.self hsound hsourced)
  obtain ⟨s₂, hgiven, hs₂, hw₂⟩ := sweep_begin henc.serde hsql hg₁ hquiet
  obtain ⟨as₃, t, hmeet₃, hrun₃, hw, hsleep⟩ : ∃ as t, StepsMeet (step env) (Given answer) s₂ as ∧
      run (step env) s₂ as = some t ∧ Sweep env s t ∧ t.retry = .sleep :=
    exists_meeting_run (fun s => retryRank s.retry)
      (fun s₃ hw hawake => hw.step henc hsql hanswer hawake) hw₂
  obtain ⟨hrun, hmeet⟩ := run_meets_append hrun₁ hmeet₁ (run_meets_cons hgiven hs₂ ⟨hrun₃, hmeet₃⟩)
  have hsettled := hw.settled hsleep
  refine ⟨_, t, hmeet, hrun, hsettled, fun key hkey => ?_⟩
  rcases (hw.going.owed key hkey).acked with hacked | hwaits
  · exact hacked
  · have hreq := hwaits.requested
    rw [hsettled.requested key] at hreq
    cases hreq

/-! ### Two requests and a restart -/

/-- The SHA-256 of the bytes of `leaf proof`. -/
def leafHash : String := "4793b16e78f00d22ace29a5c0694ed3ebedbc67af90de61d80695741635b13c5"

def badJson (_ : Bytes) : String := "expected value at line 1 column 1"

/-- `nodeA` with serde's JSON and the SHA-256 of the one proof. -/
def jsonNode : Env :=
  { nodeA with
    serde := PcsJobJson.jobSerde badJson
    messageToVec := fun message => .ok (PcsJobJson.toJsonBytes message)
    sha256Hex := fun data => if data = utf8 "leaf proof" then leafHash else "" }

theorem jsonNode_encodes : Encodes jsonNode :=
  ⟨PcsJobJson.jobSerde_roundTrips badJson, fun _ => ⟨_, rfl⟩, fun _ => ⟨_, rfl⟩⟩

theorem jsonNode_reads (job : PendingPcsJob) :
    jsonNode.serde.fromSlice (PcsJobJson.jobToVec job) = .ok job := by
  refine jsonNode_encodes.serde job (PcsJobJson.jobToVec job) ?_
  unfold jsonNode PcsJobJson.jobSerde
  rfl

def leafCall : PcsOpenCall :=
  ⟨"parent-2", "sub-2", "01", leafHash, 10, "https://s3.example/blob", "400000000000", 1700001800,
    1700000000, []⟩

def builderRequest : PcsRequest :=
  ⟨"sub-2", "parent-2", "01", "node-a", 1700000100, "open_call", leafHash⟩

/-- A proof is retained, and the orchestrator asks for it. -/
def askedActs : List Act :=
  [.retain ("orch", "sub-1") subTaskProof, .thread 0 {}, .thread 0 {}, .request "orch" winnerRequest]

def asked : State :=
  { init with
    storage := ⟨(∅ : Table Key PcsRow).insert ("orch", "sub-1") ⟨1, PcsJobJson.jobToVec retained, 0, 0⟩, 2⟩
    threads := [.finished, .lookup ("orch", "sub-1") 0]
    log := [.requested "orch" winnerRequest] }

/-- The job is marked, an open call is answered, the store does not answer, and the process starts
anew; then the orchestrator asks again. -/
def interruptedActs : List Act :=
  [.thread 1 {}, .announce leafCall, .request "orch" builderRequest, .thread 2 {}, .thread 2 {},
    .thread 1 {}, .thread 2 {}, .thread 2 {},
    .thread 2 { cas := .error "CAS GET failed for https://s3.example/blob" }, .crash,
    .request "orch" winnerRequest]

def marked : PendingPcsJob := { retained with requested := true }

def interrupted : State :=
  { init with
    storage := ⟨(asked.storage.rows.insert ("orch", "sub-1") ⟨1, PcsJobJson.jobToVec marked, 0, 0⟩).insert
      ("orch", "sub-2") ⟨2, PcsJobJson.jobToVec (openCallJob jsonNode builderRequest leafCall), 0, 0⟩, 3⟩
    threads := [.lookup ("orch", "sub-1") 0]
    log := [.requested "orch" winnerRequest, .marked ("orch", "sub-2"),
      .requested "orch" builderRequest, .announced leafCall, .marked ("orch", "sub-1"),
      .requested "orch" winnerRequest] }

/-- The lookup finds the job. -/
theorem lookup_marks {attempt id : ℕ} {json : Bytes} {job : PendingPcsJob}
    (hrow : s.storage.rows.lookup key = some ⟨id, json, 0, 0⟩)
    (hread : env.serde.fromSlice json = .ok job) (hreq : job.requested = false) :
    threadStep env s {} (.lookup key attempt) =
      some (s, .mark key { job with requested := true }) := by
  simp [threadStep, PcsStorage.getPendingPcs, hrow, hread, hreq]

theorem run_interrupted : run (step jsonNode) init (askedActs ++ .thread 1 {} :: interruptedActs) =
    some interrupted := by
  have hrow : asked.storage.rows.lookup ("orch", "sub-1") =
      some ⟨1, PcsJobJson.jobToVec retained, 0, 0⟩ := rfl
  have hmark : step jsonNode asked (.thread 1 {}) =
      some { asked with threads := [.finished, .mark ("orch", "sub-1") marked] } :=
    step_of_thread rfl (lookup_marks hrow (jsonNode_reads retained) rfl)
  have hrest : run (step jsonNode)
      { asked with threads := [.finished, .mark ("orch", "sub-1") marked] } interruptedActs =
      some interrupted := rfl
  exact run_append_some.mpr ⟨asked, rfl, run_cons_some.mpr ⟨_, hmark, hrest⟩⟩

/-- A row of the interrupted outbox waits if its job is requested. -/
theorem interrupted_waits {key : Key} {id : ℕ} {job : PendingPcsJob}
    (hrow : interrupted.storage.rows.lookup key = some ⟨id, PcsJobJson.jobToVec job, 0, 0⟩)
    (hreq : job.requested = true) : Waits jsonNode interrupted key := by
  have hread := jsonNode_reads job
  refine ⟨?_, fun job hjob => ?_, fun p d hp => ?_, fun entry hentry => ?_⟩
  · simp [isRequested, jobAt, hrow, hread, Except.toOption, hreq]
  · simp [interrupted] at hjob
  · have hnone : callAt interrupted p = none := by
      rcases p with _ | _ | i
      · rfl
      · rfl
      · simp [callAt, interrupted]
    rw [hnone] at hp
    cases hp
  · cases hentry

/-- The store has the proof, and core builds. -/
def serving : Choice := { cas := .ok (utf8 "leaf proof"), core := .ok ⟨"cGNz", 3⟩ }

theorem serving_conclusive {job : PendingPcsJob} (h : Named interrupted.log job) :
    Conclusive jsonNode job serving := by
  have hhashes : interrupted.log.filterMap announcedHash = [leafHash] := rfl
  refine ⟨rfl, rfl, fun _ e he => ?_, fun _ _ e he => ?_, fun source hsource e he => ?_⟩
  · cases he
  · cases he
  · have hhash := h source hsource
    rw [hhashes, List.mem_singleton] at hhash
    have hverify : verifyCasBlob jsonNode (utf8 "leaf proof") leafHash = .ok (utf8 "leaf proof") := by
      decide +kernel
    rw [hhash] at he
    simp only [serving, Except.bind, hverify] at he
    cases he

theorem outbox_settles_interrupted :
    ∃ as t, StepsMeet (step jsonNode) (Given fun _ => serving) interrupted as ∧
      run (step jsonNode) interrupted as = some t ∧ Settled jsonNode t ∧
      AckedSince jsonNode interrupted t ("orch", "sub-1") ∧
      AckedSince jsonNode interrupted t ("orch", "sub-2") := by
  have hanswer : ∀ job, Named interrupted.log job → Conclusive jsonNode job ((fun _ => serving) job) :=
    fun _ h => serving_conclusive h
  have hfirst : interrupted.storage.rows.lookup ("orch", "sub-1") =
      some ⟨1, PcsJobJson.jobToVec marked, 0, 0⟩ := rfl
  have hsecond : interrupted.storage.rows.lookup ("orch", "sub-2") =
      some ⟨2, PcsJobJson.jobToVec (openCallJob jsonNode builderRequest leafCall), 0, 0⟩ := rfl
  obtain ⟨as, t, hmeet, hrun, hsettled, hacked⟩ :=
    outbox_settles jsonNode_encodes (fun _ => rfl) hanswer run_interrupted
  exact ⟨as, t, hmeet, hrun, hsettled, hacked _ (interrupted_waits hfirst rfl),
    hacked _ (interrupted_waits hsecond rfl)⟩

end WqcNode.Application.PcsSettling
