import WqcNode.Application.PcsMachine

/-! # Requested PCS jobs are kept

`retain_after_result` writes back a job it has read before, the retry loop deletes by id a row it
has listed before, and a delivering call deletes by key after its acknowledgement. Each can hit a
row that was requested in the meantime. Where none does, a requested row stays until the
orchestrator has acknowledged a bundle or a refusal for it (`requests_kept`). -/

namespace WqcNode.Application.PcsRequests

open WqcNode.Lib WqcNode.Lib.Machine WqcNode.Infra WqcNode.Domain.Models WqcNode.Domain.Pcs
open WqcNode.Application.PcsMachine

variable {env : Env} {s s' : State} {a : Act}

/-- A request for `key` was stored, or its row became requested, and nothing was acknowledged for
it since. -/
def unacked : List Event → Key → Bool
  | [], _ => false
  | .marked k :: log, key => if k = key then true else unacked log key
  | .acked k _ :: log, key => if k = key then false else unacked log key
  | _ :: log, key => unacked log key

/-- Every row that was requested is there and requested, unless it was acknowledged since. -/
def RequestsKept (env : Env) (st : PcsStorage) (log : List Event) : Prop :=
  ∀ key, unacked log key = true → isRequested env st key = true

/-- The retry loop takes the entry for an unrequested job that is due to be dropped. -/
def prunes (env : Env) (now : ℤ) (entry : PendingPcs) : Bool :=
  match env.serde.fromSlice entry.jobJson with
  | .ok job => !job.requested && decide (now - entry.createdAt ≥ env.unrequestedTtlSecs)
  | .error _ => false

/-- `retain_after_result` does not write an unrequested job over a requested one, the retry loop
does not drop a requested row, and no delivering call deletes a row that was requested after the
acknowledgement the call has. -/
def keepsRequest (env : Env) (s : State) : Act → Bool
  | .thread i c =>
    match s.threads[i]? with
    | some (.retainWrite key job) =>
      c.sql.isSome || job.requested || !isRequested env s.storage key
    | some (.deliver ⟨key, _, .delete _⟩) => c.sql.isSome || !unacked s.log key
    | _ => true
  | .retry c =>
    match s.retry with
    | .entries now (entry :: _) => c.sql.isSome || !prunes env now entry ||
        s.storage.rows.entries.all fun e => e.2.id != entry.id || !isRequested env s.storage e.1
    | .deliver _ _ ⟨key, _, .delete _⟩ _ => c.sql.isSome || !unacked s.log key
    | _ => true
  | _ => true

/-! ### What the statements do to the jobs -/

theorem jobAt_upsert (hserde : env.serde.RoundTrips) {st st' : PcsStorage} {key : Key}
    {job : PendingPcsJob} {now : ℤ} (h : st.upsertPendingPcs env.serde key job now = .ok st')
    (k : Key) : jobAt env st' k = if k = key then some job else jobAt env st k := by
  obtain ⟨row, hrow⟩ := PcsStorage.upserted h
  have hback := hserde job row.jobJson hrow.json
  rw [jobAt, hrow.rows, Table.lookup_insert_if]
  split_ifs
  · rw [Option.bind_some, hback]
    rfl
  · rfl

theorem jobAt_delete (st : PcsStorage) (key k : Key) :
    jobAt env (st.deletePendingPcs key) k = if k = key then none else jobAt env st k := by
  simp only [jobAt, PcsStorage.deletePendingPcs, Table.lookup_erase_if]
  split_ifs <;> rfl

theorem jobAt_increment (st : PcsStorage) (id : ℕ) (k : Key) :
    jobAt env (st.incrementPendingPcsAttempts id) k = jobAt env st k :=
  Table.bind_lookup_updateAll _ fun row => by split_ifs <;> rfl

/-- A delete by id leaves the rows with other ids. -/
theorem jobAt_deleteById (st : PcsStorage) (id : ℕ) (key : Key) :
    jobAt env (st.deletePendingPcsById id) key =
      if (st.rows.lookup key).any (·.id = id) then none else jobAt env st key := by
  simp only [jobAt, PcsStorage.deletePendingPcsById, Table.lookup_retain]
  cases st.rows.lookup key with
  | none => rfl
  | some row => by_cases hid : row.id = id <;> simp [Option.filter, hid]

theorem jobAt_of_deleteById {st : PcsStorage} {id : ℕ} {key : Key} {job : PendingPcsJob}
    (h : jobAt env (st.deletePendingPcsById id) key = some job) : jobAt env st key = some job := by
  rw [jobAt_deleteById] at h
  split_ifs at h
  exact h

/-! ### What the statements keep -/

theorem RequestsKept.storage {st st' : PcsStorage} {log : List Event}
    (hk : RequestsKept env st log)
    (h : ∀ key, unacked log key = true → jobAt env st' key = jobAt env st key) :
    RequestsKept env st' log := by
  intro key hkey
  rw [isRequested, h key hkey]
  exact hk key hkey

theorem RequestsKept.acked {st : PcsStorage} {log : List Event} (hk : RequestsKept env st log)
    (key : Key) (message : PcsMessage) : RequestsKept env st (.acked key message :: log) := by
  intro k hkey
  simp only [unacked] at hkey
  split_ifs at hkey
  exact hk k hkey

/-- An upsert keeps the requests if the job is requested or the row was not. -/
theorem storeJob_kept (hserde : env.serde.RoundTrips) {key : Key} {job : PendingPcsJob}
    {asked : Bool} {c : Choice}
    (hk : RequestsKept env s.storage s.log)
    (hok : job.requested = true ∨ c.sql.isSome = true ∨ isRequested env s.storage key = false)
    (h : storeJob env s key job asked c = .ok s') : RequestsKept env s'.storage s'.log := by
  cases hsql : c.sql with
  | some e => simp [storeJob, hsql] at h
  | none =>
    simp only [storeJob, hsql, Option.elim] at h
    split at h <;> cases h
    rename_i st hst
    have hjob := jobAt_upsert hserde hst
    intro k hkey
    simp only [isRequested, hjob]
    cases hreq : job.requested with
    | true =>
      split_ifs with heq
      · simpa using hreq
      · refine hk k ?_
        simp only [hreq, Bool.true_and] at hkey
        split_ifs at hkey
        · simpa [unacked, Ne.symm heq] using hkey
        · exact hkey
    | false =>
      simp only [hreq, Bool.false_and, Bool.false_eq_true, if_false] at hkey
      have hne : k ≠ key := by
        rintro rfl
        simp [hreq, hsql, hk k hkey] at hok
      rw [if_neg hne]
      exact hk k hkey

/-! ### Steps -/

/-- A step of a delivering call. -/
theorem deliverMove_kept (hserde : env.serde.RoundTrips) {d d' : Deliver} {c : Choice}
    (hk : RequestsKept env s.storage s.log) (hreq : d.job.requested = true)
    (hdel : ∀ refused, d.pc = .delete refused → c.sql.isSome = true ∨ unacked s.log d.key = false)
    (h : DeliverMove env s c d s' d') :
    RequestsKept env s'.storage s'.log ∧ d'.job.requested = true := by
  cases h with
  | @persisted pcs _ pc store =>
    have hbundle : (withBundle d.job pcs).requested = true := hreq
    have hstore := storeJob_kept hserde hk (.inl hbundle) store
    exact ⟨hstore, hbundle⟩
  | acked pc | refused pc => exact ⟨hk.acked _ _, hreq⟩
  | deleted pc sql next =>
    have hacked : unacked s.log d.key = false := (hdel _ pc).resolve_left (by simp [sql])
    refine ⟨hk.storage fun key hkey => ?_, hreq⟩
    rw [jobAt_delete, if_neg]
    rintro rfl
    rw [hacked] at hkey
    cases hkey
  | _ => exact ⟨hk, hreq⟩

/-- The thread is delivering a requested job, or about to mark one. -/
def ThreadRequested : Thread → Prop
  | .deliver d => d.job.requested = true
  | .mark _ job | .openStore _ job => job.requested = true
  | _ => True

def RetryRequested : RetryPc → Prop
  | .deliver _ _ d _ => d.job.requested = true
  | _ => True

theorem threadMove_kept (hserde : env.serde.RoundTrips) {i : ℕ} {t t' : Thread} {c : Choice}
    (hget : s.threads[i]? = some t) (hk : RequestsKept env s.storage s.log)
    (ht : ThreadRequested t) (hok : keepsRequest env s (.thread i c) = true)
    (h : ThreadMove env s c t s' t') :
    RequestsKept env s'.storage s'.log ∧ ThreadRequested t' := by
  cases h with
  | retained store next =>
    simp only [keepsRequest, hget, Bool.or_eq_true, Bool.not_eq_true'] at hok
    refine ⟨storeJob_kept hserde hk (by tauto) store, ?_⟩
    rcases next with rfl | ⟨hreq, rfl⟩
    · trivial
    · exact hreq
  | marked store | replaced store => exact ⟨storeJob_kept hserde hk (.inl ht) store, ht⟩
  | found read requested => exact ⟨hk, requested⟩
  | toMark read requested => exact ⟨hk, rfl⟩
  | toOpen cached hash => exact ⟨hk, rfl⟩
  | @deliver d d' _ move =>
    refine deliverMove_kept hserde hk ht (fun refused hpc => ?_) move
    obtain ⟨key, job, pc⟩ := d
    obtain rfl : pc = .delete refused := hpc
    simpa [keepsRequest, hget] using hok
  | _ => exact ⟨hk, trivial⟩

theorem retryMove_kept (hserde : env.serde.RoundTrips) {r r' : RetryPc} {c : Choice}
    (hpc : s.retry = r) (hk : RequestsKept env s.storage s.log) (hr : RetryRequested r)
    (hok : keepsRequest env s (.retry c) = true) (h : RetryMove env s c r s' r') :
    RequestsKept env s'.storage s'.log ∧ RetryRequested r' := by
  cases h with
  | listed next =>
    refine ⟨hk, ?_⟩
    rcases next with rfl | rfl <;> trivial
  | taken read requested => exact ⟨hk, requested⟩
  | pruned sql read requested due =>
    refine ⟨hk.storage fun key hkey => ?_, trivial⟩
    -- the rows with the entry's id are not requested, so `key` is not theirs
    rw [jobAt_deleteById, if_neg]
    rw [Option.any_eq_true]
    rintro ⟨row, hrow, hid⟩
    simp only [keepsRequest, hpc, sql, prunes, read, Option.isSome_none, Bool.false_or,
      Bool.or_eq_true, List.all_eq_true] at hok
    rcases hok with hno | hall
    · simp [requested, due] at hno
    · have hout := hall _ (Table.mem_entries.mpr hrow)
      simp [of_decide_eq_true hid, hk key hkey] at hout
  | @deliver _ _ _ d _ _ move =>
    refine deliverMove_kept hserde hk hr (fun refused hdel => ?_) move
    obtain ⟨key, job, pc⟩ := d
    obtain rfl : pc = .delete refused := hdel
    simpa [keepsRequest, hpc] using hok
  | next pc next =>
    refine ⟨hk, ?_⟩
    rcases next with rfl | rfl <;> trivial
  | bumped => exact ⟨hk.storage fun key _ => jobAt_increment .., trivial⟩
  | _ => exact ⟨hk, trivial⟩

/-- What holds in a run in which no request is dropped. -/
structure Kept (env : Env) (s : State) : Prop where
  rows : RequestsKept env s.storage s.log
  threads : ∀ t ∈ s.threads, ThreadRequested t
  retry : RetryRequested s.retry

theorem kept_init : Kept env init :=
  ⟨fun _ h => by simp [init, unacked] at h, by simp [init], trivial⟩

theorem step_kept (hserde : env.serde.RoundTrips) (hi : Kept env s)
    (hok : keepsRequest env s a = true) (h : step env s a = some s') : Kept env s' := by
  cases a with
  | retain key proof =>
    cases h
    refine ⟨hi.rows, fun t ht => ?_, hi.retry⟩
    rcases List.mem_append.mp ht with ht | ht
    · exact hi.threads t ht
    · obtain rfl := List.mem_singleton.mp ht
      trivial
  | request pubkey request =>
    cases h
    refine ⟨hi.rows, fun t ht => ?_, hi.retry⟩
    rcases List.mem_append.mp ht with ht | ht
    · exact hi.threads t ht
    · obtain rfl := List.mem_singleton.mp ht
      split_ifs <;> trivial
  | announce call =>
    cases h
    exact ⟨hi.rows, hi.threads, hi.retry⟩
  | thread i c =>
    obtain ⟨t, t₁, s₁, hget, ht, rfl⟩ := step_thread h
    have hmove := threadStep_move ht
    obtain ⟨hthreads, hretry⟩ := hmove.frame
    obtain ⟨hrows, ht₁⟩ :=
      threadMove_kept hserde hget hi.rows (hi.threads t (List.mem_of_getElem? hget)) hok hmove
    refine ⟨hrows, fun t' ht' => ?_, hretry ▸ hi.retry⟩
    simp only [hthreads] at ht'
    rcases List.mem_or_eq_of_mem_set ht' with ht' | rfl
    · exact hi.threads t' ht'
    · exact ht₁
  | retry c =>
    obtain ⟨s₁, hmove, heq, hthreads⟩ := retryStep_move h
    obtain ⟨hrows, hretry⟩ := retryMove_kept hserde rfl hi.rows hi.retry hok hmove
    rw [heq]
    exact ⟨hrows, fun t ht => hi.threads t (hthreads ▸ ht), hretry⟩
  | crash =>
    cases h
    exact ⟨hi.rows, by simp [init], trivial⟩

/-- **Main result.** In every run whose steps drop no request, in every state reached, a row that
became requested is there and requested until it is acknowledged. -/
theorem requests_kept (hserde : env.serde.RoundTrips) {acts : List Act}
    (hok : StepsMeet (step env) (fun s a => keepsRequest env s a = true) init acts)
    (h : run (step env) init acts = some s) : RequestsKept env s.storage s.log :=
  (run_inv_of_stepsMeet (fun _ _ _ hi hok h => step_kept hserde hi hok h) kept_init hok h).rows

/-! ### A concrete node

serde's JSON of the job of one sub-task as it is retained, requested and built. -/

def subTaskProof : Proof := ⟨⟨"circuit-1", "sub-1", "node-a", "01", "ab12", "", ""⟩, "cHJvb2Y="⟩

def retained : PendingPcsJob := ⟨"sub-1", subTaskProof, false, none, none, none⟩

def built : PendingPcsJob := ⟨"sub-1", subTaskProof, true, some "cGNz", some 3, none⟩

/-- The JSON of the sub-task's job from `requested` on. -/
def jobJson (tail : String) : Bytes :=
  utf8 ("\x7b\"sub_task_id\":\"sub-1\",\"proof\":\x7b\"public_inputs\":" ++
    "\x7b\"circuit_id\":\"circuit-1\",\"sub_task_id\":\"sub-1\",\"node_id\":\"node-a\"," ++
    "\"slice_id\":\"01\",\"output_result_hash\":\"ab12\"\x7d," ++
    "\"stark_proof_b64\":\"cHJvb2Y=\"\x7d,\"requested\":" ++ tail)

/-- The jobs of the sub-task with their JSON. -/
def jobTexts : List (PendingPcsJob × Bytes) :=
  [(retained, jobJson "false\x7d"), ({ retained with requested := true }, jobJson "true\x7d"),
    (built, jobJson "true,\"leaf_pcs_b64\":\"cGNz\",\"leaf_pcs_bytes\":3\x7d")]

/-- serde as it behaves on the jobs of `texts`, each with its JSON. -/
def tableSerde (texts : List (PendingPcsJob × Bytes)) : JobSerde where
  toVec job := match texts.find? (·.1 = job) with
    | some e => .ok e.2
    | none => .error "number out of range"
  fromSlice bytes := match texts.find? (·.2 = bytes) with
    | some e => .ok e.1
    | none => .error "expected value at line 1 column 1"

theorem tableSerde_roundTrips (texts : List (PendingPcsJob × Bytes))
    (hall : ∀ e ∈ texts, texts.find? (·.2 = e.2) = some e) : (tableSerde texts).RoundTrips := by
  intro job bytes h
  simp only [tableSerde] at h ⊢
  split at h <;> cases h
  rename_i e he
  obtain ⟨hjob, hmem⟩ : e.1 = job ∧ e ∈ texts :=
    ⟨by simpa using List.find?_some he, List.mem_of_find?_eq_some he⟩
  subst hjob
  rw [hall e hmem]

def nodeA : Env where
  peerId := "node-a"
  unrequestedTtlSecs := 21600
  serde := tableSerde jobTexts
  messageToVec message := .ok (utf8 ("\x7b\"sub_task_id\":\"" ++ message.subTaskId ++
    "\",\"node_id\":\"" ++ message.nodeId ++ "\",\"leaf_pcs_b64\":\"" ++ message.leafPcsB64 ++ "\"\x7d"))
  sha256Hex _ := "e3b0c44298fc1c149afbf4c8996fb92427ae41e4649b934ca495991b7852b855"

theorem nodeA_roundTrips : nodeA.serde.RoundTrips :=
  tableSerde_roundTrips jobTexts (by decide +kernel)

/-- A request of the nominated winner. -/
def winnerRequest : PcsRequest := ⟨"sub-1", "parent-1", "01", "node-a", 0, "", ""⟩

/-- The proof is retained, the job requested and built, and the send fails. -/
def unsentActs : List Act :=
  [.retain ("orch", "sub-1") subTaskProof, .thread 0 {}, .thread 0 {},
    .request "orch" winnerRequest, .thread 1 {}, .thread 1 {}, .thread 1 {}, .thread 1 {},
    .thread 1 { core := .ok ⟨"cGNz", 3⟩ }, .thread 1 {}, .thread 1 { send := some "stream reset" },
    .thread 1 {}]

theorem requests_kept_unsent :
    ∃ s, run (step nodeA) init unsentActs = some s ∧ unacked s.log ("orch", "sub-1") = true ∧
      jobAt nodeA s.storage ("orch", "sub-1") = some built ∧
      RequestsKept nodeA s.storage s.log := by
  have hrun : (run (step nodeA) init unsentActs).any (fun s =>
      decide (unacked s.log ("orch", "sub-1") = true ∧
        jobAt nodeA s.storage ("orch", "sub-1") = some built)) = true := by decide +kernel
  obtain ⟨s, hs, hp⟩ := (Option.any_eq_true _ _).mp hrun
  obtain ⟨hlog, hjob⟩ := of_decide_eq_true hp
  exact ⟨s, hs, hlog, hjob, requests_kept nodeA_roundTrips (by decide +kernel) hs⟩

/-- **A retained proof drops the request**: the second `retain_after_result` has read the job before
the request marks it, and writes it back after. -/
theorem retain_drops_request :
    ∃ s, run (step nodeA) init [.retain ("orch", "sub-1") subTaskProof, .thread 0 {}, .thread 0 {},
        .retain ("orch", "sub-1") subTaskProof, .thread 1 {}, .request "orch" winnerRequest,
        .thread 2 {}, .thread 2 {}, .thread 1 {}] = some s ∧
      jobAt nodeA s.storage ("orch", "sub-1") = some retained ∧
      ¬ RequestsKept nodeA s.storage s.log := by
  have hrun : (run (step nodeA) init [.retain ("orch", "sub-1") subTaskProof, .thread 0 {},
        .thread 0 {}, .retain ("orch", "sub-1") subTaskProof, .thread 1 {},
        .request "orch" winnerRequest, .thread 2 {}, .thread 2 {}, .thread 1 {}]).any (fun s =>
      decide (unacked s.log ("orch", "sub-1") = true ∧
        jobAt nodeA s.storage ("orch", "sub-1") = some retained)) = true := by decide +kernel
  obtain ⟨s, hs, hp⟩ := (Option.any_eq_true _ _).mp hrun
  obtain ⟨hlog, hjob⟩ := of_decide_eq_true hp
  refine ⟨s, hs, hjob, fun hk => ?_⟩
  have hreq := hk _ hlog
  simp [isRequested, hjob, retained] at hreq

end WqcNode.Application.PcsRequests
