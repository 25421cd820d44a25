import WqcNode.Application.PcsRequests

/-! # Where an open-call bundle comes from

A job keeps the source of its proof and the bundle built from it side by side. The pair is copied by
`retain_after_result`, by a request that marks the job, by the delivering call that caches the
bundle, and through the table, from copies of any age. No writer takes the one from one job and the
other from another, so what was built for a source stays with it (`sourced`). -/

namespace WqcNode.Application.PcsOpenCalls

open WqcNode.Lib WqcNode.Lib.Text WqcNode.Lib.Machine WqcNode.Infra
open WqcNode.Domain.Models WqcNode.Domain.Pcs WqcNode.Application.PcsMachine
open WqcNode.Application.PcsRequests

variable {env : Env} {s s' : State} {a : Act} {c : Choice} {log log' : List Event}

/-! ### What is to be shown of a job -/

/-- The SHA-256 of the bytes is the hash, as hex digits of either case. -/
def HasHash (env : Env) (data : Bytes) (hash : String) : Prop :=
  eqIgnoreAsciiCase (env.sha256Hex data) (trim hash) = true

/-- Core built the bundle for the source, from bytes with the source's hash. -/
def BuiltFrom (env : Env) (log : List Event) (key : Key) (source : OpenCallPcsSource)
    (bundle : String) : Prop :=
  ∃ job data pcs, .built key job (some data) pcs ∈ log ∧ job.openCall = some source ∧
    pcs.leafPcsB64 = bundle ∧ HasHash env data source.leafProofHash

/-- The hash is in an open call for the sub-task and in a request for it. -/
structure Nominated (log : List Event) (key : Key) (hash : String) : Prop where
  call : ∃ call, .announced call ∈ log ∧ call.subTaskId = key.2 ∧ call.leafProofHash = hash
  request : ∃ request, .requested key.1 request ∈ log ∧ request.subTaskId = key.2 ∧
    request.leafProofHash = hash

/-- An open-call job has a source the orchestrator named, and no bundle of another. -/
structure Sourced (env : Env) (log : List Event) (key : Key) (job : PendingPcsJob) : Prop where
  nominated : ∀ source, job.openCall = some source → Nominated log key source.leafProofHash
  built : ∀ source bundle, job.openCall = some source → job.leafPcsB64 = some bundle →
    BuiltFrom env log key source bundle

/-- What a delivering call is in the middle of is for its own job's source. -/
def PcSourced (env : Env) (log : List Event) (d : Deliver) : DeliverPc → Prop
  | .fetch source => d.job.openCall = some source
  | .proveBytes source data => d.job.openCall = some source ∧ HasHash env data source.leafProofHash
  | .prove => d.job.openCall = none
  | .persist pcs => ∀ source, d.job.openCall = some source →
      BuiltFrom env log d.key source pcs.leafPcsB64
  | .send bundle => ∀ source, d.job.openCall = some source → BuiltFrom env log d.key source bundle
  | _ => True

structure DeliverSourced (env : Env) (log : List Event) (d : Deliver) : Prop where
  job : Sourced env log d.key d.job
  pc : PcSourced env log d d.pc

def ThreadSourced (env : Env) (log : List Event) : Thread → Prop
  | .retainWrite key job | .mark key job | .openStore key job => Sourced env log key job
  | .openLookup pubkey request => .requested pubkey request ∈ log
  | .deliver d => DeliverSourced env log d
  | _ => True

/-- The job in a row that was listed. -/
def EntrySourced (env : Env) (log : List Event) (entry : PendingPcs) : Prop :=
  ∀ job, env.serde.fromSlice entry.jobJson = .ok job → Sourced env log entry.key job

def RetrySourced (env : Env) (log : List Event) : RetryPc → Prop
  | .sleep => True
  | .entries _ rest | .bump _ _ rest => ∀ entry ∈ rest, EntrySourced env log entry
  | .deliver _ _ d rest => DeliverSourced env log d ∧ ∀ entry ∈ rest, EntrySourced env log entry

/-! ### What was said stays said -/

theorem BuiltFrom.mono {key : Key} {source : OpenCallPcsSource} {bundle : String}
    (h : BuiltFrom env log key source bundle) (hlog : log ⊆ log') :
    BuiltFrom env log' key source bundle := by
  obtain ⟨job, data, pcs, hmem, hrest⟩ := h
  exact ⟨job, data, pcs, hlog hmem, hrest⟩

theorem Nominated.mono {key : Key} {hash : String} (h : Nominated log key hash) (hlog : log ⊆ log') :
    Nominated log' key hash := by
  obtain ⟨⟨call, hcall, hc⟩, ⟨request, hrequest, hr⟩⟩ := h
  exact ⟨⟨call, hlog hcall, hc⟩, ⟨request, hlog hrequest, hr⟩⟩

theorem Sourced.mono {key : Key} {job : PendingPcsJob} (h : Sourced env log key job)
    (hlog : log ⊆ log') : Sourced env log' key job :=
  ⟨fun source hs => (h.nominated source hs).mono hlog,
    fun source bundle hs hb => (h.built source bundle hs hb).mono hlog⟩

theorem DeliverSourced.mono {d : Deliver} (h : DeliverSourced env log d) (hlog : log ⊆ log') :
    DeliverSourced env log' d := by
  refine ⟨h.job.mono hlog, ?_⟩
  have hpc := h.pc
  cases hd : d.pc with
  | persist pcs | send bundle =>
    rw [hd] at hpc
    exact fun source hs => (hpc source hs).mono hlog
  | fetch source | proveBytes source data | prove =>
    rw [hd] at hpc
    exact hpc
  | _ => trivial

theorem ThreadSourced.mono {t : Thread} (h : ThreadSourced env log t) (hlog : log ⊆ log') :
    ThreadSourced env log' t := by
  cases t with
  | retainWrite key job | mark key job | openStore key job => exact Sourced.mono h hlog
  | openLookup pubkey request => exact hlog h
  | deliver d => exact DeliverSourced.mono h hlog
  | _ => trivial

theorem RetrySourced.mono {r : RetryPc} (h : RetrySourced env log r) (hlog : log ⊆ log') :
    RetrySourced env log' r := by
  have hrest : ∀ {rest : List PendingPcs}, (∀ entry ∈ rest, EntrySourced env log entry) →
      ∀ entry ∈ rest, EntrySourced env log' entry :=
    fun hall entry hentry job hjob => (hall entry hentry job hjob).mono hlog
  cases r with
  | sleep => trivial
  | entries now rest | bump now entry rest => exact hrest h
  | deliver now entry d rest => exact ⟨h.1.mono hlog, hrest h.2⟩

/-! ### The steps -/

/-- The rows and the cache. -/
structure TableSourced (env : Env) (s : State) : Prop where
  rows : ∀ key job, jobAt env s.storage key = some job → Sourced env s.log key job
  cache : ∀ id call, s.openCallCache.lookup id = some call →
    .announced call ∈ s.log ∧ call.subTaskId = id

/-- A step that reads or deletes. -/
theorem TableSourced.shrink (h : TableSourced env s) (hlog : s.log ⊆ s'.log)
    (hrows : ∀ key job, jobAt env s'.storage key = some job → jobAt env s.storage key = some job)
    (hcache : ∀ id call, s'.openCallCache.lookup id = some call →
      s.openCallCache.lookup id = some call) : TableSourced env s' :=
  ⟨fun key job hjob => (h.rows key job (hrows key job hjob)).mono hlog,
    fun id call hcall => ⟨hlog (h.cache id call (hcache id call hcall)).1,
      (h.cache id call (hcache id call hcall)).2⟩⟩

theorem storeJob_sourced (hserde : env.serde.RoundTrips) (ht : TableSourced env s) {key : Key}
    {job : PendingPcsJob} {asked : Bool} (hj : Sourced env s.log key job)
    (h : storeJob env s key job asked c = .ok s') : TableSourced env s' ∧ s.log ⊆ s'.log := by
  obtain ⟨-, hstore, -, hcache, -, -, hmarked⟩ := storeJob_ok h
  have hlog : s.log ⊆ s'.log := by
    rcases hmarked with heq | heq <;> rw [heq]
    · exact List.Subset.refl _
    · exact List.subset_cons_self _ _
  refine ⟨⟨fun k job' hjob => ?_, fun id call hcall => ?_⟩, hlog⟩
  · rw [jobAt_upsert hserde hstore] at hjob
    split_ifs at hjob with hk
    · cases hjob
      exact hk ▸ hj.mono hlog
    · exact (ht.rows k job' hjob).mono hlog
  · rw [hcache] at hcall
    exact ⟨hlog (ht.cache id call hcall).1, (ht.cache id call hcall).2⟩

/-- A bundle built for the job's source is put beside it. -/
theorem Sourced.withBundle {key : Key} {job : PendingPcsJob} {pcs : LeafPcsResponse}
    (h : Sourced env log key job)
    (hpcs : ∀ source, job.openCall = some source → BuiltFrom env log key source pcs.leafPcsB64) :
    Sourced env log key (withBundle job pcs) := by
  refine ⟨h.nominated, fun source bundle hs hb => ?_⟩
  obtain rfl : pcs.leafPcsB64 = bundle := Option.some.inj hb
  exact hpcs source hs

theorem deliver_sourced (hserde : env.serde.RoundTrips) (ht : TableSourced env s) {d d' : Deliver}
    (hd : DeliverSourced env s.log d) (h : DeliverMove env s c d s' d') :
    TableSourced env s' ∧ DeliverSourced env s'.log d' ∧ s.log ⊆ s'.log := by
  have hpc := hd.pc
  have hrecord : ∀ e, TableSourced env (record s e) := fun e =>
    ht.shrink (List.subset_cons_self _ _) (fun _ _ h => h) fun _ _ h => h
  have hsub : ∀ e, s.log ⊆ (record s e).log := fun e => List.subset_cons_self _ _
  cases h with
  | claimed pc free => exact ⟨⟨ht.rows, ht.cache⟩, ⟨hd.job, trivial⟩, List.Subset.refl _⟩
  | cached pc has =>
    exact ⟨ht, ⟨hd.job, fun source hs => hd.job.built source _ hs has⟩, List.Subset.refl _⟩
  | toStore pc has from' => exact ⟨ht, ⟨hd.job, from'⟩, List.Subset.refl _⟩
  | asked pc has retained => exact ⟨hrecord _, ⟨hd.job.mono (hsub _), retained⟩, hsub _⟩
  | fetched pc hash =>
    rw [pc] at hpc
    exact ⟨hrecord _, ⟨hd.job.mono (hsub _), hpc, hash⟩, hsub _⟩
  | @built source data pcs pc =>
    rw [pc] at hpc
    obtain ⟨hsource, hhash⟩ := hpc
    refine ⟨hrecord _, ⟨hd.job.mono (hsub _), fun source' hs => ?_⟩, hsub _⟩
    obtain rfl : source = source' := Option.some.inj (hsource.symm.trans hs)
    exact ⟨d.job, data, pcs, List.mem_cons_self .., hs, rfl, hhash⟩
  | proved pc =>
    rw [pc] at hpc
    refine ⟨hrecord _, ⟨hd.job.mono (hsub _), fun source hs => ?_⟩, hsub _⟩
    rw [hpc] at hs
    cases hs
  | failed pc next =>
    rcases next with ⟨result, rfl⟩ | ⟨err, rfl⟩ <;>
      exact ⟨ht, ⟨hd.job, trivial⟩, List.Subset.refl _⟩
  | unpersisted pc =>
    rw [pc] at hpc
    exact ⟨ht, ⟨hd.job.withBundle hpc, trivial⟩, List.Subset.refl _⟩
  | @persisted pcs s₁ pc store =>
    rw [pc] at hpc
    have hjob := hd.job.withBundle hpc
    obtain ⟨htable, hlog⟩ := storeJob_sourced hserde ht hjob store
    have hlog' : s.log ⊆ (record s₁ (.persisted d.key pcs)).log := List.subset_cons_of_subset _ hlog
    exact ⟨htable.shrink (List.subset_cons_self _ _) (fun _ _ h => h) fun _ _ h => h,
      ⟨hjob.mono hlog', fun source hs => (hpc source hs).mono hlog'⟩, hlog'⟩
  | acked pc | refused pc => exact ⟨hrecord _, ⟨hd.job.mono (hsub _), trivial⟩, hsub _⟩
  | deleted pc sql next =>
    refine ⟨ht.shrink (List.Subset.refl _) (fun key job hjob => ?_) fun _ _ h => h, ?_,
      List.Subset.refl _⟩
    · rw [jobAt_delete] at hjob
      split_ifs at hjob
      exact hjob
    · rcases next with rfl | rfl <;> exact ⟨hd.job, trivial⟩
  | cleared pc =>
    refine ⟨ht.shrink (List.Subset.refl _) (fun _ _ h => h) fun id call hcall => ?_,
      ⟨hd.job, trivial⟩, List.Subset.refl _⟩
    simp only [Table.lookup_erase_if] at hcall
    split_ifs at hcall
    exact hcall
  | released pc => exact ⟨⟨ht.rows, ht.cache⟩, ⟨hd.job, trivial⟩, List.Subset.refl _⟩
  | busy | backoff | unsent | undeleted => exact ⟨ht, ⟨hd.job, trivial⟩, List.Subset.refl _⟩

/-- A job without a source is sourced. -/
theorem sourced_of_retained {key : Key} {job : PendingPcsJob} (h : job.openCall = none) :
    Sourced env log key job := by
  refine ⟨fun source hs => ?_, fun source bundle hs => ?_⟩ <;> simp [h] at hs

/-- `retain_after_result` takes the source and the bundle from one and the same job. -/
theorem retainedJob_sourced {key : Key} {proof : Proof} {existing : Option PendingPcsJob}
    (h : ∀ job, existing = some job → Sourced env log key job) :
    Sourced env log key (retainedJob key proof existing) := by
  cases existing with
  | none => exact sourced_of_retained rfl
  | some job =>
    have hj := h job rfl
    simp only [retainedJob]
    split_ifs with hb
    · exact ⟨hj.nominated, hj.built⟩
    · refine ⟨hj.nominated, fun source bundle _ hbundle => ?_⟩
      cases hbundle

/-- The job of a nominated builder has the source of the cached call, and no bundle. -/
theorem openCallJob_sourced {pubkey : String} {request : PcsRequest} {call : PcsOpenCall}
    (ht : TableSourced env s) (hr : .requested pubkey request ∈ s.log)
    (hcached : cachedOpenCall s request.subTaskId request.leafProofHash = some call)
    (hhash : request.leafProofHash ≠ "") :
    Sourced env s.log (pubkey, request.subTaskId) (openCallJob env request call) := by
  obtain ⟨hlookup, hmatch⟩ := Option.filter_eq_some_iff.mp hcached
  obtain ⟨hannounced, hid⟩ := ht.cache _ _ hlookup
  have hsame : call.leafProofHash = request.leafProofHash := by
    rcases of_decide_eq_true hmatch with hempty | heq
    · exact absurd hempty hhash
    · exact heq
  refine ⟨fun source hs => ?_, fun source bundle _ hb => by cases hb⟩
  cases hs
  exact ⟨⟨call, hannounced, hid, rfl⟩, ⟨request, hr, rfl, hsame.symm⟩⟩

theorem thread_sourced (hserde : env.serde.RoundTrips) (ht : TableSourced env s) {t t' : Thread}
    (hthread : ThreadSourced env s.log t) (h : ThreadMove env s c t s' t') :
    TableSourced env s' ∧ ThreadSourced env s'.log t' ∧ s.log ⊆ s'.log := by
  cases h with
  | @read key proof existing read =>
    refine ⟨ht, retainedJob_sourced fun job hjob => ?_, List.Subset.refl _⟩
    rcases read with rfl | rfl
    · cases hjob
    · exact ht.rows key job hjob
  | @retained key job _ _ store next =>
    obtain ⟨htable, hlog⟩ := storeJob_sourced hserde ht hthread store
    refine ⟨htable, ?_, hlog⟩
    rcases next with rfl | ⟨-, rfl⟩
    · trivial
    · exact ⟨Sourced.mono hthread hlog, trivial⟩
  | marked store | replaced store =>
    obtain ⟨htable, hlog⟩ := storeJob_sourced hserde ht hthread store
    exact ⟨htable, ⟨Sourced.mono hthread hlog, trivial⟩, hlog⟩
  | found read requested => exact ⟨ht, ⟨ht.rows _ _ read, trivial⟩, List.Subset.refl _⟩
  | toMark read requested =>
    exact ⟨ht, ⟨(ht.rows _ _ read).nominated, (ht.rows _ _ read).built⟩, List.Subset.refl _⟩
  | toOpen cached hash =>
    exact ⟨ht, openCallJob_sourced ht hthread cached hash, List.Subset.refl _⟩
  | deliver move => exact deliver_sourced hserde ht hthread move
  | unstored | absent | again => exact ⟨ht, trivial, List.Subset.refl _⟩

theorem mem_listPendingPcs {st : PcsStorage} {entry : PendingPcs} (h : entry ∈ st.listPendingPcs) :
    ∃ row, st.rows.lookup entry.key = some row ∧ row.id = entry.id ∧ row.jobJson = entry.jobJson := by
  simp only [PcsStorage.listPendingPcs, List.mem_map, List.mem_insertionSort] at h
  obtain ⟨e, he, rfl⟩ := h
  exact ⟨e.2, Table.mem_entries.mp he, rfl, rfl⟩

/-- The rows that are listed have their jobs. -/
theorem jobAt_of_mem_list {st : PcsStorage} {entry : PendingPcs} (h : entry ∈ st.listPendingPcs)
    {job : PendingPcsJob} (hjob : env.serde.fromSlice entry.jobJson = .ok job) :
    jobAt env st entry.key = some job := by
  obtain ⟨row, hrow, -, hjson⟩ := mem_listPendingPcs h
  rw [jobAt, hrow, Option.bind_some, hjson, hjob]
  rfl

theorem retry_sourced (hserde : env.serde.RoundTrips) (ht : TableSourced env s) {r r' : RetryPc}
    (hr : RetrySourced env s.log r) (h : RetryMove env s c r s' r') :
    TableSourced env s' ∧ RetrySourced env s'.log r' ∧ s.log ⊆ s'.log := by
  cases h with
  | listed next =>
    refine ⟨ht, ?_, List.Subset.refl _⟩
    rcases next with rfl | rfl
    · trivial
    · exact fun entry hentry job hjob => ht.rows _ _ (jobAt_of_mem_list hentry hjob)
  | through => exact ⟨ht, trivial, List.Subset.refl _⟩
  | passed => exact ⟨ht, fun entry hentry => hr entry (List.mem_cons_of_mem _ hentry),
      List.Subset.refl _⟩
  | taken read requested =>
    exact ⟨ht, ⟨⟨hr _ (List.mem_cons_self ..) _ read, trivial⟩,
      fun entry hentry => hr entry (List.mem_cons_of_mem _ hentry)⟩, List.Subset.refl _⟩
  | @pruned now entry rest job sql read requested due =>
    refine ⟨ht.shrink (List.Subset.refl _) (fun key job hjob => ?_) fun _ _ h => h,
      fun entry hentry => hr entry (List.mem_cons_of_mem _ hentry), List.Subset.refl _⟩
    exact jobAt_of_deleteById hjob
  | deliver move =>
    obtain ⟨htable, hdeliver, hlog⟩ := deliver_sourced hserde ht hr.1 move
    exact ⟨htable, ⟨hdeliver, (RetrySourced.mono (r := .entries 0 _) hr.2 hlog)⟩, hlog⟩
  | next pc next =>
    refine ⟨ht, ?_, List.Subset.refl _⟩
    rcases next with rfl | rfl <;> exact hr.2
  | bumped =>
    refine ⟨ht.shrink (List.Subset.refl _) (fun key job hjob => ?_) fun _ _ h => h, hr,
      List.Subset.refl _⟩
    rwa [jobAt_increment] at hjob
  | unbumped => exact ⟨ht, hr, List.Subset.refl _⟩

/-- Every job in the table, in a thread, in the cache or listed by the retry loop is sourced. -/
structure AllSourced (env : Env) (s : State) : Prop where
  table : TableSourced env s
  threads : ∀ t ∈ s.threads, ThreadSourced env s.log t
  retry : RetrySourced env s.log s.retry

theorem allSourced_init : AllSourced env init :=
  ⟨⟨fun key job h => by simp [init, jobAt, PcsStorage.new] at h, fun id call h => by
      simp [init] at h⟩, by simp [init], trivial⟩

theorem step_sourced (hserde : env.serde.RoundTrips) (hi : AllSourced env s)
    (h : step env s a = some s') : AllSourced env s' := by
  have happend : ∀ (e : Event) (t : Thread), ThreadSourced env (e :: s.log) t →
      AllSourced env { record s e with threads := s.threads ++ [t] } := by
    intro e t ht
    have hlog := List.subset_cons_self e s.log
    refine ⟨hi.table.shrink hlog (fun _ _ h => h) fun _ _ h => h, fun t' ht' => ?_,
      hi.retry.mono hlog⟩
    rcases List.mem_append.mp ht' with ht' | ht'
    · exact (hi.threads t' ht').mono hlog
    · exact List.mem_singleton.mp ht' ▸ ht
  cases a with
  | retain key proof =>
    cases h
    refine ⟨⟨hi.table.rows, hi.table.cache⟩, fun t ht => ?_, hi.retry⟩
    rcases List.mem_append.mp ht with ht | ht
    · exact hi.threads t ht
    · obtain rfl := List.mem_singleton.mp ht
      trivial
  | request pubkey request =>
    cases h
    refine happend _ _ ?_
    split_ifs
    · exact List.mem_cons_self ..
    · trivial
  | announce call =>
    cases h
    have hlog := List.subset_cons_self (Event.announced call) s.log
    refine ⟨⟨fun key job hjob => (hi.table.rows key job hjob).mono hlog, fun id call' hcall => ?_⟩,
      fun t ht => (hi.threads t ht).mono hlog, hi.retry.mono hlog⟩
    rw [Table.lookup_insert_if] at hcall
    split_ifs at hcall with hid
    · cases hcall
      exact ⟨List.mem_cons_self .., hid.symm⟩
    · exact ⟨hlog (hi.table.cache id call' hcall).1, (hi.table.cache id call' hcall).2⟩
  | thread i c =>
    obtain ⟨t, t₁, s₁, hget, ht, rfl⟩ := step_thread h
    have hmove := threadStep_move ht
    obtain ⟨htable, hthread, hlog⟩ :=
      thread_sourced hserde hi.table (hi.threads t (List.mem_of_getElem? hget)) hmove
    obtain ⟨hthreads, hretry⟩ := hmove.frame
    refine ⟨⟨htable.rows, htable.cache⟩, fun t' ht' => ?_, hretry ▸ hi.retry.mono hlog⟩
    simp only [hthreads] at ht'
    rcases List.mem_or_eq_of_mem_set ht' with ht' | rfl
    · exact (hi.threads t' ht').mono hlog
    · exact hthread
  | retry c =>
    obtain ⟨s₁, hmove, heq, hthreads⟩ := retryStep_move h
    obtain ⟨htable, hretry, hlog⟩ := retry_sourced hserde hi.table hi.retry hmove
    rw [heq]
    exact ⟨⟨htable.rows, htable.cache⟩, fun t ht => (hi.threads t (hthreads ▸ ht)).mono hlog, hretry⟩
  | crash =>
    cases h
    exact ⟨⟨hi.table.rows, fun id call h => by simp [init] at h⟩, by simp [init], trivial⟩

/-! ### Every bundle -/

/-- A call that delivers, on its own or in the retry loop. -/
def Delivering (s : State) (d : Deliver) : Prop :=
  .deliver d ∈ s.threads ∨ ∃ now entry rest, s.retry = .deliver now entry d rest

/-- The bundle of an open-call job, stored or about to be sent, was built for the job's source,
which the orchestrator has named. -/
structure BundlesSourced (env : Env) (s : State) : Prop where
  rows : ∀ key job source bundle, jobAt env s.storage key = some job →
    job.openCall = some source → job.leafPcsB64 = some bundle →
    BuiltFrom env s.log key source bundle ∧ Nominated s.log key source.leafProofHash
  sends : ∀ d source bundle, Delivering s d → d.pc = .send bundle → d.job.openCall = some source →
    BuiltFrom env s.log d.key source bundle ∧ Nominated s.log d.key source.leafProofHash

theorem AllSourced.bundles (hi : AllSourced env s) : BundlesSourced env s := by
  refine ⟨fun key job source bundle hjob hs hb => ?_, fun d source bundle hd hpc hs => ?_⟩
  · have hj := hi.table.rows key job hjob
    exact ⟨hj.built source bundle hs hb, hj.nominated source hs⟩
  · have hdeliver : DeliverSourced env s.log d := by
      rcases hd with hmem | ⟨now, entry, rest, hretry⟩
      · exact hi.threads _ hmem
      · have hr := hi.retry
        rw [hretry] at hr
        exact hr.1
    have hsend := hdeliver.pc
    rw [hpc] at hsend
    exact ⟨hsend source hs, hdeliver.job.nominated source hs⟩

/-- **In every state reached** each bundle of an open-call job was built for its source. -/
theorem sourced (hserde : env.serde.RoundTrips) {acts : List Act}
    (h : run (step env) init acts = some s) : BundlesSourced env s :=
  (run_inv (fun _ _ _ => step_sourced hserde) allSourced_init h).bundles

end WqcNode.Application.PcsOpenCalls
