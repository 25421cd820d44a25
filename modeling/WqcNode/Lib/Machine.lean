import Mathlib.Data.Finset.Erase
import Mathlib.Data.Finset.Insert
import Mathlib.Data.List.Infix
import Mathlib.Algebra.BigOperators.Group.List.Basic

/-! # Machines: runs of a partial step function

A machine is a step function `step : σ → α → Option σ`: the action `a` can be taken in `s` if
`step s a` is `some`, and then leads there. Whatever the environment decides (the outcome of a
call, which thread moves next) is part of the action, so a run is a list of actions.

* `run_inv`: what holds at the start and is kept by every step holds after every run.
* `StepsMeet`: every step of a run meets a condition on the action and the state before it.
  `run_inv_of_stepsMeet` is the invariant rule for such runs, `always_iff_stepsMeet` the exact one.
* `exists_meeting_run`: the measure rule, for what can be reached.
* `observe`: the machine with an observer beside it, who takes note of every step.
* `answers`: what a machine that answers every action says to a list of them; `answers_eq_of_sim` is
  the simulation rule for two states.
* `Exclusive`: a set of claimed names as a guard, so that a name is held at one place at a time. -/

namespace WqcNode.Lib.Machine

variable {σ α : Type*} (step : σ → α → Option σ)

/-- The state after the actions `as`, if each of them can be taken. -/
def run : σ → List α → Option σ
  | s, [] => some s
  | s, a :: as => (step s a).bind fun s' => run s' as

/-- Every step of the run of `as` from `s` meets `p` in the state before it. -/
def StepsMeet (p : σ → α → Prop) : σ → List α → Prop
  | _, [] => True
  | s, a :: as => p s a ∧ ∀ s', step s a = some s' → StepsMeet p s' as

variable {step}

@[simp] theorem run_nil (s : σ) : run step s [] = some s := rfl

theorem run_cons (s : σ) (a : α) (as : List α) :
    run step s (a :: as) = (step s a).bind fun s' => run step s' as := rfl

theorem run_cons_some {s t : σ} {a : α} {as : List α} :
    run step s (a :: as) = some t ↔ ∃ s', step s a = some s' ∧ run step s' as = some t := by
  rw [run_cons, Option.bind_eq_some_iff]

theorem run_append (s : σ) (as bs : List α) :
    run step s (as ++ bs) = (run step s as).bind fun s' => run step s' bs := by
  induction as generalizing s with
  | nil => rfl
  | cons a as ih =>
    rw [List.cons_append, run_cons, run_cons, Option.bind_assoc]
    congr 1
    funext s'
    exact ih s'

theorem run_append_some {s t : σ} {as bs : List α} :
    run step s (as ++ bs) = some t ↔ ∃ s', run step s as = some s' ∧ run step s' bs = some t := by
  rw [run_append, Option.bind_eq_some_iff]

theorem run_snoc {s t t' : σ} {as : List α} {a : α} (h : run step s as = some t)
    (ha : step t a = some t') : run step s (as ++ [a]) = some t' :=
  run_append_some.mpr ⟨t, h, run_cons_some.mpr ⟨t', ha, rfl⟩⟩

instance StepsMeet.decidable {p : σ → α → Prop} [∀ s a, Decidable (p s a)] :
    ∀ (s : σ) (as : List α), Decidable (StepsMeet step p s as)
  | _, [] => isTrue trivial
  | s, a :: as =>
    match h : step s a with
    | none => decidable_of_iff (p s a)
        ⟨fun hok => ⟨hok, fun s' hs' => by rw [h] at hs'; cases hs'⟩, fun hm => hm.1⟩
    | some s₁ =>
      have := StepsMeet.decidable (p := p) s₁ as
      decidable_of_iff (p s a ∧ StepsMeet step p s₁ as)
        ⟨fun hm => ⟨hm.1, fun s' hs' => by rw [h] at hs'; cases hs'; exact hm.2⟩,
          fun hm => ⟨hm.1, hm.2 s₁ h⟩⟩

theorem StepsMeet.and {p p' : σ → α → Prop} : ∀ {s : σ} {as : List α}, StepsMeet step p s as →
    StepsMeet step p' s as → StepsMeet step (fun s a => p s a ∧ p' s a) s as
  | _, [], _, _ => trivial
  | _, _ :: _, h, h' => ⟨⟨h.1, h'.1⟩, fun s' hs => (h.2 s' hs).and (h'.2 s' hs)⟩

theorem stepsMeet_append {p : σ → α → Prop} {s : σ} {as bs : List α} :
    StepsMeet step p s (as ++ bs) ↔
      StepsMeet step p s as ∧ ∀ s', run step s as = some s' → StepsMeet step p s' bs := by
  induction as generalizing s with
  | nil => simp [StepsMeet]
  | cons a as ih =>
    simp only [List.cons_append, StepsMeet, ih, run_cons_some]
    constructor
    · rintro ⟨hp, hrest⟩
      exact ⟨⟨hp, fun s' hs => (hrest s' hs).1⟩, fun t ⟨s', hs, hr⟩ => (hrest s' hs).2 t hr⟩
    · rintro ⟨⟨hp, hrest⟩, hbs⟩
      exact ⟨hp, fun s' hs => ⟨hrest s' hs, fun t hr => hbs t ⟨s', hs, hr⟩⟩⟩

/-- One step before a run whose steps meet `p`. -/
theorem run_meets_cons {p : σ → α → Prop} {s s' t : σ} {a : α} {as : List α} (hp : p s a)
    (hs : step s a = some s') (h : run step s' as = some t ∧ StepsMeet step p s' as) :
    run step s (a :: as) = some t ∧ StepsMeet step p s (a :: as) := by
  refine ⟨run_cons_some.mpr ⟨s', hs, h.1⟩, hp, fun s₁ hs₁ => ?_⟩
  obtain rfl := Option.some.inj (hs.symm.trans hs₁)
  exact h.2

theorem run_meets_append {p : σ → α → Prop} {s s' t : σ} {as bs : List α}
    (hs : run step s as = some s') (hp : StepsMeet step p s as)
    (h : run step s' bs = some t ∧ StepsMeet step p s' bs) :
    run step s (as ++ bs) = some t ∧ StepsMeet step p s (as ++ bs) := by
  refine ⟨run_append_some.mpr ⟨s', hs, h.1⟩, stepsMeet_append.mpr ⟨hp, fun s₁ hs₁ => ?_⟩⟩
  obtain rfl := Option.some.inj (hs.symm.trans hs₁)
  exact h.2

/-- **The invariant rule**, for runs whose steps all meet `p`. -/
theorem run_inv_of_stepsMeet {p : σ → α → Prop} {I : σ → Prop}
    (hstep : ∀ s a s', I s → p s a → step s a = some s' → I s') {s t : σ} {as : List α}
    (h0 : I s) (hok : StepsMeet step p s as) (h : run step s as = some t) : I t := by
  induction as generalizing s with
  | nil =>
    cases h
    exact h0
  | cons a as ih =>
    obtain ⟨s', hs, hr⟩ := run_cons_some.mp h
    exact ih (hstep s a s' h0 hok.1 hs) (hok.2 s' hs) hr

theorem stepsMeet_of_forall {p : α → Prop} : ∀ {as : List α}, (∀ a ∈ as, p a) → ∀ s : σ,
    StepsMeet step (fun _ a => p a) s as
  | [], _, _ => trivial
  | _ :: _, h, _ =>
    ⟨h _ (List.mem_cons_self ..), fun s' _ =>
      stepsMeet_of_forall (fun a ha => h a (List.mem_cons_of_mem _ ha)) s'⟩

/-- A condition that each action meets in the state its run has reached. -/
theorem stepsMeet_of_split {p : σ → α → Prop} {s : σ} {as : List α}
    (h : ∀ before a later u, as = before ++ a :: later → run step s before = some u → p u a) :
    StepsMeet step p s as := by
  induction as generalizing s with
  | nil => trivial
  | cons a as ih =>
    refine ⟨h [] a as s rfl rfl, fun s' hs => ih fun before b later u heq hu => ?_⟩
    exact h (a :: before) b later u (congrArg (a :: ·) heq) (run_cons_some.mpr ⟨s', hs, hu⟩)

/-- **The invariant rule**, for runs of actions that all satisfy `p`. -/
theorem run_inv_of_forall {p : α → Prop} {I : σ → Prop}
    (hstep : ∀ s a s', I s → p a → step s a = some s' → I s') {s t : σ} {as : List α}
    (h0 : I s) (hok : ∀ a ∈ as, p a) (h : run step s as = some t) : I t :=
  run_inv_of_stepsMeet hstep h0 (stepsMeet_of_forall hok s) h

/-- **The invariant rule.** -/
theorem run_inv {I : σ → Prop} (hstep : ∀ s a s', I s → step s a = some s' → I s')
    {s t : σ} {as : List α} (h0 : I s) (h : run step s as = some t) : I t :=
  run_inv_of_forall (p := fun _ => True) (fun s a s' hi _ => hstep s a s' hi) h0
    (fun _ _ => trivial) h

/-- **The invariant rule**, for an invariant that looks back at the actions taken so far. -/
theorem run_inv_past {p : α → Prop} {I : List α → σ → Prop}
    (hstep : ∀ past s a s', I past s → p a → step s a = some s' → I (past ++ [a]) s')
    {s t : σ} {past as : List α} (h0 : I past s) (hok : ∀ a ∈ as, p a) (h : run step s as = some t) :
    I (past ++ as) t := by
  induction as generalizing s past with
  | nil =>
    cases h
    rwa [List.append_nil]
  | cons a as ih =>
    obtain ⟨s', hs, hr⟩ := run_cons_some.mp h
    have hnext := ih (hstep past s a s' h0 (hok a (List.mem_cons_self ..)) hs)
      (fun b hb => hok b (List.mem_cons_of_mem _ hb)) hr
    rwa [List.append_assoc, List.singleton_append] at hnext

theorem forall_of_stepsMeet {p : α → Prop} {s t : σ} {as : List α}
    (hok : StepsMeet step (fun _ a => p a) s as) (h : run step s as = some t) : ∀ a ∈ as, p a := by
  induction as generalizing s with
  | nil => exact fun _ h => absurd h List.not_mem_nil
  | cons a as ih =>
    obtain ⟨s', hs, hr⟩ := run_cons_some.mp h
    rintro b (_ | ⟨_, hb⟩)
    · exact hok.1
    · exact ih (hok.2 s' hs) hr b hb

/-- **The measure rule.** If from every state with `I` that is not yet one of `Q` some action that
meets `p` leads to a state with `I` and a smaller measure, then a run of such actions leads to `Q`. -/
theorem exists_meeting_run {p : σ → α → Prop} {I Q : σ → Prop} (measure : σ → ℕ)
    (hprogress : ∀ s, I s → ¬ Q s →
      ∃ a s', p s a ∧ step s a = some s' ∧ I s' ∧ measure s' < measure s) {s : σ} (h0 : I s) :
    ∃ as t, StepsMeet step p s as ∧ run step s as = some t ∧ I t ∧ Q t := by
  induction hn : measure s using Nat.strongRecOn generalizing s with
  | ind n ih =>
    by_cases hQ : Q s
    · exact ⟨[], s, trivial, rfl, h0, hQ⟩
    · obtain ⟨a, s', hok, hstep, hI, hlt⟩ := hprogress s h0 hQ
      obtain ⟨as, t, hall, hrun, hgoal⟩ := ih (measure s') (hn ▸ hlt) hI rfl
      refine ⟨a :: as, t, ⟨hok, fun s₁ hs₁ => ?_⟩, run_cons_some.mpr ⟨s', hstep, hrun⟩, hgoal⟩
      obtain rfl : s' = s₁ := Option.some.inj (hstep.symm.trans hs₁)
      exact hall

/-- The measure rule, for actions that are `ok` in every state. -/
theorem exists_run_of_measure {ok : α → Prop} {I Q : σ → Prop} (measure : σ → ℕ)
    (hprogress : ∀ s, I s → ¬ Q s →
      ∃ a s', ok a ∧ step s a = some s' ∧ I s' ∧ measure s' < measure s) {s : σ} (h0 : I s) :
    ∃ as t, (∀ a ∈ as, ok a) ∧ run step s as = some t ∧ I t ∧ Q t := by
  obtain ⟨as, t, hall, hrun, hgoal⟩ := exists_meeting_run measure hprogress h0
  exact ⟨as, t, forall_of_stepsMeet hall hrun, hrun, hgoal⟩

/-- Actions that change nothing can be left out of a run. -/
theorem run_filter {keep : α → Bool}
    (hidle : ∀ s a s', keep a = false → step s a = some s' → s' = s) {s t : σ} {as : List α}
    (h : run step s as = some t) : run step s (as.filter keep) = some t := by
  induction as generalizing s with
  | nil => exact h
  | cons a as ih =>
    obtain ⟨s', hs, hr⟩ := run_cons_some.mp h
    cases hk : keep a with
    | true =>
      rw [List.filter_cons_of_pos hk]
      exact run_cons_some.mpr ⟨s', hs, ih hr⟩
    | false =>
      rw [List.filter_cons_of_neg (by rw [hk]; exact Bool.false_ne_true)]
      obtain rfl := hidle s a s' hk hs
      exact ih hr

/-- **The exact rule**: where a step keeps `I` exactly if it meets `p`, `I` holds all along a run
exactly if all its steps meet `p`. -/
theorem always_iff_stepsMeet {p : σ → α → Prop} {I : σ → Prop}
    (hstep : ∀ s a s', I s → step s a = some s' → (I s' ↔ p s a)) {s t : σ} {as : List α}
    (h0 : I s) (h : run step s as = some t) :
    (∀ bs u, bs <+: as → run step s bs = some u → I u) ↔ StepsMeet step p s as := by
  induction as generalizing s with
  | nil =>
    refine ⟨fun _ => trivial, fun _ bs u hbs hu => ?_⟩
    obtain rfl := List.prefix_nil.mp hbs
    cases hu
    exact h0
  | cons a as ih =>
    obtain ⟨s', hs, hr⟩ := run_cons_some.mp h
    constructor
    · intro hall
      have h1 : I s' := hall [a] s' (List.prefix_append [a] as) (run_cons_some.mpr ⟨s', hs, rfl⟩)
      refine ⟨(hstep s a s' h0 hs).mp h1, fun s'' hs'' => ?_⟩
      cases hs.symm.trans hs''
      refine (ih h1 hr).mp fun bs u hbs hu => ?_
      exact hall (a :: bs) u (List.cons_prefix_cons.mpr ⟨rfl, hbs⟩) (run_cons_some.mpr ⟨s', hs, hu⟩)
    · rintro ⟨hok, hrest⟩ bs u hbs hu
      have h1 : I s' := (hstep s a s' h0 hs).mpr hok
      rcases bs with _ | ⟨b, bs⟩
      · cases hu
        exact h0
      · obtain ⟨rfl, htail⟩ := List.cons_prefix_cons.mp hbs
        obtain ⟨s'', hs'', hu⟩ := run_cons_some.mp hu
        cases hs.symm.trans hs''
        exact (ih h1 hr).mpr (hrest s' hs) bs u htail hu

/-! ### Observers -/

/-- The machine with an observer, who takes note of every step. -/
def observe {ω : Type*} (step : σ → α → Option σ) (see : ω → σ → α → σ → ω) (x : σ × ω) (a : α) :
    Option (σ × ω) :=
  (step x.1 a).map fun s' => (s', see x.2 x.1 a s')

/-- Every run can be observed. -/
theorem run_observe {ω : Type*} (see : ω → σ → α → σ → ω) {s t : σ} {as : List α}
    (h : run step s as = some t) (o : ω) : ∃ o', run (observe step see) (s, o) as = some (t, o') := by
  induction as generalizing s o with
  | nil =>
    cases h
    exact ⟨o, rfl⟩
  | cons a as ih =>
    obtain ⟨s', hs, hr⟩ := run_cons_some.mp h
    obtain ⟨o', ho⟩ := ih hr (see o s a s')
    exact ⟨o', run_cons_some.mpr ⟨(s', see o s a s'), by rw [observe, hs]; rfl, ho⟩⟩

theorem run_of_observe {ω : Type*} {see : ω → σ → α → σ → ω} {s t : σ} {o o' : ω} {as : List α}
    (h : run (observe step see) (s, o) as = some (t, o')) : run step s as = some t := by
  induction as generalizing s o with
  | nil =>
    cases h
    rfl
  | cons a as ih =>
    obtain ⟨⟨s', o₁⟩, hs, hr⟩ := run_cons_some.mp h
    obtain ⟨s₁, hs₁, heq⟩ := Option.map_eq_some_iff.mp hs
    cases heq
    exact run_cons_some.mpr ⟨s', hs₁, ih hr⟩

/-! ### Answers -/

section Answers

variable {β : Type*}

/-- The answers to the actions, one after the other. -/
def answers (step : σ → α → σ × β) : σ → List α → List β
  | _, [] => []
  | s, a :: as => (step s a).2 :: answers step (step s a).1 as

/-- **The simulation rule**: two states that are related give the same answers, if every action does
and leaves them related. -/
theorem answers_eq_of_sim {step : σ → α → σ × β} {R : σ → σ → Prop} {p : α → Prop}
    (hstep : ∀ s s' a, R s s' → p a →
      (step s a).2 = (step s' a).2 ∧ R (step s a).1 (step s' a).1)
    {s s' : σ} {as : List α} (h : R s s') (has : ∀ a ∈ as, p a) :
    answers step s as = answers step s' as := by
  induction as generalizing s s' with
  | nil => rfl
  | cons a as ih =>
    obtain ⟨hanswer, hnext⟩ := hstep s s' a h (has a (List.mem_cons_self ..))
    rw [answers, answers, hanswer, ih hnext fun b hb => has b (List.mem_cons_of_mem _ hb)]

end Answers

/-! ### Guards

A place takes a name by adding it to the set of taken names, if it is not there, and gives it back
by removing it. -/

section Guards

variable {π ι : Type*}

/-- The names that are held are taken, each at one place. -/
structure Exclusive (held : π → Option ι) (taken : Finset ι) : Prop where
  taken : ∀ p i, held p = some i → i ∈ taken
  unique : ∀ p q i, held p = some i → held q = some i → p = q

variable {held held' : π → Option ι} {taken : Finset ι} {p : π} {i : ι}

theorem Exclusive.mono (h : Exclusive held taken) (hsub : ∀ p i, held' p = some i → held p = some i) :
    Exclusive held' taken :=
  ⟨fun p i hp => h.taken p i (hsub p i hp),
    fun p q i hp hq => h.unique p q i (hsub p i hp) (hsub q i hq)⟩

variable [DecidableEq π] [DecidableEq ι]

theorem Exclusive.claim (h : Exclusive held taken) (hfree : i ∉ taken) :
    Exclusive (Function.update held p (some i)) (insert i taken) := by
  have hheld : ∀ q j, Function.update held p (some i) q = some j →
      q = p ∧ j = i ∨ held q = some j ∧ j ≠ i := by
    intro q j hq
    rw [Function.update_apply] at hq
    split_ifs at hq with hqp
    · exact .inl ⟨hqp, (Option.some.inj hq).symm⟩
    · refine .inr ⟨hq, ?_⟩
      rintro rfl
      exact hfree (h.taken q j hq)
  refine ⟨fun q j hq => ?_, fun q r j hq hr => ?_⟩
  · rcases hheld q j hq with ⟨-, rfl⟩ | ⟨hq, -⟩
    · exact Finset.mem_insert_self ..
    · exact Finset.mem_insert_of_mem (h.taken q j hq)
  · rcases hheld q j hq with ⟨rfl, rfl⟩ | ⟨hq, hne⟩ <;> rcases hheld r j hr with ⟨rfl, hji⟩ | ⟨hr, hne'⟩
    · rfl
    · exact absurd rfl hne'
    · exact absurd hji hne
    · exact h.unique q r j hq hr

theorem Exclusive.release (h : Exclusive held taken) (hp : held p = some i) :
    Exclusive (Function.update held p none) (taken.erase i) := by
  have hheld : ∀ q j, Function.update held p none q = some j → held q = some j ∧ q ≠ p := by
    intro q j hq
    rw [Function.update_apply] at hq
    split_ifs at hq with hqp
    exact ⟨hq, hqp⟩
  refine ⟨fun q j hq => ?_, fun q r j hq hr => h.unique q r j (hheld q j hq).1 (hheld r j hr).1⟩
  obtain ⟨hq, hne⟩ := hheld q j hq
  refine Finset.mem_erase.mpr ⟨?_, h.taken q j hq⟩
  rintro rfl
  exact hne (h.unique q p j hq hp)

/-- The names that are held are taken, each at one place, and no other name is. -/
structure Guarded (held : π → Option ι) (names : Finset ι) : Prop extends Exclusive held names where
  owner : ∀ i ∈ names, ∃ p, held p = some i

theorem Guarded.claim (h : Guarded held taken) (hp : held p = none) (hfree : i ∉ taken) :
    Guarded (Function.update held p (some i)) (insert i taken) := by
  refine ⟨h.toExclusive.claim hfree, fun j hj => ?_⟩
  rcases Finset.mem_insert.mp hj with rfl | hj
  · exact ⟨p, Function.update_self ..⟩
  · obtain ⟨q, hq⟩ := h.owner j hj
    have hqp : q ≠ p := by
      rintro rfl
      rw [hp] at hq
      cases hq
    exact ⟨q, by rw [Function.update_of_ne hqp, hq]⟩

theorem Guarded.release (h : Guarded held taken) (hp : held p = some i) :
    Guarded (Function.update held p none) (taken.erase i) := by
  refine ⟨h.toExclusive.release hp, fun j hj => ?_⟩
  obtain ⟨hne, hj⟩ := Finset.mem_erase.mp hj
  obtain ⟨q, hq⟩ := h.owner j hj
  have hqp : q ≠ p := by
    rintro rfl
    exact hne (Option.some.inj (hq.symm.trans hp))
  exact ⟨q, by rw [Function.update_of_ne hqp, hq]⟩

end Guards

/-! ### Threads

The threads of a machine are kept in a list, and a step of one replaces it. -/

/-- A sum over all threads when one of them steps from `a` to `b`. -/
theorem sum_map_set {τ M : Type*} [AddCommMonoid M] (f : τ → M) :
    ∀ {l : List τ} {i : ℕ} {a : τ}, l[i]? = some a →
      ∀ b, ((l.set i b).map f).sum + f a = (l.map f).sum + f b
  | [], _, _, h, _ => by simp at h
  | x :: l, 0, a, h, b => by
    obtain rfl : x = a := by simpa using h
    simp only [List.set_cons_zero, List.map_cons, List.sum_cons]
    rw [add_right_comm, add_comm (f b), add_assoc, add_comm (f b), ← add_assoc]
  | x :: l, i + 1, a, h, b => by
    have ih := sum_map_set f (l := l) (i := i) (by simpa using h) b
    simp only [List.set_cons_succ, List.map_cons, List.sum_cons]
    rw [add_assoc, ih, add_assoc]

end WqcNode.Lib.Machine
