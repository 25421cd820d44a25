import Mathlib.Data.List.Basic

/-! # Trying a bounded number of times

A sender makes one attempt after the other, stops at the first that succeeds, and gives up after the
last it may make.

* `next`: one attempt of the loop;
* `Outcomes`: what the outcomes so far have to do with where the loop stands; it holds at the start
  (`outcomes_start`) and after each attempt (`Outcomes.next`), and bounds the attempts
  (`Outcomes.length_le`);
* `Bounded`: of a log of the attempts of many such senders side by side, that each sends one body, a
  bounded number of times, and nothing after it succeeded;
* `Counted`: the invariant of a system of such senders, with a rule for each thing that can happen:
  one starts (`Counted.start`), one steps (`Counted.move`), all stop (`Counted.clear`). -/

namespace WqcNode.Lib.Retry

variable {ε : Type*}

/-- Where the loop stands. -/
inductive Pc (ε : Type*)
  /-- before the attempt with this number -/
  | attempt (n : ℕ)
  | stopped (result : Except ε Unit)

/-- The attempt `n` has ended. -/
def next (maxAttempts n : ℕ) : Except ε Unit → Pc ε
  | .ok () => .stopped (.ok ())
  | .error e => if n + 1 < maxAttempts then .attempt (n + 1) else .stopped (.error e)

/-- The outcomes, first to last, of the attempts that led to where the loop stands. -/
inductive Outcomes (maxAttempts : ℕ) : List (Except ε Unit) → Pc ε → Prop
  | trying {errors : List ε} (more : errors.length < maxAttempts) :
      Outcomes maxAttempts (errors.map .error) (.attempt errors.length)
  | succeeded {errors : List ε} (more : errors.length < maxAttempts) :
      Outcomes maxAttempts (errors.map .error ++ [.ok ()]) (.stopped (.ok ()))
  | gaveUp {errors : List ε} {e : ε} (all : errors.length + 1 = maxAttempts) :
      Outcomes maxAttempts (errors.map .error ++ [.error e]) (.stopped (.error e))

variable {maxAttempts n : ℕ} {outcomes : List (Except ε Unit)} {pc : Pc ε} {outcome : Except ε Unit}

theorem outcomes_start (h : 0 < maxAttempts) :
    Outcomes maxAttempts ([] : List (Except ε Unit)) (.attempt 0) := by
  show Outcomes maxAttempts (([] : List ε).map .error) (.attempt ([] : List ε).length)
  exact .trying h

/-- **The attempt rule.** -/
theorem Outcomes.next (h : Outcomes maxAttempts outcomes (.attempt n)) :
    Outcomes maxAttempts (outcomes ++ [outcome]) (next maxAttempts n outcome) := by
  cases h with
  | @trying errors more =>
    unfold Retry.next
    split
    · exact .succeeded more
    · next e =>
      split_ifs with hmore
      · have hsnoc : Outcomes maxAttempts ((errors ++ [e]).map .error)
            (.attempt (errors ++ [e]).length) :=
          .trying (by simpa using hmore)
        simpa using hsnoc
      · exact .gaveUp (by omega)

theorem Outcomes.length_le (h : Outcomes maxAttempts outcomes pc) : outcomes.length ≤ maxAttempts := by
  cases h with
  | trying more =>
    rw [List.length_map]
    omega
  | succeeded more | gaveUp all =>
    simp only [List.length_append, List.length_map, List.length_singleton]
    omega

/-- Nothing follows a success. -/
theorem Outcomes.ok_last (h : Outcomes maxAttempts outcomes pc) {before after : List (Except ε Unit)}
    (heq : outcomes = before ++ .ok () :: after) : after = [] ∧ pc = .stopped (.ok ()) := by
  have hnot : ∀ errors : List ε, Except.ok () ∉ errors.map Except.error := by simp
  cases h with
  | @trying errors more => exact absurd (by simp [heq]) (hnot errors)
  | @succeeded errors more =>
    rcases List.eq_nil_or_concat after with rfl | ⟨after', last, rfl⟩
    · exact ⟨rfl, rfl⟩
    · have hinit : errors.map Except.error = before ++ .ok () :: after' := by
        have hsnoc : errors.map Except.error ++ [.ok ()] = (before ++ .ok () :: after') ++ [last] := by
          simpa using heq
        exact (List.append_inj' hsnoc rfl).1
      exact absurd (by simp [hinit]) (hnot errors)
  | @gaveUp errors e all =>
    refine absurd ?_ (hnot (errors ++ [e]))
    rw [List.map_append, List.map_singleton, heq]
    simp

/-- It stops with the last outcome. -/
theorem Outcomes.stopped {result : Except ε Unit} (h : Outcomes maxAttempts outcomes (.stopped result)) :
    outcomes.getLast? = some result := by
  cases h with
  | succeeded | gaveUp => exact List.getLast?_concat

/-! ### Senders side by side -/

structure Attempt (β ε : Type*) where
  sender : ℕ
  body : β
  outcome : Except ε Unit

section Senders

variable {β : Type*} {log : List (Attempt β ε)} {i j : ℕ} {body : β}

/-- The attempts of one sender, first to last. -/
def ofSender (log : List (Attempt β ε)) (i : ℕ) : List (Attempt β ε) := log.filter (·.sender == i)

/-- Where the loop of a sender stands, from the log. -/
structure Stands (maxAttempts : ℕ) (log : List (Attempt β ε)) (i : ℕ) (body : β) (pc : Pc ε) : Prop where
  body : ∀ x ∈ ofSender log i, x.body = body
  outcomes : Outcomes maxAttempts ((ofSender log i).map (·.outcome)) pc

theorem ofSender_append (x : Attempt β ε) :
    ofSender (log ++ [x]) i = ofSender log i ++ if x.sender = i then [x] else [] := by
  unfold ofSender
  rw [List.filter_append]
  by_cases h : x.sender = i <;> simp [h]

/-- The attempt rule, in the log. -/
theorem Stands.attempt (h : Stands maxAttempts log i body (.attempt n)) (outcome : Except ε Unit) :
    Stands maxAttempts (log ++ [⟨i, body, outcome⟩]) i body (Retry.next maxAttempts n outcome) := by
  refine ⟨fun x hx => ?_, ?_⟩
  · rw [ofSender_append, if_pos rfl] at hx
    rcases List.mem_append.mp hx with hx | hx
    · exact h.body x hx
    · rw [List.mem_singleton.mp hx]
  · rw [ofSender_append, if_pos rfl, List.map_append]
    exact h.outcomes.next

/-- What another sender does is nothing to it. -/
theorem Stands.other (h : Stands maxAttempts log i body pc) {x : Attempt β ε} (hx : x.sender ≠ i) :
    Stands maxAttempts (log ++ [x]) i body pc := by
  have hsame : ofSender (log ++ [x]) i = ofSender log i := by
    rw [ofSender_append, if_neg hx, List.append_nil]
  exact ⟨by rw [hsame]; exact h.body, by rw [hsame]; exact h.outcomes⟩

theorem ofSender_eq_nil (h : ∀ x ∈ log, x.sender ≠ i) : ofSender log i = [] :=
  List.filter_eq_nil_iff.mpr fun x hx => by simpa using h x hx

/-- A sender that has sent nothing. -/
theorem stands_start (hmax : 0 < maxAttempts) (hnone : ofSender log i = []) (body : β) :
    Stands maxAttempts log i body (.attempt 0) := by
  refine ⟨fun x hx => ?_, ?_⟩
  · rw [hnone] at hx
    cases hx
  · rw [hnone]
    exact outcomes_start hmax

/-- Every sender has sent one body, at most so many times, and nothing after a success. -/
structure Bounded (maxAttempts : ℕ) (log : List (Attempt β ε)) (i : ℕ) : Prop where
  count : (ofSender log i).length ≤ maxAttempts
  body : ∀ x ∈ ofSender log i, ∀ y ∈ ofSender log i, x.body = y.body
  last : ∀ before x after, ofSender log i = before ++ x :: after → x.outcome = .ok () → after = []

theorem bounded_of_eq_nil (hnone : ofSender log i = []) : Bounded maxAttempts log i := by
  refine ⟨by simp [hnone], fun x hx => ?_, fun before x after heq _ => ?_⟩
  · rw [hnone] at hx
    cases hx
  · rw [hnone] at heq
    simp at heq

theorem Bounded.other (h : Bounded maxAttempts log i) {x : Attempt β ε} (hx : x.sender ≠ i) :
    Bounded maxAttempts (log ++ [x]) i := by
  have hsame : ofSender (log ++ [x]) i = ofSender log i := by
    rw [ofSender_append, if_neg hx, List.append_nil]
  exact ⟨hsame ▸ h.count, hsame ▸ h.body, hsame ▸ h.last⟩

theorem Stands.bounded (h : Stands maxAttempts log i body pc) : Bounded maxAttempts log i := by
  refine ⟨?_, fun x hx y hy => (h.body x hx).trans (h.body y hy).symm, ?_⟩
  · have hle := h.outcomes.length_le
    rwa [List.length_map] at hle
  · intro before x after heq hok
    have houtcomes : (ofSender log i).map (·.outcome) =
        before.map (·.outcome) ++ .ok () :: after.map (·.outcome) := by
      rw [heq, List.map_append, List.map_cons, hok]
    exact List.map_eq_nil_iff.mp (h.outcomes.ok_last houtcomes).1

/-- So many senders make so many attempts together. -/
theorem length_le {n : ℕ} (hlt : ∀ x ∈ log, x.sender < n) (hb : ∀ i < n, Bounded maxAttempts log i) :
    log.length ≤ maxAttempts * n := by
  have hsplit : ∀ (log : List (Attempt β ε)) (k : ℕ), (log.filter (·.sender < k + 1)).length =
      (log.filter (·.sender < k)).length + (ofSender log k).length := by
    intro log k
    induction log with
    | nil => rfl
    | cons x log ih =>
      unfold ofSender at ih ⊢
      simp only [List.filter_cons, decide_eq_true_eq, beq_iff_eq]
      rcases Nat.lt_trichotomy x.sender k with hx | hx | hx
      · rw [if_pos (show x.sender < k + 1 by omega), if_pos hx, if_neg (show x.sender ≠ k by omega),
          List.length_cons, List.length_cons, ih]
        omega
      · rw [if_pos (show x.sender < k + 1 by omega), if_neg (show ¬ x.sender < k by omega), if_pos hx,
          List.length_cons, List.length_cons, ih]
        omega
      · rw [if_neg (show ¬ x.sender < k + 1 by omega), if_neg (show ¬ x.sender < k by omega),
          if_neg (show x.sender ≠ k by omega), ih]
  have hle : ∀ k ≤ n, (log.filter (·.sender < k)).length ≤ maxAttempts * k := by
    intro k
    induction k with
    | zero => simp
    | succ k ih =>
      intro hk
      have hcount := (hb k (by omega)).count
      have hrest := ih (by omega)
      rw [hsplit, Nat.mul_succ]
      omega
  have hall : log.filter (·.sender < n) = log := List.filter_eq_self.mpr fun x hx => by simpa using hlt x hx
  have hmax := hle n (Nat.le_refl n)
  rwa [hall] at hmax

/-- How a sender that has stopped ended. -/
theorem Stands.result {result : Except ε Unit} (h : Stands maxAttempts log i body (.stopped result)) :
    ∃ x, (ofSender log i).getLast? = some x ∧ x.body = body ∧ x.outcome = result := by
  have hlast := h.outcomes.stopped
  rw [List.getLast?_map] at hlast
  obtain ⟨x, hx, hres⟩ := Option.map_eq_some_iff.mp hlast
  exact ⟨x, hx, h.body x (List.mem_of_getLast? hx), hres⟩

/-! ### A system of senders -/

/-- What a sender is at. -/
inductive Phase (β ε : Type*)
  | preparing
  /-- before the attempt with this number -/
  | sending (body : β) (n : ℕ)
  | sent (result : Except ε Unit)
  /-- ended without an attempt -/
  | dropped

def phaseOf (body : β) : Pc ε → Phase β ε
  | .attempt n => .sending body n
  | .stopped result => .sent result

/-- The phase of a sender, from the log. -/
def InPhase (maxAttempts : ℕ) (log : List (Attempt β ε)) (i : ℕ) : Phase β ε → Prop
  | .preparing | .dropped => ofSender log i = []
  | .sending body n => Stands maxAttempts log i body (.attempt n)
  | .sent result => ∃ body, Stands maxAttempts log i body (.stopped result)

/-- What a step of a sender does to its phase and to the log. -/
inductive PhaseStep (maxAttempts i : ℕ) : Phase β ε → Phase β ε → Option (Attempt β ε) → Prop
  | prepare : PhaseStep maxAttempts i .preparing .preparing none
  | drop : PhaseStep maxAttempts i .preparing .dropped none
  | begin (body : β) : PhaseStep maxAttempts i .preparing (.sending body 0) none
  | attempt (body : β) (n : ℕ) (outcome : Except ε Unit) :
      PhaseStep maxAttempts i (.sending body n) (phaseOf body (next maxAttempts n outcome))
        (some ⟨i, body, outcome⟩)

/-- The senders that are there, with their phases, how many there have been, and the log. -/
structure Counted (maxAttempts : ℕ) (senders : List (ℕ × Phase β ε)) (count : ℕ)
    (log : List (Attempt β ε)) : Prop where
  known : ∀ x ∈ log, x.sender < count
  below : ∀ p ∈ senders, p.1 < count
  distinct : (senders.map (·.1)).Nodup
  phases : ∀ p ∈ senders, InPhase maxAttempts log p.1 p.2
  bounded : ∀ i, Bounded maxAttempts log i

variable {senders : List (ℕ × Phase β ε)} {count : ℕ} {phase phase' : Phase β ε}

theorem counted_nil : Counted maxAttempts ([] : List (ℕ × Phase β ε)) 0 [] :=
  ⟨by simp, by simp, by simp, by simp, fun _ => bounded_of_eq_nil rfl⟩

theorem Counted.clear (h : Counted maxAttempts senders count log) : Counted maxAttempts [] count log :=
  ⟨h.known, by simp, by simp, by simp, h.bounded⟩

theorem Counted.start (h : Counted maxAttempts senders count log) :
    Counted maxAttempts (senders ++ [(count, .preparing)]) (count + 1) log := by
  refine ⟨fun x hx => Nat.lt_succ_of_lt (h.known x hx), fun p hp => ?_, ?_, fun p hp => ?_, h.bounded⟩
  · rcases List.mem_append.mp hp with hp | hp
    · exact Nat.lt_succ_of_lt (h.below p hp)
    · rw [List.mem_singleton.mp hp]
      omega
  · rw [List.map_append, List.map_singleton, List.nodup_append]
    refine ⟨h.distinct, by simp, fun a ha b hb => ?_⟩
    obtain ⟨p, hp, rfl⟩ := List.mem_map.mp ha
    have hlt := h.below p hp
    rw [List.mem_singleton.mp hb]
    exact Nat.ne_of_lt hlt
  · rcases List.mem_append.mp hp with hp | hp
    · exact h.phases p hp
    · rw [List.mem_singleton.mp hp]
      exact ofSender_eq_nil fun x hx => Nat.ne_of_lt (h.known x hx)

theorem InPhase.other (h : InPhase maxAttempts log i phase) {x : Attempt β ε} (hx : x.sender ≠ i) :
    InPhase maxAttempts (log ++ [x]) i phase := by
  have hsame : ofSender (log ++ [x]) i = ofSender log i := by
    rw [ofSender_append, if_neg hx, List.append_nil]
  cases phase with
  | preparing | dropped => exact hsame.trans h
  | sending => exact Stands.other h hx
  | sent =>
    obtain ⟨body, hbody⟩ := h
    exact ⟨body, hbody.other hx⟩

/-- **The phase rule**: a sender stands where its step leaves it. -/
theorem InPhase.step (hmax : 0 < maxAttempts) (h : InPhase maxAttempts log i phase)
    {attempt : Option (Attempt β ε)} (hs : PhaseStep maxAttempts i phase phase' attempt) :
    InPhase maxAttempts (log ++ attempt.toList) i phase' := by
  cases hs with
  | prepare | drop => rwa [Option.toList_none, List.append_nil]
  | begin body =>
    rw [Option.toList_none, List.append_nil]
    exact stands_start hmax h body
  | attempt body n outcome =>
    have hnext := Stands.attempt h outcome
    rw [Option.toList_some]
    cases hn : next maxAttempts n outcome with
    | attempt m =>
      rw [hn] at hnext
      exact hnext
    | stopped result =>
      rw [hn] at hnext
      exact ⟨body, hnext⟩

theorem InPhase.bounded (h : InPhase maxAttempts log i phase) : Bounded maxAttempts log i := by
  cases phase with
  | preparing | dropped => exact bounded_of_eq_nil h
  | sending => exact Stands.bounded h
  | sent =>
    obtain ⟨_, hbody⟩ := h
    exact hbody.bounded

/-- Whose last attempt succeeded has stopped with it. -/
theorem InPhase.ok_iff (h : InPhase maxAttempts log i phase) :
    phase = .sent (.ok ()) ↔ ∃ x, (ofSender log i).getLast? = some x ∧ x.outcome = .ok () := by
  have hlast : ∀ {body : β} {pc : Pc ε} {x : Attempt β ε}, Stands maxAttempts log i body pc →
      (ofSender log i).getLast? = some x → x.outcome = .ok () → pc = .stopped (.ok ()) := by
    intro body pc x hstands hx hok
    obtain ⟨before, hbefore⟩ := List.getLast?_eq_some_iff.mp hx
    refine (hstands.outcomes.ok_last (show _ = before.map (·.outcome) ++ .ok () :: [] from ?_)).2
    rw [hbefore, List.map_append, List.map_singleton, hok]
  cases phase with
  | preparing | dropped =>
    have hnone : ofSender log i = [] := h
    simp [hnone]
  | sending body n =>
    refine ⟨fun heq => (by cases heq), ?_⟩
    rintro ⟨x, hx, hok⟩
    cases hlast h hx hok
  | sent result =>
    obtain ⟨body, hbody⟩ := h
    constructor
    · rintro heq
      cases heq
      obtain ⟨x, hx, -, hok⟩ := hbody.result
      exact ⟨x, hx, hok⟩
    · rintro ⟨x, hx, hok⟩
      cases hlast hbody hx hok
      rfl

/-- **The system rule**: one sender steps. -/
theorem Counted.move (hmax : 0 < maxAttempts) (h : Counted maxAttempts senders count log) {k : ℕ}
    (hk : senders[k]? = some (i, phase)) {attempt : Option (Attempt β ε)}
    (hs : PhaseStep maxAttempts i phase phase' attempt) :
    Counted maxAttempts (senders.set k (i, phase')) count (log ++ attempt.toList) := by
  have hmem := List.mem_of_getElem? hk
  have hsender : ∀ x ∈ attempt.toList, x.sender = i := by
    cases hs <;> simp
  have hids : (senders.set k (i, phase')).map (·.1) = senders.map (·.1) := by
    obtain ⟨hlt, hget⟩ := List.getElem?_eq_some_iff.mp hk
    have hlen : k < (senders.map (·.1)).length := by rwa [List.length_map]
    have hfst : (senders.map (·.1))[k] = i := by
      rw [List.getElem_map, hget]
    rw [List.map_set, ← hfst, List.set_getElem_self]
  have hother : ∀ j p, j ≠ i → InPhase maxAttempts log j p →
      InPhase maxAttempts (log ++ attempt.toList) j p := by
    intro j p hj hp
    cases attempt with
    | none => rwa [Option.toList_none, List.append_nil]
    | some x => exact hp.other fun heq => hj (heq.symm.trans (hsender x (by simp)))
  have hself := InPhase.step hmax (h.phases _ hmem) hs
  refine ⟨fun x hx => ?_, fun p hp => ?_, hids ▸ h.distinct, fun p hp => ?_, fun j => ?_⟩
  · rcases List.mem_append.mp hx with hx | hx
    · exact h.known x hx
    · rw [hsender x hx]
      exact h.below _ hmem
  · rcases List.mem_or_eq_of_mem_set hp with hp | rfl
    · exact h.below p hp
    · exact h.below (i, phase) hmem
  · -- the ids are distinct, so the others are not this sender
    obtain ⟨m, hm⟩ := List.getElem?_of_mem hp
    by_cases hmk : k = m
    · subst hmk
      have hlt : k < senders.length := (List.getElem?_eq_some_iff.mp hk).1
      rw [List.getElem?_set_self hlt] at hm
      cases hm
      exact hself
    · rw [List.getElem?_set_ne hmk] at hm
      refine hother p.1 p.2 (fun heq => hmk ?_) (h.phases p (List.mem_of_getElem? hm))
      have hlt : k < (senders.map (·.1)).length := by
        rw [List.length_map]
        exact (List.getElem?_eq_some_iff.mp hk).1
      refine (List.getElem?_inj hlt h.distinct).mp ?_
      rw [List.getElem?_map, List.getElem?_map, hk, hm, Option.map_some, Option.map_some, heq]
  · by_cases hj : j = i
    · subst hj
      exact hself.bounded
    · cases attempt with
      | none =>
        rw [Option.toList_none, List.append_nil]
        exact h.bounded j
      | some x => exact (h.bounded j).other fun heq => hj (heq.symm.trans (hsender x (by simp)))

end Senders

end WqcNode.Lib.Retry
