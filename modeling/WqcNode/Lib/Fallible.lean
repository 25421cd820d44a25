import Mathlib.Tactic.Basic

/-! # Computations that may fail

What a computation in `Except` that ended well has done, one `?` at a time. -/

namespace WqcNode.Lib.Fallible

variable {ε ε' α β : Type}

/-- `x?` and then `f`. -/
theorem bind_eq_ok {x : Except ε α} {f : α → Except ε β} {b : β} :
    x >>= f = .ok b ↔ ∃ a, x = .ok a ∧ f a = .ok b := by
  cases x with
  | error e =>
    constructor
    · intro h
      cases h
    · rintro ⟨a, h, -⟩
      cases h
  | ok a =>
    constructor
    · exact fun h => ⟨a, rfl, h⟩
    · rintro ⟨a', ha, h⟩
      cases ha
      exact h

/-- An error that is renamed stays one. -/
theorem mapError_eq_ok {x : Except ε α} {g : ε → ε'} {a : α} :
    x.mapError g = .ok a ↔ x = .ok a := by
  cases x with
  | error e =>
    constructor
    · intro h
      cases h
    · intro h
      cases h
  | ok a' =>
    constructor
    · intro h
      cases h
      rfl
    · intro h
      cases h
      rfl

/-- A list is mapped from its head on. -/
theorem mapM_cons_eq_ok {f : α → Except ε β} {x : α} {l : List α} {ys : List β} :
    (x :: l).mapM f = .ok ys ↔ ∃ y zs, f x = .ok y ∧ l.mapM f = .ok zs ∧ ys = y :: zs := by
  rw [List.mapM_cons, bind_eq_ok]
  constructor
  · rintro ⟨y, hx, h⟩
    obtain ⟨zs, hl, h⟩ := bind_eq_ok.mp h
    cases h
    exact ⟨y, zs, hx, hl, rfl⟩
  · rintro ⟨y, zs, hx, hl, rfl⟩
    exact ⟨y, hx, bind_eq_ok.mpr ⟨zs, hl, rfl⟩⟩

theorem mapM_mem {f : α → Except ε β} {l : List α} {ys : List β} (h : l.mapM f = .ok ys) :
    ∀ y ∈ ys, ∃ x ∈ l, f x = .ok y := by
  induction l generalizing ys with
  | nil =>
    cases h
    simp
  | cons x l ih =>
    obtain ⟨z, zs, hx, hl, rfl⟩ := mapM_cons_eq_ok.mp h
    intro y hy
    rcases List.mem_cons.mp hy with rfl | hy
    · exact ⟨x, List.mem_cons_self .., hx⟩
    · obtain ⟨x', hx', hfx'⟩ := ih hl y hy
      exact ⟨x', List.mem_cons_of_mem _ hx', hfx'⟩

/-- What holds of any two arguments holds of their results. -/
theorem mapM_pairwise {f : α → Except ε β} {S : β → β → Prop} {l : List α} {ys : List β}
    (h : l.mapM f = .ok ys)
    (hp : l.Pairwise fun x x' => ∀ y y', f x = .ok y → f x' = .ok y' → S y y') :
    ys.Pairwise S := by
  induction l generalizing ys with
  | nil =>
    cases h
    exact List.Pairwise.nil
  | cons x l ih =>
    obtain ⟨z, zs, hx, hl, rfl⟩ := mapM_cons_eq_ok.mp h
    rw [List.pairwise_cons] at hp ⊢
    refine ⟨fun z' hz' => ?_, ih hl hp.2⟩
    obtain ⟨x', hx', hfx'⟩ := mapM_mem hl z' hz'
    exact hp.1 x' hx' z z' hx hfx'

end WqcNode.Lib.Fallible
