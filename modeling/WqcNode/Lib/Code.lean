import Mathlib.Data.List.Basic

/-! # Codes that are read from the left

A text made of code words can be taken apart again if each word is determined by the text it begins.
`Reads enc P key a b`: whenever a text begins with `enc a` and also with `enc b`, and what follows
satisfies `P` both times, then `a` and `b` have the same `key` and the same follows. With `P` always
true the code needs no delimiter; a number needs one, and gets it from what may follow it (`Ends`).

* `reads_block`: a block of symbols of one kind, followed by one of another kind.
* `delimited_inj`: any symbols up to a delimiter without borders.
* `flatMap_stop`: words up to a stop symbol, as in a quoted string.
* `joined_stop`: words with separators up to a stop symbol, as in a JSON array. -/

namespace WqcNode.Lib.Code

variable {α β σ : Type*}

/-- The word of `a`, followed by something in `P`, is read as that of `b` only if the keys agree. -/
def Reads (enc : α → List σ) (P : List σ → Prop) (key : α → β) (a b : α) : Prop :=
  ∀ r r', P r → P r' → enc a ++ r = enc b ++ r' → key a = key b ∧ r = r'

/-- Nothing follows, or a symbol outside `p`. -/
def Ends (p : σ → Bool) (r : List σ) : Prop := ∀ c ∈ r.head?, p c = false

@[simp] theorem ends_nil (p : σ → Bool) : Ends p [] := by simp [Ends]

@[simp] theorem ends_cons (p : σ → Bool) (c : σ) (r : List σ) : Ends p (c :: r) ↔ p c = false := by
  simp [Ends]

theorem takeWhile_of_ends {p : σ → Bool} {x r : List σ} (hx : ∀ c ∈ x, p c = true)
    (hr : Ends p r) : (x ++ r).takeWhile p = x := by
  rw [List.takeWhile_append_of_pos hx]
  cases r with
  | nil => simp
  | cons c r => simp [(ends_cons p c r).mp hr]

/-- A block of symbols in `p`, followed by none of them. -/
theorem block_inj {p : σ → Bool} {x y r r' : List σ} (hx : ∀ c ∈ x, p c = true)
    (hy : ∀ c ∈ y, p c = true) (hr : Ends p r) (hr' : Ends p r') (h : x ++ r = y ++ r') :
    x = y ∧ r = r' := by
  have hxy : x = y := by rw [← takeWhile_of_ends hx hr, h, takeWhile_of_ends hy hr']
  subst hxy
  exact ⟨rfl, List.append_cancel_left h⟩

theorem reads_block {p : σ → Bool} {enc : α → List σ} {key : α → β} {a b : α}
    (ha : ∀ c ∈ enc a, p c = true) (hb : ∀ c ∈ enc b, p c = true)
    (hkey : enc a = enc b → key a = key b) : Reads enc (Ends p) key a b := by
  intro r r' hr hr' h
  obtain ⟨henc, rfl⟩ := block_inj ha hb hr hr' h
  exact ⟨hkey henc, rfl⟩

/-! ### Delimiters -/

/-- No proper suffix of the delimiter begins it again. -/
def Borderless (d : List σ) : Prop := ∀ n < d.length, 0 < n → ¬ d.drop n <+: d

instance [DecidableEq σ] (d : List σ) : Decidable (Borderless d) := by
  unfold Borderless; infer_instance

/-- Neither text runs on past the other and a delimiter after it. -/
def Apart (d x y : List σ) : Prop := ¬ x ++ d <+: y ∧ ¬ y ++ d <+: x

/-- A text without the delimiter's first symbol does not run past anything. -/
theorem apart_of_notMem {c : σ} {d x y : List σ} (hx : c ∉ x) (hy : c ∉ y) : Apart (c :: d) x y :=
  ⟨fun h => hy (h.subset (by simp)), fun h => hx (h.subset (by simp))⟩

/-- The shorter of two texts, each with the delimiter after it, ends where the other does. -/
theorem eq_of_delimited_le {d x y r r' : List σ} (hd : Borderless d) (hle : x.length ≤ y.length)
    (hxy : ¬ x ++ d <+: y) (h : x ++ (d ++ r) = y ++ (d ++ r')) : x = y := by
  obtain ⟨z, rfl⟩ : x <+: y :=
    List.prefix_of_prefix_length_le (h ▸ List.prefix_append x (d ++ r)) (List.prefix_append ..) hle
  rw [List.append_assoc, List.append_cancel_left_eq] at h
  by_contra hne
  have hz : 0 < z.length := by
    rw [List.length_pos_iff]
    rintro rfl
    exact hne (List.append_nil x).symm
  by_cases hlt : z.length < d.length
  · -- what `z` leaves of the delimiter begins the next one
    have hdz : z <+: d := List.prefix_of_prefix_length_le (h ▸ List.prefix_append z (d ++ r'))
      (List.prefix_append ..) (Nat.le_of_lt hlt)
    obtain ⟨w, rfl⟩ := hdz
    rw [List.append_assoc, List.append_cancel_left_eq] at h
    refine hd z.length hlt hz ?_
    rw [List.drop_left]
    refine List.prefix_of_prefix_length_le (h ▸ List.prefix_append w r) (List.prefix_append ..) ?_
    rw [List.length_append]
    omega
  · have hdz : d <+: z := List.prefix_of_prefix_length_le (List.prefix_append d r)
      (h ▸ List.prefix_append z (d ++ r')) (Nat.le_of_not_lt hlt)
    exact hxy ((List.prefix_append_right_inj x).mpr hdz)

/-- **Any two texts apart from each other**, up to the delimiter after them. -/
theorem delimited_inj {d x y r r' : List σ} (hd : Borderless d) (hap : Apart d x y)
    (h : x ++ (d ++ r) = y ++ (d ++ r')) : x = y ∧ r = r' := by
  have hxy : x = y := by
    rcases Nat.le_total x.length y.length with hle | hle
    · exact eq_of_delimited_le hd hle hap.1 h
    · exact (eq_of_delimited_le hd hle hap.2 h.symm).symm
  subst hxy
  rw [List.append_cancel_left_eq, List.append_cancel_left_eq] at h
  exact ⟨rfl, h⟩

/-! ### Lists of words -/

section Lists

variable {enc : α → List σ} {P : List σ → Prop} {key : α → β} {stop sep : σ}

/-- Words one after the other, up to a stop symbol that begins no word. -/
theorem flatMap_stop (hstop : ∀ r, P (stop :: r)) (hnext : ∀ a r, P (enc a ++ r))
    (hhead : ∀ a r r', enc a ++ r ≠ stop :: r') :
    ∀ {l l' : List α} {r r' : List σ}, (∀ a ∈ l, ∀ b ∈ l', Reads enc P key a b) →
      l.flatMap enc ++ stop :: r = l'.flatMap enc ++ stop :: r' → l.map key = l'.map key ∧ r = r'
  | [], [], r, r', _, h => ⟨rfl, by simpa using h⟩
  | [], b :: l', r, r', _, h => by
    rw [List.flatMap_nil, List.nil_append, List.flatMap_cons, List.append_assoc] at h
    exact absurd h.symm (hhead b _ _)
  | a :: l, [], r, r', _, h => by
    rw [List.flatMap_nil, List.nil_append, List.flatMap_cons, List.append_assoc] at h
    exact absurd h (hhead a _ _)
  | a :: l, b :: l', r, r', hl, h => by
    have hfollow : ∀ (l : List α) (r : List σ), P (l.flatMap enc ++ stop :: r) := by
      intro l r
      cases l with
      | nil => exact hstop r
      | cons c l =>
        rw [List.flatMap_cons, List.append_assoc]
        exact hnext c _
    rw [List.flatMap_cons, List.flatMap_cons, List.append_assoc, List.append_assoc] at h
    obtain ⟨hkey, htail⟩ := hl a (List.mem_cons_self ..) b (List.mem_cons_self ..) _ _
      (hfollow l r) (hfollow l' r') h
    obtain ⟨hkeys, hr⟩ := flatMap_stop hstop hnext hhead
      (fun c hc c' hc' => hl c (List.mem_cons_of_mem _ hc) c' (List.mem_cons_of_mem _ hc')) htail
    exact ⟨by rw [List.map_cons, List.map_cons, hkey, hkeys], hr⟩

/-- The words with `sep` between them. -/
def joined (sep : σ) : List (List σ) → List σ
  | [] => []
  | w :: ws => w ++ ws.flatMap (sep :: ·)

/-- Words with separators, up to a stop symbol that begins no word. -/
theorem joined_stop (hne : sep ≠ stop) (hstop : ∀ r, P (stop :: r)) (hsep : ∀ r, P (sep :: r))
    (hhead : ∀ a r r', enc a ++ r ≠ stop :: r') {l l' : List α} {r r' : List σ}
    (hl : ∀ a ∈ l, ∀ b ∈ l', Reads enc P key a b)
    (h : joined sep (l.map enc) ++ stop :: r = joined sep (l'.map enc) ++ stop :: r') :
    l.map key = l'.map key ∧ r = r' := by
  have hfollow : ∀ (l : List α) (r : List σ),
      P ((l.map enc).flatMap (sep :: ·) ++ stop :: r) := by
    intro l r
    cases l with
    | nil => exact hstop r
    | cons c l => exact hsep _
  cases l with
  | nil =>
    cases l' with
    | nil => exact ⟨rfl, by simpa [joined] using h⟩
    | cons b l' =>
      rw [List.map_nil, joined, List.nil_append, List.map_cons, joined, List.append_assoc] at h
      exact absurd h.symm (hhead b _ _)
  | cons a l =>
    cases l' with
    | nil =>
      rw [List.map_nil, joined, List.nil_append, List.map_cons, joined, List.append_assoc] at h
      exact absurd h (hhead a _ _)
    | cons b l' =>
      rw [List.map_cons, List.map_cons, joined, joined, List.append_assoc, List.append_assoc] at h
      obtain ⟨hkey, htail⟩ := hl a (List.mem_cons_self ..) b (List.mem_cons_self ..) _ _
        (hfollow l r) (hfollow l' r') h
      -- the rest is a list of words that begin with the separator
      have hrest : ∀ c ∈ l, ∀ d ∈ l', Reads (fun a => sep :: enc a) P key c d := by
        intro c hc d hd t t' ht ht' heq
        exact hl c (List.mem_cons_of_mem _ hc) d (List.mem_cons_of_mem _ hd) t t' ht ht'
          (List.cons.inj heq).2
      rw [List.flatMap_map, List.flatMap_map] at htail
      obtain ⟨hkeys, hr⟩ := flatMap_stop hstop (fun _ _ => hsep _)
        (fun _ _ _ heq => hne (List.cons.inj heq).1) hrest htail
      exact ⟨by rw [List.map_cons, List.map_cons, hkey, hkeys], hr⟩

end Lists

end WqcNode.Lib.Code
