import Mathlib.Data.List.Sort

/-! # Sorting by a key, stably

`sortBy key` is a stable insertion sort by `key`: items with one key keep their order
(`having_sortBy`). So a sorted list is a form of the unsorted one that forgets the order of items
with different keys and nothing else: two lists sort to the same list exactly if, key by key, their
items are the same in the same order (`map_sortBy_eq_iff`, up to what a map `g` shows of the
items). -/

namespace WqcNode.Lib.StableSort

variable {α β κ : Type*} [LinearOrder κ]

/-- `slice::sort_by` on the order of a key. -/
def sortBy (key : α → κ) (l : List α) : List α := l.insertionSort fun a b => key a ≤ key b

/-- The items with the key `k`, in their order. -/
def having (key : α → κ) (k : κ) (l : List α) : List α := l.filter (key · = k)

variable {key : α → κ} {k : κ} {l l' : List α}

theorem mem_having {a : α} : a ∈ having key k l ↔ a ∈ l ∧ key a = k := by
  unfold having
  rw [List.mem_filter, decide_eq_true_eq]

theorem having_cons (a : α) :
    having key k (a :: l) = if key a = k then a :: having key k l else having key k l := by
  unfold having
  rw [List.filter_cons]
  simp only [decide_eq_true_eq]

theorem pairwise_sortBy (l : List α) : (sortBy key l).Pairwise fun a b => key a ≤ key b := by
  have : IsTrans α fun a b => key a ≤ key b := ⟨fun _ _ _ => le_trans⟩
  have : Std.Total fun a b : α => key a ≤ key b := ⟨fun a b => le_total (key a) (key b)⟩
  exact List.pairwise_insertionSort ..

/-- An item goes in front of the items with its key. -/
theorem having_orderedInsert (a : α) (l : List α) :
    having key k (l.orderedInsert (fun a b => key a ≤ key b) a) = having key k (a :: l) := by
  induction l with
  | nil => rfl
  | cons b l ih =>
    rw [List.orderedInsert_cons]
    split_ifs with hab
    · rfl
    · rw [having_cons, ih, having_cons, having_cons, having_cons]
      by_cases hb : key b = k
      · -- an item that is passed over has a smaller key
        have ha : ¬ key a = k := by
          intro ha
          exact hab (by rw [ha, hb])
        rw [if_neg ha, if_neg ha]
      · rw [if_neg hb, if_neg hb]

/-- **Items with one key keep their order.** -/
theorem having_sortBy (l : List α) : having key k (sortBy key l) = having key k l := by
  induction l with
  | nil => rfl
  | cons a l ih =>
    have hsort : sortBy key (a :: l) =
        (sortBy key l).orderedInsert (fun a b => key a ≤ key b) a := rfl
    rw [hsort, having_orderedInsert, having_cons, having_cons, ih]

/-- A sorted list that begins with `a` has no item of a smaller key. -/
theorem having_of_lt {a : α} (hs : (a :: l).Pairwise fun a b => key a ≤ key b) (hk : k < key a) :
    having key k (a :: l) = [] := by
  refine List.eq_nil_iff_forall_not_mem.mpr fun b hb => ?_
  obtain ⟨hmem, hbk⟩ := mem_having.mp hb
  have hle : key a ≤ key b := by
    rcases List.mem_cons.mp hmem with rfl | hmem
    · exact le_rfl
    · exact List.rel_of_pairwise_cons hs hmem
  rw [hbk] at hle
  exact absurd hk (not_lt.mpr hle)

/-- Sorted lists whose items agree key by key are the same, as far as `g` shows. -/
theorem map_eq_of_having {g : α → β} :
    ∀ {l l' : List α}, l.Pairwise (fun a b => key a ≤ key b) →
      l'.Pairwise (fun a b => key a ≤ key b) →
      (∀ k, (having key k l).map g = (having key k l').map g) → l.map g = l'.map g
  | [], [], _, _, _ => rfl
  | [], b :: l', _, _, h => by
    have hb := h (key b)
    rw [having_cons, if_pos rfl] at hb
    cases hb
  | a :: l, [], _, _, h => by
    have ha := h (key a)
    rw [having_cons, if_pos rfl] at ha
    cases ha
  | a :: l, b :: l', hs, hs', h => by
    have hkey : key a = key b := by
      rcases lt_trichotomy (key a) (key b) with hlt | heq | hlt
      · have ha := h (key a)
        rw [having_of_lt hs' hlt, having_cons, if_pos rfl] at ha
        cases ha
      · exact heq
      · have hb := h (key b)
        rw [having_of_lt hs hlt, having_cons, if_pos rfl] at hb
        cases hb
    have hhead := h (key a)
    rw [having_cons, having_cons, if_pos rfl, if_pos hkey.symm, List.map_cons, List.map_cons] at hhead
    obtain ⟨hg, htail⟩ := List.cons.inj hhead
    have hrest : ∀ k, (having key k l).map g = (having key k l').map g := by
      intro k
      by_cases hk : key a = k
      · rw [← hk]
        exact htail
      · have hk' := h k
        rwa [having_cons, having_cons, if_neg hk, if_neg (hkey ▸ hk)] at hk'
    rw [List.map_cons, List.map_cons, hg,
      map_eq_of_having (List.pairwise_cons.mp hs).2 (List.pairwise_cons.mp hs').2 hrest]

theorem having_of_map_eq {g : α → β} (hkey : ∀ a b, g a = g b → key a = key b) :
    ∀ {l l' : List α}, l.map g = l'.map g → (having key k l).map g = (having key k l').map g
  | [], [], _ => rfl
  | a :: l, b :: l', h => by
    obtain ⟨hg, htail⟩ := List.cons.inj h
    have ih := having_of_map_eq hkey htail
    rw [having_cons, having_cons]
    by_cases hk : key a = k
    · rw [if_pos hk, if_pos ((hkey a b hg) ▸ hk), List.map_cons, List.map_cons, hg, ih]
    · rw [if_neg hk, if_neg ((hkey a b hg) ▸ hk), ih]

/-- **What sorting keeps**: the order of the items with one key, and nothing else. -/
theorem map_sortBy_eq_iff {g : α → β} (hkey : ∀ a b, g a = g b → key a = key b) :
    (sortBy key l).map g = (sortBy key l').map g ↔
      ∀ k, (having key k l).map g = (having key k l').map g := by
  constructor
  · intro h k
    rw [← having_sortBy l, ← having_sortBy l']
    exact having_of_map_eq hkey h
  · intro h
    refine map_eq_of_having (pairwise_sortBy l) (pairwise_sortBy l') fun k => ?_
    rw [having_sortBy, having_sortBy]
    exact h k

theorem sortBy_eq_iff : sortBy key l = sortBy key l' ↔ ∀ k, having key k l = having key k l' := by
  have h : (sortBy key l).map id = (sortBy key l').map id ↔
      ∀ k, (having key k l).map id = (having key k l').map id :=
    map_sortBy_eq_iff fun _ _ hab => congrArg key hab
  simpa only [List.map_id] using h

end WqcNode.Lib.StableSort
