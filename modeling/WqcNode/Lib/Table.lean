import Mathlib.Data.List.AList
import Mathlib.Algebra.BigOperators.Group.List.Basic
import Mathlib.Algebra.Order.BigOperators.Group.List

/-! # Tables: key-value stores with unique keys

A table is an association list with distinct keys (`AList`). It stands for a map in memory and for
an SQL table with a `UNIQUE` key alike: `insert` is the upsert (a conflicting row is replaced),
`lookup` the select by key and `erase` the delete by key. Added here: `retain` (delete where),
`adjust` (update where the key is), `updateAll` (update in every row) and `sumOf` (a sum over all
rows), with the lookup of each and what they do to the sums. -/

namespace WqcNode.Lib

universe u v w

/-- A store of values `ν` under unique keys `κ`. -/
abbrev Table (κ : Type u) (ν : Type v) := AList fun _ : κ => ν

namespace Table

variable {κ : Type u} {ν : Type v}

/-- Keep the rows satisfying `p`. -/
def retain (t : Table κ ν) (p : κ → ν → Bool) : Table κ ν where
  entries := t.entries.filter fun e => p e.1 e.2
  nodupKeys := t.nodupKeys.sublist List.filter_sublist

/-- Replace the value of every row. -/
def updateAll (t : Table κ ν) (f : κ → ν → ν) : Table κ ν where
  entries := t.entries.map fun e => ⟨e.1, f e.1 e.2⟩
  nodupKeys := t.nodupKeys.map₂ f

/-- The sum of `f` over all rows. -/
def sumOf {M : Type w} [AddCommMonoid M] (t : Table κ ν) (f : κ → ν → M) : M :=
  (t.entries.map fun e => f e.1 e.2).sum

variable [DecidableEq κ]

/-- Replace the value under `k`, if there is one. -/
def adjust (t : Table κ ν) (k : κ) (f : ν → ν) : Table κ ν :=
  updateAll t fun k' v => if k' = k then f v else v

theorem mem_entries {t : Table κ ν} {k : κ} {v : ν} :
    (⟨k, v⟩ : Σ _ : κ, ν) ∈ t.entries ↔ t.lookup k = some v := by
  rw [← AList.mem_lookup_iff, Option.mem_def]

instance decidableForallRows (t : Table κ ν) (p : κ → ν → Prop) [∀ k v, Decidable (p k v)] :
    Decidable (∀ k v, t.lookup k = some v → p k v) :=
  decidable_of_iff (∀ e ∈ t.entries, p e.1 e.2)
    ⟨fun h k v hk => h ⟨k, v⟩ (mem_entries.mpr hk), fun h e he => h e.1 e.2 (mem_entries.mp he)⟩

/-! ### Lookups -/

theorem lookup_retain (t : Table κ ν) (p : κ → ν → Bool) (k : κ) :
    (retain t p).lookup k = (t.lookup k).filter (p k) := by
  ext v
  rw [← mem_entries, Option.filter_eq_some_iff, ← mem_entries]
  exact List.mem_filter

theorem lookup_updateAll (t : Table κ ν) (f : κ → ν → ν) (k : κ) :
    (updateAll t f).lookup k = (t.lookup k).map (f k) :=
  List.dlookup_map₂ k

/-- What is read of a row does not change with what is not read. -/
theorem bind_lookup_updateAll {ν' : Type w} (t : Table κ ν) {f : κ → ν → ν} {k : κ}
    {g : ν → Option ν'} (h : ∀ v, g (f k v) = g v) :
    ((updateAll t f).lookup k).bind g = (t.lookup k).bind g := by
  rw [lookup_updateAll, Option.bind_map]
  congr 1
  funext v
  exact h v

theorem map_lookup_updateAll {ν' : Type w} (t : Table κ ν) {f : κ → ν → ν} {k : κ} {g : ν → ν'}
    (h : ∀ v, g (f k v) = g v) : ((updateAll t f).lookup k).map g = (t.lookup k).map g := by
  rw [lookup_updateAll, Option.map_map]
  congr 1
  funext v
  exact h v

theorem lookup_adjust (t : Table κ ν) (k k' : κ) (f : ν → ν) :
    (adjust t k f).lookup k' = (t.lookup k').map fun v => if k' = k then f v else v :=
  lookup_updateAll t _ k'

theorem lookup_adjust_ne (t : Table κ ν) {k k' : κ} (f : ν → ν) (h : k' ≠ k) :
    (adjust t k f).lookup k' = t.lookup k' := by
  rw [lookup_adjust]; simp [h]

theorem lookup_insert_if (t : Table κ ν) (k k' : κ) (v : ν) :
    (t.insert k v).lookup k' = if k' = k then some v else t.lookup k' := by
  split_ifs with h
  · subst h; exact AList.lookup_insert t
  · exact AList.lookup_insert_ne h

theorem lookup_erase_if (t : Table κ ν) (k k' : κ) :
    (t.erase k).lookup k' = if k' = k then none else t.lookup k' := by
  split_ifs with h
  · subst h; exact AList.lookup_erase k' t
  · exact AList.lookup_erase_ne h

/-! ### Sums -/

section Sum
variable {M : Type w} [AddCommMonoid M] (f : κ → ν → M)

omit [DecidableEq κ] in
@[simp] theorem sumOf_empty : sumOf (∅ : Table κ ν) f = 0 := rfl

theorem sumOf_erase_add {t : Table κ ν} {k : κ} {v : ν} (h : t.lookup k = some v) :
    sumOf (t.erase k) f + f k v = sumOf t f := by
  have hk : k ∈ t.entries.keys := List.mem_keys_of_mem (mem_entries.mpr h)
  obtain ⟨v', l₁, l₂, hl₁, he, hk'⟩ := List.exists_of_kerase hk
  have hv : v' = v := by
    have hm : (⟨k, v'⟩ : Σ _ : κ, ν) ∈ t.entries := by rw [he]; simp
    exact Option.some.inj ((mem_entries.mp hm).symm.trans h)
  subst hv
  show ((List.kerase k t.entries).map fun e => f e.1 e.2).sum + f k v' = _
  unfold sumOf
  rw [hk', he]
  simp only [List.map_append, List.map_cons, List.sum_append, List.sum_cons]
  rw [add_assoc, add_comm (List.sum _) (f k v')]

theorem erase_of_lookup_none {t : Table κ ν} {k : κ} (h : t.lookup k = none) : t.erase k = t := by
  refine AList.ext (List.kerase_of_notMem_keys ?_)
  exact AList.lookup_eq_none.mp h

theorem sumOf_insert (t : Table κ ν) (k : κ) (v : ν) :
    sumOf (t.insert k v) f = f k v + sumOf (t.erase k) f := by
  unfold sumOf
  rw [AList.entries_insert]
  rfl

theorem sumOf_insert_new {t : Table κ ν} {k : κ} (v : ν) (h : t.lookup k = none) :
    sumOf (t.insert k v) f = f k v + sumOf t f := by
  rw [sumOf_insert, erase_of_lookup_none h]

theorem sumOf_congr {t : Table κ ν} {g : κ → ν → M}
    (h : ∀ k v, t.lookup k = some v → f k v = g k v) : sumOf t f = sumOf t g := by
  unfold sumOf
  congr 1
  refine List.map_congr_left fun e he => ?_
  exact h e.1 e.2 (mem_entries.mp he)

/-- Tables with the same rows have the same sum, in whichever order they list them. -/
theorem sumOf_eq_of_lookup {t t' : Table κ ν} (h : ∀ k, t.lookup k = t'.lookup k) :
    sumOf t f = sumOf t' f := by
  have hperm : t.entries.Perm t'.entries := by
    refine List.lookup_ext t.nodupKeys t'.nodupKeys fun k v => ?_
    show v ∈ t.lookup k ↔ v ∈ t'.lookup k
    rw [h]
  exact (hperm.map _).sum_eq

omit [DecidableEq κ] in
theorem sumOf_updateAll (t : Table κ ν) (g : κ → ν → ν) :
    sumOf (updateAll t g) f = sumOf t fun k v => f k (g k v) := by
  unfold sumOf updateAll
  rw [List.map_map]
  rfl

omit [DecidableEq κ] in
theorem sumOf_retain (t : Table κ ν) (p : κ → ν → Bool) :
    sumOf (retain t p) f = sumOf t fun k v => if p k v then f k v else 0 := by
  show ((t.entries.filter fun e => p e.1 e.2).map fun e => f e.1 e.2).sum =
    (t.entries.map fun e => if p e.1 e.2 then f e.1 e.2 else 0).sum
  induction t.entries with
  | nil => rfl
  | cons e l ih =>
    rw [List.filter_cons, List.map_cons, List.sum_cons]
    by_cases h : p e.1 e.2 = true
    · rw [if_pos h, if_pos h, List.map_cons, List.sum_cons, ih]
    · rw [if_neg h, if_neg h, ih, zero_add]

end Sum

section Order
variable {M : Type w} [AddCommMonoid M] [PartialOrder M] [IsOrderedAddMonoid M]
variable {f g : κ → ν → M} {t : Table κ ν}

theorem sumOf_le (h : ∀ k v, t.lookup k = some v → f k v ≤ g k v) : sumOf t f ≤ sumOf t g := by
  refine List.sum_le_sum fun e he => ?_
  exact h e.1 e.2 (mem_entries.mp he)

theorem sumOf_nonneg (h : ∀ k v, t.lookup k = some v → 0 ≤ f k v) : 0 ≤ sumOf t f := by
  refine List.sum_nonneg fun x hx => ?_
  obtain ⟨e, he, rfl⟩ := List.mem_map.mp hx
  exact h e.1 e.2 (mem_entries.mp he)

/-- Deleting a row takes a non-negative part off the sum. -/
theorem sumOf_erase_le (h : ∀ k v, t.lookup k = some v → 0 ≤ f k v) (k : κ) :
    sumOf (t.erase k) f ≤ sumOf t f := by
  cases hk : t.lookup k with
  | none => rw [erase_of_lookup_none hk]
  | some v =>
    rw [← sumOf_erase_add f hk]
    exact le_add_of_nonneg_right (h k v hk)

end Order

end Table

end WqcNode.Lib
