import WqcNode.Lib.StableSort
import WqcNode.Domain.Dispatch

/-! # When the observables section is canonical (`format_observables_wire_json`)

Both sorts are stable and look at one key only, the id of an observable and the label of a term. So
two lists with one section agree id by id and label by label, in order (`text_eq_iff_sameOrder`), as
long as no id or label runs on past another one and the text that closes it. A section then stands
for its observables up to order exactly where items with one key come in one order
(`section_canonical_iff`).

Where ids repeat, the order of the list shows; where an id holds the text of another observable, two
observables are read as one (`section_not_canonical`). -/

namespace WqcNode.Domain.CanonicalObservables

open WqcNode.Lib WqcNode.Lib.Json WqcNode.Lib.Code WqcNode.Lib.StableSort WqcNode.Domain.Models
open WqcNode.Domain.Observables

/-- Every coefficient is finite. -/
def FiniteCoeffs (l : List ObservableSpec) : Prop :=
  ∀ o ∈ l, ∀ t ∈ o.terms, isFinite t.coeff.real = true ∧ isFinite t.coeff.imag = true

instance (l : List ObservableSpec) : Decidable (FiniteCoeffs l) := by
  unfold FiniteCoeffs; infer_instance

/-- No id runs on past one of the other list and the text after an id, and no label past one of the
other list and the text after a label. -/
def ListsApart (l l' : List ObservableSpec) : Prop :=
  ∀ o ∈ l, ∀ o' ∈ l', ObservablesApart o o'

/-- The terms of one label come in one order. -/
def SameTermOrder (o o' : ObservableSpec) : Prop :=
  ∀ label, having PauliTerm.label label o.terms = having PauliTerm.label label o'.terms

/-- The observables of one id come in one order, and in them the terms of one label. -/
def SameOrder (l l' : List ObservableSpec) : Prop :=
  ∀ id, List.Forall₂ SameTermOrder (having ObservableSpec.id id l) (having ObservableSpec.id id l')

/-! ### Sorted lists -/

theorem sortedTerms_eq (o : ObservableSpec) : sortedTerms o = sortBy PauliTerm.label o.terms := rfl

theorem sortedObservables_eq (l : List ObservableSpec) :
    sortedObservables l = sortBy ObservableSpec.id l := rfl

theorem sortedTerms_eq_iff {o o' : ObservableSpec} :
    sortedTerms o = sortedTerms o' ↔ SameTermOrder o o' := by
  rw [sortedTerms_eq, sortedTerms_eq]
  exact sortBy_eq_iff

/-- Observables of one id look alike exactly if their terms come in one order. -/
theorem map_having_eq_iff {id : String} {l l' : List ObservableSpec} :
    (having ObservableSpec.id id l).map (fun o => (o.id, sortedTerms o)) =
        (having ObservableSpec.id id l').map (fun o => (o.id, sortedTerms o)) ↔
      List.Forall₂ SameTermOrder (having ObservableSpec.id id l)
        (having ObservableSpec.id id l') := by
  have hid : ∀ l, (having ObservableSpec.id id l).map (fun o => (o.id, sortedTerms o)) =
      (having ObservableSpec.id id l).map fun o => (id, sortedTerms o) := by
    intro l
    refine List.map_congr_left fun o ho => ?_
    rw [(mem_having.mp ho).2]
  have hterms : ∀ o o' : ObservableSpec, (id, sortedTerms o) = (id, sortedTerms o') ↔
      SameTermOrder o o' := by
    intro o o'
    rw [Prod.mk.injEq, sortedTerms_eq_iff]
    exact and_iff_right rfl
  rw [hid l, hid l', ← List.forall₂_eq_eq_eq, List.forall₂_map_left_iff, List.forall₂_map_right_iff]
  simp only [hterms]

theorem sorted_eq_iff_sameOrder {l l' : List ObservableSpec} :
    (sortedObservables l).map (fun o => (o.id, sortedTerms o)) =
        (sortedObservables l').map (fun o => (o.id, sortedTerms o)) ↔ SameOrder l l' := by
  rw [sortedObservables_eq, sortedObservables_eq,
    map_sortBy_eq_iff fun o o' ho => (Prod.mk.inj ho).1]
  exact forall_congr' fun id => map_having_eq_iff

theorem SameOrder.same {l l' : List ObservableSpec} (h : SameOrder l l') : SameObservables l l' :=
  same_of_sorted_eq (sorted_eq_iff_sameOrder.mpr h)

/-! ### The section -/

section Section

variable {ft : FloatText} (hft : ∀ f, isFinite f = true → ft.ReadsBack f)
  {l l' : List ObservableSpec}
include hft

theorem readsObservables_of_finite (hl : FiniteCoeffs l) : ft.ReadsObservables l := by
  intro o ho t ht
  obtain ⟨hreal, himag⟩ := hl o ho t ht
  exact ⟨hft _ hreal, hft _ himag⟩

omit hft in
/-- The text is made from the sorted observables, each with its terms sorted. -/
theorem text_of_sorted_eq
    (h : (sortedObservables l).map (fun o => (o.id, sortedTerms o)) =
      (sortedObservables l').map fun o => (o.id, sortedTerms o)) :
    formatObservablesWireJson ft l = formatObservablesWireJson ft l' := by
  have htext : ∀ l, (sortedObservables l).map (formatObservable ft) =
      ((sortedObservables l).map fun o => (o.id, sortedTerms o)).map fun p =>
        Text.chars "\x7b\"id\":\"" ++ (p.1.toList ++ (Text.chars "\",\"terms\":[" ++
          (joined ',' (p.2.map (formatTerm ft)) ++ Text.chars "]\x7d"))) := by
    intro l
    rw [List.map_map]
    rfl
  rw [formatObservablesWireJson_eq, formatObservablesWireJson_eq, htext l, htext l', h]

/-- **What a section stands for**: the observables of each id in their order, and in each the terms
of one label in theirs. -/
theorem text_eq_iff_sameOrder (hl : FiniteCoeffs l) (hl' : FiniteCoeffs l')
    (hap : ListsApart l l') :
    formatObservablesWireJson ft l = formatObservablesWireJson ft l' ↔ SameOrder l l' := by
  constructor
  · intro h
    exact sorted_eq_iff_sameOrder.mp (sorted_of_text_eq (readsObservables_of_finite hft hl)
      (readsObservables_of_finite hft hl') hap h)
  · intro h
    exact text_of_sorted_eq (sorted_eq_iff_sameOrder.mpr h)

/-- **When the section is canonical for two lists**: if they hold the same observables, then those
of one id come in one order, and so do the terms of one label. -/
theorem section_canonical_iff (hl : FiniteCoeffs l) (hl' : FiniteCoeffs l')
    (hap : ListsApart l l') :
    (formatObservablesWireJson ft l = formatObservablesWireJson ft l' ↔ SameObservables l l') ↔
      (SameObservables l l' → SameOrder l l') := by
  rw [text_eq_iff_sameOrder hft hl hl' hap]
  constructor
  · intro h hsame
    exact h.mpr hsame
  · intro h
    exact ⟨SameOrder.same, h⟩

end Section

/-! ### Two lists of observables -/

open WqcNode.Domain.Dispatch (sampleCodec sampleCodec_readsBack half one)

/-- The test's observable beside one without terms, and both in the other order. -/
def listed : List ObservableSpec := [⟨"zz", [⟨"ZZ", ⟨half, one⟩⟩, ⟨"XX", ⟨one, half⟩⟩]⟩, ⟨"x", []⟩]
def relisted : List ObservableSpec :=
  [⟨"x", []⟩, ⟨"zz", [⟨"XX", ⟨one, half⟩⟩, ⟨"ZZ", ⟨half, one⟩⟩]⟩]

theorem listed_apart : ListsApart listed relisted := by
  have hclean : ∀ l, l = listed ∨ l = relisted → ∀ o ∈ l, Clean o := by
    rintro l (rfl | rfl) o ho
    all_goals
      simp only [listed, relisted, List.mem_cons, List.not_mem_nil, or_false] at ho
      rcases ho with rfl | rfl <;> exact ⟨by decide, by decide⟩
  exact fun o ho o' ho' => (hclean listed (.inl rfl) o ho).apart (hclean relisted (.inr rfl) o' ho')

theorem section_canonical_listed :
    (formatObservablesWireJson sampleCodec.floats listed =
        formatObservablesWireJson sampleCodec.floats relisted ↔ SameObservables listed relisted) ↔
      (SameObservables listed relisted → SameOrder listed relisted) :=
  section_canonical_iff (fun f _ => sampleCodec_readsBack.floats f) (by decide) (by decide)
    listed_apart

/-- Two observables, and one whose id holds the text of both up to the second id. -/
def twoObservables : List ObservableSpec := [⟨"a", []⟩, ⟨"b", []⟩]
def oneObservable : List ObservableSpec := [⟨"a\",\"terms\":[]\x7d,\x7b\"id\":\"b", []⟩]

/-- One id twice, in both orders. -/
def repeated : List ObservableSpec := [⟨"a", []⟩, ⟨"a", [⟨"Z", ⟨one, half⟩⟩]⟩]
def repeatedBack : List ObservableSpec := [⟨"a", [⟨"Z", ⟨one, half⟩⟩]⟩, ⟨"a", []⟩]

theorem length_eq_of_same {l l' : List ObservableSpec} (h : SameObservables l l') :
    l.length = l'.length := by
  obtain ⟨m, m', hm, hf, hm'⟩ := h
  rw [hm.length_eq, hf.length_eq, hm'.length_eq]

/-- **The section is not canonical**: two observables and one have the same text, and two orders of
one list have different texts. -/
theorem section_not_canonical :
    (formatObservablesWireJson sampleCodec.floats twoObservables =
        formatObservablesWireJson sampleCodec.floats oneObservable ∧
      ¬ SameObservables twoObservables oneObservable) ∧
    (SameObservables repeated repeatedBack ∧
      formatObservablesWireJson sampleCodec.floats repeated ≠
        formatObservablesWireJson sampleCodec.floats repeatedBack) := by
  refine ⟨⟨rfl, fun h => absurd (length_eq_of_same h) (by decide)⟩, ?_, ?_⟩
  · refine ⟨repeated, repeated, List.Perm.refl _, ?_, List.Perm.swap ..⟩
    exact List.forall₂_same.mpr fun o _ => ⟨rfl, List.Perm.refl _⟩
  · decide +kernel

end WqcNode.Domain.CanonicalObservables
