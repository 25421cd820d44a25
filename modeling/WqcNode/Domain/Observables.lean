import WqcNode.Lib.Code
import WqcNode.Lib.Text
import WqcNode.Domain.Models
import Mathlib.Data.List.Sort
import Mathlib.Data.String.Basic

/-! # The observables section (`format_observables_wire_json` in `domain/p2p.rs`)

The observables sorted by id and their terms by label, with ids and labels put between quotes as
they are. Where they hold no quote, the text determines the observables up to their order
(`formatObservablesWireJson_inj`). -/

namespace WqcNode.Domain.Observables

open WqcNode.Lib WqcNode.Lib.Text WqcNode.Lib.Json WqcNode.Lib.Code WqcNode.Domain.Models

/-! ### The source's functions -/

/-- Rust's float formatting: `{}`, `{:.1}`, and the parser that reads a text back. -/
structure FloatText where
  display : F64 → List Char
  fixedOne : F64 → List Char
  parse : List Char → F64

/-- `val == (val as i64) as f64`; the cast truncates and saturates. -/
def isWhole (val : F64) : Bool := val == Float.Model.ofInt64 val.toInt64

/-- `str::strip_prefix`. -/
def stripPrefix (pre text : List Char) : Option (List Char) :=
  if pre.isPrefixOf text then some (text.drop pre.length) else none

/-- `str::strip_suffix` of one character. -/
def stripSuffix (c : Char) (text : List Char) : Option (List Char) :=
  if text.getLast? = some c then some text.dropLast else none

section Format

variable (ft : FloatText)

def formatGoFloat (val : F64) : List Char :=
  if isWhole val then ft.fixedOne val else ft.display val

def formatComplexCoeffJson (coeff : ComplexCoeff) : List Char :=
  chars "\x7b\"imag\":" ++ (formatGoFloat ft coeff.imag ++ (chars ",\"real\":" ++
    (formatGoFloat ft coeff.real ++ ['\x7d'])))

def formatTerm (t : PauliTerm) : List Char :=
  chars "\x7b\"coeff\":" ++ (formatComplexCoeffJson ft t.coeff ++ (chars ",\"label\":\"" ++
    (t.label.toList ++ chars "\"\x7d")))

def sortedTerms (obs : ObservableSpec) : List PauliTerm :=
  obs.terms.insertionSort fun a b => a.label ≤ b.label

def formatObservable (obs : ObservableSpec) : List Char :=
  chars "\x7b\"id\":\"" ++ (obs.id.toList ++ (chars "\",\"terms\":[" ++
    (joined ',' ((sortedTerms obs).map (formatTerm ft)) ++ chars "]\x7d")))

def sortedObservables (observables : List ObservableSpec) : List ObservableSpec :=
  observables.insertionSort fun a b => a.id ≤ b.id

def formatObservableSpecJson (observables : List ObservableSpec) : List Char :=
  chars "\x7b\"observables\":[" ++
    (joined ',' ((sortedObservables observables).map (formatObservable ft)) ++ chars "]\x7d")

/-- The observables as they stand between `{"observables":` and `}`. -/
def formatObservablesWireJson (observables : List ObservableSpec) : List Char :=
  if observables = [] then chars "[]"
  else
    let inner := formatObservableSpecJson ft observables
    ((stripPrefix (chars "\x7b\"observables\":") inner).bind (stripSuffix '\x7d')).getD inner

end Format

/-! ### What the format needs -/

/-- Neither a comma nor a closing brace: digits, signs, the point, and the letters of `inf` and
`NaN`. -/
def isFloatChar (c : Char) : Bool := c != ',' && c != '\x7d'

/-- The float's text is read back as the float; `{:.1}` does so for whole numbers. -/
structure FloatText.ReadsBack (ft : FloatText) (f : F64) : Prop where
  display_chars : ∀ c ∈ ft.display f, isFloatChar c = true
  display_parse : ft.parse (ft.display f) = f
  fixedOne_chars : isWhole f = true → ∀ c ∈ ft.fixedOne f, isFloatChar c = true
  fixedOne_parse : isWhole f = true → ft.parse (ft.fixedOne f) = f

/-- Ids and labels hold no quote. -/
structure Clean (obs : ObservableSpec) : Prop where
  id : '"' ∉ obs.id.toList
  label : ∀ t ∈ obs.terms, '"' ∉ t.label.toList

/-- The same observables, in some order and each with its terms in some order. -/
def SameObservables (l l' : List ObservableSpec) : Prop :=
  ∃ m m', l.Perm m ∧ List.Forall₂ (fun o o' => o.id = o'.id ∧ o.terms.Perm o'.terms) m m' ∧
    m'.Perm l'

/-! ### Reading the text -/

section Read

variable {ft : FloatText}

theorem isFloatChar_formatGoFloat {f : F64} (h : ft.ReadsBack f) :
    ∀ c ∈ formatGoFloat ft f, isFloatChar c = true := by
  unfold formatGoFloat
  split_ifs with hwhole
  · exact h.fixedOne_chars hwhole
  · exact h.display_chars

theorem parse_formatGoFloat {f : F64} (h : ft.ReadsBack f) : ft.parse (formatGoFloat ft f) = f := by
  unfold formatGoFloat
  split_ifs with hwhole
  · exact h.fixedOne_parse hwhole
  · exact h.display_parse

theorem float_inj {f g : F64} (hf : ft.ReadsBack f) (hg : ft.ReadsBack g) {r r' : List Char}
    (hr : Ends isFloatChar r) (hr' : Ends isFloatChar r')
    (h : formatGoFloat ft f ++ r = formatGoFloat ft g ++ r') : f = g ∧ r = r' := by
  obtain ⟨htext, rfl⟩ :=
    block_inj (isFloatChar_formatGoFloat hf) (isFloatChar_formatGoFloat hg) hr hr' h
  exact ⟨by rw [← parse_formatGoFloat hf, htext, parse_formatGoFloat hg], rfl⟩

/-- Rust reads both floats of a coefficient back. -/
def FloatText.ReadsCoeff (ft : FloatText) (c : ComplexCoeff) : Prop :=
  ft.ReadsBack c.real ∧ ft.ReadsBack c.imag

theorem coeff_reads {c c' : ComplexCoeff} (hc : ft.ReadsCoeff c) (hc' : ft.ReadsCoeff c') :
    Reads (formatComplexCoeffJson ft) (fun _ => True) id c c' := by
  intro r r' _ _ h
  have hcomma : ∀ x, Ends isFloatChar (chars ",\"real\":" ++ x) := by
    intro x
    rw [show chars ",\"real\":" = ',' :: chars "\"real\":" from rfl, List.cons_append, ends_cons]
    rfl
  simp only [formatComplexCoeffJson, List.append_assoc, List.append_cancel_left_eq] at h
  obtain ⟨himag, h⟩ := float_inj hc.2 hc'.2 (hcomma _) (hcomma _) h
  rw [List.append_cancel_left_eq] at h
  obtain ⟨hreal, h⟩ := float_inj hc.1 hc'.1 ((ends_cons ..).mpr (by decide))
    ((ends_cons ..).mpr (by decide)) h
  refine ⟨?_, (List.cons.inj h).2⟩
  cases c
  cases c'
  simp_all

/-- What stands after a label, and after an id. -/
def labelEnd : List Char := chars "\"\x7d"
def idEnd : List Char := chars "\",\"terms\":["

theorem term_reads {t t' : PauliTerm} (hc : ft.ReadsCoeff t.coeff) (hc' : ft.ReadsCoeff t'.coeff)
    (hap : Apart labelEnd t.label.toList t'.label.toList) :
    Reads (formatTerm ft) (fun _ => True) id t t' := by
  intro r r' _ _ h
  simp only [formatTerm, List.append_assoc, List.append_cancel_left_eq] at h
  obtain ⟨hcoeff, h⟩ := coeff_reads hc hc' _ _ trivial trivial h
  rw [List.append_cancel_left_eq] at h
  have hborder : Borderless labelEnd := by decide
  obtain ⟨hlabel, hr⟩ := delimited_inj hborder hap h
  refine ⟨?_, hr⟩
  cases t
  cases t'
  have := String.toList_inj.mp hlabel
  simp_all

theorem formatTerm_ne (t : PauliTerm) (r r' : List Char) : formatTerm ft t ++ r ≠ ']' :: r' := by
  rw [formatTerm, show chars "\x7b\"coeff\":" = '\x7b' :: chars "\"coeff\":" from rfl]
  simp

theorem formatObservable_ne (o : ObservableSpec) (r r' : List Char) :
    formatObservable ft o ++ r ≠ ']' :: r' := by
  rw [formatObservable, show chars "\x7b\"id\":\"" = '\x7b' :: chars "\"id\":\"" from rfl]
  simp

theorem mem_sortedTerms {o : ObservableSpec} {t : PauliTerm} : t ∈ sortedTerms o ↔ t ∈ o.terms :=
  List.mem_insertionSort ..

theorem mem_sortedObservables {l : List ObservableSpec} {o : ObservableSpec} :
    o ∈ sortedObservables l ↔ o ∈ l :=
  List.mem_insertionSort ..

/-- Neither id and no label of the one observable runs past one of the other and its closing
text. -/
structure ObservablesApart (o o' : ObservableSpec) : Prop where
  id : Apart idEnd o.id.toList o'.id.toList
  label : ∀ t ∈ o.terms, ∀ t' ∈ o'.terms, Apart labelEnd t.label.toList t'.label.toList

theorem Clean.apart {o o' : ObservableSpec} (ho : Clean o) (ho' : Clean o') :
    ObservablesApart o o' :=
  ⟨apart_of_notMem ho.id ho'.id,
    fun t ht t' ht' => apart_of_notMem (ho.label t ht) (ho'.label t' ht')⟩

theorem observable_reads {o o' : ObservableSpec} (hc : ∀ t ∈ o.terms, ft.ReadsCoeff t.coeff)
    (hc' : ∀ t ∈ o'.terms, ft.ReadsCoeff t.coeff) (hap : ObservablesApart o o') :
    Reads (formatObservable ft) (fun _ => True) (fun o => (o.id, sortedTerms o)) o o' := by
  intro r r' _ _ h
  have hclose : chars "]\x7d" = ']' :: ['\x7d'] := rfl
  simp only [formatObservable, List.append_assoc, List.append_cancel_left_eq, hclose,
    List.cons_append] at h
  have hborder : Borderless idEnd := by decide
  obtain ⟨hid, h⟩ := delimited_inj hborder hap.id h
  obtain ⟨hterms, h⟩ := joined_stop (by decide) (fun _ => trivial) (fun _ => trivial) formatTerm_ne
    (fun t ht t' ht' => term_reads (hc t (mem_sortedTerms.mp ht)) (hc' t' (mem_sortedTerms.mp ht'))
      (hap.label t (mem_sortedTerms.mp ht) t' (mem_sortedTerms.mp ht'))) h
  refine ⟨?_, (List.cons.inj h).2⟩
  simp only [List.map_id] at hterms
  exact Prod.ext (String.toList_inj.mp hid) hterms

/-- The prefix and the suffix are there to be stripped. -/
theorem formatObservablesWireJson_eq (observables : List ObservableSpec) :
    formatObservablesWireJson ft observables =
      '[' :: (joined ',' ((sortedObservables observables).map (formatObservable ft)) ++ [']']) := by
  unfold formatObservablesWireJson
  split_ifs with hnil
  · subst hnil
    rfl
  · have hopen : chars "\x7b\"observables\":[" = chars "\x7b\"observables\":" ++ ['['] := rfl
    have hclose : chars "]\x7d" = [']'] ++ ['\x7d'] := rfl
    have hpre : stripPrefix (chars "\x7b\"observables\":") (formatObservableSpecJson ft observables) =
        some ('[' :: (joined ',' ((sortedObservables observables).map (formatObservable ft)) ++
          [']']) ++ ['\x7d']) := by
      rw [formatObservableSpecJson, hopen, hclose, List.append_assoc, stripPrefix,
        if_pos (by simp), List.drop_left]
      simp
    have hsuf : ∀ text, stripSuffix '\x7d' (text ++ ['\x7d']) = some text := by
      intro text
      rw [stripSuffix, if_pos (by simp), List.dropLast_concat]
    simp only [hpre, Option.bind_some, hsuf, Option.getD_some]

theorem forall₂_of_map_eq {α β : Type*} {f : α → β} {p : α → α → Prop}
    (hp : ∀ a b, f a = f b → p a b) : ∀ {l l' : List α}, l.map f = l'.map f → List.Forall₂ p l l'
  | [], [], _ => .nil
  | a :: l, b :: l', h => by
    obtain ⟨hab, hl⟩ := List.cons.inj h
    exact .cons (hp a b hab) (forall₂_of_map_eq hp hl)

theorem same_of_key_eq {o o' : ObservableSpec} (h : (o.id, sortedTerms o) = (o'.id, sortedTerms o')) :
    o.id = o'.id ∧ o.terms.Perm o'.terms := by
  obtain ⟨hid, hterms⟩ := Prod.mk.inj h
  have hperm : o.terms.Perm (sortedTerms o') := hterms ▸ (List.perm_insertionSort ..).symm
  exact ⟨hid, hperm.trans (List.perm_insertionSort ..)⟩

/-- Rust reads the coefficients of the observables back. -/
def FloatText.ReadsObservables (ft : FloatText) (l : List ObservableSpec) : Prop :=
  ∀ o ∈ l, ∀ t ∈ o.terms, ft.ReadsCoeff t.coeff

/-- Two sections with one text list the same observables in the same order. -/
theorem sorted_of_text_eq {l l' : List ObservableSpec} (hc : ft.ReadsObservables l)
    (hc' : ft.ReadsObservables l') (hap : ∀ o ∈ l, ∀ o' ∈ l', ObservablesApart o o')
    (h : formatObservablesWireJson ft l = formatObservablesWireJson ft l') :
    (sortedObservables l).map (fun o => (o.id, sortedTerms o)) =
      (sortedObservables l').map fun o => (o.id, sortedTerms o) := by
  rw [formatObservablesWireJson_eq, formatObservablesWireJson_eq] at h
  have hreads : ∀ o ∈ sortedObservables l, ∀ o' ∈ sortedObservables l',
      Reads (formatObservable ft) (fun _ => True) (fun o => (o.id, sortedTerms o)) o o' := by
    intro o ho o' ho'
    have hmem := mem_sortedObservables.mp ho
    have hmem' := mem_sortedObservables.mp ho'
    exact observable_reads (hc o hmem) (hc' o' hmem') (hap o hmem o' hmem')
  exact (joined_stop (by decide) (fun _ => trivial) (fun _ => trivial) formatObservable_ne hreads
    (List.cons.inj h).2).1

/-- Lists that sort alike hold the same observables. -/
theorem same_of_sorted_eq {l l' : List ObservableSpec}
    (h : (sortedObservables l).map (fun o => (o.id, sortedTerms o)) =
      (sortedObservables l').map fun o => (o.id, sortedTerms o)) : SameObservables l l' :=
  ⟨sortedObservables l, sortedObservables l', (List.perm_insertionSort ..).symm,
    forall₂_of_map_eq (f := fun o => (o.id, sortedTerms o)) (fun _ _ => same_of_key_eq) h,
    List.perm_insertionSort ..⟩

/-- **The section determines the observables**, up to the order of them and of their terms. -/
theorem formatObservablesWireJson_inj (hft : ∀ f, ft.ReadsBack f) {l l' : List ObservableSpec}
    (hl : ∀ o ∈ l, Clean o) (hl' : ∀ o ∈ l', Clean o)
    (h : formatObservablesWireJson ft l = formatObservablesWireJson ft l') :
    SameObservables l l' := by
  have hreads : ∀ l : List ObservableSpec, ft.ReadsObservables l :=
    fun _ _ _ _ _ => ⟨hft _, hft _⟩
  exact same_of_sorted_eq (sorted_of_text_eq (hreads l) (hreads l')
    (fun o ho o' ho' => (hl o ho).apart (hl' o' ho')) h)

end Read

end WqcNode.Domain.Observables
