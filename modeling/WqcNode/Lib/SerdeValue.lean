import WqcNode.Lib.Serde

/-! # Values as JSON

How `serde_json` writes a `Value` and reads it back. An integer is written without a fraction, a
finite double in the shortest form that shows it is one, and any other double as `null`. A map is a
`BTreeMap`: its members come in the order of their keys, and a member that comes twice is the last.

The parser enters at most `depthLimit` arrays and objects, one in the other; the writer has no such
limit.

* `valueOf_valueDoc_iff`: a value is read back from its document exactly if it does not go deeper
  than the reader has room for.
* `valueWithin_sound`: what is read is sorted and fits the room. -/

namespace WqcNode.Lib.SerdeValue

open WqcNode.Lib WqcNode.Lib.Json WqcNode.Lib.JsonText WqcNode.Lib.Serde

/-! ### Numbers -/

/-- The text of a finite double, and the double nearest to a numeral. -/
structure FloatCodec where
  formatFinite : F64 → List Char
  parse : Decimal → F64

/-- The numbers of a document that is written. -/
inductive Literal
  | int (i : ℤ)
  | float (f : { f : F64 // isFinite f })

/-- A numeral with a fraction or an exponent. -/
def isFloat (d : Decimal) : Bool := d.frac ≠ [] || d.exp ≠ none

section Numbers

variable (fc : FloatCodec)

/-- A finite double is written as a numeral with a fraction or an exponent, and read back. -/
def FloatCodec.RoundTrips : Prop := ∀ f, isFinite f = true →
  ∃ d : Decimal, d.IsJson ∧ isFloat d = true ∧ fc.formatFinite f = d.text ∧ fc.parse d = f

def numText : Literal → List Char
  | .int i => (Decimal.ofInt i).text
  | .float f => fc.formatFinite f

/-- The numeral a number is written as. -/
def numeral : Literal → Decimal
  | .int i => .ofInt i
  | .float f => ((readNumber (fc.formatFinite f)).map (·.1)).getD (Decimal.ofNat 0)

/-- `serialize_f64`: a double that is not finite is written as `null`. -/
def floatDoc (f : F64) : Document Literal :=
  if h : isFinite f = true then .number (.float ⟨f, h⟩) else .null

/-- The double of a numeral; too large a numeral is an error. -/
def finiteOf (d : Decimal) : Option { f : F64 // isFinite f } :=
  if h : isFinite (fc.parse d) = true then some ⟨fc.parse d, h⟩ else none

def f64Of : Document Decimal → Option F64
  | .number d => (finiteOf fc d).map (·.1)
  | _ => none

/-- A negative 64-bit integer; minus zero is none. -/
def negIntOf (n : ℕ) : Option Number :=
  if h : n ≤ 2 ^ 63 ∧ Int64.ofInt (-n) < 0 then some (.negInt ⟨Int64.ofInt (-n), h.2⟩) else none

def posIntOf (n : ℕ) : Option Number := if n < 2 ^ 64 then some (.posInt (UInt64.ofNat n)) else none

/-- `Number`: an unsigned or a negative 64-bit integer, else a double. -/
def numberOf (d : Decimal) : Option Number :=
  let float := (finiteOf fc d).map Number.float
  if isFloat d then float
  else if d.neg then (negIntOf (digitsVal d.int)).or float
  else (posIntOf (digitsVal d.int)).or float

/-- A number as it is written. -/
def numberDoc : Number → Literal
  | .posInt n => .int n.toNat
  | .negInt i => .int i.1.toInt
  | .float f => .float f

variable {fc}

theorem numeral_float (hfc : fc.RoundTrips) (f : { f : F64 // isFinite f }) :
    fc.formatFinite f = (numeral fc (.float f)).text ∧ (numeral fc (.float f)).IsJson ∧
      isFloat (numeral fc (.float f)) = true ∧ fc.parse (numeral fc (.float f)) = f := by
  obtain ⟨d, hjson, hfloat, htext, hparse⟩ := hfc f f.2
  have hread := readNumber_text hjson (Code.ends_nil _)
  rw [List.append_nil] at hread
  have hnum : numeral fc (.float f) = d := by
    rw [numeral, htext, hread]
    rfl
  rw [hnum]
  exact ⟨htext, hjson, hfloat, hparse⟩

theorem numerals (hfc : fc.RoundTrips) (ns : List Literal) :
    Numerals (numText fc) (numeral fc) ns := by
  intro n _
  cases n with
  | int i => exact ⟨rfl, Decimal.ofInt_isJson i⟩
  | float f =>
    obtain ⟨htext, hjson, -⟩ := numeral_float hfc f
    exact ⟨htext, hjson⟩

@[simp] theorem numeral_nat (n : ℕ) : numeral fc (.int n) = Decimal.ofNat n := by
  simp [numeral, Decimal.ofInt, Decimal.ofNat]

theorem finiteOf_numeral (hfc : fc.RoundTrips) (f : { f : F64 // isFinite f }) :
    finiteOf fc (numeral fc (.float f)) = some f := by
  have hparse := (numeral_float hfc f).2.2.2
  unfold finiteOf
  rw [dif_pos (by rw [hparse]; exact f.2)]
  exact congrArg some (Subtype.ext hparse)

/-- A double is read back exactly if it is finite. -/
theorem f64Of_floatDoc (hfc : fc.RoundTrips) (f g : F64) :
    f64Of fc ((floatDoc f).map (numeral fc)) = some g ↔ isFinite f = true ∧ f = g := by
  unfold floatDoc
  by_cases hf : isFinite f = true
  · rw [dif_pos hf, Document.map, f64Of, finiteOf_numeral hfc]
    simp [hf]
  · simp [Document.map, f64Of, hf]

theorem negIntOf_neg {i : Int64} (hi : i < 0) : negIntOf i.toInt.natAbs = some (.negInt ⟨i, hi⟩) := by
  have hlt : i.toInt < 0 := by simpa using Int64.lt_iff_toInt_lt.mp hi
  have hlo : -2 ^ 63 ≤ i.toInt := i.le_toInt
  have hval : (-(i.toInt.natAbs : ℤ)) = i.toInt := by omega
  have hof : Int64.ofInt (-(i.toInt.natAbs : ℤ)) = i := by rw [hval, Int64.ofInt_toInt]
  unfold negIntOf
  rw [dif_pos ⟨by omega, by rw [hof]; exact hi⟩]
  simp only [hof]

theorem posIntOf_toNat (n : UInt64) : posIntOf n.toNat = some (.posInt n) := by
  unfold posIntOf
  rw [if_pos n.toNat_lt, UInt64.ofNat_toNat]

/-- **A number is read back.** -/
theorem numberOf_numberDoc (hfc : fc.RoundTrips) (n : Number) :
    numberOf fc (numeral fc (numberDoc n)) = some n := by
  unfold numberOf
  cases n with
  | posInt n => simp [numberDoc, numeral, Decimal.ofInt, isFloat, posIntOf_toNat]
  | negInt i =>
    obtain ⟨i, hi⟩ := i
    have hlt : i.toInt < 0 := by simpa using Int64.lt_iff_toInt_lt.mp hi
    simp [numberDoc, numeral, Decimal.ofInt, isFloat, hlt, negIntOf_neg hi]
  | float f =>
    have hfloat := (numeral_float hfc f).2.2.1
    simp [numberDoc, hfloat, finiteOf_numeral hfc f]

end Numbers

/-! ### Depth -/

section Depth

variable {ν μ : Type}

mutual

/-- How many arrays and objects stand one in the other. -/
def depth : Document ν → ℕ
  | .array items => depthOfItems items + 1
  | .object members => depthOfMembers members + 1
  | _ => 0

def depthOfItems : List (Document ν) → ℕ
  | [] => 0
  | item :: items => max (depth item) (depthOfItems items)

def depthOfMembers : List (String × Document ν) → ℕ
  | [] => 0
  | (_, value) :: members => max (depth value) (depthOfMembers members)

end

mutual

theorem depth_map (f : ν → μ) : ∀ doc : Document ν, depth (doc.map f) = depth doc
  | .null | .bool _ | .number _ | .string _ => by simp only [Document.map, depth]
  | .array items => by simp only [Document.map, depth, depthOfItems_map f items]
  | .object members => by simp only [Document.map, depth, depthOfMembers_map f members]

theorem depthOfItems_map (f : ν → μ) :
    ∀ items : List (Document ν), depthOfItems (mapItems f items) = depthOfItems items
  | [] => rfl
  | item :: items => by simp only [mapItems, depthOfItems, depth_map f item, depthOfItems_map f items]

theorem depthOfMembers_map (f : ν → μ) : ∀ members : List (String × Document ν),
    depthOfMembers (mapMembers f members) = depthOfMembers members
  | [] => rfl
  | (_, value) :: members => by
    simp only [mapMembers, depthOfMembers, depth_map f value, depthOfMembers_map f members]

end

end Depth

/-- `remaining_depth` of a new parser is 128, and at 0 it stops. -/
def depthLimit : ℕ := 127

/-! ### Values -/

/-- `BTreeMap::insert`. -/
def insertMember {α : Type} (key : String) (value : α) : List (String × α) → List (String × α)
  | [] => [(key, value)]
  | (key', value') :: rest =>
    if key < key' then (key, value) :: (key', value') :: rest
    else if key = key' then (key, value) :: rest
    else (key', value') :: insertMember key value rest

section Values

variable (fc : FloatCodec)

mutual

/-- The value a document is read as. -/
def valueOf : Document Decimal → Option Value
  | .null => some .null
  | .bool b => some (.bool b)
  | .number d => (numberOf fc d).map .number
  | .string s => some (.string s)
  | .array items => (valuesOf items).map .array
  | .object members => (membersInto members []).map .object

def valuesOf : List (Document Decimal) → Option (List Value)
  | [] => some []
  | item :: items => do return (← valueOf item) :: (← valuesOf items)

/-- The members are inserted one by one. -/
def membersInto : List (String × Document Decimal) → List (String × Value) →
    Option (List (String × Value))
  | [], map => some map
  | (key, doc) :: members, map => do
    let value ← valueOf doc
    membersInto members (insertMember key value map)

end

/-- A value read where `room` more arrays and objects may be entered. -/
def valueWithin (room : ℕ) (doc : Document Decimal) : Option Value :=
  if depth doc ≤ room then valueOf fc doc else none

end Values

/-- A value as it is written. -/
def valueDoc (value : Value) : Document Literal := value.map numberDoc

mutual

/-- The members of every map are in the order of their keys, each key once: a `BTreeMap`. -/
def Sorted : Value → Prop
  | .array items => SortedItems items
  | .object map => (map.map (·.1)).Pairwise (· < ·) ∧ SortedMembers map
  | _ => True

def SortedItems : List Value → Prop
  | [] => True
  | item :: items => Sorted item ∧ SortedItems items

def SortedMembers : List (String × Value) → Prop
  | [] => True
  | (_, value) :: members => Sorted value ∧ SortedMembers members

end

/-- A member whose key is past all others comes last. -/
theorem insertMember_last {α : Type} {key : String} {value : α} :
    ∀ {map : List (String × α)}, (∀ k ∈ map.map (·.1), k < key) →
      insertMember key value map = map ++ [(key, value)]
  | [], _ => rfl
  | (key', value') :: map, h => by
    have hlt : key' < key := h key' (by simp)
    have hnot : ¬ key < key' := lt_asymm hlt
    have hne : key ≠ key' := ne_of_gt hlt
    rw [insertMember, if_neg hnot, if_neg hne,
      insertMember_last fun k hk => h k (by simp [List.mem_map.mp hk])]
    rfl

section RoundTrip

variable {fc : FloatCodec}

mutual

/-- **A value is read back** from its document. -/
theorem valueOf_valueDoc (hfc : fc.RoundTrips) : ∀ {v : Value}, Sorted v →
    valueOf fc ((valueDoc v).map (numeral fc)) = some v
  | .null, _ | .bool _, _ | .string _, _ => by
    simp only [valueDoc, Document.map, valueOf]
  | .number n, _ => by
    simp only [valueDoc, Document.map, valueOf, numberOf_numberDoc hfc n, Option.map_some]
  | .array items, h => by
    rw [Sorted] at h
    simp only [valueDoc, Document.map, valueOf, valuesOf_items hfc h, Option.map_some]
  | .object map, h => by
    rw [Sorted] at h
    have hread : membersInto fc (mapMembers (numeral fc) (mapMembers numberDoc map)) [] =
        some ([] ++ map) := membersInto_members hfc h.2 (by simpa using h.1)
    simp only [valueDoc, Document.map, valueOf, hread, Option.map_some, List.nil_append]

theorem valuesOf_items (hfc : fc.RoundTrips) : ∀ {items : List Value}, SortedItems items →
    valuesOf fc (mapItems (numeral fc) (mapItems numberDoc items)) = some items
  | [], _ => by simp only [mapItems, valuesOf]
  | item :: items, h => by
    rw [SortedItems] at h
    have hitem := valueOf_valueDoc hfc h.1
    unfold valueDoc at hitem
    simp only [mapItems, valuesOf, hitem, valuesOf_items hfc h.2]
    rfl

/-- The members come in the order of their keys, past those that are there. -/
theorem membersInto_members (hfc : fc.RoundTrips) : ∀ {members map : List (String × Value)},
    SortedMembers members →
    ((map ++ members).map (·.1)).Pairwise (· < ·) →
    membersInto fc (mapMembers (numeral fc) (mapMembers numberDoc members)) map =
      some (map ++ members)
  | [], map, _, _ => by simp only [mapMembers, membersInto, List.append_nil]
  | (key, value) :: members, map, h, hsorted => by
    rw [SortedMembers] at h
    have hvalue := valueOf_valueDoc hfc h.1
    unfold valueDoc at hvalue
    have hpast : ∀ k ∈ map.map (·.1), k < key := by
      rw [List.map_append, List.pairwise_append] at hsorted
      intro k hk
      exact hsorted.2.2 k hk key (by simp)
    have hrest : map ++ (key, value) :: members = (map ++ [(key, value)]) ++ members := by simp
    rw [hrest] at hsorted
    simp only [mapMembers, membersInto, hvalue, Option.bind_eq_bind, Option.bind_some,
      insertMember_last hpast]
    rw [membersInto_members hfc h.2 hsorted, hrest]

end

/-- **Main result.** A value is read back where there is room exactly if it goes no deeper. -/
theorem valueOf_valueDoc_iff (hfc : fc.RoundTrips) {room : ℕ} {v : Value} (hv : Sorted v) :
    valueWithin fc room ((valueDoc v).map (numeral fc)) = some v ↔ depth v ≤ room := by
  unfold valueWithin
  rw [depth_map, valueDoc, depth_map]
  constructor
  · intro h
    by_contra hdeep
    rw [if_neg hdeep] at h
    cases h
  · intro hdepth
    rw [if_pos hdepth]
    exact valueOf_valueDoc hfc hv

end RoundTrip

/-! ### What is read is well formed -/

section Sound

variable {fc : FloatCodec}

theorem sortedMembers_iff {map : List (String × Value)} :
    SortedMembers map ↔ ∀ e ∈ map, Sorted e.2 := by
  induction map with
  | nil => simp [SortedMembers]
  | cons e map ih => rw [SortedMembers, ih, List.forall_mem_cons]

theorem depthOfItems_le {ν : Type} {n : ℕ} : ∀ {items : List (Document ν)},
    depthOfItems items ≤ n ↔ ∀ doc ∈ items, depth doc ≤ n
  | [] => by simp [depthOfItems]
  | item :: items => by rw [depthOfItems, max_le_iff, depthOfItems_le, List.forall_mem_cons]

theorem depthOfMembers_le {ν : Type} {n : ℕ} : ∀ {members : List (String × Document ν)},
    depthOfMembers members ≤ n ↔ ∀ e ∈ members, depth e.2 ≤ n
  | [] => by simp [depthOfMembers]
  | e :: members => by rw [depthOfMembers, max_le_iff, depthOfMembers_le, List.forall_mem_cons]

theorem mem_insertMember {α : Type} {key : String} {value : α} :
    ∀ {map : List (String × α)} {e}, e ∈ insertMember key value map → e = (key, value) ∨ e ∈ map
  | [], e, h => by simpa [insertMember] using h
  | (key', value') :: map, e, h => by
    unfold insertMember at h
    split_ifs at h
    · simpa using h
    · rcases List.mem_cons.mp h with h | h
      · exact .inl h
      · exact .inr (List.mem_cons_of_mem _ h)
    · rcases List.mem_cons.mp h with h | h
      · exact .inr (h ▸ List.mem_cons_self ..)
      · exact (mem_insertMember h).imp id (List.mem_cons_of_mem _)

theorem pairwise_insertMember {α : Type} {key : String} {value : α} :
    ∀ {map : List (String × α)}, (map.map (·.1)).Pairwise (· < ·) →
      ((insertMember key value map).map (·.1)).Pairwise (· < ·)
  | [], _ => by simp [insertMember]
  | (key', value') :: map, h => by
    have hall : ∀ k ∈ map.map (·.1), key' < k := (List.pairwise_cons.mp h).1
    have hrest : (map.map (·.1)).Pairwise (· < ·) := (List.pairwise_cons.mp h).2
    unfold insertMember
    split_ifs with hlt heq
    · refine List.pairwise_cons.mpr ⟨fun k hk => ?_, h⟩
      rcases List.mem_cons.mp hk with rfl | hk
      · exact hlt
      · exact hlt.trans (hall k hk)
    · exact List.pairwise_cons.mpr ⟨heq ▸ hall, hrest⟩
    · refine List.pairwise_cons.mpr ⟨fun k hk => ?_, pairwise_insertMember hrest⟩
      obtain ⟨e, he, rfl⟩ := List.mem_map.mp hk
      rcases mem_insertMember he with rfl | he
      · exact lt_of_le_of_ne (not_lt.mp hlt) (Ne.symm heq)
      · exact hall _ (List.mem_map_of_mem he)

mutual

/-- **A value that is read** is sorted and no deeper than its document. -/
theorem valueOf_sound : ∀ {doc : Document Decimal} {v : Value}, valueOf fc doc = some v →
    Sorted v ∧ depth v ≤ depth doc
  | .null, v, h | .bool _, v, h | .string _, v, h => by
    rw [valueOf] at h
    cases h
    exact ⟨trivial, le_rfl⟩
  | .number d, v, h => by
    rw [valueOf] at h
    obtain ⟨n, -, rfl⟩ := Option.map_eq_some_iff.mp h
    exact ⟨trivial, le_rfl⟩
  | .array items, v, h => by
    rw [valueOf] at h
    obtain ⟨vs, hvs, rfl⟩ := Option.map_eq_some_iff.mp h
    obtain ⟨hsorted, hdepth⟩ := valuesOf_sound hvs
    rw [Sorted, depth, depth]
    exact ⟨hsorted, by omega⟩
  | .object members, v, h => by
    rw [valueOf] at h
    obtain ⟨map, hmap, rfl⟩ := Option.map_eq_some_iff.mp h
    obtain ⟨hkeys, hvalues⟩ := membersInto_sound (n := depthOfMembers members) hmap le_rfl
      (by simp) (by simp)
    rw [Sorted, depth, depth, sortedMembers_iff]
    have hdepth := depthOfMembers_le.mpr fun e he => (hvalues e he).2
    exact ⟨⟨hkeys, fun e he => (hvalues e he).1⟩, by omega⟩

theorem valuesOf_sound : ∀ {items : List (Document Decimal)} {vs : List Value},
    valuesOf fc items = some vs → SortedItems vs ∧ depthOfItems vs ≤ depthOfItems items
  | [], vs, h => by
    rw [valuesOf] at h
    cases h
    rw [SortedItems, depthOfItems]
    exact ⟨trivial, Nat.zero_le _⟩
  | item :: items, vs, h => by
    rw [valuesOf] at h
    obtain ⟨v, hv, h⟩ := Option.bind_eq_some_iff.mp h
    obtain ⟨vs', hvs, h⟩ := Option.bind_eq_some_iff.mp h
    cases h
    obtain ⟨hs, hd⟩ := valueOf_sound hv
    obtain ⟨hss, hds⟩ := valuesOf_sound hvs
    rw [SortedItems, depthOfItems, depthOfItems]
    exact ⟨⟨hs, hss⟩, max_le_max hd hds⟩

theorem membersInto_sound : ∀ {members : List (String × Document Decimal)}
    {map map' : List (String × Value)} {n : ℕ}, membersInto fc members map = some map' →
    depthOfMembers members ≤ n → (map.map (·.1)).Pairwise (· < ·) →
    (∀ e ∈ map, Sorted e.2 ∧ depth e.2 ≤ n) →
    (map'.map (·.1)).Pairwise (· < ·) ∧ ∀ e ∈ map', Sorted e.2 ∧ depth e.2 ≤ n
  | [], map, map', n, h, _, hkeys, hvalues => by
    rw [membersInto] at h
    cases h
    exact ⟨hkeys, hvalues⟩
  | (key, doc) :: members, map, map', n, h, hdepth, hkeys, hvalues => by
    rw [membersInto] at h
    obtain ⟨v, hv, h⟩ := Option.bind_eq_some_iff.mp h
    rw [depthOfMembers, max_le_iff] at hdepth
    obtain ⟨hs, hd⟩ := valueOf_sound hv
    refine membersInto_sound h hdepth.2 (pairwise_insertMember hkeys) fun e he => ?_
    rcases mem_insertMember he with rfl | he
    · exact ⟨hs, hd.trans hdepth.1⟩
    · exact hvalues e he

end

theorem valueWithin_sound {room : ℕ} {doc : Document Decimal} {v : Value}
    (h : valueWithin fc room doc = some v) : Sorted v ∧ depth v ≤ room := by
  unfold valueWithin at h
  split_ifs at h with hroom
  obtain ⟨hs, hd⟩ := valueOf_sound h
  exact ⟨hs, hd.trans hroom⟩

/-! ### Members of a map -/

theorem lookup_cons_if {α : Type} (e : String × α) (map : List (String × α)) (name : String) :
    (e :: map).lookup name = if e.1 = name then some e.2 else map.lookup name := by
  rw [List.lookup_cons]
  by_cases h : e.1 = name
  · simp [h]
  · simp [h, beq_false_of_ne (Ne.symm h)]

theorem lookup_insertMember {α : Type} {key name : String} {value : α} {map : List (String × α)} :
    (insertMember key value map).lookup name = if key = name then some value else map.lookup name := by
  induction map with
  | nil =>
    rw [insertMember, lookup_cons_if]
  | cons e map ih =>
    obtain ⟨key', value'⟩ := e
    unfold insertMember
    by_cases hlt : key < key'
    · rw [if_pos hlt, lookup_cons_if]
    · rw [if_neg hlt]
      by_cases heq : key = key'
      · rw [if_pos heq, lookup_cons_if, lookup_cons_if, heq]
        split_ifs <;> rfl
      · rw [if_neg heq, lookup_cons_if, ih, lookup_cons_if]
        by_cases hname : key = name
        · rw [if_neg (show key' ≠ name from fun h => heq (hname.trans h.symm)), if_pos hname, if_pos hname]
        · rw [if_neg hname, if_neg hname]

/-- **Of the members of a name the last one is kept.** -/
theorem lookup_membersInto {name : String} {members : List (String × Document Decimal)}
    {map map' : List (String × Value)} (h : membersInto fc members map = some map') :
    map'.lookup name = (last members name).elim (map.lookup name) (valueOf fc) := by
  induction members generalizing map with
  | nil =>
    rw [membersInto] at h
    cases h
    rfl
  | cons e members ih =>
    obtain ⟨key, doc⟩ := e
    rw [membersInto] at h
    obtain ⟨value, hvalue, h⟩ := Option.bind_eq_some_iff.mp h
    rw [ih h, lookup_insertMember, last]
    cases last members name with
    | some doc' => rfl
    | none =>
      by_cases hname : key = name
      · simp [hname, hvalue]
      · simp [hname]

end Sound

/-! ### Fields that are read back -/

section Fields

variable {ν α : Type} {f : ν → Decimal}

/-- `Option`: `null` without a value. -/
def orNull (doc : α → Document ν) : Option α → Document ν
  | some a => doc a
  | none => .null

/-- **The fields of a written record**, with the numerals of their numbers. -/
theorem fieldsOnce_map_record {μ : Type} (f : ν → μ) (fields : List (String × Option (Document ν)))
    (hnodup : (fields.map (·.1)).Nodup) :
    fieldsOnce (fields.map (·.1)) ((record fields).map f) =
      some (fields.map fun e => e.2.map (Document.map f)) := by
  have hread := fieldsOnce_record (fields.map fun e => (e.1, e.2.map (Document.map f)))
    (by simpa [List.map_map, Function.comp_def] using hnodup)
  rw [List.map_map, List.map_map] at hread
  rw [map_record]
  exact hread

theorem mapM_map_iff {β : Type} {write : α → β} {read : β → Option α} : ∀ {l : List α},
    (l.map write).mapM read = some l ↔ ∀ a ∈ l, read (write a) = some a
  | [] => by simp
  | a :: l => by
    rw [List.map_cons, List.mapM_cons, List.forall_mem_cons, ← mapM_map_iff]
    constructor
    · intro h
      obtain ⟨b, hb, h⟩ := Option.bind_eq_some_iff.mp h
      obtain ⟨bs, hbs, h⟩ := Option.bind_eq_some_iff.mp h
      cases h
      exact ⟨hb, hbs⟩
    · rintro ⟨ha, hl⟩
      rw [ha, hl]
      rfl

theorem listOf_iff {doc : α → Document ν} {read : Document Decimal → Option α} {l : List α} :
    listOf read ((Document.array (l.map doc)).map f) = some l ↔
      ∀ a ∈ l, read ((doc a).map f) = some a := by
  rw [Document.map, mapItems_eq, List.map_map, listOf, mapM_map_iff]
  rfl

theorem nullable_eq_some {read : Document Decimal → Option α} (hnull : read .null = none)
    {doc : Document Decimal} {a : α} : nullable read (some doc) = some (some a) ↔ read doc = some a := by
  unfold nullable
  split
  next heq => cases heq
  next heq =>
    rw [Option.some.inj heq, hnull]
    simp
  next doc' _ heq =>
    rw [Option.some.inj heq]
    simp

/-- A field that is written as `null` without a value. -/
theorem nullable_orNull {doc : α → Document ν} {read : Document Decimal → Option α}
    (hnull : read .null = none) {x : Option α} :
    nullable read (some ((orNull doc x).map f)) = some x ↔ ∀ a ∈ x, read ((doc a).map f) = some a := by
  cases x with
  | none => simp [orNull, Document.map, nullable]
  | some a =>
    rw [orNull, nullable_eq_some hnull]
    simp

/-- A field that is skipped without a value. -/
theorem nullable_skipped {doc : α → Document ν} {read : Document Decimal → Option α}
    (hnull : read .null = none) {x : Option α} :
    nullable read ((x.map doc).map (Document.map f)) = some x ↔
      ∀ a ∈ x, read ((doc a).map f) = some a := by
  cases x with
  | none => simp [nullable]
  | some a =>
    rw [Option.map_some, Option.map_some, nullable_eq_some hnull]
    simp

end Fields

end WqcNode.Lib.SerdeValue
