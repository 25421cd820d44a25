import Mathlib.Data.String.Basic

/-! # JSON values

A JSON document as `serde_json::Value` holds it: a number is an unsigned 64-bit integer, a negative
64-bit integer or a finite double, and an object is the list of its members in the map's order. The
type of documents is generic in the numbers, so that two documents can be compared up to how their
numbers are written (`Document.map Number.asF64`). -/

namespace WqcNode.Lib.Json

/-- IEEE binary64. -/
abbrev F64 := Float.Model

/-- Neither infinite nor NaN: the exponent field is not all ones. -/
def isFinite (f : F64) : Bool := (f.toBits >>> 52) &&& 0x7ff != 0x7ff

/-- `serde_json::Number`. -/
inductive Number
  | posInt (n : UInt64)
  | negInt (i : { i : Int64 // i < 0 })
  | float (f : { f : F64 // isFinite f })
deriving DecidableEq

/-- A JSON document with numbers in `ν`; an object is the list of its members. -/
inductive Document (ν : Type)
  | null
  | bool (b : Bool)
  | number (n : ν)
  | string (s : String)
  | array (items : List (Document ν))
  | object (map : List (String × Document ν))

instance {ν : Type} : Inhabited (Document ν) := ⟨.null⟩

/-- `serde_json::Value`. -/
abbrev Value := Document Number

/-- `Map::get`. -/
def get? (map : List (String × Value)) (key : String) : Option Value :=
  (map.find? (·.1 = key)).map (·.2)

/-- `Value::as_i64`. -/
def asI64 : Value → Option Int64
  | .number (.posInt n) => if n.toNat < 2 ^ 63 then some n.toInt64 else none
  | .number (.negInt i) => some i
  | _ => none

/-- `Value::as_u64`. -/
def asU64 : Value → Option UInt64
  | .number (.posInt n) => some n
  | _ => none

/-- `Number::as_f64`, which is defined for every number: an integer is rounded to the nearest
double. -/
def Number.asF64 : Number → F64
  | .posInt n => Float.Model.ofUInt64 n
  | .negInt i => Float.Model.ofInt64 i
  | .float f => f

section Numbers

variable {ν : Type}

mutual

/-- The numbers of a document. -/
def Document.numbers : Document ν → List ν
  | .null => []
  | .bool _ => []
  | .number n => [n]
  | .string _ => []
  | .array items => numbersOfItems items
  | .object members => numbersOfMembers members

def numbersOfItems : List (Document ν) → List ν
  | [] => []
  | item :: items => item.numbers ++ numbersOfItems items

def numbersOfMembers : List (String × Document ν) → List ν
  | [] => []
  | (_, value) :: members => value.numbers ++ numbersOfMembers members

end

theorem mem_numbersOfMembers {n : ν} : ∀ {members : List (String × Document ν)},
    n ∈ numbersOfMembers members ↔ ∃ e ∈ members, n ∈ e.2.numbers
  | [] => by simp [numbersOfMembers]
  | (key, value) :: members => by
    simp only [numbersOfMembers, List.mem_append, List.mem_cons, mem_numbersOfMembers,
      exists_eq_or_imp]

end Numbers

section Map

variable {ν μ : Type} (f : ν → μ)

mutual

/-- The document with `f` applied to every number. -/
def Document.map : Document ν → Document μ
  | .null => .null
  | .bool b => .bool b
  | .number n => .number (f n)
  | .string s => .string s
  | .array items => .array (mapItems items)
  | .object members => .object (mapMembers members)

def mapItems : List (Document ν) → List (Document μ)
  | [] => []
  | item :: items => item.map :: mapItems items

def mapMembers : List (String × Document ν) → List (String × Document μ)
  | [] => []
  | (key, value) :: members => (key, value.map) :: mapMembers members

end

theorem mapItems_eq : ∀ items : List (Document ν), mapItems f items = items.map (Document.map f)
  | [] => rfl
  | item :: items => by rw [mapItems, mapItems_eq items, List.map_cons]

theorem mapMembers_eq : ∀ members : List (String × Document ν),
    mapMembers f members = members.map fun e => (e.1, Document.map f e.2)
  | [] => rfl
  | e :: members => by rw [mapMembers, mapMembers_eq members, List.map_cons]

mutual

theorem Document.map_map {κ : Type} (g : μ → κ) :
    ∀ doc : Document ν, (doc.map f).map g = doc.map (g ∘ f)
  | .null => rfl
  | .bool _ => rfl
  | .number _ => rfl
  | .string _ => rfl
  | .array items => by simp only [Document.map, mapItems_mapItems g items]
  | .object members => by simp only [Document.map, mapMembers_mapMembers g members]

theorem mapItems_mapItems {κ : Type} (g : μ → κ) :
    ∀ items : List (Document ν), mapItems g (mapItems f items) = mapItems (g ∘ f) items
  | [] => rfl
  | item :: items => by simp only [mapItems, Document.map_map g item, mapItems_mapItems g items]

theorem mapMembers_mapMembers {κ : Type} (g : μ → κ) :
    ∀ members : List (String × Document ν),
      mapMembers g (mapMembers f members) = mapMembers (g ∘ f) members
  | [] => rfl
  | (key, value) :: members => by
    simp only [mapMembers, Document.map_map g value, mapMembers_mapMembers g members]

end

end Map

section MapTexts

variable {ν : Type} (text : String → String)

mutual

/-- The document with `text` applied to every string and every key. -/
def Document.mapTexts : Document ν → Document ν
  | .null => .null
  | .bool b => .bool b
  | .number n => .number n
  | .string s => .string (text s)
  | .array items => .array (mapTextsItems items)
  | .object members => .object (mapTextsMembers members)

def mapTextsItems : List (Document ν) → List (Document ν)
  | [] => []
  | item :: items => item.mapTexts :: mapTextsItems items

def mapTextsMembers : List (String × Document ν) → List (String × Document ν)
  | [] => []
  | (key, value) :: members => (text key, value.mapTexts) :: mapTextsMembers members

end

mutual

theorem Document.mapTexts_id : ∀ doc : Document ν, doc.mapTexts id = doc
  | .null => rfl
  | .bool _ => rfl
  | .number _ => rfl
  | .string _ => rfl
  | .array items => by rw [Document.mapTexts, mapTextsItems_id items]
  | .object members => by rw [Document.mapTexts, mapTextsMembers_id members]

theorem mapTextsItems_id : ∀ items : List (Document ν), mapTextsItems id items = items
  | [] => rfl
  | item :: items => by rw [mapTextsItems, Document.mapTexts_id item, mapTextsItems_id items]

theorem mapTextsMembers_id : ∀ members : List (String × Document ν),
    mapTextsMembers id members = members
  | [] => rfl
  | (key, value) :: members => by
    rw [mapTextsMembers, Document.mapTexts_id value, mapTextsMembers_id members]
    rfl

end

end MapTexts

section Rel

variable {ν μ : Type} (R : ν → μ → Prop)

mutual

/-- The same document, number by number related by `R`. -/
def Document.Rel : Document ν → Document μ → Prop
  | .null, .null => True
  | .bool b, .bool b' => b = b'
  | .number n, .number m => R n m
  | .string s, .string s' => s = s'
  | .array items, .array items' => RelItems items items'
  | .object members, .object members' => RelMembers members members'
  | _, _ => False

def RelItems : List (Document ν) → List (Document μ) → Prop
  | [], [] => True
  | item :: items, item' :: items' => item.Rel item' ∧ RelItems items items'
  | _, _ => False

def RelMembers : List (String × Document ν) → List (String × Document μ) → Prop
  | [], [] => True
  | (key, value) :: members, (key', value') :: members' =>
    key = key' ∧ value.Rel value' ∧ RelMembers members members'
  | _, _ => False

end

variable {R} {f : ν → μ}

mutual

/-- A document is related to its image if its numbers are. -/
theorem Document.rel_map : ∀ {doc : Document ν}, (∀ n ∈ doc.numbers, R n (f n)) → doc.Rel R (doc.map f)
  | .null, _ => by rw [Document.map, Document.Rel]; trivial
  | .bool _, _ => by rw [Document.map, Document.Rel]
  | .number n, h => by
    rw [Document.map, Document.Rel]
    exact h n (by simp [Document.numbers])
  | .string _, _ => by rw [Document.map, Document.Rel]
  | .array items, h => by
    rw [Document.map, Document.Rel]
    exact relItems_map h
  | .object members, h => by
    rw [Document.map, Document.Rel]
    exact relMembers_map h

theorem relItems_map : ∀ {items : List (Document ν)}, (∀ n ∈ numbersOfItems items, R n (f n)) →
    RelItems R items (mapItems f items)
  | [], _ => by rw [mapItems, RelItems]; trivial
  | item :: items, h => by
    rw [mapItems, RelItems]
    exact ⟨Document.rel_map fun n hn => h n (List.mem_append_left _ hn),
      relItems_map fun n hn => h n (List.mem_append_right _ hn)⟩

theorem relMembers_map : ∀ {members : List (String × Document ν)},
    (∀ n ∈ numbersOfMembers members, R n (f n)) → RelMembers R members (mapMembers f members)
  | [], _ => by rw [mapMembers, RelMembers]; trivial
  | (key, value) :: members, h => by
    rw [mapMembers, RelMembers]
    exact ⟨rfl, Document.rel_map fun n hn => h n (List.mem_append_left _ hn),
      relMembers_map fun n hn => h n (List.mem_append_right _ hn)⟩

end

end Rel

end WqcNode.Lib.Json
