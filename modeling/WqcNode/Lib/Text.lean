import Mathlib.Data.List.Infix
import Mathlib.Data.String.Basic

/-! # Text functions of the Rust standard library

`str::trim` drops the characters with the Unicode property `White_Space` from both ends;
`str::lines` splits after each line feed. -/

namespace WqcNode.Lib.Text

/-- The characters of a text. -/
def chars (s : String) : List Char := s.toList

/-- `char::is_whitespace`: the Unicode property `White_Space`. -/
def isWhitespace (c : Char) : Bool :=
  let n := c.toNat
  (0x9 ≤ n && n ≤ 0xd) || n == 0x20 || n == 0x85 || n == 0xa0 || n == 0x1680 ||
    (0x2000 ≤ n && n ≤ 0x200a) || n == 0x2028 || n == 0x2029 || n == 0x202f || n == 0x205f ||
    n == 0x3000

/-- `str::trim`. -/
def trim (s : String) : String :=
  String.ofList (((s.toList.dropWhile isWhitespace).reverse.dropWhile isWhitespace).reverse)

/-- `str::contains`. -/
def contains (s part : String) : Bool := s.toList.tails.any part.toList.isPrefixOf

/-- The lines of the rest of a text, `line` being the characters of the current line, last first. -/
def linesFrom (line : List Char) : List Char → List String
  | [] => if line.isEmpty then [] else [String.ofList line.reverse]
  | '\n' :: rest =>
    let line := if line.head? = some '\r' then line.tail else line
    String.ofList line.reverse :: linesFrom [] rest
  | c :: rest => linesFrom (c :: line) rest

/-- `str::lines`: the line ends, `\n` or `\r\n`, are not part of the lines. -/
def lines (s : String) : List String := linesFrom [] s.toList

/-- `str::to_ascii_lowercase`. -/
def toAsciiLowercase (s : String) : String := String.ofList (s.toList.map Char.toLower)

/-- `str::eq_ignore_ascii_case`. -/
def eqIgnoreAsciiCase (s t : String) : Bool := s.toList.map Char.toLower == t.toList.map Char.toLower

theorem contains_iff {s part : String} : contains s part = true ↔ part.toList <:+: s.toList := by
  simp only [contains, List.any_eq_true, List.mem_tails, List.isPrefixOf_iff_prefix]
  constructor
  · rintro ⟨t, hsuffix, hprefix⟩
    exact hprefix.isInfix.trans hsuffix.isInfix
  · rintro ⟨a, b, h⟩
    refine ⟨part.toList ++ b, ⟨a, ?_⟩, List.prefix_append _ _⟩
    rw [← List.append_assoc, h]

/-- No part of the text begins in `front` and goes on after it. -/
def Apart (front part : String) : Prop :=
  ¬ part.toList <:+: front.toList ∧
    ∀ m ≤ part.toList.length, 0 < m → ¬ part.toList.take m <:+ front.toList

instance (front part : String) : Decidable (Apart front part) := by
  unfold Apart
  infer_instance

/-- What is put in front of a text is not found in it. -/
theorem contains_append {front part : String} (h : Apart front part) (s : String) :
    contains (front ++ s) part = contains s part := by
  rw [Bool.eq_iff_iff, contains_iff, contains_iff, String.toList_append, List.infix_append_iff]
  constructor
  · rintro (hfront | hs | ⟨a, b, hsplit, ha, hb⟩)
    · exact absurd hfront h.1
    · exact hs
    · by_cases hnil : a = []
      · rw [hsplit, hnil]
        exact hb.isInfix
      · refine absurd ?_ (h.2 a.length (by simp [hsplit]) (List.length_pos_iff.mpr hnil))
        rwa [hsplit, List.take_left' rfl]
  · exact fun hs => .inr (.inl hs)

end WqcNode.Lib.Text
