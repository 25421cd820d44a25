import WqcNode.Lib.Bytes

/-! # Base64

The standard alphabet with padding: three bytes are four characters, and what is left over of a byte
or two is padded. The text tells byte strings apart (`encode_injective`). -/

namespace WqcNode.Lib.Base64

def alphabet : List Char := "ABCDEFGHIJKLMNOPQRSTUVWXYZabcdefghijklmnopqrstuvwxyz0123456789+/".toList

/-- The character of six bits. -/
def digit (n : ℕ) : Char := alphabet.getD n '='

/-- Three bytes at a time. -/
def encodeChars : Bytes → List Char
  | [] => []
  | [a] => [digit (a.toNat / 4), digit (a.toNat % 4 * 16), '=', '=']
  | [a, b] =>
    [digit (a.toNat / 4), digit (a.toNat % 4 * 16 + b.toNat / 16), digit (b.toNat % 16 * 4), '=']
  | a :: b :: c :: rest =>
    digit (a.toNat / 4) :: digit (a.toNat % 4 * 16 + b.toNat / 16) ::
      digit (b.toNat % 16 * 4 + c.toNat / 64) :: digit (c.toNat % 64) :: encodeChars rest

/-- `STANDARD.encode`. -/
def encode (bytes : Bytes) : String := String.ofList (encodeChars bytes)

theorem digit_inj {m n : ℕ} (hm : m < 64) (hn : n < 64) (h : digit m = digit n) : m = n := by
  have hall : ∀ a b : Fin 64, digit a = digit b → a = b := by decide +kernel
  have heq := hall ⟨m, hm⟩ ⟨n, hn⟩ h
  simpa using heq

theorem digit_ne_pad {n : ℕ} (hn : n < 64) : digit n ≠ '=' := by
  have hall : ∀ a : Fin 64, digit a ≠ '=' := by decide +kernel
  exact hall ⟨n, hn⟩

/-- The first byte, from the first character and the two bits in the second. -/
theorem first_byte {a a' : UInt8} {x y : ℕ} (hx : x < 16) (hy : y < 16)
    (h₁ : digit (a.toNat / 4) = digit (a'.toNat / 4))
    (h₂ : digit (a.toNat % 4 * 16 + x) = digit (a'.toNat % 4 * 16 + y)) : a = a' ∧ x = y := by
  have ha := a.toNat_lt
  have ha' := a'.toNat_lt
  have hhigh := digit_inj (by omega) (by omega) h₁
  have hlow := digit_inj (by omega) (by omega) h₂
  exact ⟨UInt8.toNat_inj.mp (by omega), by omega⟩

/-- The second byte, from its four bits in the second character and those in the third. -/
theorem second_byte {b b' : UInt8} {x y : ℕ} (hx : x < 4) (hy : y < 4)
    (hhigh : b.toNat / 16 = b'.toNat / 16)
    (h : digit (b.toNat % 16 * 4 + x) = digit (b'.toNat % 16 * 4 + y)) : b = b' ∧ x = y := by
  have hlow := digit_inj (by omega) (by omega) h
  exact ⟨UInt8.toNat_inj.mp (by omega), by omega⟩

/-- What is padded is told from what is not. -/
theorem pad_ne {b c : UInt8} : '=' ≠ digit (b.toNat % 16 * 4 + c.toNat / 64) := by
  have hc := c.toNat_lt
  exact (digit_ne_pad (by omega)).symm

theorem encodeChars_inj {x : Bytes} : ∀ {y : Bytes}, encodeChars x = encodeChars y → x = y := by
  induction x using encodeChars.induct with
  | case1 =>
    intro y h
    rcases y with _ | ⟨a', _ | ⟨b', _ | ⟨c', rest'⟩⟩⟩
    · rfl
    all_goals cases h
  | case2 a =>
    intro y h
    rcases y with _ | ⟨a', _ | ⟨b', _ | ⟨c', rest'⟩⟩⟩
    · cases h
    all_goals
      simp only [encodeChars, List.cons.injEq] at h
      obtain ⟨h₁, h₂, h₃, -⟩ := h
    · rw [(first_byte (x := 0) (y := 0) (by omega) (by omega) h₁ h₂).1]
    · exact absurd h₃.symm (digit_ne_pad (by omega))
    · exact absurd h₃ pad_ne
  | case3 a b =>
    intro y h
    have hb := b.toNat_lt
    rcases y with _ | ⟨a', _ | ⟨b', _ | ⟨c', rest'⟩⟩⟩
    · cases h
    all_goals
      simp only [encodeChars, List.cons.injEq] at h
      obtain ⟨h₁, h₂, h₃, h₄, -⟩ := h
    · exact absurd h₃ (digit_ne_pad (by omega))
    · have hb' := b'.toNat_lt
      obtain ⟨rfl, hhigh⟩ := first_byte (by omega) (by omega) h₁ h₂
      rw [(second_byte (x := 0) (y := 0) (by omega) (by omega) hhigh h₃).1]
    · exact absurd h₄.symm (digit_ne_pad (by omega))
  | case4 a b c rest ih =>
    intro y h
    have hb := b.toNat_lt
    have hc := c.toNat_lt
    rcases y with _ | ⟨a', _ | ⟨b', _ | ⟨c', rest'⟩⟩⟩
    · cases h
    all_goals
      simp only [encodeChars, List.cons.injEq] at h
      obtain ⟨h₁, h₂, h₃, h₄, hrest⟩ := h
    · exact absurd h₃.symm pad_ne
    · exact absurd h₄ (digit_ne_pad (by omega))
    · have hb' := b'.toNat_lt
      have hc' := c'.toNat_lt
      obtain ⟨rfl, hhigh⟩ := first_byte (by omega) (by omega) h₁ h₂
      obtain ⟨rfl, htop⟩ := second_byte (by omega) (by omega) hhigh h₃
      have hlow := digit_inj (by omega) (by omega) h₄
      have hcc : c = c' := UInt8.toNat_inj.mp (by omega)
      rw [hcc, ih hrest]

/-- **Main result.** The text tells byte strings apart. -/
theorem encode_injective : Function.Injective encode := by
  intro x y h
  unfold encode at h
  exact encodeChars_inj (by simpa using congrArg String.toList h)

example : encode (utf8 "leaf") = "bGVhZg==" := by decide +kernel

end WqcNode.Lib.Base64
