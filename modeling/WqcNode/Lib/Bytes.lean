import Mathlib.Data.List.Induction
import Mathlib.Data.Nat.Basic
import Mathlib.Tactic.Ring

/-! # Byte strings: big-endian numbers and UTF-8 text

Signed payloads are concatenations of the UTF-8 bytes of strings and of numbers of a fixed width,
most significant byte first. `be w n` has `w` bytes and determines `n` below `256 ^ w`, every string
of `w` bytes is one (`be_ofBe`), and a text is determined by its bytes (`utf8_inj`). -/

namespace WqcNode.Lib

/-- `Vec<u8>`. -/
abbrev Bytes := List UInt8

/-! ### Big-endian numbers -/

/-- The low `w` bytes of `n`, most significant first. -/
def be : ℕ → ℕ → Bytes
  | 0, _ => []
  | w + 1, n => be w (n / 256) ++ [UInt8.ofNat n]

/-- The number a big-endian byte string denotes. -/
def ofBe (bs : Bytes) : ℕ := bs.foldl (fun n b => 256 * n + b.toNat) 0

@[simp] theorem length_be : ∀ w n : ℕ, (be w n).length = w
  | 0, _ => rfl
  | w + 1, n => by simp [be, length_be w]

theorem ofBe_concat (bs : Bytes) (b : UInt8) : ofBe (bs ++ [b]) = 256 * ofBe bs + b.toNat := by
  simp [ofBe, List.foldl_append]

theorem ofBe_be : ∀ {w n : ℕ}, n < 256 ^ w → ofBe (be w n) = n
  | 0, n, h => by
    have : n = 0 := by simpa using h
    subst this
    rfl
  | w + 1, n, h => by
    have hdiv : n / 256 < 256 ^ w := by
      rw [Nat.div_lt_iff_lt_mul (by norm_num)]
      rwa [pow_succ] at h
    have hb : (UInt8.ofNat n).toNat = n % 256 := by simp
    rw [be, ofBe_concat, ofBe_be hdiv, hb]
    omega

theorem ofBe_lt (bs : Bytes) : ofBe bs < 256 ^ bs.length := by
  induction bs using List.reverseRecOn with
  | nil => simp [ofBe]
  | append_singleton bs b ih =>
    have hb := b.toNat_lt
    rw [ofBe_concat, List.length_append, List.length_singleton, pow_succ]
    omega

theorem be_ofBe (bs : Bytes) : be bs.length (ofBe bs) = bs := by
  induction bs using List.reverseRecOn with
  | nil => rfl
  | append_singleton bs b ih =>
    have hb := b.toNat_lt
    have hdiv : (256 * ofBe bs + b.toNat) / 256 = ofBe bs := by omega
    have hlast : UInt8.ofNat (256 * ofBe bs + b.toNat) = b := by
      apply UInt8.toNat_inj.mp
      simp only [UInt8.toNat_ofNat']
      omega
    rw [List.length_append, List.length_singleton, be, ofBe_concat, hdiv, ih, hlast]

theorem be_inj {w m n : ℕ} (hm : m < 256 ^ w) (hn : n < 256 ^ w) (h : be w m = be w n) : m = n := by
  rw [← ofBe_be hm, ← ofBe_be hn, h]

/-- `u32::to_be_bytes`. -/
def be32 (x : UInt32) : Bytes := be 4 x.toNat

/-- `u64::to_be_bytes`. -/
def be64 (x : UInt64) : Bytes := be 8 x.toNat

@[simp] theorem length_be32 (x : UInt32) : (be32 x).length = 4 := length_be 4 _

@[simp] theorem length_be64 (x : UInt64) : (be64 x).length = 8 := length_be 8 _

theorem be32_inj {x y : UInt32} (h : be32 x = be32 y) : x = y :=
  UInt32.toNat_inj.mp (be_inj x.toNat_lt y.toNat_lt h)

theorem be64_inj {x y : UInt64} (h : be64 x = be64 y) : x = y :=
  UInt64.toNat_inj.mp (be_inj x.toNat_lt y.toNat_lt h)

theorem exists_be32 (bs : Bytes) (h : bs.length = 4) : ∃ x, be32 x = bs := by
  have hlt := ofBe_lt bs
  rw [h] at hlt
  refine ⟨UInt32.ofNat (ofBe bs), ?_⟩
  have hx : (UInt32.ofNat (ofBe bs)).toNat = ofBe bs := by
    rw [UInt32.toNat_ofNat']; exact Nat.mod_eq_of_lt hlt
  rw [be32, hx, ← h, be_ofBe]

theorem exists_be64 (bs : Bytes) (h : bs.length = 8) : ∃ x, be64 x = bs := by
  have hlt := ofBe_lt bs
  rw [h] at hlt
  refine ⟨UInt64.ofNat (ofBe bs), ?_⟩
  have hx : (UInt64.ofNat (ofBe bs)).toNat = ofBe bs := by
    rw [UInt64.toNat_ofNat']; exact Nat.mod_eq_of_lt hlt
  rw [be64, hx, ← h, be_ofBe]

/-! ### UTF-8 -/

/-- `str::as_bytes`. -/
def utf8 (s : String) : Bytes := s.toByteArray.data.toList

/-- The bytes are the UTF-8 encoding of some text. -/
def ValidUtf8 (bs : Bytes) : Prop := ∃ s : String, utf8 s = bs

theorem utf8_inj {s t : String} (h : utf8 s = utf8 t) : s = t := by
  apply String.toByteArray_inj.mp
  apply ByteArray.ext
  exact Array.toList_inj.mp h

theorem utf8_append (s t : String) : utf8 (s ++ t) = utf8 s ++ utf8 t := by
  unfold utf8
  rw [String.toByteArray_append, ByteArray.data_append, Array.toList_append]

/-- An ASCII text has a byte for each character. -/
theorem length_utf8_of_ascii : ∀ {cs : List Char}, (∀ c ∈ cs, c.val ≤ 127) →
    (utf8 (String.ofList cs)).length = cs.length
  | [], _ => rfl
  | c :: cs, h => by
    have hcons : String.ofList (c :: cs) = String.singleton c ++ String.ofList cs := by
      rw [String.singleton_eq_ofList, ← String.ofList_append, List.singleton_append]
    have hhead : (utf8 (String.singleton c)).length = 1 := by
      have hsize : (String.singleton c).utf8ByteSize = 1 := by
        rw [String.utf8ByteSize_singleton]
        exact Char.utf8Size_eq_one_iff.mpr (h c (List.mem_cons_self ..))
      exact hsize
    rw [hcons, utf8_append, List.length_append, hhead,
      length_utf8_of_ascii fun d hd => h d (List.mem_cons_of_mem c hd), List.length_cons, Nat.add_comm]

end WqcNode.Lib
