import Mathlib.Data.Nat.Bitwise
import Mathlib.Data.Fin.Tuple.Basic

namespace FrostTools.BitString

variable {bytes bytes' : List UInt8} {bits bits' : ℕ → Bool} {width start n i j : ℕ}

/-- The bit `i` of bytes that are followed by zeros. -/
def bit (bytes : List UInt8) (i : ℕ) : Bool := (bytes.getD (i / 8) 0).toNat.testBit (i % 8)

/-- The number that the bits from `start` on stand for, of which the first is the lowest. -/
def chunk (width : ℕ) (bits : ℕ → Bool) (start : ℕ) : ℕ :=
  Nat.ofBits fun j : Fin width => bits (start + j)

def word (lo hi : UInt8) : UInt16 := lo.toUInt16 ||| hi.toUInt16 <<< 8

theorem chunk_lt : chunk width bits start < 2 ^ width := Nat.ofBits_lt_two_pow _

theorem testBit_chunk (h : j < width) : (chunk width bits start).testBit j = bits (start + j) :=
  Nat.testBit_ofBits_lt _ j h

theorem chunk_congr (h : ∀ j < width, bits (start + j) = bits' (start + j)) :
    chunk width bits start = chunk width bits' start := by
  unfold chunk
  congr 1
  funext j
  exact h j j.isLt

theorem eq_chunk (hlt : n < 2 ^ width) (h : ∀ j < width, n.testBit j = bits (start + j)) :
    n = chunk width bits start := by
  apply Nat.eq_of_testBit_eq
  intro j
  by_cases hj : j < width
  · rw [h j hj, testBit_chunk hj]
  · have hpow : 2 ^ width ≤ 2 ^ j := Nat.pow_le_pow_right (by decide) (by omega)
    rw [Nat.testBit_lt_two_pow (hlt.trans_le hpow), Nat.testBit_lt_two_pow (chunk_lt.trans_le hpow)]

theorem testBit_byte_of_le (byte : UInt8) (h : 8 ≤ j) : byte.toNat.testBit j = false :=
  Nat.testBit_lt_two_pow (byte.toNat_lt.trans_le (Nat.pow_le_pow_right (by decide) h))

theorem bit_mul_add (h : j < 8) : bit bytes (8 * i + j) = (bytes.getD i 0).toNat.testBit j := by
  rw [bit, show (8 * i + j) / 8 = i by omega, show (8 * i + j) % 8 = j by omega]

theorem bit_append_left (h : i < 8 * bytes.length) : bit (bytes ++ bytes') i = bit bytes i := by
  rw [bit, bit, List.getD_append _ _ _ _ (by omega)]

theorem bit_append_right (h : 8 * bytes.length ≤ i) :
    bit (bytes ++ bytes') i = bit bytes' (i - 8 * bytes.length) := by
  rw [bit, bit, List.getD_append_right _ _ _ _ (by omega),
    show (i - 8 * bytes.length) / 8 = i / 8 - bytes.length by omega,
    show (i - 8 * bytes.length) % 8 = i % 8 by omega]

theorem testBit_word (lo hi : UInt8) (h : j < 16) :
    (word lo hi).toNat.testBit j =
      if j < 8 then lo.toNat.testBit j else hi.toNat.testBit (j - 8) := by
  have hshift : (hi.toUInt16 <<< 8 : UInt16).toNat.testBit j =
      (decide (8 ≤ j) && hi.toNat.testBit (j - 8)) := by
    rw [UInt16.toNat_shiftLeft, UInt8.toNat_toUInt16, Nat.testBit_mod_two_pow, decide_eq_true h,
      Bool.true_and]
    exact Nat.testBit_shiftLeft _
  rw [word, UInt16.toNat_or, Nat.testBit_or, UInt8.toNat_toUInt16, hshift]
  by_cases hj : j < 8
  · rw [if_pos hj, decide_eq_false (by omega), Bool.false_and, Bool.or_false]
  · rw [if_neg hj, decide_eq_true (by omega), Bool.true_and, testBit_byte_of_le lo (by omega),
      Bool.false_or]

theorem testBit_word_getD (h : j < 16) :
    (word (bytes.getD i 0) (bytes.getD (i + 1) 0)).toNat.testBit j = bit bytes (8 * i + j) := by
  rw [testBit_word _ _ h]
  by_cases hj : j < 8
  · rw [if_pos hj, bit_mul_add hj]
  · rw [if_neg hj, show 8 * i + j = 8 * (i + 1) + (j - 8) by omega, bit_mul_add (by omega)]

theorem word_shift_mod_eq_chunk {shift : ℕ} (h : shift + width ≤ 16) :
    (word (bytes.getD i 0) (bytes.getD (i + 1) 0)).toNat >>> shift % 2 ^ width =
      chunk width (bit bytes) (8 * i + shift) := by
  apply eq_chunk (Nat.mod_lt _ (Nat.two_pow_pos width))
  intro j hj
  rw [Nat.testBit_mod_two_pow, decide_eq_true hj, Bool.true_and, Nat.testBit_shiftRight,
    testBit_word_getD (by omega), Nat.add_assoc]

theorem testBit_carry (byte : UInt8) (h : j < 8) :
    ((byte &&& 1) <<< 7).toNat.testBit j = (decide (j = 7) && byte.toNat.testBit 0) := by
  have hshift : ((byte &&& 1) <<< 7).toNat.testBit j =
      (decide (7 ≤ j) && (byte.toNat &&& 1).testBit (j - 7)) := by
    rw [UInt8.toNat_shiftLeft, Nat.testBit_mod_two_pow, decide_eq_true h, Bool.true_and]
    exact Nat.testBit_shiftLeft _
  rw [hshift]
  by_cases hj : j = 7
  · subst hj
    rw [Nat.testBit_and]
    simp
  · rw [decide_eq_false (by omega), decide_eq_false hj, Bool.false_and, Bool.false_and]

theorem testBit_shift (h : j < 8) :
    (bytes.getD i 0 >>> 1 ||| (bytes.getD (i + 1) 0 &&& 1) <<< 7).toNat.testBit j =
      bit bytes (8 * i + j + 1) := by
  have hshift : (bytes.getD i 0 >>> 1).toNat.testBit j =
      (bytes.getD i 0).toNat.testBit (1 + j) := by
    rw [UInt8.toNat_shiftRight]
    exact Nat.testBit_shiftRight _
  rw [UInt8.toNat_or, Nat.testBit_or, hshift, testBit_carry _ h]
  by_cases hj : j = 7
  · rw [decide_eq_true hj, Bool.true_and, testBit_byte_of_le _ (by omega), Bool.false_or,
      show 8 * i + j + 1 = 8 * (i + 1) + 0 by omega, bit_mul_add (by decide)]
  · rw [decide_eq_false hj, Bool.false_and, Bool.or_false, Nat.add_assoc, Nat.add_comm j,
      bit_mul_add (by omega)]

end FrostTools.BitString
