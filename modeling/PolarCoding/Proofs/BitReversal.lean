import Mathlib.Algebra.Group.Nat.Defs
import Mathlib.Data.Nat.Bitwise
import PolarCoding.Lanes.Register

/-!
# Reversed indices and their bits

The reversal of an index can be taken apart at its lowest and at its highest bit, which become the
highest and the lowest one. Bit by bit, it is the index read from the other end.
-/

namespace PolarCoding

theorem span_succ (depth : Nat) : 2 * 2 ^ depth = 2 ^ (depth + 1) := by
  rw [Nat.pow_succ, Nat.mul_comm]

theorem reverseBits_lt_two_pow (width index : Nat) : reverseBits width index < 2 ^ width := by
  rw [← Nat.one_shiftLeft]
  exact reverseBits_lt width index

theorem reverseBits_succ (width index : Nat) :
    reverseBits (width + 1) index = index % 2 * 2 ^ width + reverseBits width (index / 2) := by
  rw [reverseBits, Nat.shiftLeft_eq]

theorem reverseBits_double (depth index : Nat) :
    reverseBits (depth + 1) (2 * index) = reverseBits depth index := by
  rw [reverseBits_succ, Nat.mul_mod_right, Nat.zero_mul, Nat.zero_add,
    Nat.mul_div_cancel_left _ Nat.two_pos]

theorem reverseBits_double_add_one (depth index : Nat) :
    reverseBits (depth + 1) (2 * index + 1) = 2 ^ depth + reverseBits depth index := by
  have digit : (2 * index + 1) % 2 = 1 := by omega
  have rest : (2 * index + 1) / 2 = index := by omega
  rw [reverseBits_succ, digit, rest, Nat.one_mul]

/-- The highest bit of an index is the lowest of its reversal. -/
theorem reverseBits_low {depth index : Nat} (inside : index < 2 ^ depth) :
    reverseBits (depth + 1) index = 2 * reverseBits depth index := by
  induction depth generalizing index with
  | zero =>
      obtain rfl := Nat.lt_one_iff.mp inside
      rfl
  | succ depth ih =>
      have smaller : index / 2 < 2 ^ depth := Nat.div_lt_of_lt_mul (span_succ depth ▸ inside)
      rw [reverseBits, ih smaller, reverseBits, Nat.mul_add, Nat.shiftLeft_succ]

theorem reverseBits_high {depth index : Nat} (inside : index < 2 ^ depth) :
    reverseBits (depth + 1) (2 ^ depth + index) = 2 * reverseBits depth index + 1 := by
  induction depth generalizing index with
  | zero =>
      obtain rfl := Nat.lt_one_iff.mp inside
      rfl
  | succ depth ih =>
      have smaller : index / 2 < 2 ^ depth := Nat.div_lt_of_lt_mul (span_succ depth ▸ inside)
      have digit : (2 ^ (depth + 1) + index) % 2 = index % 2 := by
        rw [← span_succ, Nat.mul_add_mod]
      have rest : (2 ^ (depth + 1) + index) / 2 = 2 ^ depth + index / 2 := by
        rw [← span_succ, Nat.mul_add_div Nat.two_pos]
      rw [reverseBits, digit, rest, ih smaller, reverseBits, Nat.mul_add, Nat.shiftLeft_succ,
        Nat.add_assoc]

theorem and_two_pow_eq_zero_iff (index depth : Nat) :
    index &&& 2 ^ depth = 0 ↔ index / 2 ^ depth % 2 = 0 := by
  rw [Nat.and_two_pow, Nat.testBit_eq_decide_div_mod_eq]
  have positive := Nat.two_pow_pos depth
  rcases Nat.mod_two_eq_zero_or_one (index / 2 ^ depth) with even | odd
  · simp [even]
  · simp [odd]

def BitsWithin (low high : Nat) : Prop := ∀ bit, low.testBit bit = true → high.testBit bit = true

theorem bitsWithin_iff (low high : Nat) : BitsWithin low high ↔ low &&& high = low := by
  constructor
  · intro within
    apply Nat.eq_of_testBit_eq
    intro bit
    rw [Nat.testBit_and]
    cases set : low.testBit bit with
    | false => rfl
    | true => rw [within bit set]; rfl
  · intro equal bit set
    rw [← equal, Nat.testBit_and, Bool.and_eq_true] at set
    exact set.2

instance (low high : Nat) : Decidable (BitsWithin low high) :=
  decidable_of_iff _ (bitsWithin_iff low high).symm

section HighBit

variable {depth low high : Nat}

theorem testBit_two_pow_add (small : low < 2 ^ depth) (bit : Nat) :
    (2 ^ depth + low).testBit bit = (decide (depth = bit) || low.testBit bit) := by
  have joined := Nat.two_pow_add_eq_or_of_lt small 1
  rw [Nat.mul_one] at joined
  rw [joined, Nat.testBit_or, Nat.testBit_two_pow]

/-- Numbers without a high bit do not notice that bit in others. -/
theorem bitsWithin_add_right (lowSmall : low < 2 ^ depth) (highSmall : high < 2 ^ depth) :
    BitsWithin low (2 ^ depth + high) ↔ BitsWithin low high := by
  have same (bit : Nat) (set : low.testBit bit = true) : depth ≠ bit := by
    rintro rfl
    rw [Nat.testBit_lt_two_pow lowSmall] at set
    cases set
  constructor
  · intro within bit set
    simpa [testBit_two_pow_add highSmall, same bit set] using within bit set
  · intro within bit set
    simp [testBit_two_pow_add highSmall, within bit set]

theorem bitsWithin_add_add (lowSmall : low < 2 ^ depth) (highSmall : high < 2 ^ depth) :
    BitsWithin (2 ^ depth + low) (2 ^ depth + high) ↔ BitsWithin low high := by
  rw [← bitsWithin_add_right lowSmall highSmall]
  constructor
  · intro within bit set
    exact within bit (by simp [testBit_two_pow_add lowSmall, set])
  · intro within bit set
    rw [testBit_two_pow_add lowSmall, Bool.or_eq_true, decide_eq_true_iff] at set
    rcases set with top | set
    · rw [testBit_two_pow_add highSmall, decide_eq_true top, Bool.true_or]
    · exact within bit set

theorem not_bitsWithin_add_left (lowSmall : low < 2 ^ depth) (highSmall : high < 2 ^ depth) :
    ¬ BitsWithin (2 ^ depth + low) high := by
  intro within
  have top := within depth (by simp [testBit_two_pow_add lowSmall])
  rw [Nat.testBit_lt_two_pow highSmall] at top
  cases top

end HighBit

/-- Reversal puts every bit of a position into the mirrored place. -/
theorem testBit_reverseBits (width index bit : Nat) :
    (reverseBits width index).testBit bit =
      (decide (bit < width) && index.testBit (width - 1 - bit)) := by
  induction width generalizing index with
  | zero => simp [reverseBits]
  | succ width ih =>
      have mirrored (lower : bit < width) :
          index.testBit (width - bit) = (index / 2).testBit (width - 1 - bit) := by
        rw [← Nat.testBit_add_one, show width - bit = width - 1 - bit + 1 by omega]
      have split : (reverseBits (width + 1) index).testBit bit =
          (decide (index % 2 = 1) && decide (width = bit) ||
            (reverseBits width (index / 2)).testBit bit) := by
        rcases Nat.mod_two_eq_zero_or_one index with even | odd
        · simp [reverseBits_succ, even]
        · simp [reverseBits_succ, odd, testBit_two_pow_add (reverseBits_lt_two_pow _ _)]
      rw [split, ih]
      rcases Nat.lt_trichotomy bit width with lower | rfl | higher
      · simp [lower, Nat.lt_succ_of_lt lower, mirrored lower, Nat.ne_of_gt lower]
      · simp
      · simp [Nat.not_lt_of_lt higher, Nat.not_lt.mpr higher, Nat.ne_of_lt higher]

end PolarCoding
