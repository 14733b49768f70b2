import Mathlib.Data.Nat.Bits
import PolarCoding.Proofs.Linearity

/-!
# Weights of transformed words

The weight of a word is the number of its nonzero symbols. Each one bit of the position of a symbol
doubles the number of symbols that the transform spreads it to: a single nonzero symbol at position
`p` is spread to `2 ^ oneBits p` symbols. Several nonzero symbols may cancel each other, but never
below the number that the lightest of their positions alone would give.
-/

namespace PolarCoding

def oneBits (position : Nat) : Nat := position.bits.count true

@[simp] theorem oneBits_double (index : Nat) : oneBits (2 * index) = oneBits index := by
  by_cases zero : index = 0
  · rw [zero]
  · rw [oneBits, Nat.bit0_bits index zero, List.count_cons_of_ne (by decide), oneBits]

@[simp]
theorem oneBits_double_add_one (index : Nat) : oneBits (2 * index + 1) = oneBits index + 1 := by
  rw [oneBits, Nat.bit1_bits, List.count_cons_self, oneBits]

def weight (symbols : List UInt8) : Nat := symbols.countP (· ≠ 0)

@[simp] theorem weight_append (first second : List UInt8) :
    weight (first ++ second) = weight first + weight second :=
  List.countP_append

/-- The weight of a transform is that of the transforms of its halves together. -/
theorem weight_polarTransform_succ (depth : Nat) (symbols : List UInt8) :
    weight (polarTransform (depth + 1) symbols) =
      weight (polarTransform depth (pairSums symbols)) +
        weight (polarTransform depth (pairSeconds symbols)) := by
  rw [polarTransform_succ, weight_append]

section Neighbours

variable {symbols : List UInt8}

/-- The first symbol of a pair in terms of its sum and its second symbol. -/
theorem getD_double (even : symbols.length % 2 = 0) (index : Nat) :
    symbols.getD (2 * index) 0 =
      (pairSums symbols).getD index 0 ^^^ (pairSeconds symbols).getD index 0 := by
  by_cases present : 2 * index + 1 < symbols.length
  · rw [getD_pairSums present, getD_pairSeconds, UInt8.xor_assoc, UInt8.xor_self, UInt8.xor_zero]
  · have outside : symbols.length ≤ 2 * index := by omega
    rw [List.getD_eq_default _ _ outside,
      List.getD_eq_default _ _ (by rw [length_pairSums]; omega),
      List.getD_eq_default _ _ (by rw [length_pairSeconds]; omega), UInt8.xor_self]

theorem getD_double_add_one (symbols : List UInt8) (index : Nat) :
    symbols.getD (2 * index + 1) 0 = (pairSeconds symbols).getD index 0 :=
  (getD_pairSeconds symbols index).symm

end Neighbours

def Nonzero (symbols : List UInt8) : Prop := ∃ position, symbols.getD position 0 ≠ 0

def SupportAbove (least : Nat) (symbols : List UInt8) : Prop :=
  ∀ position, symbols.getD position 0 ≠ 0 → least ≤ oneBits position

theorem getD_eq_zero_of_not_nonzero {symbols : List UInt8} (zero : ¬ Nonzero symbols)
    (position : Nat) : symbols.getD position 0 = 0 :=
  Decidable.not_not.mp fun other => zero ⟨position, other⟩

section Halves

variable {symbols : List UInt8} {least : Nat} (even : symbols.length % 2 = 0)

include even

/-- A word whose pairs are all zero is zero. -/
theorem nonzero_pairs (nonzero : Nonzero symbols) :
    Nonzero (pairSums symbols) ∨ Nonzero (pairSeconds symbols) := by
  by_contra neither
  obtain ⟨noSum, noSecond⟩ := not_or.mp neither
  obtain ⟨position, differs⟩ := nonzero
  obtain ⟨index, rfl | rfl⟩ := Nat.even_or_odd' position
  · rw [getD_double even, getD_eq_zero_of_not_nonzero noSum, getD_eq_zero_of_not_nonzero noSecond]
      at differs
    exact differs rfl
  · rw [getD_double_add_one, getD_eq_zero_of_not_nonzero noSecond] at differs
    exact differs rfl

/-- If all sums are zero then neighbours are equal, and the second symbols keep the bound. -/
theorem supportAbove_of_no_sum (above : SupportAbove least symbols)
    (noSum : ¬ Nonzero (pairSums symbols)) : SupportAbove least (pairSeconds symbols) := by
  intro index nonzero
  rw [← oneBits_double]
  apply above
  rwa [getD_double even, getD_eq_zero_of_not_nonzero noSum, UInt8.zero_xor]

/-- If all second symbols are zero then the sums are the first symbols, and they keep the bound. -/
theorem supportAbove_of_no_second (above : SupportAbove least symbols)
    (noSecond : ¬ Nonzero (pairSeconds symbols)) : SupportAbove least (pairSums symbols) := by
  intro index nonzero
  rw [← oneBits_double]
  apply above
  rwa [getD_double even, getD_eq_zero_of_not_nonzero noSecond, UInt8.xor_zero]

/-- In any case the bound drops by one at most. -/
theorem supportAbove_pairs (above : SupportAbove least symbols) :
    SupportAbove (least - 1) (pairSums symbols) ∧
      SupportAbove (least - 1) (pairSeconds symbols) := by
  have seconds : SupportAbove (least - 1) (pairSeconds symbols) := by
    intro index nonzero
    rw [← getD_double_add_one] at nonzero
    have bound := above _ nonzero
    rw [oneBits_double_add_one] at bound
    exact Nat.sub_le_of_le_add bound
  refine ⟨?_, seconds⟩
  intro index nonzero
  by_cases second : (pairSeconds symbols).getD index 0 = 0
  · have bound : least ≤ oneBits index := by
      rw [← oneBits_double]
      apply above
      rwa [getD_double even, second, UInt8.xor_zero]
    exact Nat.le_trans (Nat.sub_le least 1) bound
  · exact seconds index second

end Halves

theorem two_pow_le_twice (least : Nat) : 2 ^ least ≤ 2 ^ (least - 1) + 2 ^ (least - 1) := by
  cases least with
  | zero => decide
  | succ least => rw [Nat.add_sub_cancel, ← Nat.two_mul, span_succ]

theorem nonzero_singleton {symbol : UInt8} (nonzero : Nonzero [symbol]) :
    symbol ≠ 0 := by
  obtain ⟨position, differs⟩ := nonzero
  cases position with
  | zero => exact differs
  | succ position => exact absurd rfl differs

theorem weight_singleton {symbol : UInt8} (nonzero : symbol ≠ 0) : weight [symbol] = 1 := by
  simp [weight, nonzero]

/-- The lightest position of a nonzero symbol bounds the weight of the transform. Of the two halves
one may vanish, and then the other one keeps the bound; otherwise both count, with one bit less. -/
theorem two_pow_le_weight {depth least : Nat} {symbols : List UInt8}
    (size : symbols.length = 2 ^ depth) (nonzero : Nonzero symbols)
    (above : SupportAbove least symbols) : 2 ^ least ≤ weight (polarTransform depth symbols) := by
  induction depth generalizing symbols least with
  | zero =>
      obtain ⟨symbol, rfl⟩ := List.length_eq_one_iff.mp size
      have differs := nonzero_singleton nonzero
      obtain rfl : least = 0 := Nat.le_zero.mp (above 0 differs)
      rw [polarTransform, weight_singleton differs, Nat.pow_zero]
  | succ depth ih =>
      have even : symbols.length % 2 = 0 := by rw [size, even_two_pow_succ]
      obtain ⟨sumsSize, secondsSize⟩ := length_halves size
      have either := nonzero_pairs even nonzero
      rw [weight_polarTransform_succ]
      by_cases sums : Nonzero (pairSums symbols)
      · by_cases seconds : Nonzero (pairSeconds symbols)
        · obtain ⟨sumsAbove, secondsAbove⟩ := supportAbove_pairs even above
          exact Nat.le_trans (two_pow_le_twice least)
            (Nat.add_le_add (ih sumsSize sums sumsAbove) (ih secondsSize seconds secondsAbove))
        · have kept := supportAbove_of_no_second even above seconds
          exact Nat.le_add_right_of_le (ih sumsSize sums kept)
      · have seconds : Nonzero (pairSeconds symbols) := either.resolve_left sums
        have kept := supportAbove_of_no_sum even above sums
        exact Nat.le_add_left_of_le (ih secondsSize seconds kept)

structure OnlyAt (position : Nat) (symbols : List UInt8) : Prop where
  nonzero : symbols.getD position 0 ≠ 0
  elsewhere : ∀ other, other ≠ position → symbols.getD other 0 = 0

theorem weight_of_not_nonzero {depth : Nat} {symbols : List UInt8} (zero : ¬ Nonzero symbols) :
    weight (polarTransform depth symbols) = 0 := by
  have symbolsZero : ∀ symbol ∈ symbols, symbol = 0 := by
    intro symbol member
    obtain ⟨position, inside, rfl⟩ := List.mem_iff_getElem.mp member
    rw [← List.getD_eq_getElem _ 0 inside]
    exact getD_eq_zero_of_not_nonzero zero position
  have closed (first second : UInt8) (firstZero : first = 0) (secondZero : second = 0) :
      first ^^^ second = 0 := by rw [firstZero, secondZero, UInt8.xor_self]
  rw [weight, List.countP_eq_zero]
  intro symbol member
  simpa using forall_mem_polarTransform closed depth symbolsZero symbol member

section Single

variable {symbols : List UInt8} {index : Nat} (even : symbols.length % 2 = 0)

include even

/-- A single symbol that is first in its pair is kept as a sum only. -/
theorem OnlyAt.pairs_of_double (only : OnlyAt (2 * index) symbols) :
    OnlyAt index (pairSums symbols) ∧ ¬ Nonzero (pairSeconds symbols) := by
  have seconds (other : Nat) : (pairSeconds symbols).getD other 0 = 0 := by
    rw [← getD_double_add_one]
    exact only.elsewhere _ (by omega)
  have sums (other : Nat) : (pairSums symbols).getD other 0 = symbols.getD (2 * other) 0 := by
    rw [getD_double even, seconds, UInt8.xor_zero]
  refine ⟨⟨?_, ?_⟩, fun ⟨other, differs⟩ => differs (seconds other)⟩
  · rw [sums]
    exact only.nonzero
  · intro other apart
    rw [sums]
    exact only.elsewhere _ (by omega)

/-- A single symbol that is second in its pair is kept twice. -/
theorem OnlyAt.pairs_of_double_add_one (only : OnlyAt (2 * index + 1) symbols) :
    OnlyAt index (pairSums symbols) ∧ OnlyAt index (pairSeconds symbols) := by
  have seconds : OnlyAt index (pairSeconds symbols) := by
    constructor
    · rw [← getD_double_add_one]
      exact only.nonzero
    · intro other apart
      rw [← getD_double_add_one]
      exact only.elsewhere _ (by omega)
  have sums (other : Nat) :
      (pairSums symbols).getD other 0 = (pairSeconds symbols).getD other 0 := by
    have first := only.elsewhere (2 * other) (by omega)
    rw [getD_double even] at first
    exact UInt8.xor_eq_zero_iff.mp first
  refine ⟨⟨?_, ?_⟩, seconds⟩
  · rw [sums]
    exact seconds.nonzero
  · intro other apart
    rw [sums]
    exact seconds.elsewhere other apart

end Single

/-- A single nonzero symbol is spread to as many symbols as its position has sets of one bits. -/
theorem weight_of_onlyAt {depth position : Nat} {symbols : List UInt8}
    (size : symbols.length = 2 ^ depth) (only : OnlyAt position symbols) :
    weight (polarTransform depth symbols) = 2 ^ oneBits position := by
  induction depth generalizing symbols position with
  | zero =>
      obtain ⟨symbol, rfl⟩ := List.length_eq_one_iff.mp size
      have differs := nonzero_singleton ⟨position, only.nonzero⟩
      cases position with
      | zero => exact weight_singleton differs
      | succ position => exact absurd rfl only.nonzero
  | succ depth ih =>
      have even : symbols.length % 2 = 0 := by rw [size, even_two_pow_succ]
      obtain ⟨sumsSize, secondsSize⟩ := length_halves size
      rw [weight_polarTransform_succ]
      obtain ⟨index, rfl | rfl⟩ := Nat.even_or_odd' position
      · obtain ⟨sums, noSecond⟩ := only.pairs_of_double even
        rw [ih sumsSize sums, weight_of_not_nonzero noSecond, oneBits_double, Nat.add_zero]
      · obtain ⟨sums, seconds⟩ := only.pairs_of_double_add_one even
        rw [ih sumsSize sums, ih secondsSize seconds, oneBits_double_add_one, ← Nat.two_mul,
          span_succ]

/-! ## Distances -/

def distance (first second : List UInt8) : Nat :=
  (List.range (max first.length second.length)).countP fun position =>
    first[position]? ≠ second[position]?

/-- The distance of two words is the weight of their sum. -/
theorem distance_eq_weight {first second : List UInt8} (same : first.length = second.length) :
    distance first second = weight (addWords first second) := by
  induction first generalizing second with
  | nil =>
      obtain rfl := List.length_eq_zero_iff.mp same.symm
      rfl
  | cons symbol first ih =>
      cases second with
      | nil => cases same
      | cons other second =>
          have later : first.length = second.length := Nat.succ.inj same
          have rest := ih later
          have differ : decide (some symbol ≠ some other) = decide (symbol ^^^ other ≠ 0) := by
            simp
          rw [distance, later, Nat.max_self] at rest
          rw [distance, same, Nat.max_self, List.length_cons, List.range_succ_eq_map,
            List.countP_cons, List.countP_map, addWords, List.zipWith_cons_cons, ← addWords, weight,
            List.countP_cons, ← weight, ← rest, ← differ]
          rfl

/-- Transforms are as far apart as the transform of the difference is heavy. -/
theorem distance_polarTransform {depth : Nat} {first second : List UInt8}
    (firstSize : first.length = 2 ^ depth) (secondSize : second.length = 2 ^ depth) :
    distance (polarTransform depth first) (polarTransform depth second) =
      weight (polarTransform depth (addWords first second)) := by
  have same := (length_polarTransform firstSize).trans (length_polarTransform secondSize).symm
  rw [distance_eq_weight same, polarTransform_addWords firstSize secondSize]

end PolarCoding
