import PolarCoding.Proofs.BitReversal
import PolarCoding.Proofs.Transform

/-!
# The transform in place

The transform can be done without moving symbols between butterflies, if they are put into
bit-reversed order first. Each position then absorbs the one a power of two above it, for one power
after the other, largest first. Positions are lanes of a register here: functions of their index.
-/

namespace PolarCoding

/-- Each lane whose index has the bit `distance` clear absorbs the lane that far above it. -/
def absorbLanes (distance : Nat) (lanes : Nat → UInt8) (lane : Nat) : UInt8 :=
  if lane &&& distance = 0 then lanes (lane + distance) ^^^ lanes lane else lanes lane

def absorbAll : (depth : Nat) → (Nat → UInt8) → Nat → UInt8
  | 0, lanes => lanes
  | depth + 1, lanes => absorbAll depth (absorbLanes (2 ^ depth) lanes)

/-- Lanes that begin at a multiple of a block absorb like lanes that begin at zero. -/
theorem absorbLanes_add {depth offset : Nat} (whole : 2 ^ (depth + 1) ∣ offset)
    (lanes : Nat → UInt8) (lane : Nat) :
    absorbLanes (2 ^ depth) lanes (offset + lane) =
      absorbLanes (2 ^ depth) (fun index => lanes (offset + index)) lane := by
  obtain ⟨blocks, rfl⟩ := whole
  have digit : (2 ^ (depth + 1) * blocks + lane) / 2 ^ depth % 2 = lane / 2 ^ depth % 2 := by
    rw [Nat.pow_succ, Nat.mul_assoc, Nat.mul_add_div (Nat.two_pow_pos depth),
      Nat.mul_add_mod_self_left]
  simp only [absorbLanes, and_two_pow_eq_zero_iff, digit, Nat.add_assoc]

theorem absorbAll_add {depth offset : Nat} (whole : 2 ^ depth ∣ offset) (lanes : Nat → UInt8)
    (lane : Nat) :
    absorbAll depth lanes (offset + lane) =
      absorbAll depth (fun index => lanes (offset + index)) lane := by
  induction depth generalizing lanes with
  | zero => rfl
  | succ depth ih =>
      have smaller : 2 ^ depth ∣ offset :=
        Nat.dvd_trans (Nat.pow_dvd_pow 2 (Nat.le_succ depth)) whole
      have shifted : (fun index => absorbLanes (2 ^ depth) lanes (offset + index)) =
          absorbLanes (2 ^ depth) (fun index => lanes (offset + index)) :=
        funext (absorbLanes_add whole lanes)
      rw [absorbAll, absorbAll, ih smaller, shifted]

/-- An index without the highest bit of a block lies in the lower half. -/
theorem lt_two_pow_of_clear {depth lane : Nat} (inside : lane < 2 ^ (depth + 1))
    (clear : lane &&& 2 ^ depth = 0) : lane < 2 ^ depth := by
  have quotient : lane / 2 ^ depth < 2 := Nat.div_lt_of_lt_mul (by rwa [← Nat.pow_succ])
  rw [and_two_pow_eq_zero_iff, Nat.mod_eq_of_lt quotient] at clear
  exact (Nat.div_eq_zero_iff_lt (Nat.two_pow_pos depth)).mp clear

theorem absorbLanes_congr {depth lane : Nat} {first second : Nat → UInt8}
    (agree : ∀ index < 2 ^ (depth + 1), first index = second index)
    (inside : lane < 2 ^ (depth + 1)) :
    absorbLanes (2 ^ depth) first lane = absorbLanes (2 ^ depth) second lane := by
  by_cases clear : lane &&& 2 ^ depth = 0
  · have above : lane + 2 ^ depth < 2 ^ (depth + 1) := by
      have := lt_two_pow_of_clear inside clear
      rw [Nat.pow_succ]
      omega
    rw [absorbLanes, absorbLanes, if_pos clear, if_pos clear, agree lane inside, agree _ above]
  · rw [absorbLanes, absorbLanes, if_neg clear, if_neg clear, agree lane inside]

/-- Absorption within a block of `2 ^ depth` lanes looks at no others. -/
theorem absorbAll_congr {depth lane : Nat} {first second : Nat → UInt8}
    (agree : ∀ index < 2 ^ depth, first index = second index) (inside : lane < 2 ^ depth) :
    absorbAll depth first lane = absorbAll depth second lane := by
  induction depth generalizing first second lane with
  | zero => exact agree lane inside
  | succ depth ih =>
      have halves : 2 ^ (depth + 1) = 2 ^ depth + 2 ^ depth := by rw [Nat.pow_succ, Nat.mul_two]
      have step (index : Nat) (small : index < 2 ^ (depth + 1)) :
          absorbLanes (2 ^ depth) first index = absorbLanes (2 ^ depth) second index :=
        absorbLanes_congr agree small
      rw [absorbAll, absorbAll]
      by_cases low : lane < 2 ^ depth
      · exact ih (fun index small => step index (by omega)) low
      · obtain ⟨rest, rfl⟩ := Nat.exists_eq_add_of_le (Nat.not_lt.mp low)
        rw [absorbAll_add (Nat.dvd_refl _), absorbAll_add (Nat.dvd_refl _)]
        exact ih (fun index small => step _ (by omega)) (by omega)

section Reversed

variable {depth index : Nat} {symbols : List UInt8}

/-- Of bit-reversed symbols, a lane of the lower half absorbs the other of its pair. -/
theorem absorbLanes_reversed_low (size : symbols.length = 2 ^ (depth + 1))
    (inside : index < 2 ^ depth) :
    absorbLanes (2 ^ depth) (fun lane => symbols.getD (reverseBits (depth + 1) lane) 0) index =
      (pairSums symbols).getD (reverseBits depth index) 0 := by
  have clear : index &&& 2 ^ depth = 0 := by
    rw [and_two_pow_eq_zero_iff, Nat.div_eq_of_lt inside]
  have reversed := reverseBits_lt_two_pow depth index
  have present : 2 * reverseBits depth index + 1 < symbols.length := by
    rw [size, ← span_succ]
    omega
  rw [absorbLanes, if_pos clear, Nat.add_comm index, reverseBits_low inside,
    reverseBits_high inside, getD_pairSums present, UInt8.xor_comm]

/-- A lane of the upper half stays as it is. -/
theorem absorbLanes_reversed_high (symbols : List UInt8) (inside : index < 2 ^ depth) :
    absorbLanes (2 ^ depth) (fun lane => symbols.getD (reverseBits (depth + 1) lane) 0)
        (2 ^ depth + index) =
      (pairSeconds symbols).getD (reverseBits depth index) 0 := by
  have set : ¬ (2 ^ depth + index) &&& 2 ^ depth = 0 := by
    rw [and_two_pow_eq_zero_iff, Nat.add_div_left _ (Nat.two_pow_pos depth),
      Nat.div_eq_of_lt inside]
    decide
  rw [absorbLanes, if_neg set, reverseBits_high inside, getD_pairSeconds]

end Reversed

/-- Bit-reversed symbols that absorb in place are transformed. -/
theorem absorbAll_reverseBits {depth lane : Nat} {symbols : List UInt8}
    (size : symbols.length = 2 ^ depth) (inside : lane < 2 ^ depth) :
    absorbAll depth (fun index => symbols.getD (reverseBits depth index) 0) lane =
      (polarTransform depth symbols).getD lane 0 := by
  induction depth generalizing symbols lane with
  | zero =>
      obtain rfl := Nat.lt_one_iff.mp inside
      rfl
  | succ depth ih =>
      obtain ⟨sums, seconds⟩ := length_halves size
      have first := length_polarTransform sums
      rw [absorbAll, polarTransform_succ]
      by_cases low : lane < 2 ^ depth
      · rw [List.getD_append _ _ _ _ (by rwa [first]), ← ih sums low]
        exact absorbAll_congr (fun _ small => absorbLanes_reversed_low size small) low
      · obtain ⟨rest, rfl⟩ := Nat.exists_eq_add_of_le (Nat.not_lt.mp low)
        have high : rest < 2 ^ depth := by rw [← span_succ] at inside; omega
        rw [List.getD_append_right _ _ _ _ (by rw [first]; omega), first, Nat.add_sub_cancel_left,
          ← ih seconds high, absorbAll_add (Nat.dvd_refl _)]
        exact absorbAll_congr (fun _ small => absorbLanes_reversed_high symbols small) high

end PolarCoding
