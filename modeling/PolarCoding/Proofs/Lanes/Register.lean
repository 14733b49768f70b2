import PolarCoding.Lanes.Encode
import PolarCoding.Proofs.InPlace

/-!
# Registers as sequences of symbols

What the fixed sequences of register operations compute, on every vector unit: a butterfly and a
split of two neighbouring registers, and the whole transform of the sixteen symbols of one
register. The shuffles name only lanes that exist, so the units agree.
-/

namespace PolarCoding.Lanes

namespace Register

def byteAt (register : Register) (index : Nat) : UInt8 := register.toList.getD index 0

variable {register : Register} {index : Nat}

theorem length_toList (register : Register) : register.toList.length = 16 :=
  Vector.length_toList

theorem byteAt_of_lt (inside : index < 16) : register.byteAt index = register[index] := by
  have present : index < register.toList.length := by rwa [length_toList]
  rw [byteAt, List.getD_eq_getElem _ _ present, Vector.getElem_toList]

theorem byteAt_of_le (outside : 16 ≤ index) : register.byteAt index = 0 :=
  List.getD_eq_default _ _ (by rwa [length_toList])

/-- Sixteen symbols are those of a register if they agree with it lane by lane. -/
theorem toList_eq_of_byteAt {symbols : List UInt8} (length : symbols.length = 16)
    (agree : ∀ index < 16, register.byteAt index = symbols.getD index 0) :
    register.toList = symbols := by
  apply List.ext_getElem
  · rw [length_toList, length]
  · intro index first second
    have same := agree index (by rwa [length] at second)
    rwa [byteAt, List.getD_eq_getElem _ _ first, List.getD_eq_getElem _ _ second] at same

theorem byteAt_shuffle {unit : VectorUnit} {indices : Register} (inside : index < 16)
    (named : indices[index].toNat < 16) :
    (register.shuffle unit indices).byteAt index = register.byteAt indices[index].toNat := by
  rw [byteAt_of_lt inside, getElem_shuffle unit register indices inside named, byteAt_of_lt named]

@[simp] theorem toList_concatLow (first second : Register) :
    (first.concatLow second).toList = first.toList.take 8 ++ second.toList.take 8 := by
  apply List.ext_getElem
  · simp
  · intro index inside _
    rw [length_toList] at inside
    rw [Vector.getElem_toList, getElem_concatLow first second inside]
    by_cases low : index < 8
    · rw [if_pos low, List.getElem_append_left (by simpa using low)]
      simp
    · rw [if_neg low, List.getElem_append_right (by simpa using low)]
      simp

@[simp] theorem toList_concatHigh (first second : Register) :
    (first.concatHigh second).toList = first.toList.drop 8 ++ second.toList.drop 8 := by
  apply List.ext_getElem
  · simp
  · intro index inside _
    rw [length_toList] at inside
    rw [Vector.getElem_toList, getElem_concatHigh first second inside]
    by_cases low : index < 8
    · rw [dif_pos low, List.getElem_append_left (by simpa using low)]
      simp [Nat.add_comm 8]
    · have back : 8 + (index - 8) = index := by omega
      rw [dif_neg low, List.getElem_append_right (by simpa using low)]
      simp [back]

end Register

/-- Conjunction with a mask byte keeps a symbol or drops it. -/
theorem and_full (symbol : UInt8) : symbol &&& 0xFF = symbol := UInt8.and_neg_one

/-- The masked addition of shifted lanes is an absorption; no lane outside takes part. -/
theorem byteAt_absorbAt (register : Register) (distance : Nat) :
    (absorbAt register distance).byteAt = absorbLanes distance register.byteAt := by
  funext index
  by_cases inside : index < 16
  · have shifted : (register.shiftDown distance)[index] = register.byteAt (index + distance) := by
      rw [Register.getElem_shiftDown register distance inside]
      split
      · rename_i above
        rw [Register.byteAt_of_lt above]
      · rename_i above
        rw [Register.byteAt_of_le (Nat.not_lt.mp above)]
    have lane : (absorbAt register distance)[index] =
        (register.byteAt (index + distance) &&& if index &&& distance = 0 then 0xFF else 0) ^^^
          register[index] := by
      rw [← shifted]
      simp [absorbAt, absorb]
    rw [Register.byteAt_of_lt inside, lane, absorbLanes, Register.byteAt_of_lt inside]
    by_cases clear : index &&& distance = 0
    · rw [if_pos clear, if_pos clear, and_full]
    · rw [if_neg clear, if_neg clear, UInt8.and_zero, UInt8.zero_xor]
  · have outside : 16 ≤ index := Nat.not_lt.mp inside
    have above : 16 ≤ index + distance := Nat.le_add_right_of_le outside
    rw [absorbLanes, Register.byteAt_of_le outside, Register.byteAt_of_le outside,
      Register.byteAt_of_le above, UInt8.xor_zero, ite_self]

theorem absorbLanes_even (lanes : Nat → UInt8) (index : Nat) :
    absorbLanes 1 lanes (2 * index) = lanes (2 * index) ^^^ lanes (2 * index + 1) := by
  have clear : 2 * index &&& 1 = 0 := by rw [Nat.and_one_is_mod, Nat.mul_mod_right]
  rw [absorbLanes, if_pos clear, UInt8.xor_comm]

theorem absorbLanes_odd (lanes : Nat → UInt8) (index : Nat) :
    absorbLanes 1 lanes (2 * index + 1) = lanes (2 * index + 1) := by
  have set : ¬ (2 * index + 1) &&& 1 = 0 := by
    rw [Nat.and_one_is_mod]
    omega
  rw [absorbLanes, if_neg set]

section Wide

variable (unit : VectorUnit) (first second : Register)

theorem length_pairSums_toList (register : Register) : (pairSums register.toList).length = 8 := by
  simp

/-- A butterfly on the lanes of a register is one on its symbols. -/
theorem toList_butterflyLanes (register : Register) :
    (butterflyLanes unit register).toList = splitBranch register.toList := by
  have length := Register.length_toList register
  have half := length_pairSums_toList register
  apply Register.toList_eq_of_byteAt
  · rw [length_splitBranch, length]
  · intro index inside
    have named : separateEvenOdd[index].toNat < 16 := by
      rw [toNat_separateEvenOdd inside]
      split <;> omega
    have moved : (butterflyLanes unit register).byteAt index =
        absorbLanes 1 register.byteAt separateEvenOdd[index].toNat := by
      rw [← byteAt_absorbAt]
      exact Register.byteAt_shuffle inside named
    rw [moved, toNat_separateEvenOdd inside, splitBranch]
    by_cases low : index < 8
    · have present : 2 * index + 1 < register.toList.length := by
        rw [length]
        omega
      rw [if_pos low, absorbLanes_even, List.getD_append _ _ _ _ (by rwa [half]),
        getD_pairSums present]
      rfl
    · rw [if_neg low, absorbLanes_odd, List.getD_append_right _ _ _ _ (by rw [half]; omega), half,
        getD_pairSeconds]
      rfl

theorem take_butterflyLanes (register : Register) :
    (butterflyLanes unit register).toList.take 8 = pairSums register.toList := by
  rw [toList_butterflyLanes, splitBranch, List.take_left' (length_pairSums_toList register)]

theorem drop_butterflyLanes (register : Register) :
    (butterflyLanes unit register).toList.drop 8 = pairSeconds register.toList := by
  rw [toList_butterflyLanes, splitBranch, List.drop_left' (length_pairSums_toList register)]

/-- The low halves of two butterflies are the sums of all their pairs. -/
theorem toList_concatLow_butterflyLanes :
    ((butterflyLanes unit first).concatLow (butterflyLanes unit second)).toList =
      pairSums (first.toList ++ second.toList) := by
  have even : first.toList.length % 2 = 0 := by rw [Register.length_toList]
  rw [Register.toList_concatLow, take_butterflyLanes, take_butterflyLanes,
    (pairs_append even second.toList).1]

/-- The high halves of two butterflies are the second symbols of all their pairs. -/
theorem toList_concatHigh_butterflyLanes :
    ((butterflyLanes unit first).concatHigh (butterflyLanes unit second)).toList =
      pairSeconds (first.toList ++ second.toList) := by
  have even : first.toList.length % 2 = 0 := by rw [Register.length_toList]
  rw [Register.toList_concatHigh, drop_butterflyLanes, drop_butterflyLanes,
    (pairs_append even second.toList).2]

end Wide

/-- The four absorptions of a fused pass are those over 8, 4, 2 and 1. -/
theorem byteAt_fused (unit : VectorUnit) (register : Register) :
    (fusedFinish (fusedBegin unit register)).byteAt =
      absorbAll 4 (register.shuffle unit bitReversal).byteAt := by
  have chain : fusedFinish (fusedBegin unit register) =
      absorbAt (absorbAt (absorbAt (absorbAt (register.shuffle unit bitReversal) 8) 4) 2) 1 := rfl
  rw [chain, byteAt_absorbAt, byteAt_absorbAt, byteAt_absorbAt, byteAt_absorbAt]
  rfl

/-- A fused pass transforms the symbols of a register. -/
theorem toList_fused (unit : VectorUnit) (register : Register) :
    (fusedFinish (fusedBegin unit register)).toList = polarTransform 4 register.toList := by
  have length : register.toList.length = 2 ^ 4 := Register.length_toList register
  apply Register.toList_eq_of_byteAt (length_polarTransform length)
  intro index inside
  rw [byteAt_fused, ← absorbAll_reverseBits length inside]
  apply absorbAll_congr _ inside
  intro index inside
  have named : bitReversal[index].toNat < 16 := by
    rw [toNat_bitReversal inside]
    exact reverseBits_lt_two_pow 4 index
  rw [Register.byteAt_shuffle inside named, toNat_bitReversal inside]
  rfl

end PolarCoding.Lanes
