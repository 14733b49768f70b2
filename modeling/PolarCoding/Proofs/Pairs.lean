import Mathlib.Data.List.Induction
import PolarCoding.Stage.Basic

/-!
# Neighbouring symbols in pairs

A butterfly replaces each pair of neighbours by its sum and its second symbol. Nothing is lost:
`joinPairs` rebuilds the pairs from the two halves of the result.
-/

namespace PolarCoding

theorem length_pairs {symbols : List UInt8} {count : Nat} (size : symbols.length = 2 * count) :
    (pairSums symbols).length = count ∧ (pairSeconds symbols).length = count := by
  rw [length_pairSums, length_pairSeconds, size, Nat.mul_div_cancel_left _ Nat.two_pos]
  exact ⟨rfl, rfl⟩

/-- The pairs with the given sums and second symbols, one after the other. -/
def joinPairs : (sums seconds : List UInt8) → List UInt8
  | sum :: sums, second :: seconds => (sum ^^^ second) :: second :: joinPairs sums seconds
  | _, _ => []

/-- A sequence of pairs is determined by their sums and second symbols. -/
theorem joinPairs_pairs {symbols : List UInt8} (even : symbols.length % 2 = 0) :
    joinPairs (pairSums symbols) (pairSeconds symbols) = symbols := by
  induction symbols using List.twoStepInduction with
  | nil => rfl
  | singleton symbol => cases even
  | cons_cons first second rest ih _ =>
      have shorter : rest.length % 2 = 0 := by simp only [List.length_cons] at even; omega
      rw [pairSums, pairSeconds, joinPairs, ih shorter, UInt8.xor_assoc, UInt8.xor_self,
        UInt8.xor_zero]

theorem joinPairs_append {leftSums leftSeconds : List UInt8}
    (same : leftSums.length = leftSeconds.length) (rightSums rightSeconds : List UInt8) :
    joinPairs (leftSums ++ rightSums) (leftSeconds ++ rightSeconds) =
      joinPairs leftSums leftSeconds ++ joinPairs rightSums rightSeconds := by
  induction leftSums generalizing leftSeconds with
  | nil =>
      cases leftSeconds with
      | nil => rfl
      | cons second seconds => cases same
  | cons sum sums ih =>
      cases leftSeconds with
      | nil => cases same
      | cons second seconds =>
          have later : joinPairs (sums ++ rightSums) (seconds ++ rightSeconds) =
              joinPairs sums seconds ++ joinPairs rightSums rightSeconds :=
            ih (by simpa using same)
          simp only [List.cons_append, joinPairs, later]

/-- No pair reaches from a sequence of even length into the next. -/
theorem pairs_append {left : List UInt8} (even : left.length % 2 = 0) (right : List UInt8) :
    pairSums (left ++ right) = pairSums left ++ pairSums right ∧
      pairSeconds (left ++ right) = pairSeconds left ++ pairSeconds right := by
  induction left using List.twoStepInduction with
  | nil => exact ⟨rfl, rfl⟩
  | singleton symbol => cases even
  | cons_cons first second rest ih _ =>
      have shorter : rest.length % 2 = 0 := by simp only [List.length_cons] at even; omega
      obtain ⟨sums, seconds⟩ := ih shorter
      constructor
      · simp only [List.cons_append, pairSums, sums]
      · simp only [List.cons_append, pairSeconds, seconds]

/-- The sum of pair `index` in terms of the symbols. -/
theorem getElem?_pairSums (symbols : List UInt8) (index : Nat) :
    (pairSums symbols)[index]? =
      (symbols[2 * index + 1]?).map (symbols.getD (2 * index) 0 ^^^ ·) := by
  induction symbols using List.twoStepInduction generalizing index with
  | nil => rfl
  | singleton symbol => simp [pairSums]
  | cons_cons first second rest ih _ =>
      cases index with
      | zero => rfl
      | succ index => simpa [pairSums, Nat.mul_add] using ih index

@[simp] theorem getElem?_pairSeconds (symbols : List UInt8) (index : Nat) :
    (pairSeconds symbols)[index]? = symbols[2 * index + 1]? := by
  induction symbols using List.twoStepInduction generalizing index with
  | nil => rfl
  | singleton symbol => simp [pairSeconds]
  | cons_cons first second rest ih _ =>
      cases index with
      | zero => rfl
      | succ index => simpa [pairSeconds, Nat.mul_add] using ih index

theorem getD_pairSums {symbols : List UInt8} {index : Nat}
    (present : 2 * index + 1 < symbols.length) :
    (pairSums symbols).getD index 0 =
      symbols.getD (2 * index) 0 ^^^ symbols.getD (2 * index + 1) 0 := by
  rw [List.getD, getElem?_pairSums, List.getD, List.getD, List.getElem?_eq_getElem present]
  rfl

@[simp] theorem getD_pairSeconds (symbols : List UInt8) (index : Nat) :
    (pairSeconds symbols).getD index 0 = symbols.getD (2 * index + 1) 0 := by
  rw [List.getD, getElem?_pairSeconds, List.getD]

/-- Whatever holds of symbols and is kept by sums holds of all symbols of a butterfly. -/
theorem forall_mem_pairs {property : UInt8 → Prop}
    (closed : ∀ first second, property first → property second → property (first ^^^ second))
    {symbols : List UInt8} (all : ∀ symbol ∈ symbols, property symbol) :
    (∀ symbol ∈ pairSums symbols, property symbol) ∧
      ∀ symbol ∈ pairSeconds symbols, property symbol := by
  induction symbols using List.twoStepInduction with
  | nil => simp [pairSums, pairSeconds]
  | singleton symbol => simp [pairSums, pairSeconds]
  | cons_cons first second rest ih _ =>
      obtain ⟨firstHolds, secondHolds, restHolds⟩ : property first ∧ property second ∧
          ∀ symbol ∈ rest, property symbol := by simpa using all
      obtain ⟨sums, seconds⟩ := ih restHolds
      rw [pairSums, pairSeconds]
      constructor
      · exact List.forall_mem_cons.mpr ⟨closed first second firstHolds secondHolds, sums⟩
      · exact List.forall_mem_cons.mpr ⟨secondHolds, seconds⟩

end PolarCoding
