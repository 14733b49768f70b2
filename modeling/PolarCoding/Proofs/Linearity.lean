import PolarCoding.Proofs.Transform

/-!
# Sums of words

Words are added symbol by symbol. A butterfly adds symbols of one word and moves others, so it makes
no difference whether two words are added before it or after it. The same holds of the transform,
and of every change of single symbols that respects sums.
-/

namespace PolarCoding

def addWords (first second : List UInt8) : List UInt8 := List.zipWith (· ^^^ ·) first second

variable {first second : List UInt8}

@[simp] theorem addWords_cons (symbol other : UInt8) (first second : List UInt8) :
    addWords (symbol :: first) (other :: second) =
      (symbol ^^^ other) :: addWords first second := rfl

theorem length_addWords {size : Nat} (firstSize : first.length = size)
    (secondSize : second.length = size) : (addWords first second).length = size := by
  rw [addWords, List.length_zipWith, firstSize, secondSize, Nat.min_self]

theorem addWords_append (same : first.length = second.length) (firstRest secondRest : List UInt8) :
    addWords (first ++ firstRest) (second ++ secondRest) =
      addWords first second ++ addWords firstRest secondRest :=
  List.zipWith_append same

theorem getD_addWords (same : first.length = second.length) (position : Nat) :
    (addWords first second).getD position 0 = first.getD position 0 ^^^ second.getD position 0 := by
  have length := length_addWords rfl same.symm
  rcases Nat.lt_or_ge position first.length with inside | outside
  · rw [List.getD_eq_getElem _ _ (by rwa [length]), List.getD_eq_getElem _ _ inside,
      List.getD_eq_getElem _ _ (by rwa [← same])]
    exact List.getElem_zipWith
  · rw [List.getD_eq_default _ _ (by rwa [length]), List.getD_eq_default _ _ outside,
      List.getD_eq_default _ _ (by rwa [← same]), UInt8.xor_self]

/-- A sum is nonzero exactly where its words differ. -/
theorem getD_addWords_ne_zero_iff (same : first.length = second.length) (position : Nat) :
    (addWords first second).getD position 0 ≠ 0 ↔ first[position]? ≠ second[position]? := by
  rw [getD_addWords same, Ne, UInt8.xor_eq_zero_iff, not_iff_not]
  rcases Nat.lt_or_ge position first.length with inside | outside
  · have other : position < second.length := same ▸ inside
    rw [List.getD_eq_getElem _ _ inside, List.getD_eq_getElem _ _ other,
      List.getElem?_eq_getElem inside, List.getElem?_eq_getElem other, Option.some.injEq]
  · have other : second.length ≤ position := same ▸ outside
    rw [List.getD_eq_default _ _ outside, List.getD_eq_default _ _ other,
      List.getElem?_eq_none outside, List.getElem?_eq_none other]
    simp only

/-- The pairs of a sum are the sums of pairs. -/
theorem pairs_addWords (first second : List UInt8) :
    pairSums (addWords first second) = addWords (pairSums first) (pairSums second) ∧
      pairSeconds (addWords first second) = addWords (pairSeconds first) (pairSeconds second) := by
  induction first using List.twoStepInduction generalizing second with
  | nil => exact ⟨rfl, rfl⟩
  | singleton symbol =>
      cases second with
      | nil => exact ⟨rfl, rfl⟩
      | cons other rest => exact ⟨rfl, rfl⟩
  | cons_cons symbol next rest ih _ =>
      match second with
      | [] => exact ⟨rfl, rfl⟩
      | [other] => exact ⟨rfl, rfl⟩
      | other :: after :: tail =>
          obtain ⟨sums, seconds⟩ := ih tail
          have crossed : symbol ^^^ other ^^^ (next ^^^ after) =
              symbol ^^^ next ^^^ (other ^^^ after) := by
            rw [UInt8.xor_assoc, UInt8.xor_assoc, ← UInt8.xor_assoc other, UInt8.xor_comm other,
              UInt8.xor_assoc next]
          constructor
          · exact congrArg₂ List.cons crossed sums
          · exact congrArg (List.cons (next ^^^ after)) seconds

/-- The transform of a sum is the sum of the transforms. -/
theorem polarTransform_addWords {depth : Nat} (firstSize : first.length = 2 ^ depth)
    (secondSize : second.length = 2 ^ depth) :
    polarTransform depth (addWords first second) =
      addWords (polarTransform depth first) (polarTransform depth second) := by
  induction depth generalizing first second with
  | zero => rfl
  | succ depth ih =>
      obtain ⟨firstSums, firstSeconds⟩ := length_halves firstSize
      obtain ⟨secondSums, secondSeconds⟩ := length_halves secondSize
      obtain ⟨sums, seconds⟩ := pairs_addWords first second
      have halves : (polarTransform depth (pairSums first)).length =
          (polarTransform depth (pairSums second)).length := by
        rw [length_polarTransform firstSums, length_polarTransform secondSums]
      rw [polarTransform_succ, sums, seconds, ih firstSums secondSums,
        ih firstSeconds secondSeconds, polarTransform_succ, polarTransform_succ,
        addWords_append halves]

section Symbols

variable {change : UInt8 → UInt8}
  (additive : ∀ first second, change (first ^^^ second) = change first ^^^ change second)
include additive

/-- A change of single symbols that respects sums may be made before or after pairs are taken. -/
theorem pairs_map (symbols : List UInt8) :
    pairSums (symbols.map change) = (pairSums symbols).map change ∧
      pairSeconds (symbols.map change) = (pairSeconds symbols).map change := by
  induction symbols using List.twoStepInduction with
  | nil => exact ⟨rfl, rfl⟩
  | singleton symbol => exact ⟨rfl, rfl⟩
  | cons_cons symbol next rest ih _ =>
      obtain ⟨sums, seconds⟩ := ih
      constructor
      · exact congrArg₂ List.cons (additive symbol next).symm sums
      · exact congrArg (List.cons (change next)) seconds

theorem polarTransform_map (depth : Nat) (symbols : List UInt8) :
    polarTransform depth (symbols.map change) = (polarTransform depth symbols).map change := by
  induction depth generalizing symbols with
  | zero => rfl
  | succ depth ih =>
      obtain ⟨sums, seconds⟩ := pairs_map additive symbols
      rw [polarTransform_succ, sums, seconds, ih, ih, polarTransform_succ, List.map_append]

end Symbols

end PolarCoding
