import PolarCoding.Proofs.BitReversal
import PolarCoding.Proofs.Scalar

/-!
# The closed form of the transform

A symbol of a codeword is the sum of certain symbols of the filled frame: of those at the positions
whose bit reversal has every bit of the codeword position. Neither the stages nor the recursion
mention bit reversal. It arises because a butterfly sorts by the lowest bit of a position and
makes it the highest one.
-/

namespace PolarCoding

/-! ## Sums of symbols -/

def sumOf (symbols : List UInt8) : UInt8 := symbols.foldr (· ^^^ ·) 0

@[simp] theorem sumOf_nil : sumOf [] = 0 := rfl

@[simp] theorem sumOf_cons (symbol : UInt8) (symbols : List UInt8) :
    sumOf (symbol :: symbols) = symbol ^^^ sumOf symbols := rfl

@[simp] theorem sumOf_append (left right : List UInt8) :
    sumOf (left ++ right) = sumOf left ^^^ sumOf right := by
  induction left with
  | nil => simp
  | cons symbol left ih => simp [ih, UInt8.xor_assoc]

/-- Symbols that do not count may be replaced by zeros. -/
theorem sumOf_map_filter (counts : Nat → Bool) (term : Nat → UInt8) (indices : List Nat) :
    sumOf ((indices.filter counts).map term) =
      sumOf (indices.map fun index => if counts index then term index else 0) := by
  induction indices with
  | nil => rfl
  | cons index indices ih =>
      cases counted : counts index <;> simp [counted, ih]

/-- A sum over twice as many positions is a sum over pairs of neighbours. -/
theorem sumOf_range_double (count : Nat) (term : Nat → UInt8) :
    sumOf ((List.range (2 * count)).map term) =
      sumOf ((List.range count).map fun index => term (2 * index) ^^^ term (2 * index + 1)) := by
  induction count with
  | zero => rfl
  | succ count ih =>
      simp [Nat.mul_succ, List.range_succ, ih]

/-! ## The transform as a table of sums -/

/-- The positions of a filled frame of `2 ^ depth` symbols that a codeword position adds up. -/
def contributors (depth position : Nat) : List Nat :=
  (List.range (2 ^ depth)).filter fun index => BitsWithin position (reverseBits depth index)

def contribution (depth position : Nat) (symbols : List UInt8) (index : Nat) : UInt8 :=
  if BitsWithin position (reverseBits depth index) then symbols.getD index 0 else 0

theorem sumOf_contributors (depth position : Nat) (symbols : List UInt8) :
    sumOf ((contributors depth position).map fun index => symbols.getD index 0) =
      sumOf ((List.range (2 ^ depth)).map (contribution depth position symbols)) := by
  rw [contributors, sumOf_map_filter]
  congr
  funext index
  simp only [contribution, decide_eq_true_eq]

section Halves

variable {depth position index : Nat} {symbols : List UInt8}

/-- Neighbours add their sum to the first half of the codeword. -/
theorem contribution_low (inside : position < 2 ^ depth)
    (present : 2 * index + 1 < symbols.length) :
    contribution (depth + 1) position symbols (2 * index) ^^^
        contribution (depth + 1) position symbols (2 * index + 1) =
      contribution depth position (pairSums symbols) index := by
  simp only [contribution, reverseBits_double, reverseBits_double_add_one,
    bitsWithin_add_right inside (reverseBits_lt_two_pow depth index), getD_pairSums present]
  split
  · rfl
  · exact UInt8.xor_zero

/-- Only the second of two neighbours adds to the second half of the codeword. -/
theorem contribution_high (inside : position < 2 ^ depth) :
    contribution (depth + 1) (2 ^ depth + position) symbols (2 * index) ^^^
        contribution (depth + 1) (2 ^ depth + position) symbols (2 * index + 1) =
      contribution depth position (pairSeconds symbols) index := by
  simp only [contribution, reverseBits_double, reverseBits_double_add_one,
    bitsWithin_add_add inside (reverseBits_lt_two_pow depth index),
    not_bitsWithin_add_left inside (reverseBits_lt_two_pow depth index), getD_pairSeconds, if_false,
    UInt8.zero_xor]

end Halves

theorem getElem?_polarTransform {depth position : Nat} {symbols : List UInt8}
    (size : symbols.length = 2 ^ depth) (inside : position < 2 ^ depth) :
    (polarTransform depth symbols)[position]? =
      some (sumOf ((List.range (2 ^ depth)).map (contribution depth position symbols))) := by
  induction depth generalizing position symbols with
  | zero =>
      obtain ⟨symbol, rfl⟩ := List.length_eq_one_iff.mp size
      obtain rfl := Nat.lt_one_iff.mp inside
      exact congrArg some UInt8.xor_zero.symm
  | succ depth ih =>
      obtain ⟨sums, seconds⟩ := length_halves size
      have firstHalf := length_polarTransform sums
      rw [polarTransform_succ, ← span_succ, sumOf_range_double]
      by_cases low : position < 2 ^ depth
      · rw [List.getElem?_append_left (by rwa [firstHalf]), ih sums low]
        congr 2
        apply List.map_congr_left
        intro index member
        have present : 2 * index + 1 < symbols.length := by
          rw [size, ← span_succ]
          have := List.mem_range.mp member
          omega
        exact (contribution_low low present).symm
      · obtain ⟨offset, rfl⟩ := Nat.exists_eq_add_of_le (Nat.not_lt.mp low)
        have high : offset < 2 ^ depth := by
          rw [← span_succ] at inside
          omega
        rw [List.getElem?_append_right (by rw [firstHalf]; omega), firstHalf,
          Nat.add_sub_cancel_left, ih seconds high]
        congr 2
        apply List.map_congr_left
        intro index _
        exact (contribution_high high).symm

/-- A codeword symbol is the sum of the symbols of the filled frame at exactly those positions whose
bit reversal has every bit of the codeword position. The filled frame holds at each position the
next unread value of its source. -/
theorem Scalar.symbol_eq_sumOf_contributors {sources : Sources} {frameSize : UInt32} {depth : Nat}
    {workspace after : Workspace} (shape : frameSize.toNat = 2 ^ depth)
    (run : encode sources frameSize workspace = .ok () after) :
    ∃ filled : List UInt8, filled.length = 2 ^ depth ∧
      (∀ position < 2 ^ depth, filled[position]? = sources.valueAt? position) ∧
      ∀ position < 2 ^ depth, after.frame.symbols[position]? =
        some (sumOf ((contributors depth position).map fun index => filled.getD index 0)) := by
  obtain ⟨_, holds, cover⟩ := of_encode_eq_ok run
  rw [encode_eq shape holds cover] at run
  cases run
  rw [shape] at cover
  have filled := cover.length_frame
  refine ⟨sources.frame (2 ^ depth), filled, fun position => cover.getElem?_frame, ?_⟩
  intro position inside
  have within : position < (sources.codeword depth).length := by
    rwa [cover.length_codeword rfl]
  rw [Workspace.withFronts, Buffer.symbols_withFront, List.getElem?_append_left within,
    Sources.codeword, getElem?_polarTransform filled inside, sumOf_contributors]

theorem Scalar.symbol_eq_sumOf_contributors_four :
    (4 : UInt32).toNat = 2 ^ 2 ∧
      encode ⟨[0, 9, 255, 0], [7, 130], [200, 33]⟩ 4 ⟨⟨3, [1, 2, 3, 4, 5]⟩, ⟨8, [6, 7, 8, 9]⟩⟩ =
        .ok () ⟨⟨3, [108, 163, 38, 33, 5]⟩, ⟨8, [108, 163, 38, 33]⟩⟩ ∧
      ∃ filled : List UInt8, filled.length = 2 ^ 2 ∧
        (∀ position < 2 ^ 2, filled[position]? =
          Sources.valueAt? ⟨[0, 9, 255, 0], [7, 130], [200, 33]⟩ position) ∧
        ∀ position < 2 ^ 2, [108, 163, 38, 33, 5][position]? =
          some (sumOf ((contributors 2 position).map fun index => filled.getD index 0)) := by
  have run : encode ⟨[0, 9, 255, 0], [7, 130], [200, 33]⟩ 4
      ⟨⟨3, [1, 2, 3, 4, 5]⟩, ⟨8, [6, 7, 8, 9]⟩⟩ =
        .ok () ⟨⟨3, [108, 163, 38, 33, 5]⟩, ⟨8, [108, 163, 38, 33]⟩⟩ := rfl
  exact ⟨rfl, run, symbol_eq_sumOf_contributors rfl run⟩

end PolarCoding
