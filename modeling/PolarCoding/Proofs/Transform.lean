import PolarCoding.Proofs.BitReversal
import PolarCoding.Proofs.Blocks
import PolarCoding.Proofs.Pairs

/-!
# The polar transform

One butterfly over a whole frame, then the transform of each half: this is the recursion behind
the stages of an encoder. Joining the transforms of two halves in pairs gives the transform of
both, and so the transform undoes itself although no single stage does.
-/

namespace PolarCoding

def polarTransform : (depth : Nat) → List UInt8 → List UInt8
  | 0, symbols => symbols
  | depth + 1, symbols =>
      polarTransform depth (pairSums symbols) ++ polarTransform depth (pairSeconds symbols)

theorem polarTransform_succ (depth : Nat) (symbols : List UInt8) :
    polarTransform (depth + 1) symbols =
      polarTransform depth (pairSums symbols) ++ polarTransform depth (pairSeconds symbols) := rfl

theorem length_halves {depth : Nat} {symbols : List UInt8}
    (size : symbols.length = 2 ^ (depth + 1)) :
    (pairSums symbols).length = 2 ^ depth ∧ (pairSeconds symbols).length = 2 ^ depth :=
  length_pairs (size.trans (span_succ depth).symm)

theorem length_polarTransform {depth : Nat} {symbols : List UInt8}
    (size : symbols.length = 2 ^ depth) : (polarTransform depth symbols).length = 2 ^ depth := by
  induction depth generalizing symbols with
  | zero => exact size
  | succ depth ih =>
      obtain ⟨sums, seconds⟩ := length_halves size
      rw [polarTransform_succ, List.length_append, ih sums, ih seconds, Nat.pow_succ, Nat.mul_two]

/-- Whatever holds of symbols and is kept by sums holds of the transformed symbols. -/
theorem forall_mem_polarTransform {property : UInt8 → Prop}
    (closed : ∀ first second, property first → property second → property (first ^^^ second))
    (depth : Nat) {symbols : List UInt8} (all : ∀ symbol ∈ symbols, property symbol) :
    ∀ symbol ∈ polarTransform depth symbols, property symbol := by
  induction depth generalizing symbols with
  | zero => exact all
  | succ depth ih =>
      obtain ⟨sums, seconds⟩ := forall_mem_pairs closed all
      intro symbol member
      rw [polarTransform_succ, List.mem_append] at member
      rcases member with first | second
      · exact ih sums symbol first
      · exact ih seconds symbol second

theorem even_two_pow_succ (depth : Nat) : 2 ^ (depth + 1) % 2 = 0 := by
  rw [Nat.pow_succ, Nat.mul_mod_left]

/-- The transform of two halves consists of pairs: those whose sums and second symbols are the
transforms of the halves. -/
theorem polarTransform_append {depth : Nat} {left right : List UInt8}
    (leftSize : left.length = 2 ^ depth) (rightSize : right.length = 2 ^ depth) :
    polarTransform (depth + 1) (left ++ right) =
      joinPairs (polarTransform depth left) (polarTransform depth right) := by
  induction depth generalizing left right with
  | zero =>
      obtain ⟨first, rfl⟩ := List.length_eq_one_iff.mp leftSize
      obtain ⟨second, rfl⟩ := List.length_eq_one_iff.mp rightSize
      rfl
  | succ depth ih =>
      have even : left.length % 2 = 0 := by rw [leftSize, even_two_pow_succ]
      obtain ⟨leftSums, leftSeconds⟩ := length_halves leftSize
      obtain ⟨rightSums, rightSeconds⟩ := length_halves rightSize
      obtain ⟨sums, seconds⟩ := pairs_append even right
      have halves : (polarTransform depth (pairSums left)).length =
          (polarTransform depth (pairSums right)).length := by
        rw [length_polarTransform leftSums, length_polarTransform rightSums]
      calc polarTransform (depth + 2) (left ++ right)
        _ = polarTransform (depth + 1) (pairSums left ++ pairSums right) ++
              polarTransform (depth + 1) (pairSeconds left ++ pairSeconds right) := by
            rw [polarTransform_succ, sums, seconds]
        _ = joinPairs (polarTransform depth (pairSums left))
                (polarTransform depth (pairSums right)) ++
              joinPairs (polarTransform depth (pairSeconds left))
                (polarTransform depth (pairSeconds right)) := by
            rw [ih leftSums rightSums, ih leftSeconds rightSeconds]
        _ = joinPairs (polarTransform (depth + 1) left) (polarTransform (depth + 1) right) := by
            rw [polarTransform_succ, polarTransform_succ, joinPairs_append halves]

/-- The transform is its own inverse. -/
theorem polarTransform_polarTransform {depth : Nat} {symbols : List UInt8}
    (size : symbols.length = 2 ^ depth) :
    polarTransform depth (polarTransform depth symbols) = symbols := by
  induction depth generalizing symbols with
  | zero => rfl
  | succ depth ih =>
      obtain ⟨sums, seconds⟩ := length_halves size
      have even : symbols.length % 2 = 0 := by rw [size, even_two_pow_succ]
      rw [polarTransform_succ depth symbols, polarTransform_append (length_polarTransform sums)
        (length_polarTransform seconds), ih sums, ih seconds, joinPairs_pairs even]

end PolarCoding
