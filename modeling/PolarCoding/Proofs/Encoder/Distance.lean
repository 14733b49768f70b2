import Mathlib.Data.Set.Image
import Mathlib.Order.Lattice.Nat
import PolarCoding.Proofs.Encoder.Reencoding
import PolarCoding.Proofs.Weight

/-!
# How far codewords are apart

Two payloads give frames that differ at information positions only. Each such position would alone
change as many symbols of the codeword as its one bits allow, and together the changed positions
change at least as many symbols as the lightest of them. A code whose information positions are all
heavy therefore keeps its codewords far apart.
-/

namespace PolarCoding

/-- Earlier information positions take earlier values. -/
theorem infoCount_take_lt {mask : List UInt8} {earlier later : Nat}
    (info : mask[earlier]? = some 0) (order : earlier < later) :
    infoCount (mask.take earlier) < infoCount (mask.take later) := by
  obtain ⟨inside, flag⟩ := List.getElem?_eq_some_iff.mp info
  have next : infoCount (mask.take (earlier + 1)) = infoCount (mask.take earlier) + 1 := by
    rw [List.take_succ_eq_append_getElem inside, flag, infoCount, List.countP_append]
    rfl
  have kept : (mask.take (earlier + 1)).Sublist (mask.take later) :=
    (List.take_prefix_take_left order).sublist
  have bound : infoCount (mask.take (earlier + 1)) ≤ infoCount (mask.take later) :=
    kept.countP_le
  omega

/-- Different information positions take different values. -/
theorem infoCount_take_ne {mask : List UInt8} {position other : Nat}
    (info : mask[position]? = some 0) (otherInfo : mask[other]? = some 0)
    (apart : other ≠ position) : infoCount (mask.take other) ≠ infoCount (mask.take position) := by
  rcases Nat.lt_or_gt_of_ne apart with before | behind
  · exact Nat.ne_of_lt (infoCount_take_lt otherInfo before)
  · exact Nat.ne_of_gt (infoCount_take_lt info behind)

def ChangesAt (mask first second : List UInt8) (position : Nat) : Prop :=
  mask[position]? = some 0 ∧ first[position]? ≠ second[position]?

namespace Encoder

variable {shape : FrameShape} {mask frozen first second info : List UInt8} {encoder : Encoder}
  {position depth : Nat}

section Frames

variable (consistent : shape.Consistent mask frozen)

include consistent

/-- An information position holds the value whose index is the number of earlier such positions. -/
theorem getElem?_frame_of_info (accepts : shape.Accepts info) (kind : mask[position]? = some 0) :
    ((Sources.mk mask frozen info).frame shape.frameSize.toNat)[position]? =
      info[infoCount (mask.take position)]? := by
  obtain ⟨inside, _⟩ := List.getElem?_eq_some_iff.mp kind
  rw [consistent.maskLength] at inside
  rw [(cover_of_accepts consistent accepts).getElem?_frame inside, Sources.valueAt?, kind]
  rfl

variable (firstAccepts : shape.Accepts first) (secondAccepts : shape.Accepts second)

include firstAccepts secondAccepts

/-- A frozen position holds the same value whatever the payload, so frames differ at information
positions only. -/
theorem changesAt_of_ne
    (differ : ((Sources.mk mask frozen first).frame shape.frameSize.toNat)[position]? ≠
      ((Sources.mk mask frozen second).frame shape.frameSize.toNat)[position]?) :
    ChangesAt mask ((Sources.mk mask frozen first).frame shape.frameSize.toNat)
      ((Sources.mk mask frozen second).frame shape.frameSize.toNat) position := by
  have firstCover := cover_of_accepts consistent firstAccepts
  have secondCover := cover_of_accepts consistent secondAccepts
  refine ⟨?_, differ⟩
  rcases Nat.lt_or_ge position shape.frameSize.toNat with inside | outside
  · have present : position < mask.length := by rwa [consistent.maskLength]
    rw [firstCover.getElem?_frame inside, secondCover.getElem?_frame inside] at differ
    by_contra other
    rw [List.getElem?_eq_getElem present, Option.some.injEq] at other
    have kind := ofFlag_eq_frozen_iff.mpr other
    simp [Sources.valueAt?, List.getElem?_eq_getElem present, kind] at differ
  · rw [List.getElem?_eq_none (by rwa [firstCover.length_frame]),
      List.getElem?_eq_none (by rwa [secondCover.length_frame])] at differ
    exact absurd rfl differ

/-- Different payloads change some information position. -/
theorem exists_changesAt (different : first ≠ second) :
    ∃ position, ChangesAt mask ((Sources.mk mask frozen first).frame shape.frameSize.toNat)
      ((Sources.mk mask frozen second).frame shape.frameSize.toNat) position := by
  by_contra none
  have same : (Sources.mk mask frozen first).frame shape.frameSize.toNat =
      (Sources.mk mask frozen second).frame shape.frameSize.toNat := by
    apply List.ext_getElem?
    intro position
    by_contra differ
    exact none ⟨position, changesAt_of_ne consistent firstAccepts secondAccepts differ⟩
  apply different
  rw [← (valuesAt_frame consistent firstAccepts).1, ← (valuesAt_frame consistent secondAccepts).1,
    same]

/-- The distance of two codewords is the weight of the transformed difference of their frames. -/
theorem distance_codeword (power : shape.frameSize.toNat = 2 ^ depth) :
    distance ((Sources.mk mask frozen first).codeword depth)
        ((Sources.mk mask frozen second).codeword depth) =
      weight (polarTransform depth
        (addWords ((Sources.mk mask frozen first).frame shape.frameSize.toNat)
          ((Sources.mk mask frozen second).frame shape.frameSize.toNat))) := by
  have firstLength := (cover_of_accepts consistent firstAccepts).length_frame
  have secondLength := (cover_of_accepts consistent secondAccepts).length_frame
  rw [power] at firstLength secondLength ⊢
  exact distance_polarTransform firstLength secondLength

theorem length_difference (power : shape.frameSize.toNat = 2 ^ depth) :
    (addWords ((Sources.mk mask frozen first).frame shape.frameSize.toNat)
      ((Sources.mk mask frozen second).frame shape.frameSize.toNat)).length = 2 ^ depth := by
  have firstLength := (cover_of_accepts consistent firstAccepts).length_frame
  have secondLength := (cover_of_accepts consistent secondAccepts).length_frame
  exact (length_addWords firstLength secondLength).trans power

/-- The difference of two frames is nonzero exactly at the changed positions. -/
theorem difference_ne_zero_iff (position : Nat) :
    (addWords ((Sources.mk mask frozen first).frame shape.frameSize.toNat)
        ((Sources.mk mask frozen second).frame shape.frameSize.toNat)).getD position 0 ≠ 0 ↔
      ChangesAt mask ((Sources.mk mask frozen first).frame shape.frameSize.toNat)
        ((Sources.mk mask frozen second).frame shape.frameSize.toNat) position := by
  have firstLength := (cover_of_accepts consistent firstAccepts).length_frame
  have secondLength := (cover_of_accepts consistent secondAccepts).length_frame
  rw [getD_addWords_ne_zero_iff (firstLength.trans secondLength.symm)]
  constructor
  · exact changesAt_of_ne consistent firstAccepts secondAccepts
  · exact And.right

/-- The changed positions bound the distance of the codewords from below. -/
theorem two_pow_le_distance {least : Nat} (power : shape.frameSize.toNat = 2 ^ depth)
    (different : first ≠ second)
    (above : ∀ position,
      ChangesAt mask ((Sources.mk mask frozen first).frame shape.frameSize.toNat)
        ((Sources.mk mask frozen second).frame shape.frameSize.toNat) position →
          least ≤ oneBits position) :
    2 ^ least ≤ distance ((Sources.mk mask frozen first).codeword depth)
      ((Sources.mk mask frozen second).codeword depth) := by
  have nonzero := difference_ne_zero_iff consistent firstAccepts secondAccepts
  obtain ⟨changed, changes⟩ := exists_changesAt consistent firstAccepts secondAccepts different
  rw [distance_codeword consistent firstAccepts secondAccepts power]
  apply two_pow_le_weight (length_difference consistent firstAccepts secondAccepts power)
  · exact ⟨changed, (nonzero changed).mpr changes⟩
  · intro position differs
    exact above position ((nonzero position).mp differs)

/-- A single information bit changes as many symbols as its position has sets of one bits. -/
theorem distance_of_single (power : shape.frameSize.toNat = 2 ^ depth) (different : first ≠ second)
    (kind : mask[position]? = some 0)
    (single : ∀ index, index ≠ infoCount (mask.take position) → first[index]? = second[index]?) :
    distance ((Sources.mk mask frozen first).codeword depth)
        ((Sources.mk mask frozen second).codeword depth) = 2 ^ oneBits position := by
  have nonzero := difference_ne_zero_iff consistent firstAccepts secondAccepts
  have only_here (other : Nat)
      (changes : ChangesAt mask ((Sources.mk mask frozen first).frame shape.frameSize.toNat)
        ((Sources.mk mask frozen second).frame shape.frameSize.toNat) other) :
      other = position := by
    obtain ⟨otherKind, differ⟩ := changes
    by_contra apart
    apply differ
    rw [getElem?_frame_of_info consistent firstAccepts otherKind,
      getElem?_frame_of_info consistent secondAccepts otherKind]
    exact single _ (infoCount_take_ne kind otherKind apart)
  obtain ⟨changed, changes⟩ := exists_changesAt consistent firstAccepts secondAccepts different
  obtain rfl := only_here changed changes
  rw [distance_codeword consistent firstAccepts secondAccepts power]
  apply weight_of_onlyAt (length_difference consistent firstAccepts secondAccepts power)
  constructor
  · exact (nonzero changed).mpr changes
  · intro other apart
    by_contra differs
    exact apart (only_here other ((nonzero other).mp differs))

end Frames

/-- The codewords of two different payloads differ in at least `2 ^ least` symbols, where `least` is
the least number of one bits in a position whose information differs. If a single information bit
differs, they differ in exactly as many symbols as its position has sets of one bits. -/
theorem codewords_apart {scratchAddress : Nat}
    (built : (build shape mask frozen scratchAddress).value = .ok encoder)
    (firstAccepts : shape.Accepts first) (secondAccepts : shape.Accepts second)
    (different : first ≠ second) :
    ∃ firstWord secondWord firstFrame secondFrame : List UInt8,
      encoder.Encodes first firstWord ∧ encoder.Encodes second secondWord ∧
        (∀ target : List UInt8, target.length = shape.frameSize.toNat →
          (Sources.mk mask frozen first).interleave target = .ok () firstFrame ∧
            (Sources.mk mask frozen second).interleave target = .ok () secondFrame) ∧
        (∃ least,
          IsLeast (oneBits '' {position | ChangesAt mask firstFrame secondFrame position}) least ∧
            2 ^ least ≤ distance firstWord secondWord) ∧
        ∀ position, mask[position]? = some 0 →
          (∀ index, index ≠ infoCount (mask.take position) → first[index]? = second[index]?) →
            distance firstWord secondWord = 2 ^ oneBits position := by
  have serves := serves_of_build built
  have consistent := serves.consistent
  obtain ⟨depth, power⟩ := consistent.power
  have firstCover := cover_of_accepts consistent firstAccepts
  have secondCover := cover_of_accepts consistent secondAccepts
  refine ⟨(Sources.mk mask frozen first).codeword depth,
    (Sources.mk mask frozen second).codeword depth,
    (Sources.mk mask frozen first).frame shape.frameSize.toNat,
    (Sources.mk mask frozen second).frame shape.frameSize.toNat,
    serves.encodes firstAccepts power, serves.encodes secondAccepts power, ?_, ?_, ?_⟩
  · intro target size
    rw [← size] at firstCover secondCover ⊢
    exact ⟨firstCover.interleave_eq, secondCover.interleave_eq⟩
  · have changes := exists_changesAt consistent firstAccepts secondAccepts different
    have counts := Set.Nonempty.image oneBits changes
    refine ⟨_, ⟨Nat.sInf_mem counts, fun count member => Nat.sInf_le member⟩, ?_⟩
    apply two_pow_le_distance consistent firstAccepts secondAccepts power different
    intro position changed
    exact Nat.sInf_le (Set.mem_image_of_mem oneBits changed)
  · intro position kind single
    exact distance_of_single consistent firstAccepts secondAccepts power different kind single

/-- Sixteen symbols with information at the last four positions: changing the bit at position 13
changes eight symbols of the codeword. -/
theorem codewords_apart_sixteen :
    let mask : List UInt8 := List.replicate 12 255 ++ List.replicate 4 0
    ∃ (encoder : Encoder) (firstWord secondWord : List UInt8),
      (build ⟨16, 4⟩ mask (List.replicate 12 0) 5).value = .ok encoder ∧
        encoder.Encodes [1, 0, 1, 1] firstWord ∧ encoder.Encodes [1, 1, 1, 1] secondWord ∧
          distance firstWord secondWord = 8 := by
  intro mask
  have built : (build ⟨16, 4⟩ mask (List.replicate 12 0) 5).value =
      .ok ⟨⟨16, 4⟩, mask, List.replicate 12 0, .zeroed 5 16⟩ := rfl
  have firstAccepts : FrameShape.Accepts ⟨16, 4⟩ [1, 0, 1, 1] := ⟨rfl, by simp⟩
  have secondAccepts : FrameShape.Accepts ⟨16, 4⟩ [1, 1, 1, 1] := ⟨rfl, by simp⟩
  obtain ⟨firstWord, secondWord, _, _, firstEncodes, secondEncodes, _, _, single⟩ :=
    codewords_apart built firstAccepts secondAccepts (by decide)
  refine ⟨_, firstWord, secondWord, built, firstEncodes, secondEncodes, ?_⟩
  have others (index : Nat) (other : index ≠ infoCount (mask.take 13)) :
      [1, 0, 1, 1][index]? = ([1, 1, 1, 1] : List UInt8)[index]? := by
    match index with
    | 0 => rfl
    | 1 => exact absurd rfl other
    | index + 2 => rfl
  have bits : oneBits 13 = 3 := by
    rw [oneBits_double_add_one 6, oneBits_double 3, oneBits_double_add_one 1,
      oneBits_double_add_one 0]
    rfl
  rw [single 13 rfl others, bits]
  rfl

end Encoder

end PolarCoding
