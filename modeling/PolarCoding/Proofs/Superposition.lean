import PolarCoding.Proofs.EntryPoint
import PolarCoding.Proofs.Linearity

/-!
# Sums of codewords

With one mask and sources of the same lengths, the frame of a sum of sources is the sum of their
frames, and so is the codeword. What is masked out of the sources is masked out of the codeword: no
bit of a symbol ever reaches another bit.
-/

namespace PolarCoding

/-- Masking respects sums. -/
theorem xor_and (first second plane : UInt8) :
    (first ^^^ second) &&& plane = (first &&& plane) ^^^ (second &&& plane) := by
  rw [← UInt8.toNat_inj]
  simp only [UInt8.toNat_and, UInt8.toNat_xor]
  exact Nat.and_xor_distrib_right

/-- Words of bits are those that masking with one bit leaves alone. -/
theorem map_and_one_eq_self_iff (word : List UInt8) :
    word.map (· &&& 1) = word ↔ ∀ symbol ∈ word, symbol ≤ 1 := by
  have bit (symbol : UInt8) : symbol &&& 1 = symbol ↔ symbol ≤ 1 := by
    constructor
    · intro kept
      rw [← kept]
      exact UInt8.and_le_right
    · intro small
      rw [← UInt8.toNat_inj, UInt8.toNat_and]
      exact (Nat.and_one_is_mod _).trans (Nat.mod_eq_of_lt (Nat.lt_succ_of_le small))
  calc word.map (· &&& 1) = word
    _ ↔ word.map (· &&& 1) = word.map id := by rw [List.map_id]
    _ ↔ ∀ symbol ∈ word, symbol &&& 1 = symbol := List.map_inj_left
    _ ↔ ∀ symbol ∈ word, symbol ≤ 1 := by simp only [bit]

section Filling

variable {frozen info otherFrozen otherInfo : List UInt8}

theorem fill_addWords (mask : List UInt8) (frozenLength : otherFrozen.length = frozen.length)
    (infoLength : otherInfo.length = info.length) :
    (fill mask (addWords frozen otherFrozen) (addWords info otherInfo)).symbols =
      addWords (fill mask frozen info).symbols (fill mask otherFrozen otherInfo).symbols := by
  -- Sources of the same lengths run out at the same position, so the fillings end together.
  fun_induction fill mask frozen info generalizing otherFrozen otherInfo with
  | case1 frozen info => rfl
  | case2 flag mask info kind =>
      cases List.eq_nil_of_length_eq_zero frozenLength
      simp [fill, kind, addWords]
  | case3 flag mask value frozen info kind ih =>
      cases otherFrozen with
      | nil => cases frozenLength
      | cons otherValue otherFrozen =>
          have later := ih (Nat.succ.inj frozenLength) infoLength
          rw [addWords_cons]
          simp only [fill, kind, Filling.cons, later, addWords_cons]
  | case4 flag mask frozen kind =>
      cases List.eq_nil_of_length_eq_zero infoLength
      simp [fill, kind, addWords]
  | case5 flag mask frozen value info kind ih =>
      cases otherInfo with
      | nil => cases infoLength
      | cons otherValue otherInfo =>
          have later := ih frozenLength (Nat.succ.inj infoLength)
          rw [addWords_cons]
          simp only [fill, kind, Filling.cons, later, addWords_cons]

theorem fill_map (change : UInt8 → UInt8) (mask frozen info : List UInt8) :
    (fill mask (frozen.map change) (info.map change)).symbols =
      (fill mask frozen info).symbols.map change := by
  fun_induction fill mask frozen info with
  | case1 frozen info => rfl
  | case2 flag mask info kind => simp [fill, kind]
  | case3 flag mask value frozen info kind ih =>
      rw [List.map_cons]
      simp only [fill, kind, Filling.cons, ih, List.map_cons]
  | case4 flag mask frozen kind => simp [fill, kind]
  | case5 flag mask frozen value info kind ih =>
      rw [List.map_cons]
      simp only [fill, kind, Filling.cons, ih, List.map_cons]

end Filling

namespace Sources

variable {mask frozen info otherFrozen otherInfo : List UInt8} {size depth : Nat}

/-- Whether a frame can be filled depends on the lengths of the sources only. -/
theorem Cover.of_lengths (cover : (Sources.mk mask frozen info).Cover size)
    (frozenLength : otherFrozen.length = frozen.length)
    (infoLength : otherInfo.length = info.length) :
    (Sources.mk mask otherFrozen otherInfo).Cover size :=
  ⟨cover.mask, frozenLength ▸ cover.frozen, infoLength ▸ cover.info⟩

/-- The codeword of a sum is the sum of the codewords. -/
theorem codeword_addWords (cover : (Sources.mk mask frozen info).Cover (2 ^ depth))
    (frozenLength : otherFrozen.length = frozen.length)
    (infoLength : otherInfo.length = info.length) :
    (Sources.mk mask (addWords frozen otherFrozen) (addWords info otherInfo)).codeword depth =
      addWords ((Sources.mk mask frozen info).codeword depth)
        ((Sources.mk mask otherFrozen otherInfo).codeword depth) := by
  have other := cover.of_lengths frozenLength infoLength
  have sum : (Sources.mk mask (addWords frozen otherFrozen) (addWords info otherInfo)).frame
      (2 ^ depth) = addWords ((Sources.mk mask frozen info).frame (2 ^ depth))
        ((Sources.mk mask otherFrozen otherInfo).frame (2 ^ depth)) :=
    fill_addWords _ frozenLength infoLength
  rw [codeword, sum, polarTransform_addWords cover.length_frame other.length_frame]
  rfl

/-- A change of single symbols that respects sums may be made before or after encoding. -/
theorem codeword_map {change : UInt8 → UInt8}
    (additive : ∀ first second, change (first ^^^ second) = change first ^^^ change second)
    (sources : Sources) (depth : Nat) :
    (Sources.mk sources.mask (sources.frozen.map change) (sources.info.map change)).codeword depth =
      (sources.codeword depth).map change := by
  have changed : (Sources.mk sources.mask (sources.frozen.map change)
      (sources.info.map change)).frame (2 ^ depth) = (sources.frame (2 ^ depth)).map change :=
    fill_map change _ _ _
  rw [codeword, changed, polarTransform_map additive]
  rfl

/-- The codeword of masked sources is the masked codeword. -/
theorem codeword_and (plane : UInt8) (mask frozen info : List UInt8) (depth : Nat) :
    (Sources.mk mask (frozen.map (· &&& plane)) (info.map (· &&& plane))).codeword depth =
      ((Sources.mk mask frozen info).codeword depth).map (· &&& plane) :=
  codeword_map (fun first second => xor_and first second plane) ⟨mask, frozen, info⟩ depth

/-- Every encoder that can work on such a frame in its buffers leaves this word there. -/
def EncodesTo (sources : Sources) (frameSize : UInt32) (word : List UInt8) : Prop :=
  ∀ (entry : EntryPoint) (workspace : Workspace), entry.Admits workspace frameSize →
    entry.Suits workspace →
      ∃ after, entry.run sources frameSize workspace = .ok () after ∧
        after.frame.symbols.take frameSize.toNat = word

theorem Cover.encodesTo {sources : Sources} {frameSize : UInt32}
    (cover : sources.Cover frameSize.toNat) (shape : frameSize.toNat = 2 ^ depth) :
    sources.EncodesTo frameSize (sources.codeword depth) := by
  intro entry workspace admits suits
  obtain ⟨after, run⟩ := entry.exists_run_eq_ok admits cover suits
  obtain ⟨_, _, _, otherDepth, otherShape, codeword⟩ := EntryPoint.of_run_eq_ok run
  obtain rfl : otherDepth = depth :=
    Nat.pow_right_injective (Nat.le_refl 2) (otherShape.symm.trans shape)
  exact ⟨after, run, codeword⟩

end Sources

structure Superposition (mask frozen info otherFrozen otherInfo : List UInt8) (frameSize : UInt32)
    (codeword other : List UInt8) : Prop where
  first : (Sources.mk mask frozen info).EncodesTo frameSize codeword
  second : (Sources.mk mask otherFrozen otherInfo).EncodesTo frameSize other
  /-- The sums of the sources give the sum of the codewords. -/
  sum : (Sources.mk mask (addWords frozen otherFrozen) (addWords info otherInfo)).EncodesTo
    frameSize (addWords codeword other)
  /-- Any bits of the symbols can be encoded by themselves. -/
  plane : ∀ plane : UInt8,
    (Sources.mk mask (frozen.map (· &&& plane)) (info.map (· &&& plane))).EncodesTo frameSize
      (codeword.map (· &&& plane))
  /-- With other frozen values whose sum is the same, the sum of the codewords is the same. So the
  frozen values that both share do not matter for it. -/
  shared : ∀ newFrozen newOtherFrozen : List UInt8, newFrozen.length = frozen.length →
    newOtherFrozen.length = frozen.length →
      addWords newFrozen newOtherFrozen = addWords frozen otherFrozen →
        ∃ newCodeword newOther,
          (Sources.mk mask newFrozen info).EncodesTo frameSize newCodeword ∧
            (Sources.mk mask newOtherFrozen otherInfo).EncodesTo frameSize newOther ∧
              addWords newCodeword newOther = addWords codeword other
  bits : (∀ value ∈ frozen, value ≤ 1) → (∀ value ∈ info, value ≤ 1) →
    ∀ symbol ∈ codeword, symbol ≤ 1

section Encoders

variable {mask frozen info otherFrozen otherInfo : List UInt8} {frameSize : UInt32} {depth : Nat}

/-- The codewords of sources that can fill a frame. -/
theorem superposition_codeword (cover : (Sources.mk mask frozen info).Cover frameSize.toNat)
    (shape : frameSize.toNat = 2 ^ depth) (frozenLength : otherFrozen.length = frozen.length)
    (infoLength : otherInfo.length = info.length) :
    Superposition mask frozen info otherFrozen otherInfo frameSize
      ((Sources.mk mask frozen info).codeword depth)
      ((Sources.mk mask otherFrozen otherInfo).codeword depth) := by
  have sized {someFrozen someInfo : List UInt8} (frozenSize : someFrozen.length = frozen.length)
      (infoSize : someInfo.length = info.length) :
      (Sources.mk mask someFrozen someInfo).EncodesTo frameSize
        ((Sources.mk mask someFrozen someInfo).codeword depth) :=
    (cover.of_lengths frozenSize infoSize).encodesTo shape
  have whole := cover
  rw [shape] at whole
  constructor
  case first => exact sized rfl rfl
  case second => exact sized frozenLength infoLength
  case sum =>
    rw [← Sources.codeword_addWords whole frozenLength infoLength]
    exact sized (length_addWords rfl frozenLength) (length_addWords rfl infoLength)
  case plane =>
    intro plane
    rw [← Sources.codeword_and]
    exact sized (List.length_map _) (List.length_map _)
  case shared =>
    intro newFrozen newOtherFrozen newLength newOtherLength same
    have moved := whole.of_lengths newLength rfl
    refine ⟨_, _, sized newLength rfl, sized newOtherLength infoLength, ?_⟩
    rw [← Sources.codeword_addWords moved (newOtherLength.trans newLength.symm) infoLength, same,
      Sources.codeword_addWords whole frozenLength infoLength]
  case bits =>
    intro frozenBits infoBits
    -- Masking with one bit leaves the sources alone, and therefore the codeword.
    have kept := Sources.codeword_and 1 mask frozen info depth
    rw [(map_and_one_eq_self_iff frozen).mpr frozenBits,
      (map_and_one_eq_self_iff info).mpr infoBits] at kept
    exact (map_and_one_eq_self_iff _).mp kept.symm

/-- If some encoder encodes sources, every encoder encodes all sources of the same lengths, on any
buffers that it can work on, and the codewords add up and can be masked as the sources can. -/
theorem encoding_is_linear {entry : EntryPoint} {workspace after : Workspace}
    {codeword : List UInt8}
    (run : entry.run ⟨mask, frozen, info⟩ frameSize workspace = .ok () after)
    (left : after.frame.symbols.take frameSize.toNat = codeword)
    (frozenLength : otherFrozen.length = frozen.length)
    (infoLength : otherInfo.length = info.length) :
    (entry.Admits workspace frameSize ∧ entry.Suits workspace) ∧
      ∃ other, Superposition mask frozen info otherFrozen otherInfo frameSize codeword other := by
  obtain ⟨admits, cover, suits, depth, shape, encoded⟩ := EntryPoint.of_run_eq_ok run
  obtain rfl := encoded.symm.trans left
  exact ⟨⟨admits, suits⟩, _, superposition_codeword cover shape frozenLength infoLength⟩

/-- Sixteen symbols in aligned buffers, with arbitrary bytes in both pairs of sources. -/
theorem encoding_is_linear_sixteen :
    let entry := EntryPoint.kernel .ssse3 .ssse3Aligned
    let mask : List UInt8 := List.replicate 3 255 ++ List.replicate 13 0
    let info : List UInt8 := [17, 34, 51, 68, 85, 102, 119, 136, 153, 170, 187, 204, 221]
    let workspace : Workspace := ⟨⟨32, List.replicate 20 9⟩, ⟨64, List.replicate 17 5⟩⟩
    ∃ after other, entry.run ⟨mask, [1, 200, 3], info⟩ 16 workspace = .ok () after ∧
      Superposition mask [1, 200, 3] info [80, 7, 255] info.reverse 16
        (after.frame.symbols.take 16) other := by
  intro entry mask info workspace
  have supported : entry.CanRun workspace 16 :=
    (by decide : Kernel.supportsOn .ssse3Aligned .ssse3 workspace 16 = true)
  have admits : entry.Admits workspace 16 := ⟨supported, by decide, by decide, by decide⟩
  have cover : (Sources.mk mask [1, 200, 3] info).Cover (16 : UInt32).toNat :=
    ⟨by decide, by decide, by decide⟩
  obtain ⟨after, run⟩ := entry.exists_run_eq_ok admits cover trivial
  obtain ⟨_, other, related⟩ :
      _ ∧ ∃ other, Superposition _ _ _ [80, 7, 255] info.reverse _ _ other :=
    encoding_is_linear run rfl rfl rfl
  exact ⟨after, other, run, related⟩

end Encoders

end PolarCoding
