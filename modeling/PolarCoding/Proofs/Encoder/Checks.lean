import PolarCoding.Encoder

/-!
# What an encoder accepts

Each check of the encoder accepts exactly what its name says, and a sequence of checks accepts
what all of them accept. An encoder can be built for the consistent layouts and for no others.
-/

namespace PolarCoding

/-- Two checks in a row. -/
@[simp] theorem checks_eq_ok_iff {ε : Type} {first second : Except ε Unit} :
    (first >>= fun _ => second) = .ok () ↔ first = .ok () ∧ second = .ok () := by
  cases first with
  | ok value => simp [bind, Except.bind]
  | error error => simp [bind, Except.bind]

/-- A check inside a call. -/
@[simp] theorem lift_eq_ok_iff {check : Except EncoderError Unit} :
    (liftM check : Except Failure Unit) = .ok () ↔ check = .ok () := by
  cases check with
  | ok value => exact ⟨fun _ => rfl, fun _ => rfl⟩
  | error error =>
      constructor
      · intro impossible
        cases impossible
      · intro impossible
        cases impossible

/-- A difference inside a call. -/
@[simp] theorem sub_bind_eq_ok_iff {a b : Nat} {continuation : Nat → Except Failure Unit} :
    ((liftM (Checked.sub a b) : Except Failure Nat) >>= continuation) = .ok () ↔
      b ≤ a ∧ continuation (a - b) = .ok () := by
  by_cases fits : b ≤ a
  · rw [Checked.sub_of_le fits]
    exact ⟨fun run => ⟨fits, run⟩, And.right⟩
  · rw [Checked.sub, if_neg fits]
    constructor
    · intro impossible
      cases impossible
    · intro run
      exact absurd run.1 fits

theorem firstWhere_eq_none_iff (test : UInt8 → Bool) (index : Nat) (bytes : List UInt8) :
    firstWhere test index bytes = none ↔ ∀ byte ∈ bytes, test byte = false := by
  induction bytes generalizing index with
  | nil => simp [firstWhere]
  | cons byte rest ih =>
      rw [firstWhere, List.forall_mem_cons]
      cases found : test byte with
      | true => simp
      | false => simpa using ih (index + 1)

@[simp] theorem checkLength_eq_ok_iff (what : String) (expected actual : Nat) :
    checkLength what expected actual = .ok () ↔ actual = expected := by
  unfold checkLength
  split <;> simp_all [eq_comm]

@[simp] theorem checkBits_eq_ok_iff (what : String) (bits : List UInt8) :
    checkBits what bits = .ok () ↔ ∀ bit ∈ bits, bit ≤ 1 := by
  have sound : (∀ bit ∈ bits, decide (1 < bit) = false) ↔ ∀ bit ∈ bits, bit ≤ 1 := by simp
  rw [← sound, ← firstWhere_eq_none_iff (1 < ·) 0, checkBits]
  cases firstWhere (1 < ·) 0 bits <;> simp

@[simp] theorem checkMask_eq_ok_iff (mask : List UInt8) :
    checkMask mask = .ok () ↔ ∀ flag ∈ mask, flag = 0 ∨ flag = 0xFF := by
  have sound : (∀ flag ∈ mask, decide (flag ≠ 0 ∧ flag ≠ 0xFF) = false) ↔
      ∀ flag ∈ mask, flag = 0 ∨ flag = 0xFF := by
    simp [Decidable.or_iff_not_imp_left]
  rw [← sound, ← firstWhere_eq_none_iff (fun flag => flag ≠ 0 ∧ flag ≠ 0xFF) 0, checkMask]
  cases firstWhere (fun flag => flag ≠ 0 ∧ flag ≠ 0xFF) 0 mask <;> simp

@[simp] theorem checkInfoCount_eq_ok_iff (expected actual : Nat) :
    checkInfoCount expected actual = .ok () ↔ actual = expected := by
  unfold checkInfoCount
  split <;> simp_all

structure FrameShape.Consistent (shape : FrameShape) (mask frozen : List UInt8) : Prop where
  power : IsPowerOfTwo shape.frameSize
  maskLength : mask.length = shape.frameSize.toNat
  maskBytes : ∀ flag ∈ mask, flag = 0 ∨ flag = 0xFF
  infoCount : infoCount mask = shape.infoBits.toNat
  frozenCount : frozen.length = frozenCount mask
  frozenBits : ∀ bit ∈ frozen, bit ≤ 1

structure FrameShape.Accepts (shape : FrameShape) (info : List UInt8) : Prop where
  length : info.length = shape.infoBits.toNat
  bits : ∀ bit ∈ info, bit ≤ 1

namespace Encoder

theorem checkLayout_eq_ok_iff (shape : FrameShape) (mask frozen : List UInt8) :
    checkLayout shape mask frozen = .ok () ↔ shape.Consistent mask frozen := by
  have total := frozenCount_add_infoCount mask
  simp only [checkLayout, checks_eq_ok_iff, lift_eq_ok_iff, sub_bind_eq_ok_iff,
    FrameShape.validate_eq_ok_iff, checkLength_eq_ok_iff, checkMask_eq_ok_iff,
    checkInfoCount_eq_ok_iff, checkBits_eq_ok_iff]
  constructor
  · rintro ⟨⟨power, _⟩, maskLength, maskBytes, info, _, frozen, bits⟩
    exact ⟨power, maskLength, maskBytes, info, by omega, bits⟩
  · rintro ⟨power, maskLength, maskBytes, info, frozen, bits⟩
    have fits : shape.infoBits ≤ shape.frameSize := UInt32.le_iff_toNat_le.mpr (by omega)
    exact ⟨⟨power, fits⟩, maskLength, maskBytes, info, by omega, by omega, bits⟩

theorem checkCall_eq_ok_iff (encoder : Encoder) (info frame : List UInt8) :
    encoder.checkCall info frame = .ok () ↔
      encoder.shape.Accepts info ∧ frame.length = encoder.shape.frameSize.toNat := by
  simp only [checkCall, checks_eq_ok_iff, checkLength_eq_ok_iff, checkBits_eq_ok_iff]
  constructor
  · rintro ⟨length, bits, frame⟩
    exact ⟨⟨length, bits⟩, frame⟩
  · rintro ⟨⟨length, bits⟩, frame⟩
    exact ⟨length, bits, frame⟩

/-- A consistent layout has stages to report. -/
theorem exists_stages {shape : FrameShape} (power : IsPowerOfTwo shape.frameSize) :
    ∃ stages, shape.stages = .ok stages :=
  ⟨singleBitIndex shape.frameSize, by rw [FrameShape.stages, exponent, require_of power]; rfl⟩

/-- An encoder is built for a consistent layout, with a zeroed scratch buffer, or not at all. -/
theorem build_eq_ok_iff (shape : FrameShape) (mask frozen : List UInt8) (scratchAddress : Nat)
    (encoder : Encoder) :
    (build shape mask frozen scratchAddress).value = .ok encoder ↔
      shape.Consistent mask frozen ∧
        encoder = ⟨shape, mask, frozen, .zeroed scratchAddress shape.frameSize.toNat⟩ := by
  rw [build]
  cases check : checkLayout shape mask frozen with
  | error error =>
      have refused : ¬ shape.Consistent mask frozen := by
        rw [← checkLayout_eq_ok_iff, check]
        simp
      simp [refused]
  | ok value =>
      have consistent := (checkLayout_eq_ok_iff shape mask frozen).mp check
      obtain ⟨stages, run⟩ := exists_stages consistent.power
      simp [run, consistent, eq_comm]

end Encoder

end PolarCoding
