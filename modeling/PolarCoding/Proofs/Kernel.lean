import PolarCoding.Kernel.Encode
import PolarCoding.Proofs.Lanes.Encode

/-!
# Every kernel computes the codeword

The kernel that is chosen for a pair of buffers can run on them, and every kernel that can run
leaves the codeword in the frame. Kernels differ in what they leave in the scratch buffer, but
never beyond the frame size.
-/

namespace PolarCoding.Kernel

variable {isa : Isa} {kernel : Kernel} {workspace : Workspace} {frameSize : UInt32}
  {sources : Sources} {depth : Nat}

/-- The chosen kernel can run on the buffers it was chosen for, whatever the instruction set. -/
theorem supportsOn_selectOn (isa : Isa) (workspace : Workspace) (frameSize : UInt32) :
    (selectOn isa workspace frameSize).supportsOn isa workspace frameSize = true := by
  unfold selectOn
  by_cases narrow : frameSize.toNat < laneCount
  · rw [if_pos narrow]
    rfl
  · have registers : laneCount ≤ frameSize.toNat := Nat.not_lt.mp narrow
    rw [if_neg narrow]
    cases isa with
    | ssse3 =>
        by_cases aligned : workspace.IsAligned
        · simp [supportsOn, aligned, registers]
        · simp [supportsOn, aligned, registers]
    | neon => simp [supportsOn, registers]
    | portable => simp [supportsOn, registers]

/-- A supported kernel is the scalar encoder, or a vector encoder on frames that fill a register
and buffers that suit its access. -/
theorem encodeOn_cases (sources : Sources)
    (supported : kernel.supportsOn isa workspace frameSize = true) :
    kernel.encodeOn isa sources frameSize workspace = Scalar.encode sources frameSize workspace ∨
      ∃ mode : Lanes.Mode, laneCount ≤ frameSize.toNat ∧
        (mode.access = .aligned → workspace.IsAligned) ∧
        kernel.encodeOn isa sources frameSize workspace =
          Lanes.encode mode sources frameSize workspace := by
  have anywhere (unit : Lanes.VectorUnit) :
      (⟨unit, .unaligned⟩ : Lanes.Mode).access = .aligned → workspace.IsAligned := by
    intro impossible
    cases impossible
  unfold encodeOn
  rw [Action.get_bind, Action.require_bind supported]
  cases kernel with
  | generic => exact .inl rfl
  | portable =>
      have registers : laneCount ≤ frameSize.toNat := by simpa [supportsOn] using supported
      exact .inr ⟨⟨.portable, .unaligned⟩, registers, anywhere _, rfl⟩
  | portableAligned =>
      obtain ⟨registers, aligned⟩ : laneCount ≤ frameSize.toNat ∧ workspace.IsAligned := by
        simpa [supportsOn] using supported
      exact .inr ⟨⟨.portable, .aligned⟩, registers, fun _ => aligned, rfl⟩
  | ssse3 =>
      obtain ⟨registers, _⟩ : laneCount ≤ frameSize.toNat ∧ isa = .ssse3 := by
        simpa [supportsOn] using supported
      exact .inr ⟨⟨.ssse3, .unaligned⟩, registers, anywhere _, rfl⟩
  | ssse3Aligned =>
      obtain ⟨⟨registers, aligned⟩, _⟩ :
          (laneCount ≤ frameSize.toNat ∧ workspace.IsAligned) ∧ isa = .ssse3 := by
        simpa [supportsOn] using supported
      exact .inr ⟨⟨.ssse3, .aligned⟩, registers, fun _ => aligned, rfl⟩
  | neon =>
      obtain ⟨registers, _⟩ : laneCount ≤ frameSize.toNat ∧ isa = .neon := by
        simpa [supportsOn] using supported
      exact .inr ⟨⟨.neon, .unaligned⟩, registers, anywhere _, rfl⟩

/-- A supported kernel leaves the codeword in the frame and one frame of other symbols in the
scratch buffer. -/
theorem encodeOn_eq (supported : kernel.supportsOn isa workspace frameSize = true)
    (shape : frameSize.toNat = 2 ^ depth) (holds : workspace.Holds frameSize.toNat)
    (cover : sources.Cover frameSize.toNat) :
    ∃ left : List UInt8, left.length = frameSize.toNat ∧
      kernel.encodeOn isa sources frameSize workspace =
        .ok () (workspace.withFronts (sources.codeword depth) left) := by
  rcases encodeOn_cases sources supported with run | ⟨mode, registers, aligned, run⟩
  · exact ⟨_, cover.length_codeword shape, run.trans (Scalar.encode_eq shape holds cover)⟩
  · obtain ⟨extra, deep⟩ := Lanes.exists_extra ⟨depth, shape⟩ registers
    obtain rfl : depth = extra + 4 :=
      Nat.pow_right_injective (Nat.le_refl 2) (shape.symm.trans deep)
    exact ⟨_, (Lanes.passes_of_frame shape cover).2,
      run.trans (Lanes.encode_eq shape holds cover aligned)⟩

end PolarCoding.Kernel
