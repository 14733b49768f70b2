import PolarCoding.Proofs.Dispatch

/-!
# Encoding twice

A frame without frozen positions is the information itself, so a kernel turns a word of arbitrary
bytes into its transform. Any kernel turns that back into the word, also another one on other
buffers, and so every word is the codeword of exactly one word.
-/

namespace PolarCoding.Kernel

/-- Given a word as information for a frame without frozen positions, the kernel leaves the codeword
in the frame. -/
def Transforms (kernel : Kernel) (isa : Isa) (workspace : Workspace) (frameSize : UInt32)
    (word codeword : List UInt8) : Prop :=
  ∃ after, kernel.encodeOn isa ⟨List.replicate frameSize.toNat 0, [], word⟩ frameSize workspace =
      .ok () after ∧ after.frame.symbols.take frameSize.toNat = codeword

variable {isa otherIsa : Isa} {kernel other : Kernel} {workspace otherWorkspace : Workspace}
  {frameSize : UInt32} {word codeword : List UInt8} {depth : Nat}

theorem transforms_polarTransform (supported : kernel.supportsOn isa workspace frameSize = true)
    (shape : frameSize.toNat = 2 ^ depth) (holds : workspace.Holds frameSize.toNat)
    (length : word.length = frameSize.toNat) :
    kernel.Transforms isa workspace frameSize word (polarTransform depth word) := by
  have cover := Sources.cover_information length
  obtain ⟨left, _, run⟩ := encodeOn_eq supported shape holds cover
  refine ⟨_, run, ?_⟩
  rw [Workspace.take_frame_withFronts (cover.length_codeword shape),
    Sources.codeword_information length shape]

theorem Transforms.eq_polarTransform
    (transforms : kernel.Transforms isa workspace frameSize word codeword)
    (shape : frameSize.toNat = 2 ^ depth) (length : word.length = frameSize.toNat) :
    codeword = polarTransform depth word := by
  obtain ⟨after, run, rfl⟩ := transforms
  obtain ⟨_, _, _, found, same, left⟩ := of_encodeOn_eq_ok run
  obtain rfl : found = depth := Nat.pow_right_injective (Nat.le_refl 2) (same.symm.trans shape)
  rw [left, Sources.codeword_information length shape]

/-- Whatever one kernel makes of a word of arbitrary bytes, every kernel makes the word of it, on
any buffers that it can run on. Every word is therefore made of exactly one word. -/
theorem kernels_undo_each_other (power : IsPowerOfTwo frameSize)
    (supported : kernel.supportsOn isa workspace frameSize = true)
    (holds : workspace.Holds frameSize.toNat)
    (otherSupported : other.supportsOn otherIsa otherWorkspace frameSize = true)
    (otherHolds : otherWorkspace.Holds frameSize.toNat) :
    (∀ word : List UInt8, word.length = frameSize.toNat →
      (∃ codeword, codeword.length = frameSize.toNat ∧
        kernel.Transforms isa workspace frameSize word codeword) ∧
      ∀ codeword, kernel.Transforms isa workspace frameSize word codeword →
        other.Transforms otherIsa otherWorkspace frameSize codeword word) ∧
      ∀ codeword : List UInt8, codeword.length = frameSize.toNat →
        ∃! word : List UInt8, word.length = frameSize.toNat ∧
          kernel.Transforms isa workspace frameSize word codeword := by
  obtain ⟨depth, shape⟩ := power
  have transformed {word : List UInt8} (length : word.length = frameSize.toNat) :
      (polarTransform depth word).length = frameSize.toNat := by
    rw [length_polarTransform (length.trans shape), shape]
  have twice {word : List UInt8} (length : word.length = frameSize.toNat) :
      polarTransform depth (polarTransform depth word) = word :=
    polarTransform_polarTransform (length.trans shape)
  refine ⟨fun word length => ⟨?_, ?_⟩, ?_⟩
  · exact ⟨_, transformed length, transforms_polarTransform supported shape holds length⟩
  · intro codeword transforms
    obtain rfl := transforms.eq_polarTransform shape length
    have again :=
      transforms_polarTransform otherSupported shape otherHolds (transformed length)
    rwa [twice length] at again
  · intro codeword length
    have back := transforms_polarTransform supported shape holds (transformed length)
    rw [twice length] at back
    refine ⟨polarTransform depth codeword, ⟨transformed length, back⟩, ?_⟩
    rintro word ⟨wordLength, transforms⟩
    rw [transforms.eq_polarTransform shape wordLength, twice wordLength]

/-- One frame of arbitrary bytes: there on aligned buffers, back on other buffers of another
machine. -/
theorem kernels_undo_each_other_sixteen :
    let word : List UInt8 :=
      [0, 1, 200, 3, 4, 50, 60, 7, 8, 255, 10, 110, 12, 13, 14, 128]
    let workspace : Workspace := ⟨⟨32, List.replicate 20 9⟩, ⟨64, List.replicate 17 5⟩⟩
    let otherWorkspace : Workspace := ⟨⟨3, List.replicate 16 0⟩, ⟨7, List.replicate 18 1⟩⟩
    ∃ codeword, ssse3Aligned.Transforms .ssse3 workspace 16 word codeword ∧
      neon.Transforms .neon otherWorkspace 16 codeword word := by
  intro word workspace otherWorkspace
  have holds : workspace.Holds (16 : UInt32).toNat := ⟨by decide, by decide⟩
  have otherHolds : otherWorkspace.Holds (16 : UInt32).toNat := ⟨by decide, by decide⟩
  obtain ⟨there, _⟩ := kernels_undo_each_other (⟨4, rfl⟩ : IsPowerOfTwo 16)
    (by decide : ssse3Aligned.supportsOn .ssse3 workspace 16 = true) holds
    (by decide : neon.supportsOn .neon otherWorkspace 16 = true) otherHolds
  obtain ⟨⟨codeword, _, transforms⟩, back⟩ := there word rfl
  exact ⟨codeword, transforms, back codeword transforms⟩

end PolarCoding.Kernel
