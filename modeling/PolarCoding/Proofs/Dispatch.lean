import PolarCoding.Proofs.Kernel

/-!
# Dispatch

A call succeeds exactly if the frame size is a power of two and the buffers, the mask and the
sources are long enough for it, whichever kernel is chosen, although every kernel checks this in
its own order and reports faults of its own. A kernel that can run on its buffers reports nothing
but a mismatch of sizes; in particular it never meets an address that does not suit its access.
-/

namespace PolarCoding

/-- A fault that reports what is wrong with the frame size or too short for it, and is right. -/
inductive Mismatch (sources : Sources) (frameSize : UInt32) (workspace : Workspace) : Fault → Prop
    where
  | notPowerOfTwo (fails : ¬ IsPowerOfTwo frameSize) :
      Mismatch sources frameSize workspace .frameSizeNotPowerOfTwo
  | notVectorisable (fails : ¬ (IsPowerOfTwo frameSize ∧ laneCount ≤ frameSize.toNat)) :
      Mismatch sources frameSize workspace (.frameSizeNotVectorisable frameSize)
  | endsOutside (buffer : Buffer) (given : buffer = workspace.frame ∨ buffer = workspace.scratch)
      (short : buffer.symbols.length < frameSize.toNat) :
      Mismatch sources frameSize workspace
        (.sliceEndsOutside frameSize.toNat buffer.symbols.length)
  | buffersShort (fails : ¬ workspace.Holds frameSize.toNat) :
      Mismatch sources frameSize workspace (.buffersShorterThanFrame frameSize)
  | maskShort (short : sources.mask.length < frameSize.toNat) :
      Mismatch sources frameSize workspace .maskTooShort
  | frozenShort
      (short : sources.frozen.length < frozenCount (sources.mask.take frameSize.toNat)) :
      Mismatch sources frameSize workspace (.sourceExhausted sources.frozen.length)
  | infoShort (short : sources.info.length < infoCount (sources.mask.take frameSize.toNat)) :
      Mismatch sources frameSize workspace (.sourceExhausted sources.info.length)

variable {isa : Isa} {kernel : Kernel} {mode : Lanes.Mode} {sources : Sources}
  {frameSize : UInt32} {workspace after : Workspace} {fault : Fault}

theorem Mismatch.ne_kernelUnsupported (mismatch : Mismatch sources frameSize workspace fault)
    (kernel : Kernel) (size : UInt32) : fault ≠ .kernelUnsupported kernel size := by
  rintro rfl
  cases mismatch

theorem Mismatch.ne_misaligned (mismatch : Mismatch sources frameSize workspace fault)
    (remainder : Nat) : fault ≠ .misaligned remainder := by
  rintro rfl
  cases mismatch

/-! ## The faults of each encoder -/

theorem mismatch_of_interleave {target written : List UInt8}
    (size : target.length = frameSize.toNat)
    (run : sources.interleave target = .error fault written) :
    Mismatch sources frameSize workspace fault := by
  unfold Sources.interleave at run
  rw [size] at run
  by_cases short : sources.mask.length < frameSize.toNat
  · rw [if_pos short] at run
    cases run
    exact .maskShort short
  · rw [if_neg short] at run
    cases stop : (fill (sources.mask.take frameSize.toNat) sources.frozen
        sources.info).exhausted with
    | none => simp [stop] at run
    | some source =>
        obtain ⟨rfl, _⟩ : .sourceExhausted (sources.values source).length = fault ∧ _ := by
          simpa [stop] using run
        have short := short_of_exhausted_fill stop
        cases source with
        | frozen => exact .frozenShort short
        | info => exact .infoShort short

theorem mismatch_of_onScratchFront
    (run : Workspace.onScratchFront frameSize.toNat sources.interleave workspace =
      .error fault after) : Mismatch sources frameSize workspace fault := by
  unfold Workspace.onScratchFront at run
  by_cases short : workspace.scratch.symbols.length < frameSize.toNat
  · rw [if_pos short] at run
    cases run
    exact .endsOutside _ (.inr rfl) short
  · have size : (workspace.scratch.symbols.take frameSize.toNat).length = frameSize.toNat :=
      List.length_take_of_le (Nat.not_lt.mp short)
    rw [if_neg short] at run
    cases filled : sources.interleave (workspace.scratch.symbols.take frameSize.toNat) with
    | ok value front => simp [filled] at run
    | error reported front =>
        obtain ⟨rfl, _⟩ : reported = fault ∧ _ := by simpa [filled] using run
        exact mismatch_of_interleave size filled

theorem Scalar.mismatch_of_encode
    (run : Scalar.encode sources frameSize workspace = .error fault after) :
    Mismatch sources frameSize workspace fault := by
  have whole := run
  rw [encode] at run
  rcases Action.error_of_require_bind run with ⟨fails, rfl⟩ | ⟨⟨depth, shape⟩, run⟩
  · exact .notPowerOfTwo fails
  rw [Action.get_bind] at run
  rcases Action.error_of_require_bind run with ⟨fails, rfl⟩ | ⟨frame, run⟩
  · exact .endsOutside _ (.inl rfl) (Nat.not_le.mp fails)
  rcases Action.error_of_bind run with unfilled | ⟨_, _, filled, _⟩
  · exact mismatch_of_onScratchFront unfilled
  · -- Behind the filling nothing fails.
    obtain ⟨scratch, cover⟩ := Workspace.cover_of_onScratchFront filled
    rw [encode_eq shape ⟨frame, scratch⟩ cover] at whole
    cases whole

namespace Lanes

theorem mismatch_of_prepare (run : prepare sources frameSize workspace = .error fault after) :
    Mismatch sources frameSize workspace fault := by
  rw [prepare] at run
  rcases Action.error_of_require_bind run with ⟨fails, rfl⟩ | ⟨_, run⟩
  · exact .notVectorisable fails
  rw [Action.get_bind] at run
  rcases Action.error_of_require_bind run with ⟨fails, rfl⟩ | ⟨_, run⟩
  · exact .buffersShort fun holds => fails ⟨holds.frame, holds.scratch⟩
  · exact mismatch_of_onScratchFront run

theorem mismatch_of_encode (aligned : mode.access = .aligned → workspace.IsAligned)
    (run : encode mode sources frameSize workspace = .error fault after) :
    Mismatch sources frameSize workspace fault := by
  rcases Action.error_of_bind run with journalled | ⟨_, _, _, finished⟩
  · rcases Action.error_of_bind journalled with unprepared | ⟨_, _, prepared, _⟩
    · exact mismatch_of_prepare unprepared
    · -- Behind the preparation nothing fails.
      obtain ⟨⟨power, registers⟩, holds, cover⟩ := of_prepare_eq_ok prepared
      obtain ⟨extra, shape⟩ := exists_extra power registers
      rw [encodeJournalled_eq shape holds cover aligned] at journalled
      cases journalled
  · cases finished

end Lanes

/-! ## The faults of a kernel -/

namespace Kernel

/-- A kernel that cannot run on its buffers says so, and one that can reports a mismatch. -/
theorem fault_of_encodeOn (run : kernel.encodeOn isa sources frameSize workspace =
      .error fault after) :
    kernel.supportsOn isa workspace frameSize = false ∧
        fault = .kernelUnsupported kernel frameSize ∨
      kernel.supportsOn isa workspace frameSize = true ∧
        Mismatch sources frameSize workspace fault := by
  cases supported : kernel.supportsOn isa workspace frameSize with
  | false =>
      unfold encodeOn at run
      rw [Action.get_bind] at run
      rcases Action.error_of_require_bind run with ⟨_, unsupported⟩ | ⟨supports, _⟩
      · exact .inl ⟨rfl, unsupported⟩
      · rw [supported] at supports
        cases supports
  | true =>
      refine .inr ⟨rfl, ?_⟩
      rcases encodeOn_cases sources supported with scalar | ⟨mode, _, aligned, vector⟩
      · exact Scalar.mismatch_of_encode (scalar.symm.trans run)
      · exact Lanes.mismatch_of_encode aligned (vector.symm.trans run)

/-- A run that succeeds could run, met its preconditions and left the codeword in the frame. -/
theorem of_encodeOn_eq_ok
    (run : kernel.encodeOn isa sources frameSize workspace = .ok () after) :
    kernel.supportsOn isa workspace frameSize = true ∧ workspace.Holds frameSize.toNat ∧
      sources.Cover frameSize.toNat ∧ ∃ depth, frameSize.toNat = 2 ^ depth ∧
        after.frame.symbols.take frameSize.toNat = sources.codeword depth := by
  have whole := run
  unfold encodeOn at run
  rw [Action.get_bind] at run
  obtain ⟨supported, _⟩ := Action.ok_of_require_bind run
  obtain ⟨⟨depth, shape⟩, holds, cover⟩ :
      IsPowerOfTwo frameSize ∧ workspace.Holds frameSize.toNat ∧
        sources.Cover frameSize.toNat := by
    rcases encodeOn_cases sources supported with scalar | ⟨mode, _, _, vector⟩
    · exact Scalar.of_encode_eq_ok (scalar.symm.trans whole)
    · obtain ⟨⟨power, _⟩, holds, cover⟩ := Lanes.of_encode_eq_ok (vector.symm.trans whole)
      exact ⟨power, holds, cover⟩
  obtain ⟨left, _, closed⟩ := encodeOn_eq supported shape holds cover
  rw [closed] at whole
  cases whole
  exact ⟨supported, holds, cover, depth, shape,
    Workspace.take_frame_withFronts (cover.length_codeword shape)⟩

end Kernel

/-! ## The kernel that is chosen -/

/-- The chosen kernel runs, and it is the result if it succeeds. -/
theorem encodeOn_eq_ok_iff {chosen : Kernel} :
    encodeOn isa sources frameSize workspace = .ok chosen after ↔
      chosen = Kernel.selectOn isa workspace frameSize ∧
        chosen.encodeOn isa sources frameSize workspace = .ok () after := by
  unfold encodeOn
  rw [Action.get_bind]
  constructor
  · intro run
    obtain ⟨_, middle, first, finished⟩ := Action.ok_of_bind run
    cases finished
    exact ⟨rfl, first⟩
  · rintro ⟨rfl, run⟩
    rw [Action.bind_of_ok run]
    rfl

theorem fault_of_encodeOn (run : encodeOn isa sources frameSize workspace = .error fault after) :
    Mismatch sources frameSize workspace fault := by
  unfold encodeOn at run
  rw [Action.get_bind] at run
  rcases Action.error_of_bind run with failed | ⟨_, _, _, finished⟩
  · rcases Kernel.fault_of_encodeOn failed with ⟨unsupported, _⟩ | ⟨_, mismatch⟩
    · rw [Kernel.supportsOn_selectOn] at unsupported
      cases unsupported
    · exact mismatch
  · cases finished

/-- The kernel that is chosen for a call can run, and the call succeeds exactly if the frame size is
a power of two, both buffers and the mask are at least as long and the sources have a value for
each position. It then leaves the codeword of the scalar encoder. No call ends because the chosen
kernel cannot run, and no kernel ends a call because of an address. -/
theorem dispatch_is_exact (isa : Isa) (sources : Sources) (frameSize : UInt32)
    (workspace : Workspace) :
    (Kernel.selectOn isa workspace frameSize).supportsOn isa workspace frameSize = true ∧
      ((∃ kernel after, encodeOn isa sources frameSize workspace = .ok kernel after) ↔
        IsPowerOfTwo frameSize ∧ frameSize.toNat ≤ workspace.frame.symbols.length ∧
          frameSize.toNat ≤ workspace.scratch.symbols.length ∧
          frameSize.toNat ≤ sources.mask.length ∧
          frozenCount (sources.mask.take frameSize.toNat) ≤ sources.frozen.length ∧
          infoCount (sources.mask.take frameSize.toNat) ≤ sources.info.length) ∧
      (∀ kernel after, encodeOn isa sources frameSize workspace = .ok kernel after →
        ∃ scalar, Scalar.encode sources frameSize workspace = .ok () scalar ∧
          after.frame.symbols.take frameSize.toNat =
            scalar.frame.symbols.take frameSize.toNat) ∧
      (∀ kernel size after,
        encodeOn isa sources frameSize workspace ≠ .error (.kernelUnsupported kernel size) after) ∧
      ∀ (kernel : Kernel) (remainder : Nat) (after : Workspace),
        kernel.encodeOn isa sources frameSize workspace ≠ .error (.misaligned remainder) after := by
  have supported := Kernel.supportsOn_selectOn isa workspace frameSize
  refine ⟨supported, ⟨?_, ?_⟩, ?_, ?_, ?_⟩
  · rintro ⟨kernel, after, run⟩
    obtain ⟨_, ran⟩ := encodeOn_eq_ok_iff.mp run
    obtain ⟨_, holds, cover, depth, shape, _⟩ := Kernel.of_encodeOn_eq_ok ran
    exact ⟨⟨depth, shape⟩, holds.frame, holds.scratch, cover.mask, cover.frozen, cover.info⟩
  · rintro ⟨⟨depth, shape⟩, frame, scratch, mask, frozen, info⟩
    obtain ⟨_, _, ran⟩ := Kernel.encodeOn_eq supported shape ⟨frame, scratch⟩ ⟨mask, frozen, info⟩
    exact ⟨_, _, encodeOn_eq_ok_iff.mpr ⟨rfl, ran⟩⟩
  · intro kernel after run
    obtain ⟨_, ran⟩ := encodeOn_eq_ok_iff.mp run
    obtain ⟨_, holds, cover, depth, shape, codeword⟩ := Kernel.of_encodeOn_eq_ok ran
    refine ⟨_, Scalar.encode_eq shape holds cover, codeword.trans ?_⟩
    exact (Workspace.take_frame_withFronts (cover.length_codeword shape)).symm
  · intro kernel size after run
    exact (fault_of_encodeOn run).ne_kernelUnsupported kernel size rfl
  · intro kernel remainder after run
    rcases Kernel.fault_of_encodeOn run with ⟨_, unsupported⟩ | ⟨_, mismatch⟩
    · cases unsupported
    · exact mismatch.ne_misaligned remainder rfl

end PolarCoding
