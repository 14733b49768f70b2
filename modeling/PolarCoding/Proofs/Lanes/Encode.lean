import PolarCoding.Proofs.Lanes.Passes
import PolarCoding.Proofs.Scalar

/-!
# Vector encoders against the scalar encoder

A vector encoder succeeds on the same workspaces and sources as the scalar encoder, given a frame
of at least one register and addresses that suit its access, and it leaves the same codeword. What
it leaves in the scratch buffer is different: the frame as it was before the last four stages.
-/

namespace PolarCoding

def Sources.residue (sources : Sources) (depth : Nat) : List UInt8 :=
  applyStages ((stagesFrom depth 1).take (depth - 4)) (sources.frame (2 ^ depth))

namespace Lanes

variable {mode : Mode} {sources : Sources} {frameSize : UInt32} {extra : Nat}
  {workspace after : Workspace} {fault : Fault}

theorem ready_ofWorkspace {access : Access} {size : Nat} (holds : workspace.Holds size)
    (aligned : access = .aligned → workspace.IsAligned) :
    (Machine.ofWorkspace workspace).Ready access size := by
  refine ⟨holds.frame, holds.scratch, ?_, ?_⟩
  · cases access with
    | unaligned => exact Nat.mod_one _
    | aligned => exact (aligned rfl).1
  · cases access with
    | unaligned => exact Nat.mod_one _
    | aligned => exact (aligned rfl).2

/-- A run of the machine that only leaves other symbols in the buffers. -/
theorem onMachine_eq {action : Action Machine Unit} {frame scratch : List UInt8}
    {events : List Event}
    (run : action (Machine.ofWorkspace workspace) =
      .ok () (((Machine.ofWorkspace workspace).refilled scratch).wrote frame events)) :
    onMachine action workspace =
      .ok events { workspace with frame.symbols := frame, scratch.symbols := scratch } := by
  have journal : (events.reverse ++ []).reverse = events := by
    rw [List.append_nil, List.reverse_reverse]
  rw [onMachine, run]
  exact congrArg (EStateM.Result.ok · _) journal

theorem prepare_eq (shape : frameSize.toNat = 2 ^ (extra + 4))
    (holds : workspace.Holds frameSize.toNat) (cover : sources.Cover frameSize.toNat) :
    prepare sources frameSize workspace =
      .ok () (workspace.filledWith (sources.frame frameSize.toNat)) := by
  have registers : laneCount ≤ frameSize.toNat := shape ▸ (whole_registers extra).2
  rw [prepare, Action.require_bind ⟨⟨extra + 4, shape⟩, registers⟩, Action.get_bind,
    Action.require_bind ⟨holds.frame, holds.scratch⟩,
    Workspace.onScratchFront_interleave cover holds.scratch]

/-- The frame is transformed and the residue is as long as the frame. -/
theorem passes_of_frame (shape : frameSize.toNat = 2 ^ (extra + 4))
    (cover : sources.Cover frameSize.toNat) :
    applyStages (stagesFrom (extra + 4) 1) (sources.frame frameSize.toNat) =
        sources.codeword (extra + 4) ∧
      (sources.residue (extra + 4)).length = frameSize.toNat := by
  have filled := cover.length_frame
  have spans := spans_of_mem_stages shape
  rw [shape] at filled ⊢
  constructor
  · exact applyStages_frame shape filled
  · exact length_applyStages (fun stage member => spans stage (List.mem_of_mem_take member)) filled

/-- A run that meets its preconditions leaves the codeword in the frame and the residue in the
scratch buffer, and its journal depends on the frame size only. -/
theorem encodeJournalled_eq (shape : frameSize.toNat = 2 ^ (extra + 4))
    (holds : workspace.Holds frameSize.toNat) (cover : sources.Cover frameSize.toNat)
    (aligned : mode.access = .aligned → workspace.IsAligned) :
    encodeJournalled mode sources frameSize workspace =
      .ok (passesEvents extra 1)
        (workspace.withFronts (sources.codeword (extra + 4)) (sources.residue (extra + 4))) := by
  have filled := cover.length_frame
  obtain ⟨transformed, residue⟩ := passes_of_frame shape cover
  have ready : (Machine.ofWorkspace (workspace.filledWith (sources.frame frameSize.toNat))).Ready
      mode.access frameSize.toNat := ready_ofWorkspace (holds.filledWith filled) aligned
  have front : (Machine.ofWorkspace
      (workspace.filledWith (sources.frame frameSize.toNat))).scratchSymbols.take
        frameSize.toNat = sources.frame frameSize.toNat :=
    Workspace.take_scratch_filledWith filled
  have run := transform_eq shape ready
  rw [front, transformed, shape] at run
  rw [encodeJournalled, Action.bind_of_ok (prepare_eq shape holds cover),
    ← Workspace.withFronts_filledWith (filled.trans residue.symm), shape]
  exact onMachine_eq run

theorem encode_eq (shape : frameSize.toNat = 2 ^ (extra + 4))
    (holds : workspace.Holds frameSize.toNat) (cover : sources.Cover frameSize.toNat)
    (aligned : mode.access = .aligned → workspace.IsAligned) :
    encode mode sources frameSize workspace =
      .ok () (workspace.withFronts (sources.codeword (extra + 4))
        (sources.residue (extra + 4))) := by
  rw [encode, Action.bind_of_ok (encodeJournalled_eq shape holds cover aligned)]
  rfl

/-- A preparation that succeeds met its preconditions. -/
theorem of_prepare_eq_ok {filled : Workspace}
    (prepared : prepare sources frameSize workspace = .ok () filled) :
    (IsPowerOfTwo frameSize ∧ laneCount ≤ frameSize.toNat) ∧
      workspace.Holds frameSize.toNat ∧ sources.Cover frameSize.toNat := by
  obtain ⟨shape, prepared⟩ := Action.ok_of_require_bind prepared
  rw [Action.get_bind] at prepared
  obtain ⟨⟨frame, _⟩, fill⟩ := Action.ok_of_require_bind prepared
  obtain ⟨scratch, cover⟩ := Workspace.cover_of_onScratchFront fill
  exact ⟨shape, ⟨frame, scratch⟩, cover⟩

/-- A run that succeeds met its preconditions. -/
theorem of_encode_eq_ok
    (run : encode mode sources frameSize workspace = .ok () after) :
    (IsPowerOfTwo frameSize ∧ laneCount ≤ frameSize.toNat) ∧
      workspace.Holds frameSize.toNat ∧ sources.Cover frameSize.toNat := by
  obtain ⟨_, _, journalled, _⟩ := Action.ok_of_bind run
  obtain ⟨_, _, prepared, _⟩ := Action.ok_of_bind journalled
  exact of_prepare_eq_ok prepared

/-- A vector encoder goes no further than a preparation that fails. -/
theorem encode_of_prepare_eq_error
    (failed : prepare sources frameSize workspace = .error fault after) :
    encode mode sources frameSize workspace = .error fault after :=
  Action.bind_of_error (Action.bind_of_error failed _) _

/-- One of two addresses that do not both suit the access is reported. -/
theorem requireAlignment_of_not {machine : Machine}
    (fails : ¬ (mode.access = .aligned → machine.toWorkspace.IsAligned)) :
    ∃ remainder, requireAlignment mode.access machine = .error (.misaligned remainder) machine := by
  obtain ⟨aligned, misplaced⟩ := Classical.not_imp.mp fails
  rw [requireAlignment, Action.get_bind, aligned]
  by_cases suits : machine.frame.address % laneCount = 0
  · have passed : Access.aligned.check machine.frame.address = .ok () := require_of suits
    have stopped : Access.aligned.check machine.scratch.address = .error (.misaligned _) :=
      require_of_not fun scratch => misplaced ⟨suits, scratch⟩
    rw [Action.lift_bind_of_ok passed, stopped, Action.lift_error]
    exact ⟨_, rfl⟩
  · have stopped : Access.aligned.check machine.frame.address = .error (.misaligned _) :=
      require_of_not suits
    rw [Action.lift_bind_of_error stopped]
    exact ⟨_, rfl⟩

/-- An aligned access to other addresses is noticed when the frame is filled. -/
theorem encode_of_misaligned (shape : frameSize.toNat = 2 ^ (extra + 4))
    (holds : workspace.Holds frameSize.toNat) (cover : sources.Cover frameSize.toNat)
    (fails : ¬ (mode.access = .aligned → workspace.IsAligned)) :
    ∃ remainder, encode mode sources frameSize workspace =
      .error (.misaligned remainder) (workspace.filledWith (sources.frame frameSize.toNat)) := by
  let machine := Machine.ofWorkspace (workspace.filledWith (sources.frame frameSize.toNat))
  have registers : laneCount ≤ frameSize.toNat := shape ▸ (whole_registers extra).2
  have ready : machine.Ready .unaligned frameSize.toNat :=
    ready_ofWorkspace (holds.filledWith cover.length_frame) (fun impossible => by cases impossible)
  have sizes : Machine.requireSizes frameSize.toNat frameSize.toNat (.laneContract .frameFits)
      (machine.wrote machine.frameSymbols []) = _ :=
    Machine.requireSizes_eq ready rfl (Nat.le_refl _) (Nat.le_refl _)
  rw [Machine.wrote_nil] at sizes
  obtain ⟨remainder, stopped⟩ : ∃ remainder,
      requireAlignment mode.access machine = .error (.misaligned remainder) machine :=
    requireAlignment_of_not fails
  have failed : transform mode frameSize machine = .error (.misaligned remainder) machine := by
    rw [transform, Action.require_bind ⟨⟨extra + 4, shape⟩, registers⟩, Action.bind_of_ok sizes,
      Action.bind_of_error stopped]
  refine ⟨remainder, Action.bind_of_error ?_ _⟩
  rw [encodeJournalled, Action.bind_of_ok (prepare_eq shape holds cover), onMachine, failed]
  rfl

/-- A power of two that fills a register is sixteen times another. -/
theorem exists_extra (power : IsPowerOfTwo frameSize) (registers : laneCount ≤ frameSize.toNat) :
    ∃ extra, frameSize.toNat = 2 ^ (extra + 4) := by
  obtain ⟨depth, shape⟩ := power
  have least : 2 ^ 4 ≤ 2 ^ depth := shape ▸ registers
  obtain ⟨extra, rfl⟩ := Nat.exists_eq_add_of_le ((Nat.pow_le_pow_iff_right (by decide)).mp least)
  exact ⟨extra, by rw [shape, Nat.add_comm]⟩

/-- A vector encoder succeeds exactly where the scalar encoder does, and then both leave the same
codeword at the front of the frame. -/
theorem encode_agrees_with_scalar (mode : Mode) (sources : Sources) (frameSize : UInt32)
    (workspace : Workspace) (power : IsPowerOfTwo frameSize)
    (registers : laneCount ≤ frameSize.toNat)
    (aligned : mode.access = .aligned → workspace.IsAligned) :
    ((∃ after, encode mode sources frameSize workspace = .ok () after) ↔
        ∃ after, Scalar.encode sources frameSize workspace = .ok () after) ∧
      ∀ vector scalar, encode mode sources frameSize workspace = .ok () vector →
        Scalar.encode sources frameSize workspace = .ok () scalar →
          vector.frame.symbols.take frameSize.toNat =
            scalar.frame.symbols.take frameSize.toNat := by
  obtain ⟨extra, shape⟩ := exists_extra power registers
  refine ⟨⟨?_, ?_⟩, ?_⟩
  · rintro ⟨after, run⟩
    obtain ⟨_, holds, cover⟩ := of_encode_eq_ok run
    exact ⟨_, Scalar.encode_eq shape holds cover⟩
  · rintro ⟨after, run⟩
    obtain ⟨_, holds, cover⟩ := Scalar.of_encode_eq_ok run
    exact ⟨_, encode_eq shape holds cover aligned⟩
  · intro vector scalar vectorRun scalarRun
    obtain ⟨_, holds, cover⟩ := of_encode_eq_ok vectorRun
    rw [encode_eq shape holds cover aligned] at vectorRun
    rw [Scalar.encode_eq shape holds cover] at scalarRun
    cases vectorRun
    cases scalarRun
    rfl

/-- Sixteen arbitrary bytes in buffers that are longer than the frame, with aligned access. -/
theorem encode_agrees_with_scalar_sixteen :
    let sources : Sources := ⟨List.replicate 3 7 ++ List.replicate 14 0, [1, 200, 3],
      [17, 34, 51, 68, 85, 102, 119, 136, 153, 170, 187, 204, 221, 238]⟩
    let workspace : Workspace := ⟨⟨32, List.replicate 20 9⟩, ⟨64, List.replicate 17 5⟩⟩
    ∃ vector scalar, encode ⟨.ssse3, .aligned⟩ sources 16 workspace = .ok () vector ∧
      Scalar.encode sources 16 workspace = .ok () scalar ∧
        vector.frame.symbols.take 16 = scalar.frame.symbols.take 16 := by
  intro sources workspace
  obtain ⟨succeeds, same⟩ := encode_agrees_with_scalar ⟨.ssse3, .aligned⟩ sources 16 workspace
    ⟨4, rfl⟩ (by decide) (by decide)
  have shape : (16 : UInt32).toNat = 2 ^ 4 := rfl
  have holds : workspace.Holds (16 : UInt32).toNat := ⟨by decide, by decide⟩
  have cover : sources.Cover (16 : UInt32).toNat := ⟨by decide, by decide, by decide⟩
  have scalarRun := Scalar.encode_eq shape holds cover
  obtain ⟨vector, vectorRun⟩ := succeeds.mpr ⟨_, scalarRun⟩
  exact ⟨vector, _, vectorRun, scalarRun, same vector _ vectorRun scalarRun⟩

end Lanes

end PolarCoding
