import PolarCoding.Proofs.EntryPoint
import PolarCoding.Proofs.Lanes.Journal

/-!
# What an encoder leaves in the scratch buffer

The scalar encoder copies every stage back, so the scratch buffer ends with the codeword. A vector
encoder copies back the stages with whole registers only: its scratch buffer ends with the frame as
the scalar encoder has it when four stages are left, and these four lead from there to the codeword.
-/

namespace PolarCoding

/-! ## Stages in two parts -/

theorem applyStages_append (first second : List Stage) (symbols : List UInt8) :
    applyStages (first ++ second) symbols = applyStages second (applyStages first symbols) := by
  induction first generalizing symbols with
  | nil => rfl
  | cons stage later ih => rw [List.cons_append, applyStages, applyStages, ih]

@[simp] theorem length_wideLevels (extra branches : Nat) :
    (Lanes.wideLevels extra branches).length = extra := by
  induction extra generalizing branches with
  | zero => rfl
  | succ extra ih => rw [Lanes.wideLevels, List.length_cons, ih]

/-- Half a branch is shorter than the branches that the stages start from. -/
theorem halfSpan_lt_of_mem_stagesFrom {depth branches : Nat}
    (fits : branches * 2 ^ depth < sizeLimit) (some_branch : 0 < branches) :
    ∀ stage ∈ stagesFrom depth branches, stage.halfSpan.toNat < 2 ^ depth := by
  induction depth generalizing branches with
  | zero => simp [stagesFrom]
  | succ depth ih =>
      have half := (words_of_level fits some_branch).1
      have shorter : 2 ^ depth < 2 ^ (depth + 1) := Nat.pow_lt_pow_succ (by decide)
      have later := ih (by rwa [branches_succ]) (Nat.mul_pos Nat.two_pos some_branch)
      rw [stagesFrom]
      refine List.forall_mem_cons.mpr ⟨half ▸ shorter, ?_⟩
      intro stage member
      exact Nat.lt_trans (later stage member) shorter

/-- The stages of a frame up to the last that works on whole registers. -/
def leadingStages (depth : Nat) : List Stage := (stagesFrom depth 1).take (depth - 4)

def finalStages (depth : Nat) : List Stage := (stagesFrom depth 1).drop (depth - 4)

theorem leadingStages_append_finalStages (depth : Nat) :
    leadingStages depth ++ finalStages depth = stagesFrom depth 1 :=
  List.take_append_drop _ _

/-- A frame of at least one register is split behind the wide stages. -/
theorem leadingStages_eq (extra : Nat) :
    leadingStages (extra + 4) = Lanes.wideLevels extra 1 ∧
      finalStages (extra + 4) = stagesFrom 4 (2 ^ extra) := by
  have wide := length_wideLevels extra 1
  rw [leadingStages, finalStages, Nat.add_sub_cancel, Lanes.stagesFrom_eq_append, Nat.one_mul]
  exact ⟨List.take_left' wide, List.drop_left' wide⟩

/-- The first part of the stages of a frame is made of the stages with halves of at least one
register, and there are four others if the frame fills a register. -/
theorem stages_split {frameSize : UInt32} {depth : Nat} (shape : frameSize.toNat = 2 ^ depth) :
    (leadingStages depth).length = depth - 4 ∧
      (∀ stage ∈ leadingStages depth, laneCount ≤ stage.halfSpan.toNat) ∧
      (∀ stage ∈ finalStages depth, stage.halfSpan.toNat < laneCount) ∧
      (4 ≤ depth → (finalStages depth).length = 4) := by
  have fits := frame_fits shape
  by_cases registers : 4 ≤ depth
  · obtain ⟨extra, rfl⟩ := Nat.exists_eq_add_of_le' registers
    obtain ⟨leading, final⟩ := leadingStages_eq extra
    rw [leading, final, length_wideLevels, Nat.add_sub_cancel]
    refine ⟨rfl, ?_, ?_, fun _ => rfl⟩
    · intro stage member
      exact (Lanes.whole_of_mem_wideLevels fits Nat.one_pos stage member).2
    · apply halfSpan_lt_of_mem_stagesFrom _ (Nat.two_pow_pos extra)
      rwa [← Nat.pow_add, ← Nat.one_mul (2 ^ _)]
  · have none_leading : depth - 4 = 0 := by omega
    have shorter : 2 ^ depth < 2 ^ 4 := Nat.pow_lt_pow_right (by decide) (Nat.not_le.mp registers)
    rw [leadingStages, finalStages, none_leading, List.take_zero, List.drop_zero]
    refine ⟨rfl, ?_, ?_, fun enough => absurd enough registers⟩
    · intro stage member
      cases member
    · intro stage member
      exact Nat.lt_trans (halfSpan_lt_of_mem_stagesFrom fits Nat.one_pos stage member) shorter

/-! ## The scalar encoder, stopped early -/

namespace Scalar

def encodeThrough (sources : Sources) (size : Nat) (stages : List Stage) :
    Action Workspace Unit := do
  Workspace.onScratchFront size sources.interleave
  stagePasses size stages

variable {size : Nat} {stages : List Stage} {workspace : Workspace} {sources : Sources}
  {frameSize : UInt32} {depth extra : Nat}

/-- With all stages of a frame of several symbols, this is what the encoder does once it has checked
its arguments. -/
theorem encode_eq_encodeThrough (shape : frameSize.toNat = 2 ^ (depth + 1))
    (fit : frameSize.toNat ≤ workspace.frame.symbols.length) :
    encode sources frameSize workspace =
      encodeThrough sources frameSize.toNat (stagesFrom (depth + 1) 1) workspace := by
  have several : frameSize.toNat ≠ 1 := by
    rw [shape, Nat.pow_succ]
    omega
  have chain : transform frameSize = stagePasses frameSize.toNat (stagesFrom (depth + 1) 1) := by
    rw [transform, stagesOf_of_two_pow shape]
    rfl
  rw [encode, Action.require_bind ⟨depth + 1, shape⟩, Action.get_bind, Action.require_bind fit,
    if_neg several, chain]
  rfl

/-- Some stages leave their result in the scratch buffer, and in the frame if there are any. -/
theorem exists_stagePasses {symbols : List UInt8} (spans : ∀ stage ∈ stages, stage.Spans size)
    (positive : 0 < size) (small : size < sizeLimit) (holds : workspace.Holds size)
    (front : workspace.scratch.symbols.take size = symbols) :
    ∃ after, stagePasses size stages workspace = .ok () after ∧
      after.scratch.symbols.take size = applyStages stages symbols ∧
      (stages ≠ [] → after.frame.symbols.take size = applyStages stages symbols) := by
  cases stages with
  | nil => exact ⟨workspace, rfl, front, fun some_stage => absurd rfl some_stage⟩
  | cons stage later =>
      have filled : symbols.length = size := by rw [← front, List.length_take_of_le holds.scratch]
      have length := length_applyStages spans filled
      refine ⟨_, stagePasses_eq spans positive small holds front, ?_, fun _ => ?_⟩
      · exact Workspace.take_scratch_withFronts length
      · exact Workspace.take_frame_withFronts length

/-- Stopped before the last stages, the encoder has the residue in its scratch buffer, whatever
stood in the buffers before. -/
theorem encodeThrough_leadingStages (shape : frameSize.toNat = 2 ^ depth)
    (cover : sources.Cover frameSize.toNat) (holds : workspace.Holds frameSize.toNat) :
    ∃ passed,
      encodeThrough sources frameSize.toNat (leadingStages depth) workspace = .ok () passed ∧
        passed.scratch.symbols.take frameSize.toNat = sources.residue depth := by
  have small : frameSize.toNat < sizeLimit := Nat.lt_trans frameSize.toNat_lt (by decide)
  have positive : 0 < frameSize.toNat := shape ▸ Nat.two_pow_pos depth
  have filled := cover.length_frame
  have spans : ∀ stage ∈ leadingStages depth, stage.Spans frameSize.toNat := by
    intro stage member
    rw [shape]
    exact spans_of_mem_stages shape stage (List.mem_of_mem_take member)
  obtain ⟨passed, run, scratch, _⟩ := exists_stagePasses spans positive small
    (holds.filledWith filled) (Workspace.take_scratch_filledWith filled)
  refine ⟨passed, ?_, ?_⟩
  · rw [encodeThrough, Action.bind_of_ok (Workspace.onScratchFront_interleave cover holds.scratch),
      run]
  · rw [scratch, shape]
    rfl

/-- From the residue, the last stages lead to the codeword in any frame that is long enough. -/
theorem finalStages_residue (shape : frameSize.toNat = 2 ^ (extra + 4))
    (cover : sources.Cover frameSize.toNat) (holds : workspace.Holds frameSize.toNat)
    (front : workspace.scratch.symbols.take frameSize.toNat = sources.residue (extra + 4)) :
    ∃ finished,
      stagePasses frameSize.toNat (finalStages (extra + 4)) workspace = .ok () finished ∧
        finished.frame.symbols.take frameSize.toNat = sources.codeword (extra + 4) := by
  have small : frameSize.toNat < sizeLimit := Nat.lt_trans frameSize.toNat_lt (by decide)
  have positive : 0 < frameSize.toNat := shape ▸ Nat.two_pow_pos (extra + 4)
  have spans : ∀ stage ∈ finalStages (extra + 4), stage.Spans frameSize.toNat := by
    intro stage member
    rw [shape]
    exact spans_of_mem_stages shape stage (List.mem_of_mem_drop member)
  have some_stage : finalStages (extra + 4) ≠ [] := by
    rw [(leadingStages_eq extra).2]
    exact List.cons_ne_nil _ _
  obtain ⟨finished, run, _, frame⟩ := exists_stagePasses spans positive small holds front
  refine ⟨finished, run, ?_⟩
  calc finished.frame.symbols.take frameSize.toNat
    _ = applyStages (finalStages (extra + 4)) (sources.residue (extra + 4)) := frame some_stage
    _ = applyStages (stagesFrom (extra + 4) 1) (sources.frame (2 ^ (extra + 4))) := by
        rw [← leadingStages_append_finalStages, applyStages_append]
        rfl
    _ = sources.codeword (extra + 4) := by
        rw [← shape, (Lanes.passes_of_frame shape cover).1]

end Scalar

/-! ## Scalar and vector entry points -/

section EntryPoints

variable {isa : Isa} {kernel : Kernel} {mode : Lanes.Mode} {entry : EntryPoint}
  {sources : Sources} {frameSize : UInt32} {workspace after : Workspace}

theorem Kernel.encodeOn_generic (isa : Isa) (sources : Sources) (frameSize : UInt32)
    (workspace : Workspace) :
    Kernel.generic.encodeOn isa sources frameSize workspace =
      Scalar.encode sources frameSize workspace := by
  have supported : Kernel.generic.supportsOn isa workspace frameSize = true := rfl
  unfold encodeOn
  rw [Action.get_bind, Action.require_bind supported]

/-- Every other kernel is a vector encoder. -/
theorem Kernel.exists_mode_of_encodeOn (vector : kernel ≠ .generic)
    (run : kernel.encodeOn isa sources frameSize workspace = .ok () after) :
    ∃ mode, Lanes.encode mode sources frameSize workspace = .ok () after := by
  unfold encodeOn at run
  rw [Action.get_bind] at run
  obtain ⟨_, run⟩ := Action.ok_of_require_bind run
  cases kernel with
  | generic => exact absurd rfl vector
  | portable => exact ⟨_, run⟩
  | portableAligned => exact ⟨_, run⟩
  | ssse3 => exact ⟨_, run⟩
  | ssse3Aligned => exact ⟨_, run⟩
  | neon => exact ⟨_, run⟩

/-- The frame is encoded on the lanes of registers and not by the scalar encoder. -/
def EntryPoint.OnLanes (entry : EntryPoint) (workspace : Workspace) (frameSize : UInt32) : Prop :=
  match entry with
  | .scalar => False
  | .vector _ => True
  | .kernel _ chosen => chosen ≠ .generic
  | .dispatch isa => Kernel.selectOn isa workspace frameSize ≠ .generic

theorem EntryPoint.run_eq_of_not_onLanes (plain : ¬ entry.OnLanes workspace frameSize) :
    entry.run sources frameSize workspace = Scalar.encode sources frameSize workspace := by
  cases entry with
  | scalar => rfl
  | vector mode => exact absurd trivial plain
  | kernel isa chosen =>
      obtain rfl : chosen = .generic := Decidable.not_not.mp plain
      exact Kernel.encodeOn_generic isa sources frameSize workspace
  | dispatch isa =>
      have generic : Kernel.selectOn isa workspace frameSize = .generic :=
        Decidable.not_not.mp plain
      rw [run_dispatch, generic]
      exact Kernel.encodeOn_generic isa sources frameSize workspace

theorem EntryPoint.exists_mode_of_onLanes (lanes : entry.OnLanes workspace frameSize)
    (run : entry.run sources frameSize workspace = .ok () after) :
    ∃ mode, Lanes.encode mode sources frameSize workspace = .ok () after := by
  cases entry with
  | scalar => cases lanes
  | vector mode => exact ⟨mode, run⟩
  | kernel isa chosen => exact Kernel.exists_mode_of_encodeOn lanes run
  | dispatch isa =>
      rw [run_dispatch] at run
      exact Kernel.exists_mode_of_encodeOn lanes run

/-- A vector encoder that succeeds leaves the residue behind. -/
theorem Lanes.eq_withFronts_of_encode {depth : Nat} (shape : frameSize.toNat = 2 ^ depth)
    (run : Lanes.encode mode sources frameSize workspace = .ok () after) :
    4 ≤ depth ∧ workspace.Holds frameSize.toNat ∧ sources.Cover frameSize.toNat ∧
      after = workspace.withFronts (sources.codeword depth) (sources.residue depth) := by
  have vector : (EntryPoint.vector mode).run sources frameSize workspace = .ok () after := run
  obtain ⟨admits, cover, suits, _⟩ := EntryPoint.of_run_eq_ok vector
  obtain ⟨extra, deep⟩ := exists_extra admits.power admits.canRun
  obtain rfl : depth = extra + 4 :=
    Nat.pow_right_injective (Nat.le_refl 2) (shape.symm.trans deep)
  rw [encode_eq shape admits.holds cover suits] at run
  cases run
  exact ⟨Nat.le_add_left 4 extra, admits.holds, cover, rfl⟩

end EntryPoints

/-- The stages of a frame of `2 ^ depth` symbols are `depth - 4` stages with halves of at least one
register and at most four others. The scalar encoder goes through all of them and leaves the
codeword in both buffers. A vector encoder leaves in the scratch buffer what the scalar encoder has
there when it is stopped before the last four: the filled frame itself if there are no stages but
these. This depends neither on the vector encoder nor on the buffers and their addresses, and the
last four stages of the scalar encoder lead from there to the codeword that was left in the
frame. -/
theorem encoders_leave_residue (sources : Sources) {frameSize : UInt32} {depth : Nat}
    (shape : frameSize.toNat = 2 ^ depth) :
    (stagesOf frameSize = .ok (leadingStages depth ++ finalStages depth) ∧
        (leadingStages depth).length = depth - 4 ∧
        (∀ stage ∈ leadingStages depth, laneCount ≤ stage.halfSpan.toNat) ∧
        ∀ stage ∈ finalStages depth, stage.halfSpan.toNat < laneCount) ∧
      (∀ (entry : EntryPoint) (workspace after : Workspace),
        ¬ entry.OnLanes workspace frameSize → entry.run sources frameSize workspace = .ok () after →
          after.scratch.symbols.take frameSize.toNat = after.frame.symbols.take frameSize.toNat ∧
            after.frame.symbols.take frameSize.toNat = sources.codeword depth) ∧
      ∀ (entry : EntryPoint) (workspace after : Workspace),
        entry.OnLanes workspace frameSize → entry.run sources frameSize workspace = .ok () after →
          (finalStages depth).length = 4 ∧
            after.scratch.symbols.take frameSize.toNat = sources.residue depth ∧
            (depth = 4 → sources.residue depth = sources.frame frameSize.toNat) ∧
            (∀ start : Workspace, start.Holds frameSize.toNat → ∃ passed,
              Scalar.encodeThrough sources frameSize.toNat (leadingStages depth) start =
                  .ok () passed ∧
                passed.scratch.symbols.take frameSize.toNat = sources.residue depth) ∧
            ∀ other : Buffer, frameSize.toNat ≤ other.symbols.length → ∃ finished,
              Scalar.stagePasses frameSize.toNat (finalStages depth) ⟨other, after.scratch⟩ =
                  .ok () finished ∧
                finished.frame.symbols.take frameSize.toNat =
                  after.frame.symbols.take frameSize.toNat := by
  obtain ⟨fewer, leading, final, four⟩ := stages_split shape
  refine ⟨⟨?_, fewer, leading, final⟩, ?_, ?_⟩
  · rw [leadingStages_append_finalStages, stagesOf_of_two_pow shape]
  · intro entry workspace after plain run
    rw [EntryPoint.run_eq_of_not_onLanes plain] at run
    obtain ⟨_, holds, cover⟩ := Scalar.of_encode_eq_ok run
    rw [Scalar.encode_eq shape holds cover] at run
    cases run
    have length := cover.length_codeword shape
    rw [Workspace.take_scratch_withFronts length, Workspace.take_frame_withFronts length]
    exact ⟨rfl, rfl⟩
  · intro entry workspace after lanes run
    obtain ⟨mode, vector⟩ := EntryPoint.exists_mode_of_onLanes lanes run
    obtain ⟨registers, holds, cover, rfl⟩ := Lanes.eq_withFronts_of_encode shape vector
    obtain ⟨extra, rfl⟩ := Nat.exists_eq_add_of_le' registers
    have left := (Lanes.passes_of_frame shape cover).2
    have scratch : (workspace.withFronts (sources.codeword (extra + 4))
        (sources.residue (extra + 4))).scratch.symbols.take frameSize.toNat =
          sources.residue (extra + 4) := Workspace.take_scratch_withFronts left
    refine ⟨four registers, scratch, ?_, ?_, ?_⟩
    · intro register
      obtain rfl : extra = 0 := Nat.add_right_cancel register
      rw [show frameSize.toNat = 2 ^ (0 + 4) from shape]
      rfl
    · intro start startHolds
      exact Scalar.encodeThrough_leadingStages shape cover startHolds
    · intro other fit
      have length := cover.length_codeword shape
      have room : (Workspace.mk other (workspace.withFronts (sources.codeword (extra + 4))
          (sources.residue (extra + 4))).scratch).Holds frameSize.toNat :=
        ⟨fit, (holds.withFronts length left).scratch⟩
      obtain ⟨finished, ran, frame⟩ := Scalar.finalStages_residue shape cover room scratch
      exact ⟨finished, ran, frame.trans (Workspace.take_frame_withFronts length).symm⟩

/-- Thirty-two symbols, by aligned access to registers of one unit and by the kernel for another at
odd addresses: the scratch buffers are left the same, and the scalar encoder passes through that
state after its one leading stage. -/
theorem encoders_leave_residue_thirty_two :
    let sources : Sources := ⟨List.replicate 8 0 ++ List.replicate 25 255,
      List.range 24 |>.map UInt8.ofNat, [200, 3, 77, 130, 9, 255, 41, 6]⟩
    let aligned : Workspace := ⟨⟨32, List.replicate 40 9⟩, ⟨64, List.replicate 33 5⟩⟩
    let odd : Workspace := ⟨⟨7, List.replicate 32 1⟩, ⟨101, List.replicate 50 2⟩⟩
    ∃ left right passed,
      (EntryPoint.vector ⟨.ssse3, .aligned⟩).run sources 32 aligned = .ok () left ∧
        (EntryPoint.kernel .neon .neon).run sources 32 odd = .ok () right ∧
        Scalar.encodeThrough sources 32 (leadingStages 5) odd = .ok () passed ∧
        left.scratch.symbols.take 32 = right.scratch.symbols.take 32 ∧
        passed.scratch.symbols.take 32 = right.scratch.symbols.take 32 := by
  intro sources aligned odd
  have shape : (32 : UInt32).toNat = 2 ^ 5 := rfl
  have cover : sources.Cover (32 : UInt32).toNat := ⟨by decide, by decide, by decide⟩
  have alignedHolds : aligned.Holds (32 : UInt32).toNat := ⟨by decide, by decide⟩
  have oddHolds : odd.Holds (32 : UInt32).toNat := ⟨by decide, by decide⟩
  let vector : EntryPoint := .vector ⟨.ssse3, .aligned⟩
  let kernel : EntryPoint := .kernel .neon .neon
  have registers : vector.CanRun aligned 32 := show laneCount ≤ (32 : UInt32).toNat by decide
  have supported : kernel.CanRun odd 32 := show Kernel.supportsOn .neon .neon odd 32 = true from rfl
  have suits : vector.Suits aligned := fun _ => by decide
  have onVector : vector.OnLanes aligned 32 := trivial
  have onKernel : kernel.OnLanes odd 32 := show Kernel.neon ≠ .generic by decide
  obtain ⟨left, leftRun⟩ :=
    EntryPoint.exists_run_eq_ok ⟨registers, ⟨5, shape⟩, alignedHolds⟩ cover suits
  obtain ⟨right, rightRun⟩ :=
    EntryPoint.exists_run_eq_ok ⟨supported, ⟨5, shape⟩, oddHolds⟩ cover trivial
  obtain ⟨_, _, lanes⟩ := encoders_leave_residue sources shape
  obtain ⟨_, leftScratch, _⟩ := lanes vector aligned left onVector leftRun
  obtain ⟨_, rightScratch, _, through, _⟩ := lanes kernel odd right onKernel rightRun
  obtain ⟨passed, passedRun, passedScratch⟩ := through odd oddHolds
  exact ⟨left, right, passed, leftRun, rightRun, passedRun, leftScratch.trans rightScratch.symm,
    passedScratch.trans rightScratch.symm⟩

end PolarCoding
