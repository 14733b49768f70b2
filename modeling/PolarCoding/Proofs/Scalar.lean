import PolarCoding.Proofs.Branches
import PolarCoding.Proofs.Levels
import PolarCoding.Proofs.Runs
import PolarCoding.Proofs.Workspace
import PolarCoding.Scalar

/-!
# Runs of the scalar encoder

A stage leaves the symbols of all branches at the front of both buffers and touches nothing else.
The scalar encoder therefore succeeds exactly on workspaces and sources that hold a whole frame,
and then the transform of the filled frame stands at the front of both buffers.
-/

namespace PolarCoding

/-- A branch of a stage that has any is no longer than all of them. -/
theorem Stage.Spans.span_lt {stage : Stage} {size : Nat} (spans : stage.Spans size)
    (positive : 0 < size) (small : size < sizeLimit) : 2 * stage.halfSpan.toNat < sizeLimit := by
  have some_branch : 0 < stage.branches.toNat :=
    Nat.pos_of_mul_pos_right (spans.size_eq ▸ positive)
  exact Nat.lt_of_le_of_lt (Nat.le_mul_of_pos_left _ some_branch) (spans.size_eq ▸ small)

/-- A butterfly stage whose branches fit both buffers. There may be no branches. -/
theorem butterfly_eq {stage : Stage} {size : Nat} {input output : List UInt8}
    (spans : stage.Spans size) (spanSmall : 2 * stage.halfSpan.toNat < sizeLimit)
    (small : size < sizeLimit) (inputFit : size ≤ input.length)
    (outputFit : size ≤ output.length) :
    butterfly stage.branches stage.halfSpan input output =
      .ok (overwrite output 0 (stage.split input)) := by
  rw [butterfly_checks, if_pos spanSmall, if_pos spans.nonempty, spans.size_eq, if_pos small,
    if_pos outputFit, if_pos inputFit, overwrite_zero, spans.length_split inputFit, Stage.split]

def Sources.codeword (sources : Sources) (depth : Nat) : List UInt8 :=
  polarTransform depth (sources.frame (2 ^ depth))

/-- Without frozen positions, the codeword is the transform of the information. -/
theorem Sources.codeword_information {word : List UInt8} {size depth : Nat}
    (length : word.length = size) (shape : size = 2 ^ depth) :
    (Sources.mk (List.replicate size 0) [] word).codeword depth = polarTransform depth word := by
  rw [codeword, ← shape, frame_information length]

theorem Sources.Cover.length_codeword {sources : Sources} {size depth : Nat}
    (cover : sources.Cover size) (shape : size = 2 ^ depth) :
    (sources.codeword depth).length = size := by
  subst shape
  exact length_polarTransform cover.length_frame

namespace Scalar

variable {size : Nat} {workspace : Workspace}

theorem stagePass_eq {stage : Stage} (spans : stage.Spans size) (positive : 0 < size)
    (small : size < sizeLimit) (holds : workspace.Holds size) :
    stagePass size stage workspace =
      .ok () (workspace.withFronts (stage.split workspace.scratch.symbols)
        (stage.split workspace.scratch.symbols)) := by
  have run := butterfly_eq spans (spans.span_lt positive small) small holds.scratch holds.frame
  have length := spans.length_split holds.scratch
  rw [stagePass, Action.get_bind, Action.lift_bind_of_ok run, Action.set_apply]
  simp only [Workspace.withFronts, Buffer.withFront, overwrite_zero, length, List.take_left' length]

/-- Some stages, at least one of them: both buffers get the same front. -/
theorem stagePasses_eq {stage : Stage} {later : List Stage} {symbols : List UInt8}
    (spans : ∀ each ∈ stage :: later, each.Spans size) (positive : 0 < size)
    (small : size < sizeLimit) (holds : workspace.Holds size)
    (front : workspace.scratch.symbols.take size = symbols) :
    stagePasses size (stage :: later) workspace =
      .ok () (workspace.withFronts (applyStages (stage :: later) symbols)
        (applyStages (stage :: later) symbols)) := by
  induction later generalizing stage workspace symbols with
  | nil =>
      have first := spans stage List.mem_cons_self
      have run := stagePass_eq first positive small holds
      rw [← first.split_take holds.scratch, front] at run
      rw [stagePasses, Action.bind_of_ok run]
      rfl
  | cons next later ih =>
      obtain ⟨first, others⟩ := List.forall_mem_cons.mp spans
      have run := stagePass_eq first positive small holds
      have length := first.length_split holds.scratch
      rw [← first.split_take holds.scratch, front] at run length
      have kept : (workspace.withFronts (stage.split symbols)
          (stage.split symbols)).scratch.symbols.take size = stage.split symbols :=
        Workspace.take_scratch_withFronts length
      have same : (stage.split symbols).length =
          (applyStages (next :: later) (stage.split symbols)).length := by
        rw [length, length_applyStages others length]
      rw [stagePasses, Action.bind_of_ok run, ih others (holds.withFronts length length) kept,
        Workspace.withFronts_withFronts same same]
      rfl

/-- All stages of a frame. -/
theorem transform_eq {frameSize : UInt32} {depth : Nat} {symbols : List UInt8}
    (shape : frameSize.toNat = 2 ^ (depth + 1)) (holds : workspace.Holds frameSize.toNat)
    (front : workspace.scratch.symbols.take frameSize.toNat = symbols) :
    transform frameSize workspace =
      .ok () (workspace.withFronts (polarTransform (depth + 1) symbols)
        (polarTransform (depth + 1) symbols)) := by
  have small : frameSize.toNat < sizeLimit := Nat.lt_trans frameSize.toNat_lt (by decide)
  have length : symbols.length = 2 ^ (depth + 1) := by
    rw [← front, List.length_take_of_le holds.scratch, shape]
  have spans := spans_of_mem_stages shape
  rw [← shape] at spans
  rw [transform, Action.lift_bind_of_ok (stagesOf_of_two_pow shape),
    ← applyStages_frame shape length]
  exact stagePasses_eq spans (shape ▸ Nat.two_pow_pos _) small holds front

/-- A frame of one symbol has no stages: the filled frame is copied. -/
theorem copyToFrame_eq {symbols : List UInt8} (length : symbols.length = size) :
    copyToFrame size (workspace.filledWith symbols) =
      .ok () (workspace.withFronts symbols symbols) := by
  have front : (workspace.filledWith symbols).scratch.symbols.take size = symbols :=
    Workspace.take_scratch_filledWith length
  simp only [copyToFrame, Action.modify_apply, front]
  simp only [Workspace.filledWith, Workspace.withFronts, Buffer.withFront, overwrite_zero, length]

/-- A run that meets its preconditions leaves the codeword at the front of both buffers. -/
theorem encode_eq {sources : Sources} {frameSize : UInt32} {depth : Nat}
    (shape : frameSize.toNat = 2 ^ depth) (holds : workspace.Holds frameSize.toNat)
    (cover : sources.Cover frameSize.toNat) :
    encode sources frameSize workspace =
      .ok () (workspace.withFronts (sources.codeword depth) (sources.codeword depth)) := by
  have filled := cover.length_frame
  rw [encode, Action.require_bind ⟨depth, shape⟩, Action.get_bind, Action.require_bind holds.frame,
    Action.bind_of_ok (Workspace.onScratchFront_interleave cover holds.scratch),
    Sources.codeword, ← shape]
  cases depth with
  | zero =>
      have single : frameSize.toNat = 1 := shape
      rw [if_pos single, copyToFrame_eq filled, polarTransform]
  | succ depth =>
      have several : frameSize.toNat ≠ 1 := by
        rw [shape, Nat.pow_succ]
        omega
      have length := length_polarTransform (filled.trans shape)
      rw [if_neg several, transform_eq shape (holds.filledWith filled)
        (Workspace.take_scratch_filledWith filled),
        Workspace.withFronts_filledWith (filled.trans (shape.trans length.symm))]

/-- A run that succeeds met its preconditions. -/
theorem of_encode_eq_ok {sources : Sources} {frameSize : UInt32} {after : Workspace}
    (run : encode sources frameSize workspace = .ok () after) :
    IsPowerOfTwo frameSize ∧ workspace.Holds frameSize.toNat ∧
      sources.Cover frameSize.toNat := by
  rw [encode] at run
  obtain ⟨power, run⟩ := Action.ok_of_require_bind run
  rw [Action.get_bind] at run
  obtain ⟨frame, run⟩ := Action.ok_of_require_bind run
  obtain ⟨_, middle, fill, _⟩ := Action.ok_of_bind run
  obtain ⟨scratch, cover⟩ := Workspace.cover_of_onScratchFront fill
  exact ⟨power, ⟨frame, scratch⟩, cover⟩

end Scalar

end PolarCoding
