import PolarCoding.Proofs.Lanes.Encode

/-!
# Passes of the machine against butterfly stages

Whether or not the branches belong to a frame, a wide stage does what the butterfly with the same
branches does, and a fused pass does what four butterflies in turn do. What lies behind the branches
stays as it was in both cases, and so does the scratch buffer.
-/

namespace PolarCoding.Lanes

open Machine

variable {mode : Mode} {stage : Stage} {workspace : Workspace}

/-- A run of the machine that only writes to the frame. -/
theorem onMachine_wrote {action : Action Machine Unit} {frame : List UInt8} {events : List Event}
    (run : action (Machine.ofWorkspace workspace) =
      .ok () ((Machine.ofWorkspace workspace).wrote frame events)) :
    onMachine action workspace = .ok events { workspace with frame.symbols := frame } :=
  onMachine_eq run

/-! ## Wide stages -/

/-- A branch that is too long for an address space cannot be worked on, and there is none of it. -/
theorem butterfly_of_long_span {branches halfSpan : UInt64} {input output : List UInt8}
    (long : sizeLimit ≤ 2 * halfSpan.toNat) :
    butterfly branches halfSpan input output = .error .productOverflow := by
  rw [butterfly_checks, if_neg (Nat.not_lt.mpr long)]

/-- A stage without branches leaves nothing. -/
theorem split_of_long_span {size : Nat} (spans : stage.Spans size) (small : size < sizeLimit)
    (long : sizeLimit ≤ 2 * stage.halfSpan.toNat) (symbols : List UInt8) :
    stage.split symbols = [] := by
  have none_left : stage.branches.toNat = 0 := by
    by_contra some_branch
    have positive : 0 < size := by
      rw [← spans.size_eq]
      exact Nat.mul_pos (Nat.pos_of_ne_zero some_branch) (Nat.mul_pos Nat.two_pos spans.nonempty)
    exact Nat.not_lt.mpr long (spans.span_lt positive small)
  rw [Stage.split, none_left, splitBranches]

/-- A wide stage leaves in the whole frame what the butterfly leaves there, for any number of
branches and any half-span of whole registers. The one case in which the butterfly ends in a fault
is that of no branches which would each be too long for an address space: then both leave the frame
as it was. -/
theorem wide_stage_is_butterfly
    (registers : laneCount ≤ stage.halfSpan.toNat) (whole : stage.halfSpan.toNat % laneCount = 0)
    (small : stage.branches.toNat * (2 * stage.halfSpan.toNat) < sizeLimit)
    (holds : workspace.Holds (stage.branches.toNat * (2 * stage.halfSpan.toNat)))
    (aligned : mode.access = .aligned → workspace.IsAligned) :
    ∃ events left,
      onMachine (wideStage mode stage) workspace =
          .ok events { workspace with frame.symbols := left } ∧
        (2 * stage.halfSpan.toNat < sizeLimit →
          butterfly stage.branches stage.halfSpan workspace.scratch.symbols
            workspace.frame.symbols = .ok left) ∧
        (sizeLimit ≤ 2 * stage.halfSpan.toNat →
          butterfly stage.branches stage.halfSpan workspace.scratch.symbols
              workspace.frame.symbols = .error .productOverflow ∧
            left = workspace.frame.symbols) := by
  have spans : stage.Spans (stage.branches.toNat * (2 * stage.halfSpan.toNat)) :=
    ⟨Nat.lt_of_lt_of_le (by decide) registers, rfl⟩
  have ready := ready_ofWorkspace holds aligned
  have run : wideStage mode stage ((Machine.ofWorkspace workspace).wrote
      workspace.frame.symbols []) = _ := wideStage_eq ready small rfl spans whole
  refine ⟨_, _, onMachine_wrote run, ?_, ?_⟩
  · intro spanSmall
    exact butterfly_eq spans spanSmall small holds.scratch holds.frame
  · intro long
    have nothing := split_of_long_span spans small long workspace.scratch.symbols
    refine ⟨butterfly_of_long_span long, ?_⟩
    change overwrite workspace.frame.symbols 0 (stage.split workspace.scratch.symbols) = _
    rw [nothing, overwrite_nil]

/-- Three branches with halves of three registers, at the front of longer buffers. -/
theorem wide_stage_is_butterfly_three :
    let stage : Stage := ⟨9, 48, 3⟩
    let workspace : Workspace := ⟨⟨32, List.replicate 300 7⟩, ⟨64, List.replicate 290 5⟩⟩
    ∃ events left,
      onMachine (wideStage ⟨.ssse3, .aligned⟩ stage) workspace =
          .ok events { workspace with frame.symbols := left } ∧
        butterfly 3 48 (List.replicate 290 5) (List.replicate 300 7) = .ok left := by
  intro stage workspace
  have frame : 3 * (2 * 48) ≤ (List.replicate 300 (7 : UInt8)).length := by
    rw [List.length_replicate]
    decide
  have scratch : 3 * (2 * 48) ≤ (List.replicate 290 (5 : UInt8)).length := by
    rw [List.length_replicate]
    decide
  have holds : workspace.Holds (stage.branches.toNat * (2 * stage.halfSpan.toNat)) :=
    ⟨frame, scratch⟩
  have aligned : Mode.access ⟨.ssse3, .aligned⟩ = .aligned → workspace.IsAligned :=
    fun _ => by decide
  obtain ⟨events, left, run, same, _⟩ :=
    wide_stage_is_butterfly (by decide) (by decide) (by decide) holds aligned
  exact ⟨events, left, run, same (by decide)⟩

/-! ## Fused passes -/

/-- The last four stages of some branches: twice the branches and half the span each time. -/
theorem stagesFrom_four (branches : UInt64) :
    stagesFrom 4 branches.toNat =
      [⟨4, 8, branches⟩, ⟨3, 4, 2 * branches⟩, ⟨2, 2, 4 * branches⟩, ⟨1, 1, 8 * branches⟩] := by
  have four : 2 * (2 * branches) = 4 * branches := (UInt64.mul_assoc 2 2 branches).symm
  have eight : 2 * (4 * branches) = 8 * branches := (UInt64.mul_assoc 2 4 branches).symm
  simp only [stagesFrom, Stage.level, UInt64.ofNat_mul, UInt64.ofNat_toNat]
  rw [← eight, ← four]
  rfl

/-- A butterfly changes the front of its output only, and only the front of its input matters. -/
theorem butterfly_front {size : Nat} {input output : List UInt8} (spans : stage.Spans size)
    (positive : 0 < size) (small : size < sizeLimit) (inputFit : size ≤ input.length)
    (outputFit : size ≤ output.length) :
    ∃ result, butterfly stage.branches stage.halfSpan input output = .ok result ∧
      size ≤ result.length ∧ result.take size = stage.split (input.take size) := by
  have front := spans.length_split inputFit
  have length : (overwrite output 0 (stage.split input)).length = output.length :=
    length_overwrite (by rwa [Nat.zero_add, front])
  refine ⟨_, butterfly_eq spans (spans.span_lt positive small) small inputFit outputFit, ?_, ?_⟩
  · rwa [length]
  · rw [spans.split_take inputFit, ← front, take_overwrite_zero]

/-- A fused pass leaves at the front of the frame what four butterflies in turn make of the scratch
buffer, each of them with twice the branches of half the span, whatever buffers they write to. The
frame behind the branches stays as it was. -/
theorem fused_pass_is_four_butterflies {branches : UInt64} (some_branch : 1 ≤ branches)
    (holds : workspace.Holds (branches.toNat * laneCount))
    (addressable : workspace.frame.symbols.length < sizeLimit)
    (aligned : mode.access = .aligned → workspace.IsAligned)
    {first second third fourth : List UInt8}
    (fit : ∀ output ∈ [first, second, third, fourth],
      branches.toNat * laneCount ≤ output.length) :
    ∃ events once twice thrice last,
      butterfly branches 8 workspace.scratch.symbols first = .ok once ∧
        butterfly (2 * branches) 4 once second = .ok twice ∧
        butterfly (4 * branches) 2 twice third = .ok thrice ∧
        butterfly (8 * branches) 1 thrice fourth = .ok last ∧
        onMachine (fusedStages mode branches.toNat) workspace =
          .ok events { workspace with
            frame.symbols := last.take (branches.toNat * laneCount) ++
              workspace.frame.symbols.drop (branches.toNat * laneCount) } := by
  have small : branches.toNat * laneCount < sizeLimit := Nat.lt_of_le_of_lt holds.frame addressable
  have several : 0 < branches.toNat := UInt64.le_iff_toNat_le.mp some_branch
  have positive : 0 < branches.toNat * laneCount := Nat.mul_pos several (by decide)
  have spans : ∀ stage ∈ stagesFrom 4 branches.toNat, stage.Spans (branches.toNat * laneCount) :=
    spans_of_mem_stagesFrom small several
  have transformed := applyStages_four small several holds.scratch
  have ready := ready_ofWorkspace holds aligned
  have run : fusedStages mode branches.toNat ((Machine.ofWorkspace workspace).wrote
      workspace.frame.symbols []) = _ := fusedStages_eq ready small rfl several rfl
  rw [stagesFrom_four] at spans transformed
  simp only [List.forall_mem_cons] at spans fit
  obtain ⟨eight, four, two, one, _⟩ := spans
  obtain ⟨firstFit, secondFit, thirdFit, fourthFit, _⟩ := fit
  -- Each butterfly hands its front on to the next.
  obtain ⟨once, onceRun, onceFit, onceFront⟩ :=
    butterfly_front eight positive small holds.scratch firstFit
  obtain ⟨twice, twiceRun, twiceFit, twiceFront⟩ :=
    butterfly_front four positive small onceFit secondFit
  obtain ⟨thrice, thriceRun, thriceFit, thriceFront⟩ :=
    butterfly_front two positive small twiceFit thirdFit
  obtain ⟨last, lastRun, lastFit, lastFront⟩ :=
    butterfly_front one positive small thriceFit fourthFit
  have front : last.take (branches.toNat * laneCount) =
      mapBlocks (polarTransform 4) branches.toNat laneCount workspace.scratch.symbols := by
    rw [lastFront, thriceFront, twiceFront, onceFront]
    exact transformed
  refine ⟨fusedEvents branches.toNat, once, twice, thrice, last, onceRun, twiceRun, thriceRun,
    lastRun, ?_⟩
  have written : overwrite workspace.frame.symbols 0
      (mapBlocks (polarTransform 4) branches.toNat laneCount workspace.scratch.symbols) =
      last.take (branches.toNat * laneCount) ++
        workspace.frame.symbols.drop (branches.toNat * laneCount) := by
    rw [← front, overwrite_zero, List.length_take_of_le lastFit]
  rw [← written]
  exact onMachine_wrote run

/-- Three branches, at the front of a longer frame, written to buffers of different lengths. -/
theorem fused_pass_is_four_butterflies_three :
    let workspace : Workspace := ⟨⟨3, List.replicate 50 7⟩, ⟨5, List.replicate 48 1⟩⟩
    ∃ events once twice thrice last,
      butterfly 3 8 (List.replicate 48 1) (List.replicate 48 0) = .ok once ∧
        butterfly 6 4 once (List.replicate 49 0) = .ok twice ∧
        butterfly 12 2 twice (List.replicate 50 0) = .ok thrice ∧
        butterfly 24 1 thrice (List.replicate 51 0) = .ok last ∧
        onMachine (fusedStages ⟨.neon, .unaligned⟩ 3) workspace =
          .ok events { workspace with frame.symbols := last.take 48 ++ [7, 7] } := by
  intro workspace
  have holds : workspace.Holds ((3 : UInt64).toNat * laneCount) := ⟨by decide, by decide⟩
  have addressable : workspace.frame.symbols.length < sizeLimit := by decide
  have aligned : Mode.access ⟨.neon, .unaligned⟩ = .aligned → workspace.IsAligned := by
    intro impossible
    cases impossible
  have fit : ∀ output ∈ [List.replicate 48 (0 : UInt8), List.replicate 49 0, List.replicate 50 0,
      List.replicate 51 0], (3 : UInt64).toNat * laneCount ≤ output.length := by decide
  obtain ⟨events, once, twice, thrice, last, first, second, third, fourth, run⟩ :=
    fused_pass_is_four_butterflies (by decide) holds addressable aligned fit
  exact ⟨events, once, twice, thrice, last, first, second, third, fourth, run⟩

end PolarCoding.Lanes
