import PolarCoding.Lanes.Encode
import PolarCoding.Proofs.Lanes.Fused
import PolarCoding.Proofs.Lanes.Wide

/-!
# Runs through all stages of a frame

Every wide stage is copied back, so the scratch buffer holds what the stages so far have made of
the frame. The fused pass does the work of the last four stages and is not copied back: in the end
the frame holds the result of all stages, the scratch buffer that of all but four.
-/

namespace PolarCoding.Lanes

open Machine

namespace Machine

def refilled (machine : Machine) (symbols : List UInt8) : Machine :=
  { machine with scratch := machine.scratch.withCells symbols }

variable {machine : Machine} {access : Access} {size : Nat} {symbols front : List UInt8}
  {events : List Event}

theorem Ready.refilled (ready : machine.Ready access size)
    (length : symbols.length = machine.scratchSymbols.length) :
    (machine.refilled symbols).Ready access size :=
  ⟨ready.frameFits, Nat.le_trans ready.le_scratch (Nat.le_of_eq length.symm), ready.frameSuits,
    ready.scratchSuits⟩

@[simp] theorem refilled_scratchSymbols : machine.refilled machine.scratchSymbols = machine := rfl

@[simp] theorem scratchSymbols_refilled : (machine.refilled symbols).scratchSymbols = symbols := rfl

@[simp] theorem refilled_refilled (later : List UInt8) :
    (machine.refilled symbols).refilled later = machine.refilled later := rfl

/-- The front of the frame is copied over that of the scratch buffer. -/
theorem copyBack_eq (length : front.length = size) :
    copyBack size (machine.wrote (overwrite symbols 0 front) events) =
      .ok () ((machine.refilled (overwrite machine.scratchSymbols 0 front)).wrote
        (overwrite symbols 0 front) events) := by
  subst length
  have copied : ((overwrite symbols 0 front).toArray.extract 0 front.length).toList = front := by
    rw [Array.toList_extract, List.extract_eq_take_drop, List.drop_zero, Nat.sub_zero,
      take_overwrite_zero]
  have kept : (machine.scratch.cells.extract front.length machine.scratch.cells.size).toList =
      machine.scratchSymbols.drop front.length := by
    rw [Array.toList_extract, List.extract_eq_take_drop]
    exact List.take_of_length_le (Nat.le_of_eq (by rw [List.length_drop]; rfl))
  have cells : (overwrite symbols 0 front).toArray.extract 0 front.length ++
      machine.scratch.cells.extract front.length machine.scratch.cells.size =
      (overwrite machine.scratchSymbols 0 front).toArray := by
    apply Array.toList_inj.mp
    rw [Array.toList_append, copied, kept, overwrite_zero]
  rw [copyBack, Action.modify_apply, refilled, Memory.withCells, ← cells]
  rfl

end Machine

/-- The journal of all stages of branches of `2 ^ (extra + 4)` symbols, oldest event first. -/
def passesEvents : (extra branches : Nat) → List Event
  | 0, branches => fusedEvents branches
  | extra + 1, branches =>
      wideEvents (Stage.level (extra + 4) branches) ++ passesEvents extra (2 * branches)

/-- The last four stages transform branches of one register. -/
theorem applyStages_four {branches : Nat} {symbols : List UInt8}
    (fits : branches * laneCount < sizeLimit) (some_branch : 0 < branches)
    (room : branches * laneCount ≤ symbols.length) :
    applyStages (stagesFrom 4 branches) (symbols.take (branches * laneCount)) =
      mapBlocks (polarTransform 4) branches laneCount symbols := by
  have front : (symbols.take (branches * laneCount)).length = branches * 2 ^ 4 :=
    List.length_take_of_le room
  rw [applyStages_stagesFrom fits some_branch front]
  exact mapBlocks_take (Nat.le_refl _) room

/-- A stage above the last four has halves of whole registers. -/
theorem whole_registers (extra : Nat) :
    2 ^ (extra + 4) % laneCount = 0 ∧ laneCount ≤ 2 ^ (extra + 4) := by
  have whole : laneCount ∣ 2 ^ (extra + 4) := Nat.pow_dvd_pow 2 (Nat.le_add_left 4 extra)
  constructor
  · exact Nat.mod_eq_zero_of_dvd whole
  · exact Nat.le_of_dvd (Nat.two_pow_pos _) whole

section Run

variable {mode : Mode} {machine : Machine} {symbols : List UInt8} {events : List Event}

/-- The stages from one on leave their result at the front of the frame and that of all but the
last four at the front of the scratch buffer. -/
theorem stagePasses_eq {extra branches size : Nat} (whole : branches * 2 ^ (extra + 4) = size)
    (some_branch : 0 < branches) (ready : machine.Ready mode.access size)
    (small : size < sizeLimit) (length : symbols.length = machine.frameSymbols.length) :
    stagePasses mode size (stagesFrom (extra + 4) branches) (machine.wrote symbols events) =
      .ok ()
        ((machine.refilled (overwrite machine.scratchSymbols 0
            (applyStages ((stagesFrom (extra + 4) branches).take extra)
              (machine.scratchSymbols.take size)))).wrote
          (overwrite symbols 0
            (applyStages (stagesFrom (extra + 4) branches) (machine.scratchSymbols.take size)))
          (events ++ passesEvents extra branches)) := by
  induction extra generalizing machine symbols events branches with
  | zero =>
      change branches * laneCount = size at whole
      subst whole
      have fits : branches * 2 ^ (3 + 1) < sizeLimit := small
      obtain ⟨half, count⟩ := words_of_level fits some_branch
      have narrow : (Stage.level 3 branches).halfSpan.toNat < laneCount := by
        rw [half]
        decide
      have span : (Stage.level 3 branches).halfSpan.toNat = laneCount / 2 := half
      have transformed := applyStages_four small some_branch ready.le_scratch
      have run : fusedStages mode branches (machine.wrote symbols events) = _ :=
        fusedStages_eq ready small length some_branch rfl
      rw [← transformed] at run
      rw [stagesFrom, stagePasses, if_pos narrow, Action.require_bind span, count, List.take_zero,
        applyStages, overwrite_zero_take ready.le_scratch, refilled_scratchSymbols]
      exact run
  | succ extra ih =>
      have spanned : branches * 2 ^ (extra + 4 + 1) = size := whole
      obtain ⟨half, count⟩ := words_of_level (spanned ▸ small) some_branch
      have spans := spans_level (spanned ▸ small) some_branch
      rw [spanned] at spans
      obtain ⟨registers, wide⟩ := whole_registers extra
      rw [← half] at registers wide
      have front := spans.length_split ready.le_scratch
      have scratchLength : (overwrite machine.scratchSymbols 0
          ((Stage.level (extra + 4) branches).split machine.scratchSymbols)).length =
          machine.scratchSymbols.length :=
        length_overwrite (by rw [Nat.zero_add, front]; exact ready.le_scratch)
      have frameLength : (overwrite symbols 0
          ((Stage.level (extra + 4) branches).split machine.scratchSymbols)).length =
          machine.frameSymbols.length :=
        ready.length_overwrite length (Nat.le_of_eq (by rw [Nat.zero_add, front]))
      have twice : 2 * branches * 2 ^ (extra + 4) = size := by rw [branches_succ, spanned]
      have kept := take_overwrite_zero machine.scratchSymbols
        ((Stage.level (extra + 4) branches).split machine.scratchSymbols)
      rw [front] at kept
      have later := spans_of_mem_stagesFrom (twice ▸ small) (Nat.mul_pos Nat.two_pos some_branch)
      rw [twice] at later
      have all := length_applyStages later front
      have some_stages := length_applyStages
        (fun stage member => later stage (List.mem_of_mem_take (i := extra) member)) front
      change stagePasses mode size
        (Stage.level (extra + 4) branches :: stagesFrom (extra + 4) (2 * branches)) _ = _
      rw [stagePasses, if_neg (Nat.not_lt.mpr wide),
        Action.bind_of_ok (wideStage_eq ready small length spans registers),
        Action.bind_of_ok (copyBack_eq front),
        ih twice (Nat.mul_pos Nat.two_pos some_branch) (ready.refilled scratchLength) frameLength,
        scratchSymbols_refilled, kept, refilled_refilled,
        overwrite_zero_overwrite_zero (front.trans all.symm),
        overwrite_zero_overwrite_zero (front.trans some_stages.symm), List.append_assoc,
        ← spans.split_take ready.le_scratch]
      rfl

/-- A machine whose buffers hold a frame transforms it. -/
theorem transform_eq {frameSize : UInt32} {extra : Nat}
    (shape : frameSize.toNat = 2 ^ (extra + 4))
    (ready : machine.Ready mode.access frameSize.toNat) :
    transform mode frameSize machine =
      .ok ()
        ((machine.refilled (overwrite machine.scratchSymbols 0
            (applyStages ((stagesFrom (extra + 4) 1).take extra)
              (machine.scratchSymbols.take frameSize.toNat)))).wrote
          (overwrite machine.frameSymbols 0
            (applyStages (stagesFrom (extra + 4) 1)
              (machine.scratchSymbols.take frameSize.toNat)))
          (passesEvents extra 1)) := by
  have small : frameSize.toNat < sizeLimit := Nat.lt_trans frameSize.toNat_lt (by decide)
  have registers : laneCount ≤ frameSize.toNat := shape ▸ (whole_registers extra).2
  have whole : 1 * 2 ^ (extra + 4) = frameSize.toNat := by rw [Nat.one_mul, shape]
  have run : stagePasses mode frameSize.toNat (stagesFrom (extra + 4) 1)
      (machine.wrote machine.frameSymbols []) = _ :=
    stagePasses_eq whole Nat.one_pos ready small rfl
  rw [wrote_nil, List.nil_append] at run
  have sizes : requireSizes frameSize.toNat frameSize.toNat (.laneContract .frameFits)
      (machine.wrote machine.frameSymbols []) = _ :=
    requireSizes_eq ready rfl (Nat.le_refl _) (Nat.le_refl _)
  rw [wrote_nil] at sizes
  have frameSuits : mode.access.check machine.frame.address = .ok () :=
    require_of ready.frameSuits
  have scratchSuits : mode.access.check machine.scratch.address = .ok () :=
    require_of ready.scratchSuits
  have aligned : requireAlignment mode.access machine = .ok () machine := by
    rw [requireAlignment, Action.get_bind, Action.lift_bind_of_ok frameSuits, scratchSuits,
      Action.lift_ok]
  rw [transform, Action.require_bind ⟨⟨extra + 4, shape⟩, registers⟩, Action.bind_of_ok sizes,
    Action.bind_of_ok aligned, Action.lift_bind_of_ok (stagesOf_of_two_pow shape), run]

end Run

end PolarCoding.Lanes
