import PolarCoding.Proofs.Transform
import PolarCoding.Stage.Cursor

/-!
# The stages of a frame

The chain of stages of a frame is written out here: each stage has half the span and twice the
branches of the one before it. Applied one after the other they transform every branch that the
first of them starts from.
-/

namespace PolarCoding

/-- The stage that begins to take branches of `2 ^ (depth + 1)` symbols apart. -/
def Stage.level (depth branches : Nat) : Stage :=
  ⟨UInt32.ofNat (depth + 1), UInt64.ofNat (2 ^ depth), UInt64.ofNat branches⟩

/-- The stages that take branches of `2 ^ depth` symbols apart, of which there are `branches`. -/
def stagesFrom : (depth branches : Nat) → List Stage
  | 0, _ => []
  | depth + 1, branches => Stage.level depth branches :: stagesFrom depth (2 * branches)

@[simp]
theorem length_stagesFrom (depth branches : Nat) : (stagesFrom depth branches).length = depth := by
  induction depth generalizing branches with
  | zero => rfl
  | succ depth ih => rw [stagesFrom, List.length_cons, ih]

theorem getElem?_stagesFrom {depth index : Nat} (inside : index < depth) (branches : Nat) :
    (stagesFrom depth branches)[index]? =
      some (Stage.level (depth - 1 - index) (2 ^ index * branches)) := by
  induction depth generalizing index branches with
  | zero => exact absurd inside (Nat.not_lt_zero index)
  | succ depth ih =>
      cases index with
      | zero =>
          rw [Nat.pow_zero, Nat.one_mul]
          rfl
      | succ index =>
          have level : depth - 1 - index = depth + 1 - 1 - (index + 1) := by omega
          rw [stagesFrom, List.getElem?_cons_succ, ih (Nat.lt_of_succ_lt_succ inside), level,
            Nat.pow_succ, Nat.mul_assoc]

theorem sizeLimit_eq : sizeLimit = 2 ^ 64 := rfl

theorem depth_lt_of_toNat_eq {frameSize : UInt32} {depth : Nat}
    (size : frameSize.toNat = 2 ^ depth) : depth < 32 := by
  have below : 2 ^ depth < 2 ^ 32 := size ▸ frameSize.toNat_lt
  exact (Nat.pow_lt_pow_iff_right (by decide)).mp below

theorem isPowerOfTwo_two_pow {depth : Nat} (small : depth < 32) :
    IsPowerOfTwo (UInt32.ofNat (2 ^ depth)) := by
  have table : ∀ depth < 32, IsPowerOfTwo (UInt32.ofNat (2 ^ depth)) := by decide
  exact table depth small

theorem exponent_two_pow {depth : Nat} (small : depth < 32) :
    exponent (UInt32.ofNat (2 ^ depth)) = .ok (UInt32.ofNat depth) := by
  have table : ∀ depth < 32, singleBitIndex (UInt32.ofNat (2 ^ depth)) = UInt32.ofNat depth := by
    decide
  rw [exponent, require_of (isPowerOfTwo_two_pow small), ← table depth small]
  rfl

namespace Stage

theorem two_pow_lt_sizeLimit {depth : Nat} (small : depth < 64) : 2 ^ depth < sizeLimit := by
  rw [sizeLimit_eq]
  exact Nat.pow_lt_pow_right (by decide) small

theorem toNat_halfSpan_level {depth : Nat} (small : depth < 64) (branches : Nat) :
    (level depth branches).halfSpan.toNat = 2 ^ depth :=
  UInt64.toNat_ofNat_of_lt' (two_pow_lt_sizeLimit small)

theorem toNat_branches_level (depth : Nat) {branches : Nat} (small : branches < sizeLimit) :
    (level depth branches).branches.toNat = branches :=
  UInt64.toNat_ofNat_of_lt' small

theorem toNat_remaining_level {depth : Nat} (small : depth < 64) (branches : Nat) :
    (level depth branches).remaining.toNat = depth + 1 :=
  UInt32.toNat_ofNat_of_lt' (Nat.lt_trans (Nat.succ_lt_succ small) (by decide))

@[simp] theorem next_level_zero (branches : Nat) : (level 0 branches).next = none := rfl

theorem next_level_succ {depth : Nat} (small : depth + 1 < 64) (branches : Nat) :
    (level (depth + 1) branches).next = some (level depth (2 * branches)) := by
  have many : ¬ (level (depth + 1) branches).remaining ≤ 1 := by
    rw [UInt32.le_iff_toNat_le, toNat_remaining_level small]
    exact Nat.not_le.mpr (Nat.succ_lt_succ (Nat.succ_pos depth))
  have remaining : (level (depth + 1) branches).remaining - 1 = UInt32.ofNat (depth + 1) := by
    rw [level, UInt32.ofNat_add (depth + 1) 1]
    exact UInt32.add_sub_cancel _ _
  have half : (level (depth + 1) branches).halfSpan >>> 1 = UInt64.ofNat (2 ^ depth) := by
    apply UInt64.toNat_inj.mp
    rw [UInt64.toNat_shiftRight, toNat_halfSpan_level small,
      UInt64.toNat_ofNat_of_lt' (two_pow_lt_sizeLimit (Nat.lt_of_succ_lt small)), Nat.pow_succ]
    exact Nat.mul_div_cancel _ Nat.two_pos
  have twice : (level (depth + 1) branches).branches <<< 1 = UInt64.ofNat (2 * branches) := by
    have shifted := UInt64.ofNat_shiftLeft branches 1 (by decide)
    rw [Nat.shiftLeft_eq, Nat.pow_one, Nat.mul_comm] at shifted
    exact shifted.symm
  rw [next, if_neg many, remaining, half, twice, level]

theorem chain_level {depth : Nat} (small : depth < 64) (branches : Nat) :
    (level depth branches).chain = stagesFrom (depth + 1) branches := by
  induction depth generalizing branches with
  | zero => rw [chain_eq, next_level_zero]; rfl
  | succ depth ih =>
      have smaller : depth < 64 := Nat.lt_of_succ_lt small
      rw [chain_eq, next_level_succ small, stagesFrom, ← ih smaller]

theorem first_of_two_pow {frameSize : UInt32} {depth : Nat}
    (size : frameSize.toNat = 2 ^ (depth + 1)) : first frameSize = .ok (level depth 1) := by
  have below : 2 ^ (depth + 1) < 2 ^ 32 := size ▸ frameSize.toNat_lt
  have small := depth_lt_of_toNat_eq size
  have shape : frameSize = UInt32.ofNat (2 ^ (depth + 1)) :=
    UInt32.toNat_inj.mp (size.trans (UInt32.toNat_ofNat_of_lt' below).symm)
  have half : (frameSize >>> 1).toUInt64 = UInt64.ofNat (2 ^ depth) := by
    apply UInt64.toNat_inj.mp
    rw [UInt32.toNat_toUInt64, UInt32.toNat_shiftRight, size, Nat.pow_succ,
      UInt64.toNat_ofNat_of_lt' (two_pow_lt_sizeLimit (by omega))]
    exact Nat.mul_div_cancel _ Nat.two_pos
  rw [first, shape, exponent_two_pow small, ← shape, half]
  rfl

end Stage

/-- A frame of `2 ^ depth` symbols has `depth` stages, the first of them with one branch. -/
theorem stagesOf_of_two_pow {frameSize : UInt32} {depth : Nat}
    (size : frameSize.toNat = 2 ^ depth) : stagesOf frameSize = .ok (stagesFrom depth 1) := by
  cases depth with
  | zero =>
      have single : frameSize = 1 := UInt32.toNat_inj.mp size
      rw [single]
      rfl
  | succ depth =>
      have small := depth_lt_of_toNat_eq size
      have some_left : 0 < (Stage.level depth 1).remaining := by
        rw [UInt32.lt_iff_toNat_lt, Stage.toNat_remaining_level (by omega)]
        exact Nat.succ_pos depth
      rw [← Stage.chain_level (by omega : depth < 64) 1, stagesOf, StageCursor.ofFrameSize,
        Stage.first_of_two_pow size]
      simp [bind, Except.bind, pure, Except.pure, some_left, StageCursor.toList]

def Stage.split (stage : Stage) (symbols : List UInt8) : List UInt8 :=
  splitBranches stage.branches.toNat (2 * stage.halfSpan.toNat) symbols

def applyStages : List Stage → List UInt8 → List UInt8
  | [], symbols => symbols
  | stage :: later, symbols => applyStages later (stage.split symbols)

structure Stage.Spans (stage : Stage) (size : Nat) : Prop where
  nonempty : 0 < stage.halfSpan.toNat
  size_eq : stage.branches.toNat * (2 * stage.halfSpan.toNat) = size

namespace Stage.Spans

variable {stage : Stage} {size : Nat} {symbols : List UInt8}

theorem frameSize_eq (spans : stage.Spans size) (small : size < sizeLimit) :
    stage.frameSize = .ok size := by
  refine frameSize_eq_ok_iff.mpr ⟨?_, small⟩
  rw [Nat.mul_assoc, Nat.mul_comm _ 2, spans.size_eq]

theorem length_split (spans : stage.Spans size) (fit : size ≤ symbols.length) :
    (stage.split symbols).length = size := by
  rw [split, length_splitBranches (by rwa [spans.size_eq]), spans.size_eq]

/-- A stage looks at its own branches only. -/
theorem split_take (spans : stage.Spans size) (fit : size ≤ symbols.length) :
    stage.split (symbols.take size) = stage.split symbols := by
  rw [split, split, splitBranches_eq_mapBlocks, splitBranches_eq_mapBlocks,
    mapBlocks_take (Nat.le_of_eq spans.size_eq) fit]

end Stage.Spans

theorem length_applyStages {stages : List Stage} {size : Nat} {symbols : List UInt8}
    (spans : ∀ stage ∈ stages, stage.Spans size) (length : symbols.length = size) :
    (applyStages stages symbols).length = size := by
  induction stages generalizing symbols with
  | nil => exact length
  | cons stage later ih =>
      obtain ⟨first, others⟩ := List.forall_mem_cons.mp spans
      exact ih others (first.length_split (Nat.le_of_eq length.symm))

/-- A stage that fits an address space has the numbers it was made from. -/
theorem words_of_level {depth branches : Nat} (fits : branches * 2 ^ (depth + 1) < sizeLimit)
    (some_branch : 0 < branches) :
    (Stage.level depth branches).halfSpan.toNat = 2 ^ depth ∧
      (Stage.level depth branches).branches.toNat = branches := by
  have fewer : branches < sizeLimit :=
    Nat.lt_of_le_of_lt (Nat.le_mul_of_pos_right _ (Nat.two_pow_pos _)) fits
  have below : 2 ^ (depth + 1) < 2 ^ 64 :=
    Nat.lt_of_le_of_lt (Nat.le_mul_of_pos_left _ some_branch) fits
  have small : depth + 1 < 64 := (Nat.pow_lt_pow_iff_right (by decide)).mp below
  constructor
  · exact Stage.toNat_halfSpan_level (Nat.lt_of_succ_lt small) branches
  · exact Stage.toNat_branches_level depth fewer

theorem spans_level {depth branches : Nat} (fits : branches * 2 ^ (depth + 1) < sizeLimit)
    (some_branch : 0 < branches) :
    (Stage.level depth branches).Spans (branches * 2 ^ (depth + 1)) := by
  obtain ⟨half, count⟩ := words_of_level fits some_branch
  constructor
  · exact half ▸ Nat.two_pow_pos depth
  · rw [half, count, span_succ]

theorem branches_succ (depth branches : Nat) :
    2 * branches * 2 ^ depth = branches * 2 ^ (depth + 1) := by
  rw [← span_succ, Nat.mul_comm 2, Nat.mul_assoc]

/-- Every stage from one on spans the branches of that one. -/
theorem spans_of_mem_stagesFrom {depth branches : Nat} (fits : branches * 2 ^ depth < sizeLimit)
    (some_branch : 0 < branches) :
    ∀ stage ∈ stagesFrom depth branches, stage.Spans (branches * 2 ^ depth) := by
  induction depth generalizing branches with
  | zero => simp [stagesFrom]
  | succ depth ih =>
      have later := ih (by rwa [branches_succ]) (Nat.mul_pos Nat.two_pos some_branch)
      rw [branches_succ] at later
      rw [stagesFrom]
      exact List.forall_mem_cons.mpr ⟨spans_level fits some_branch, later⟩

/-- The one branch that a frame starts with fits an address space. -/
theorem frame_fits {frameSize : UInt32} {depth : Nat} (shape : frameSize.toNat = 2 ^ depth) :
    1 * 2 ^ depth < sizeLimit := by
  rw [Nat.one_mul, ← shape]
  exact Nat.lt_trans frameSize.toNat_lt (by decide)

/-- Every stage of a frame spans the whole frame. -/
theorem spans_of_mem_stages {frameSize : UInt32} {depth : Nat}
    (shape : frameSize.toNat = 2 ^ depth) :
    ∀ stage ∈ stagesFrom depth 1, stage.Spans (2 ^ depth) := by
  have spans := spans_of_mem_stagesFrom (frame_fits shape) Nat.one_pos
  rwa [Nat.one_mul] at spans

/-- A butterfly over a branch and the transforms of its halves make up its transform. -/
theorem mapBlocks_splitBranch {depth : Nat} {branch : List UInt8}
    (size : branch.length = 2 * 2 ^ depth) :
    mapBlocks (polarTransform depth) 2 (2 ^ depth) (splitBranch branch) =
      polarTransform (depth + 1) branch := by
  obtain ⟨sums, seconds⟩ := length_pairs size
  rw [splitBranch, polarTransform_succ, mapBlocks_add 1 1, Nat.one_mul,
    mapBlocks_append 1 _ (Nat.le_of_eq (by rw [sums, Nat.one_mul])), mapBlocks_one sums,
    List.drop_left' sums, mapBlocks_one seconds]

/-- The stages transform every branch that the first of them starts from. -/
theorem applyStages_stagesFrom {depth branches : Nat} {symbols : List UInt8}
    (fits : branches * 2 ^ depth < sizeLimit) (some_branch : 0 < branches)
    (size : symbols.length = branches * 2 ^ depth) :
    applyStages (stagesFrom depth branches) symbols =
      mapBlocks (polarTransform depth) branches (2 ^ depth) symbols := by
  induction depth generalizing branches symbols with
  | zero =>
      have unchanged : mapBlocks (polarTransform 0) branches (2 ^ 0) symbols = symbols := by
        rw [show polarTransform 0 = id from rfl, mapBlocks_id, ← size, List.take_length]
      exact unchanged.symm
  | succ depth ih =>
      obtain ⟨half, count⟩ := words_of_level fits some_branch
      have split : (Stage.level depth branches).split symbols =
          mapBlocks splitBranch branches (2 * 2 ^ depth) symbols := by
        rw [Stage.split, half, count, splitBranches_eq_mapBlocks]
      have room : branches * (2 * 2 ^ depth) ≤ symbols.length :=
        Nat.le_of_eq (by rw [size, span_succ])
      have keeps := keepsLength_splitBranch (2 ^ depth)
      calc applyStages (stagesFrom (depth + 1) branches) symbols
        _ = applyStages (stagesFrom depth (2 * branches))
              (mapBlocks splitBranch branches (2 * 2 ^ depth) symbols) := by
            rw [stagesFrom, applyStages, split]
        _ = mapBlocks (polarTransform depth) (branches * 2) (2 ^ depth)
              (mapBlocks splitBranch branches (2 * 2 ^ depth) symbols) := by
            rw [ih (by rwa [branches_succ]) (Nat.mul_pos Nat.two_pos some_branch), Nat.mul_comm 2]
            rw [length_mapBlocks keeps room, branches_succ, span_succ]
        _ = mapBlocks (polarTransform (depth + 1)) branches (2 ^ (depth + 1)) symbols := by
            rw [mapBlocks_mapBlocks keeps room, mapBlocks_congr room fun _ => mapBlocks_splitBranch,
              span_succ]

/-- The stages of a frame transform it. -/
theorem applyStages_frame {frameSize : UInt32} {depth : Nat} {symbols : List UInt8}
    (shape : frameSize.toNat = 2 ^ depth) (size : symbols.length = 2 ^ depth) :
    applyStages (stagesFrom depth 1) symbols = polarTransform depth symbols := by
  rw [applyStages_stagesFrom (frame_fits shape) Nat.one_pos (by rw [size, Nat.one_mul]),
    mapBlocks_one size]

end PolarCoding
