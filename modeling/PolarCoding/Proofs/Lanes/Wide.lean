import PolarCoding.Proofs.Lanes.Memory
import PolarCoding.Proofs.Lanes.Register
import PolarCoding.Proofs.Levels

/-!
# Runs of a wide stage

The reading position of a wide stage stands at the begin of the branch when a branch is begun, and
it has passed two registers for each register that was written to either half. A branch ends up
with the sums of its pairs, then their second symbols, and a wide stage with what the butterfly
leaves of all branches.
-/

namespace PolarCoding.Lanes

open Machine

def stepEvents (half source target : Nat) : List Event :=
  [.load source, .load (source + laneCount), .store target, .store (target + half)]

def stepsEvents (half : Nat) : (steps source target : Nat) → List Event
  | 0, _, _ => []
  | steps + 1, source, target =>
      stepEvents half source target ++
        stepsEvents half steps (source + 2 * laneCount) (target + laneCount)

def branchesEvents (half : Nat) : (count branch : Nat) → List Event
  | 0, _ => []
  | count + 1, branch =>
      let base := branch * (2 * half)
      stepsEvents half (half / laneCount) base base ++ branchesEvents half count (branch + 1)

def wideEvents (stage : Stage) : List Event :=
  .begin (.wide stage) :: branchesEvents stage.halfSpan.toNat stage.branches.toNat 0

def placePairs (symbols : List UInt8) (target half : Nat) (pairs : List UInt8) : List UInt8 :=
  overwrite (overwrite symbols target (pairSums pairs)) (target + half) (pairSeconds pairs)

section Pairs

variable {symbols pairs more : List UInt8} {target half count rest : Nat}

@[simp] theorem placePairs_nil (symbols : List UInt8) (target half : Nat) :
    placePairs symbols target half [] = symbols := by
  simp [placePairs, pairSums, pairSeconds]

@[simp] theorem length_placePairs (fit : target + half + pairs.length / 2 ≤ symbols.length) :
    (placePairs symbols target half pairs).length = symbols.length := by
  have first : (overwrite symbols target (pairSums pairs)).length = symbols.length :=
    length_overwrite (by rw [length_pairSums]; omega)
  rw [placePairs, length_overwrite (by rwa [length_pairSeconds, first]), first]

/-- Pairs are placed one portion after the other. -/
theorem placePairs_append (pairsSize : pairs.length = 2 * count) (moreSize : more.length = 2 * rest)
    (apart : count + rest ≤ half) (fit : target + half + (count + rest) ≤ symbols.length) :
    placePairs (placePairs symbols target half pairs) (target + count) half more =
      placePairs symbols target half (pairs ++ more) := by
  obtain ⟨sums, seconds⟩ := length_pairs pairsSize
  obtain ⟨moreSums, moreSeconds⟩ := length_pairs moreSize
  have even : pairs.length % 2 = 0 := by rw [pairsSize, Nat.mul_mod_right]
  have low : target + (pairSums pairs ++ pairSums more).length ≤ target + half := by
    rw [List.length_append, sums, moreSums]
    omega
  have high : target + half + (pairSeconds pairs ++ pairSeconds more).length ≤ symbols.length := by
    rw [List.length_append, seconds, moreSeconds]
    exact fit
  have runs := overwrite_runs low high
  rw [sums, seconds, Nat.add_right_comm target half] at runs
  obtain ⟨allSums, allSeconds⟩ := pairs_append even more
  rw [placePairs, placePairs, placePairs, runs, allSums, allSeconds]

/-- Placed half a branch apart, the pairs of a branch make up the branch after a butterfly. -/
theorem placePairs_branch (size : pairs.length = 2 * half)
    (fit : target + 2 * half ≤ symbols.length) :
    placePairs symbols target half pairs = overwrite symbols target (splitBranch pairs) := by
  obtain ⟨sums, _⟩ := length_pairs size
  rw [placePairs, splitBranch, overwrite_overwrite (by rw [sums]) (by omega)]

end Pairs

/-- Two neighbouring registers hold neighbouring symbols. -/
theorem toList_read_append {memory : Memory} {offset : Nat}
    (fit : offset + 2 * laneCount ≤ memory.cells.size) :
    (memory.read offset).toList ++ (memory.read (offset + laneCount)).toList =
      (memory.cells.toList.drop offset).take (2 * laneCount) := by
  rw [Memory.toList_read (by omega), Memory.toList_read (by omega), Nat.two_mul, List.take_add,
    List.drop_drop]

section Run

variable {mode : Mode} {machine : Machine} {size half source target : Nat}
  {symbols : List UInt8} {events : List Event}

/-- A step reads 32 symbols and places their pairs. -/
theorem wideStep_eq (ready : machine.Ready mode.access size) (small : size < sizeLimit)
    (length : symbols.length = machine.frameSymbols.length)
    (sourceWhole : source % laneCount = 0) (targetWhole : target % laneCount = 0)
    (halfWhole : half % laneCount = 0) (sourceFits : source + 2 * laneCount ≤ size)
    (targetFits : target + half + laneCount ≤ size) :
    wideStep mode half source target (machine.wrote symbols events) =
      .ok (source + 2 * laneCount)
        (machine.wrote
          (placePairs symbols target half
            ((machine.scratchSymbols.drop source).take (2 * laneCount)))
          (events ++ stepEvents half source target)) := by
  have upperWhole : (target + half) % laneCount = 0 := by
    rw [Nat.add_mod, targetWhole, halfWhole, Nat.zero_mod]
  have nextWhole : (source + laneCount) % laneCount = 0 := by
    rw [Nat.add_mod_right, sourceWhole]
  have pairs := toList_read_append (Nat.le_trans sourceFits ready.scratchFits)
  have lowList := toList_concatLow_butterflyLanes mode.unit (machine.scratch.read source)
    (machine.scratch.read (source + laneCount))
  have highList := toList_concatHigh_butterflyLanes mode.unit (machine.scratch.read source)
    (machine.scratch.read (source + laneCount))
  have lowLength (register : Register) :
      (overwrite symbols target register.toList).length = machine.frameSymbols.length := by
    apply ready.length_overwrite length
    rw [Register.length_toList]
    change target + laneCount ≤ size
    omega
  rw [pairs] at lowList highList
  rw [wideStep, Action.lift_bind_of_ok (Checked.add_of_lt (by omega)),
    Action.bind_of_ok (requireSizes_eq ready length (Nat.zero_le _) sourceFits),
    Action.lift_bind_of_ok (Checked.add_of_lt (by omega)),
    Action.lift_bind_of_ok (Checked.add_of_lt (by omega)),
    Action.bind_of_ok (requireSizes_eq ready length targetFits (Nat.zero_le _)),
    Action.bind_of_ok (load_eq ready sourceWhole (by omega)),
    Action.lift_bind_of_ok (Checked.add_of_lt (by omega)),
    Action.bind_of_ok (load_eq ready nextWhole (by omega)),
    Action.bind_of_ok (store_eq _ ready length targetWhole (by omega)),
    Action.bind_of_ok (store_eq _ ready (lowLength _) upperWhole targetFits), lowList, highList]
  simp only [stepEvents, List.append_assoc, List.cons_append, List.nil_append]
  rfl

/-- The steps of a branch place its pairs one portion after the other. -/
theorem wideSteps_eq {steps : Nat} (ready : machine.Ready mode.access size)
    (small : size < sizeLimit) (length : symbols.length = machine.frameSymbols.length)
    (sourceWhole : source % laneCount = 0) (targetWhole : target % laneCount = 0)
    (halfWhole : half % laneCount = 0) (inside : steps * laneCount ≤ half)
    (sourceFits : source + steps * (2 * laneCount) ≤ size)
    (targetFits : target + half + steps * laneCount ≤ size) :
    wideSteps mode half steps source target (machine.wrote symbols events) =
      .ok (source + steps * (2 * laneCount))
        (machine.wrote
          (placePairs symbols target half
            ((machine.scratchSymbols.drop source).take (steps * (2 * laneCount))))
          (events ++ stepsEvents half steps source target)) := by
  induction steps generalizing symbols events source target with
  | zero =>
      rw [Nat.zero_mul, List.take_zero, placePairs_nil, stepsEvents, List.append_nil]
      rfl
  | succ steps ih =>
      have scratchFits := ready.le_scratch
      have frameFits := ready.le_frame length
      have cursor : source + (steps + 1) * (2 * laneCount) =
          source + 2 * laneCount + steps * (2 * laneCount) := by
        rw [Nat.succ_mul, Nat.add_comm (steps * _), Nat.add_assoc]
      rw [Nat.succ_mul] at inside sourceFits targetFits
      have twice : steps * (2 * laneCount) = 2 * (steps * laneCount) := Nat.mul_left_comm _ _ _
      have first : ((machine.scratchSymbols.drop source).take (2 * laneCount)).length =
          2 * laneCount := length_portion (by omega)
      have others : ((machine.scratchSymbols.drop (source + 2 * laneCount)).take
          (steps * (2 * laneCount))).length = 2 * (steps * laneCount) := by
        rw [length_portion (by omega), twice]
      have placed : (placePairs symbols target half
          ((machine.scratchSymbols.drop source).take (2 * laneCount))).length =
          machine.frameSymbols.length := by
        rw [length_placePairs (by rw [first]; omega), length]
      have sourceNext : (source + 2 * laneCount) % laneCount = 0 := by
        rw [Nat.add_mul_mod_self_right, sourceWhole]
      have targetNext : (target + laneCount) % laneCount = 0 := by
        rw [Nat.add_mod_right, targetWhole]
      rw [wideSteps, Action.bind_of_ok (wideStep_eq ready small length sourceWhole targetWhole
        halfWhole (by omega) (by omega)), ih placed sourceNext targetNext (by omega) (by omega)
        (by omega), placePairs_append first others (by omega) (by omega),
        portion_succ _ _ steps (2 * laneCount), stepsEvents, List.append_assoc,
        cursor]

/-- The branches from `branch` on are taken apart. -/
theorem wideBranches_eq {count branch : Nat} (ready : machine.Ready mode.access size)
    (small : size < sizeLimit) (length : symbols.length = machine.frameSymbols.length)
    (positive : 0 < half) (halfWhole : half % laneCount = 0)
    (fit : (branch + count) * (2 * half) ≤ size) :
    wideBranches mode half count branch (branch * (2 * half)) (machine.wrote symbols events) =
      .ok ()
        (machine.wrote
          (overwrite symbols (branch * (2 * half))
            (splitBranches count (2 * half) (machine.scratchSymbols.drop (branch * (2 * half)))))
          (events ++ branchesEvents half count branch)) := by
  induction count generalizing symbols events branch with
  | zero =>
      rw [splitBranches, overwrite_nil, branchesEvents, List.append_nil]
      rfl
  | succ count ih =>
      have next : (branch + 1) * (2 * half) = branch * (2 * half) + 2 * half := Nat.succ_mul _ _
      have stop : branch * (2 * half) + 2 * half ≤ size := by
        rw [← next]
        exact Nat.le_trans (Nat.mul_le_mul_right _ (by omega)) fit
      have scratchFits := Nat.le_trans stop ready.le_scratch
      have frameFits := Nat.le_trans stop (ready.le_frame length)
      have base : branch * 2 * half = branch * (2 * half) := Nat.mul_assoc _ _ _
      have baseWhole : branch * (2 * half) % laneCount = 0 := by
        rw [Nat.mul_mod, Nat.mul_mod 2, halfWhole, Nat.mul_zero, Nat.zero_mod, Nat.mul_zero,
          Nat.zero_mod]
      have steps : half / laneCount * laneCount = half :=
        Nat.div_mul_cancel (Nat.dvd_of_mod_eq_zero halfWhole)
      have pairs : half / laneCount * (2 * laneCount) = 2 * half := by
        rw [Nat.mul_left_comm, steps]
      have halvesSmall : branch * 2 < sizeLimit := by
        have := Nat.le_mul_of_pos_right (branch * 2) positive
        omega
      have portion := length_portion scratchFits
      have split := (keepsLength_splitBranch half) _ portion
      have written : (overwrite symbols (branch * (2 * half))
          (splitBranch ((machine.scratchSymbols.drop (branch * (2 * half))).take
            (2 * half)))).length = machine.frameSymbols.length := by
        apply ready.length_overwrite length
        rwa [split]
      have reach : (branch + 1 + count) * (2 * half) ≤ size := by
        rwa [Nat.add_right_comm, Nat.add_assoc]
      rw [wideBranches, Action.lift_bind_of_ok (Checked.mul_of_lt halvesSmall),
        Action.lift_bind_of_ok (Checked.mul_of_lt (by omega)), base,
        Action.lift_bind_of_ok (Checked.add_of_lt (by omega)),
        Action.bind_of_ok (wideSteps_eq ready small length baseWhole baseWhole halfWhole
          (Nat.le_of_eq steps) (by omega) (by omega)),
        pairs, placePairs_branch portion frameFits, ← next, ih written reach, next,
        overwrite_overwrite (by rw [split]) frameFits, splitBranches, List.drop_drop,
        branchesEvents, List.append_assoc]

/-- A wide stage leaves at the front of the frame what the butterfly makes of the scratch buffer. -/
theorem wideStage_eq {stage : Stage} (ready : machine.Ready mode.access size)
    (small : size < sizeLimit) (length : symbols.length = machine.frameSymbols.length)
    (spans : stage.Spans size) (halfWhole : stage.halfSpan.toNat % laneCount = 0) :
    wideStage mode stage (machine.wrote symbols events) =
      .ok () (machine.wrote (overwrite symbols 0 (stage.split machine.scratchSymbols))
        (events ++ wideEvents stage)) := by
  have positive := spans.nonempty
  have register : laneCount ≤ stage.halfSpan.toNat :=
    Nat.le_of_dvd positive (Nat.dvd_of_mod_eq_zero halfWhole)
  have fit : (0 + stage.branches.toNat) * (2 * stage.halfSpan.toNat) ≤ size := by
    rw [Nat.zero_add, spans.size_eq]
  have run : wideBranches mode stage.halfSpan.toNat stage.branches.toNat 0
      (0 * (2 * stage.halfSpan.toNat))
      (machine.wrote symbols (events ++ [.begin (.wide stage)])) = _ :=
    wideBranches_eq ready small length positive halfWhole fit
  rw [Nat.zero_mul, List.drop_zero, List.append_assoc] at run
  rw [wideStage, Action.require_bind ⟨register, halfWhole⟩,
    Action.lift_bind_of_ok (spans.frameSize_eq small),
    Action.bind_of_ok (requireSizes_eq ready length (Nat.le_refl _) (Nat.le_refl _)),
    Action.bind_of_ok (note_eq _), run]
  rfl

end Run

end PolarCoding.Lanes
