import PolarCoding.Proofs.Lanes.Memory
import PolarCoding.Proofs.Lanes.Register

/-!
# Runs of a fused pass

When a branch is begun its register has been loaded already, and the register of the next branch
is loaded before this one is stored. The pass transforms every branch of sixteen symbols.
-/

namespace PolarCoding.Lanes

open Machine

def prefetchEvents (total branch : Nat) : List Event :=
  if branch + 1 < total then [.load (branch * laneCount + laneCount)] else []

/-- The accesses for the branches from `branch` on, the first of which has been loaded. -/
def fusedBranchesEvents (total : Nat) : (count branch : Nat) → List Event
  | 0, _ => []
  | count + 1, branch =>
      prefetchEvents total branch ++
        .store (branch * laneCount) :: fusedBranchesEvents total count (branch + 1)

def fusedEvents (branches : Nat) : List Event :=
  .begin (.fused branches) :: .load 0 :: fusedBranchesEvents branches branches 0

variable {mode : Mode} {machine : Machine} {size total : Nat} {symbols : List UInt8}
  {events : List Event}

/-- Finishing a branch stores its transform. -/
theorem store_fused_eq {branch : Nat} {loaded : Register}
    (ready : machine.Ready mode.access size)
    (length : symbols.length = machine.frameSymbols.length)
    (fit : branch * laneCount + laneCount ≤ size)
    (read : loaded = machine.scratch.read (branch * laneCount)) :
    store mode.access (branch * laneCount) (fusedFinish (fusedBegin mode.unit loaded))
        (machine.wrote symbols events) =
      .ok () (machine.wrote
        (overwrite symbols (branch * laneCount)
          (polarTransform 4 ((machine.scratchSymbols.drop (branch * laneCount)).take laneCount)))
        (events ++ [.store (branch * laneCount)])) := by
  have whole : branch * laneCount % laneCount = 0 := Nat.mul_mod_left branch laneCount
  have symbols := Memory.toList_read (Nat.le_trans fit ready.scratchFits)
  rw [store_eq _ ready length whole fit, toList_fused, read, symbols]
  rfl

/-- The branches from `branch` on are transformed. -/
theorem fusedBranches_eq {count branch : Nat} {loaded : Register}
    (ready : machine.Ready mode.access size) (small : size < sizeLimit)
    (length : symbols.length = machine.frameSymbols.length) (sum : branch + count = total)
    (fit : total * laneCount ≤ size)
    (read : 0 < count → loaded = machine.scratch.read (branch * laneCount)) :
    fusedBranches mode total count branch loaded (machine.wrote symbols events) =
      .ok ()
        (machine.wrote
          (overwrite symbols (branch * laneCount)
            (mapBlocks (polarTransform 4) count laneCount
              (machine.scratchSymbols.drop (branch * laneCount))))
          (events ++ fusedBranchesEvents total count branch)) := by
  induction count generalizing symbols events branch loaded with
  | zero =>
      rw [mapBlocks, overwrite_nil, fusedBranchesEvents, List.append_nil]
      rfl
  | succ count ih =>
      have next : (branch + 1) * laneCount = branch * laneCount + laneCount := Nat.succ_mul _ _
      have later : branch + 1 + count = total := by omega
      have branchSmall : branch + 1 < sizeLimit := by
        have := Nat.le_mul_of_pos_right total (by decide : 0 < laneCount)
        omega
      have offset : branch * laneCount < sizeLimit :=
        Nat.lt_of_le_of_lt (Nat.mul_le_mul_right _ (by omega)) (Nat.lt_of_le_of_lt fit small)
      have stop : branch * laneCount + laneCount ≤ size := by
        rw [← next]
        exact Nat.le_trans (Nat.mul_le_mul_right _ (by omega)) fit
      have portion : ((machine.scratchSymbols.drop (branch * laneCount)).take laneCount).length =
          2 ^ 4 := length_portion (Nat.le_trans stop ready.le_scratch)
      have block : (polarTransform 4
          ((machine.scratchSymbols.drop (branch * laneCount)).take laneCount)).length = laneCount :=
        length_polarTransform portion
      have written : (overwrite symbols (branch * laneCount) (polarTransform 4
          ((machine.scratchSymbols.drop (branch * laneCount)).take laneCount))).length =
          machine.frameSymbols.length :=
        ready.length_overwrite length (by rwa [block])
      have finish (earlier : List Event) (following : Register)
          (prefetched : 0 < count → following = machine.scratch.read ((branch + 1) * laneCount)) :
          (store mode.access (branch * laneCount) (fusedFinish (fusedBegin mode.unit loaded)) >>=
              fun _ => fusedBranches mode total count (branch + 1) following)
            (machine.wrote symbols earlier) =
          .ok ()
            (machine.wrote
              (overwrite symbols (branch * laneCount)
                (mapBlocks (polarTransform 4) (count + 1) laneCount
                  (machine.scratchSymbols.drop (branch * laneCount))))
              (earlier ++ .store (branch * laneCount) ::
                fusedBranchesEvents total count (branch + 1))) := by
        rw [Action.bind_of_ok (store_fused_eq ready length stop (read (Nat.succ_pos count))),
          ih written later prefetched, next, overwrite_overwrite (by rw [block])
            (Nat.le_trans stop (ready.le_frame length)),
          mapBlocks, List.drop_drop, List.append_assoc]
        rfl
      rw [fusedBranches, Action.lift_bind_of_ok (Checked.mul_of_lt offset),
        Action.lift_bind_of_ok (Checked.add_of_lt branchSmall)]
      by_cases more : branch + 1 < total
      · have nextWhole : (branch * laneCount + laneCount) % laneCount = 0 := by
          rw [← next, Nat.mul_mod_left]
        have nextStop : branch * laneCount + laneCount + laneCount ≤ size := by
          rw [← next, ← Nat.succ_mul]
          exact Nat.le_trans (Nat.mul_le_mul_right _ (by omega)) fit
        rw [if_pos more, Action.lift_bind_of_ok (Checked.add_of_lt (by omega)),
          Action.bind_of_ok (load_eq ready nextWhole nextStop)]
        refine (finish _ _ (fun _ => by rw [next])).trans ?_
        rw [fusedBranchesEvents, prefetchEvents, if_pos more, List.append_assoc]
      · rw [if_neg more, Action.bind_of_ok (Action.pure_apply _ _)]
        refine (finish _ _ (fun some_left => absurd some_left (by omega))).trans ?_
        rw [fusedBranchesEvents, prefetchEvents, if_neg more, List.nil_append]

/-- A fused pass leaves the transforms of all registers at the front of the frame. -/
theorem fusedStages_eq {branches : Nat} (ready : machine.Ready mode.access size)
    (small : size < sizeLimit) (length : symbols.length = machine.frameSymbols.length)
    (some_branch : 0 < branches) (whole : branches * laneCount = size) :
    fusedStages mode branches (machine.wrote symbols events) =
      .ok ()
        (machine.wrote
          (overwrite symbols 0
            (mapBlocks (polarTransform 4) branches laneCount machine.scratchSymbols))
          (events ++ fusedEvents branches)) := by
  have first : 0 + laneCount ≤ size := by
    rw [Nat.zero_add, ← whole]
    exact Nat.le_mul_of_pos_left _ some_branch
  have run : fusedBranches mode branches branches 0 (machine.scratch.read 0)
      (machine.wrote symbols (events ++ [.begin (.fused branches)] ++ [.load 0])) = _ :=
    fusedBranches_eq ready small length (Nat.zero_add _) (Nat.le_of_eq whole)
      (fun _ => by rw [Nat.zero_mul])
  rw [Nat.zero_mul, List.drop_zero, List.append_assoc, List.append_assoc] at run
  rw [fusedStages, Action.require_bind some_branch,
    Action.lift_bind_of_ok (Checked.mul_of_lt (whole ▸ small)),
    Action.bind_of_ok (requireSizes_eq ready length (Nat.le_of_eq whole) (Nat.le_of_eq whole)),
    Action.bind_of_ok (note_eq _), Action.bind_of_ok (load_eq ready (Nat.zero_mod _) first),
    List.append_assoc, run]
  rfl

end PolarCoding.Lanes
