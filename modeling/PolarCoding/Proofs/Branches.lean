import PolarCoding.Proofs.Blocks
import PolarCoding.Proofs.Overwrite
import PolarCoding.Proofs.Pairs
import PolarCoding.Proofs.Runs

/-!
# One butterfly stage on two buffers

A stage checks its numbers and the lengths of both buffers before it writes anything. If all checks
pass, every pair of every branch is there to be read and its two results have a place, so a walk
over both buffers that would stop wherever one of them ends covers all pairs and nothing else.
-/

namespace PolarCoding

def butterflyOnto (branches halfSpan : UInt64) (input : List UInt8) :
    Action (List UInt8) Unit := do
  let output ← get
  set (← butterfly branches halfSpan input output)

section Runs

variable {branches halfSpan : UInt64} {input output : List UInt8}

theorem butterflyOnto_of_ok {result : List UInt8}
    (run : butterfly branches halfSpan input output = .ok result) :
    butterflyOnto branches halfSpan input output = .ok () result := by
  rw [butterflyOnto, Action.get_bind, Action.lift_bind_of_ok run, Action.set_apply]

theorem butterflyOnto_of_error {fault : Fault}
    (run : butterfly branches halfSpan input output = .error fault) :
    butterflyOnto branches halfSpan input output = .error fault output := by
  rw [butterflyOnto, Action.get_bind, Action.lift_bind_of_error run]

end Runs

/-! ## Walking over both buffers -/

/-- Write the sum of each pair over one sequence and its second symbol over another, until one of
the three sequences ends. -/
def writePairs : (sums seconds input : List UInt8) → List UInt8 × List UInt8
  | _ :: sums, _ :: seconds, first :: second :: input =>
      let written := writePairs sums seconds input
      ((first ^^^ second) :: written.1, second :: written.2)
  | sums, seconds, _ => (sums, seconds)

/-- Go through both buffers in step, until `branches` branches are written or one of the buffers
has no whole branch left. -/
def walkBranches (halfSpan : Nat) : (branches : Nat) → (input output : List UInt8) → List UInt8
  | 0, _, output => output
  | branches + 1, input, output =>
      let span := 2 * halfSpan
      if span ≤ output.length ∧ span ≤ input.length then
        let written := writePairs (output.take halfSpan) ((output.drop halfSpan).take halfSpan)
          (input.take span)
        written.1 ++ written.2 ++ walkBranches halfSpan branches (input.drop span)
          (output.drop span)
      else output

/-- No sequence ends early if each half has a place for every pair. -/
theorem writePairs_eq {count : Nat} {sums seconds input : List UInt8}
    (sumsRoom : sums.length = count) (secondsRoom : seconds.length = count)
    (pairs : input.length = 2 * count) :
    writePairs sums seconds input = (pairSums input, pairSeconds input) := by
  induction count generalizing sums seconds input with
  | zero =>
      obtain rfl := List.length_eq_zero_iff.mp sumsRoom
      obtain rfl := List.length_eq_zero_iff.mp secondsRoom
      obtain rfl := List.length_eq_zero_iff.mp pairs
      rfl
  | succ count ih =>
      match sums, seconds, input with
      | _ :: sums, _ :: seconds, first :: second :: rest =>
          have later : writePairs sums seconds rest = (pairSums rest, pairSeconds rest) :=
            ih (Nat.succ.inj sumsRoom) (Nat.succ.inj secondsRoom) (by
              simp only [List.length_cons] at pairs
              omega)
          rw [writePairs, later, pairSums, pairSeconds]

/-- Between buffers that hold all branches, the walk comes to the last one and leaves what is
behind it. -/
theorem walkBranches_eq {halfSpan branches : Nat} {input output : List UInt8}
    (inputFit : branches * (2 * halfSpan) ≤ input.length)
    (outputFit : branches * (2 * halfSpan) ≤ output.length) :
    walkBranches halfSpan branches input output =
      splitBranches branches (2 * halfSpan) input ++ output.drop (branches * (2 * halfSpan)) := by
  induction branches generalizing input output with
  | zero => rw [Nat.zero_mul, List.drop_zero]; rfl
  | succ branches ih =>
      obtain ⟨inputFront, inputLater⟩ := blocks_fit_succ inputFit
      obtain ⟨outputFront, outputLater⟩ := blocks_fit_succ outputFit
      have written : writePairs (output.take halfSpan) ((output.drop halfSpan).take halfSpan)
          (input.take (2 * halfSpan)) =
            (pairSums (input.take (2 * halfSpan)), pairSeconds (input.take (2 * halfSpan))) := by
        apply writePairs_eq (List.length_take_of_le (by omega)) (length_portion (by omega))
        exact List.length_take_of_le inputFront
      rw [walkBranches, if_pos ⟨outputFront, inputFront⟩, written,
        ih (by rwa [List.length_drop]) (by rwa [List.length_drop]), splitBranches, splitBranch,
        List.drop_drop, Nat.succ_mul branches, Nat.add_comm (branches * _)]
      exact (List.append_assoc _ _ _).symm

/-! ## Every pair of every branch -/

/-- A pair of a branch has its sum in the first half and its second symbol in the second half. -/
theorem getElem?_splitBranch {half index : Nat} {branch : List UInt8} {first second : UInt8}
    (size : branch.length = 2 * half) (inside : index < half)
    (firstAt : branch[2 * index]? = some first) (secondAt : branch[2 * index + 1]? = some second) :
    (splitBranch branch)[index]? = some (first ^^^ second) ∧
      (splitBranch branch)[half + index]? = some second := by
  obtain ⟨sums, seconds⟩ := length_pairs size
  constructor
  · rw [splitBranch, List.getElem?_append_left (by rwa [sums]), getElem?_pairSums, secondAt,
      List.getD, firstAt]
    rfl
  · rw [splitBranch, List.getElem?_append_right (by omega), sums, Nat.add_sub_cancel_left,
      getElem?_pairSeconds, secondAt]

/-- Every pair is read from a buffer that holds all branches, and both results stand in the half of
its branch that they belong to. -/
theorem getElem?_splitBranches {count half branch index : Nat} {input : List UInt8}
    (fit : count * (2 * half) ≤ input.length) (counted : branch < count) (inside : index < half) :
    ∃ first second,
      input[2 * half * branch + 2 * index]? = some first ∧
        input[2 * half * branch + 2 * index + 1]? = some second ∧
        (splitBranches count (2 * half) input)[2 * half * branch + index]? =
          some (first ^^^ second) ∧
        (splitBranches count (2 * half) input)[2 * half * branch + half + index]? =
          some second := by
  have room : 2 * half * branch + 2 * half ≤ input.length :=
    calc 2 * half * branch + 2 * half
      _ = (branch + 1) * (2 * half) := by rw [← Nat.mul_succ, Nat.mul_comm]
      _ ≤ count * (2 * half) := Nat.mul_le_mul_right _ counted
      _ ≤ input.length := fit
  have size : ((input.drop (2 * half * branch)).take (2 * half)).length = 2 * half :=
    length_portion room
  have read (offset : Nat) (within : offset < 2 * half) :
      ∃ symbol, input[2 * half * branch + offset]? = some symbol ∧
        ((input.drop (2 * half * branch)).take (2 * half))[offset]? = some symbol := by
    have present : 2 * half * branch + offset < input.length := by omega
    refine ⟨_, List.getElem?_eq_getElem present, ?_⟩
    rw [List.getElem?_take_of_lt within, List.getElem?_drop, List.getElem?_eq_getElem present]
  obtain ⟨first, firstAt, firstRead⟩ := read (2 * index) (by omega)
  obtain ⟨second, secondAt, secondRead⟩ := read (2 * index + 1) (by omega)
  obtain ⟨sum, last⟩ := getElem?_splitBranch size inside firstRead secondRead
  have keeps := keepsLength_splitBranch half
  refine ⟨first, second, firstAt, secondAt, ?_, ?_⟩
  · rw [splitBranches_eq_mapBlocks, getElem?_mapBlocks keeps fit counted (by omega), sum]
  · rw [splitBranches_eq_mapBlocks, Nat.add_assoc,
      getElem?_mapBlocks keeps fit counted (by omega), last]

/-! ## What a stage reports -/

/-- What the check of each rank looks for, and how it is reported. -/
inductive StageDefect (branches halfSpan : UInt64) (input output : List UInt8) :
    (rank : Nat) → Fault → Prop where
  | longBranch (fails : sizeLimit ≤ 2 * halfSpan.toNat) :
      StageDefect branches halfSpan input output 0 .productOverflow
  | emptyBranch (fails : halfSpan.toNat = 0) :
      StageDefect branches halfSpan input output 1 .emptyBranch
  | manyBranches (fails : sizeLimit ≤ branches.toNat * (2 * halfSpan.toNat)) :
      StageDefect branches halfSpan input output 2 .productOverflow
  | shortFrame (fails : output.length < branches.toNat * (2 * halfSpan.toNat)) :
      StageDefect branches halfSpan input output 3 .frameShorterThanStage
  | shortScratch (fails : input.length < branches.toNat * (2 * halfSpan.toNat)) :
      StageDefect branches halfSpan input output 4 .scratchShorterThanStage

def FirstStageDefect (branches halfSpan : UInt64) (input output : List UInt8) (fault : Fault) :
    Prop :=
  ∃ rank, StageDefect branches halfSpan input output rank fault ∧
    ∀ lower < rank, ∀ other, ¬ StageDefect branches halfSpan input output lower other

section Reports

variable {branches halfSpan : UInt64} {input output : List UInt8}

theorem require_bind {condition : Prop} [Decidable condition] {fault : Fault} {α : Type}
    (continuation : Unit → Except Fault α) :
    (require condition fault >>= continuation) =
      if condition then continuation () else .error fault := by
  unfold require
  split_ifs <;> rfl

/-- The checks of a stage, one inside the other. -/
theorem butterfly_checks (branches halfSpan : UInt64) (input output : List UInt8) :
    butterfly branches halfSpan input output =
      if 2 * halfSpan.toNat < sizeLimit then
        if 0 < halfSpan.toNat then
          if branches.toNat * (2 * halfSpan.toNat) < sizeLimit then
            if branches.toNat * (2 * halfSpan.toNat) ≤ output.length then
              if branches.toNat * (2 * halfSpan.toNat) ≤ input.length then
                .ok (splitBranches branches.toNat (2 * halfSpan.toNat) input ++
                  output.drop (branches.toNat * (2 * halfSpan.toNat)))
              else .error .scratchShorterThanStage
            else .error .frameShorterThanStage
          else .error .productOverflow
        else .error .emptyBranch
      else .error .productOverflow := by
  have nonempty : 0 < halfSpan ↔ 0 < halfSpan.toNat := UInt64.lt_iff_toNat_lt
  simp only [butterfly, Checked.mul, Checked.below_bind, require_bind, nonempty]
  rfl

/-- A stage ends with its first defect, or there is none and all branches are written. -/
theorem butterfly_reports (branches halfSpan : UInt64) (input output : List UInt8) :
    (∃ fault, butterfly branches halfSpan input output = .error fault ∧
        FirstStageDefect branches halfSpan input output fault) ∨
      ((∀ rank fault, ¬ StageDefect branches halfSpan input output rank fault) ∧
        butterfly branches halfSpan input output =
          .ok (splitBranches branches.toNat (2 * halfSpan.toNat) input ++
            output.drop (branches.toNat * (2 * halfSpan.toNat)))) := by
  rw [butterfly_checks]
  split_ifs with span nonempty size frame scratch
  · refine .inr ⟨?_, rfl⟩
    intro rank fault defect
    cases defect <;> omega
  · refine .inl ⟨_, rfl, 4, .shortScratch (Nat.not_le.mp scratch), ?_⟩
    intro lower below other earlier
    cases earlier <;> omega
  · refine .inl ⟨_, rfl, 3, .shortFrame (Nat.not_le.mp frame), ?_⟩
    intro lower below other earlier
    cases earlier <;> omega
  · refine .inl ⟨_, rfl, 2, .manyBranches (Nat.not_lt.mp size), ?_⟩
    intro lower below other earlier
    cases earlier <;> omega
  · refine .inl ⟨_, rfl, 1, .emptyBranch (Nat.eq_zero_of_not_pos nonempty), ?_⟩
    intro lower below other earlier
    cases earlier <;> omega
  · refine .inl ⟨_, rfl, 0, .longBranch (Nat.not_lt.mp span), ?_⟩
    intro lower below other earlier
    cases earlier <;> omega

/-- The five things that can be wrong with a stage. -/
theorem exists_stageDefect_iff :
    (∃ rank fault, StageDefect branches halfSpan input output rank fault) ↔
      sizeLimit ≤ 2 * halfSpan.toNat ∨ halfSpan.toNat = 0 ∨
        sizeLimit ≤ branches.toNat * (2 * halfSpan.toNat) ∨
        output.length < branches.toNat * (2 * halfSpan.toNat) ∨
        input.length < branches.toNat * (2 * halfSpan.toNat) := by
  constructor
  · rintro ⟨rank, fault, defect⟩
    cases defect with
    | longBranch fails => exact .inl fails
    | emptyBranch fails => exact .inr (.inl fails)
    | manyBranches fails => exact .inr (.inr (.inl fails))
    | shortFrame fails => exact .inr (.inr (.inr (.inl fails)))
    | shortScratch fails => exact .inr (.inr (.inr (.inr fails)))
  · rintro (fails | fails | fails | fails | fails)
    · exact ⟨0, _, .longBranch fails⟩
    · exact ⟨1, _, .emptyBranch fails⟩
    · exact ⟨2, _, .manyBranches fails⟩
    · exact ⟨3, _, .shortFrame fails⟩
    · exact ⟨4, _, .shortScratch fails⟩

end Reports

/-- A butterfly stage faults exactly if a branch is longer than an address space, a branch is empty,
all branches together are longer than an address space, or one of the buffers does not hold them.
It reports the first of these in this order and leaves the frame as it was. Otherwise every pair of
every branch leaves its sum in the first half of the branch and its second symbol in the second
half, and whatever stands behind the branches is unchanged. The two buffers need not have the same
length and there may be no branches. A walk that goes through both buffers in step leaves the
same. -/
theorem butterfly_is_exact (branches halfSpan : UInt64) (input output : List UInt8) :
    ((∃ fault after, butterflyOnto branches halfSpan input output = .error fault after) ↔
        sizeLimit ≤ 2 * halfSpan.toNat ∨ halfSpan.toNat = 0 ∨
          sizeLimit ≤ branches.toNat * (2 * halfSpan.toNat) ∨
          output.length < branches.toNat * (2 * halfSpan.toNat) ∨
          input.length < branches.toNat * (2 * halfSpan.toNat)) ∧
      (∀ fault after, butterflyOnto branches halfSpan input output = .error fault after →
        after = output ∧ FirstStageDefect branches halfSpan input output fault) ∧
      ((∀ fault after, butterflyOnto branches halfSpan input output ≠ .error fault after) →
        ∃ after, butterflyOnto branches halfSpan input output = .ok () after ∧
          after.length = output.length ∧
          (∀ branch < branches.toNat, ∀ index < halfSpan.toNat, ∃ first second,
            input[2 * halfSpan.toNat * branch + 2 * index]? = some first ∧
              input[2 * halfSpan.toNat * branch + 2 * index + 1]? = some second ∧
              after[2 * halfSpan.toNat * branch + index]? = some (first ^^^ second) ∧
              after[2 * halfSpan.toNat * branch + halfSpan.toNat + index]? = some second) ∧
          (∀ position, branches.toNat * (2 * halfSpan.toNat) ≤ position →
            after[position]? = output[position]?) ∧
          after = walkBranches halfSpan.toNat branches.toNat input output) := by
  rw [← exists_stageDefect_iff]
  obtain ⟨fault, refused, first⟩ | ⟨clear, written⟩ :=
    butterfly_reports branches halfSpan input output
  · have run := butterflyOnto_of_error refused
    refine ⟨⟨?_, fun _ => ⟨fault, output, run⟩⟩, ?_, ?_⟩
    · rintro -
      obtain ⟨rank, defect, -⟩ := first
      exact ⟨rank, fault, defect⟩
    · intro reported after again
      rw [run] at again
      cases again
      exact ⟨rfl, first⟩
    · intro returns
      exact absurd run (returns fault output)
  · have run := butterflyOnto_of_ok written
    have frameFit : branches.toNat * (2 * halfSpan.toNat) ≤ output.length :=
      Nat.not_lt.mp fun fails => clear 3 _ (.shortFrame fails)
    have scratchFit : branches.toNat * (2 * halfSpan.toNat) ≤ input.length :=
      Nat.not_lt.mp fun fails => clear 4 _ (.shortScratch fails)
    have front := length_splitBranches scratchFit
    refine ⟨⟨?_, ?_⟩, ?_, fun _ => ⟨_, run, ?_, ?_, ?_, ?_⟩⟩
    · rintro ⟨fault, after, refused⟩
      rw [run] at refused
      cases refused
    · rintro ⟨rank, fault, defect⟩
      exact absurd defect (clear rank fault)
    · intro fault after refused
      rw [run] at refused
      cases refused
    · rw [List.length_append, front, List.length_drop]
      exact Nat.add_sub_cancel' frameFit
    · intro branch counted index inside
      obtain ⟨first, second, firstAt, secondAt, sum, last⟩ :=
        getElem?_splitBranches scratchFit counted inside
      refine ⟨first, second, firstAt, secondAt, ?_, ?_⟩
      · rw [List.getElem?_append_left (List.getElem?_eq_some_iff.mp sum).1, sum]
      · rw [List.getElem?_append_left (List.getElem?_eq_some_iff.mp last).1, last]
    · intro position behind
      rw [List.getElem?_append_right (front ▸ behind), front, List.getElem?_drop,
        Nat.add_sub_cancel' behind]
    · exact (walkBranches_eq scratchFit frameFit).symm

/-- Three symbols stay behind two branches of three pairs each, and the input has one more symbol
than is read. -/
example :
    butterflyOnto 2 3 [1, 2, 4, 8, 16, 32, 3, 5, 7, 11, 13, 17, 99]
        [0, 0, 0, 0, 0, 0, 0, 0, 0, 0, 0, 0, 70, 71, 72] =
      .ok () [3, 12, 48, 2, 8, 32, 6, 12, 28, 5, 11, 17, 70, 71, 72] := rfl

end PolarCoding
