import Mathlib.Algebra.Group.Nat.Defs
import PolarCoding.Stage.Basic

/-!
# Chains of stages

A chain may start from any three words, also from ones that no frame gives rise to: halving then
loses the lowest bit of an odd half and doubling the highest bit of a branch count. The chain ends
when one stage is left. If the first half is divisible often enough and the first stage has a frame
size, nothing is lost on the way and the whole chain has that frame size.
-/

namespace PolarCoding.Stage

variable {stage middle later : Stage} {steps size : Nat}

/-- The stage after this one. What is left is one stage fewer, as a checked difference. -/
def successor (stage : Stage) : Except Fault (Option Stage) := do
  if stage.remaining ≤ 1 then pure none
  else
    let remaining ← Checked.sub stage.remaining.toNat 1
    pure (some ⟨UInt32.ofNat remaining, stage.halfSpan >>> 1, stage.branches <<< 1⟩)

def reach : (steps : Nat) → Stage → Except Fault (Option Stage)
  | 0, stage => pure (some stage)
  | steps + 1, stage => do
      match ← stage.successor with
      | none => pure none
      | some later => reach steps later

/-- The stage that stands some steps behind another one: so many stages fewer are left, and as words
the half is halved and the branches are doubled so many times. -/
structure StandsBehind (stage : Stage) (steps : Nat) (later : Stage) : Prop where
  remaining_eq : later.remaining.toNat = stage.remaining.toNat - steps
  halfSpan_eq : later.halfSpan.toNat = stage.halfSpan.toNat / 2 ^ steps
  branches_eq : later.branches.toNat = stage.branches.toNat * 2 ^ steps % sizeLimit

theorem one_lt_remaining_of_next (step : stage.next = some later) :
    1 < stage.remaining.toNat := by
  apply Nat.lt_of_not_le
  intro few
  have last := (next_eq_none_iff stage).mpr (UInt32.le_iff_toNat_le.mpr few)
  rw [last] at step
  cases step

theorem eq_of_next (step : stage.next = some later) :
    later = ⟨stage.remaining - 1, stage.halfSpan >>> 1, stage.branches <<< 1⟩ := by
  have many : ¬ stage.remaining ≤ 1 := fun few =>
    absurd (UInt32.le_iff_toNat_le.mp few) (Nat.not_le.mpr (one_lt_remaining_of_next step))
  rw [next, if_neg many] at step
  exact (Option.some.inj step).symm

/-- The difference is never negative, so every stage has its successor or is the last. -/
theorem successor_eq (stage : Stage) : stage.successor = .ok stage.next := by
  unfold successor next
  split
  · rfl
  · rename_i many
    have above : 1 < stage.remaining.toNat := by
      simpa [UInt32.le_iff_toNat_le] using many
    have fewer : UInt32.ofNat (stage.remaining.toNat - 1) = stage.remaining - 1 := by
      rw [UInt32.ofNat_sub (Nat.le_of_lt above), UInt32.ofNat_toNat]
      rfl
    rw [Checked.sub_of_le (Nat.le_of_lt above), ← fewer]
    rfl

/-- A fact about all stages follows from the last of a chain to the first. -/
theorem chain_induction {motive : Stage → Prop}
    (last : ∀ stage : Stage, stage.next = none → motive stage)
    (before : ∀ stage later : Stage, stage.next = some later → motive later → motive stage)
    (stage : Stage) : motive stage := by
  generalize left : stage.remaining.toNat = remaining
  induction remaining generalizing stage with
  | zero => exact last stage ((next_eq_none_iff stage).mpr (by
      rw [UInt32.le_iff_toNat_le, left]; exact Nat.zero_le _))
  | succ remaining ih =>
      cases step : stage.next with
      | none => exact last stage step
      | some later =>
          have fewer := remaining_of_next step
          exact before stage later step (ih later (by omega))

theorem chain_of_last (last : stage.next = none) : stage.chain = [stage] := by
  rw [chain_eq, last]

theorem chain_of_next (step : stage.next = some later) : stage.chain = stage :: later.chain := by
  rw [chain_eq, step]

/-- Following the successors never faults and visits the chain. -/
theorem reach_eq (steps : Nat) (stage : Stage) : reach steps stage = .ok stage.chain[steps]? := by
  induction steps generalizing stage with
  | zero => rw [chain_eq]; rfl
  | succ steps ih =>
      rw [reach, successor_eq]
      cases step : stage.next with
      | none => rw [chain_of_last step]; rfl
      | some later => rw [chain_of_next step]; exact ih later

/-- A stage with nothing left is visited like one that is the last. -/
theorem length_chain (stage : Stage) : stage.chain.length = max stage.remaining.toNat 1 := by
  induction stage using chain_induction with
  | last stage last =>
      have few := (next_eq_none_iff stage).mp last
      rw [UInt32.le_iff_toNat_le] at few
      rw [chain_of_last last]
      exact (Nat.max_eq_right few).symm
  | before stage later step ih =>
      have fewer := remaining_of_next step
      have many := one_lt_remaining_of_next step
      rw [chain_of_next step, List.length_cons, ih]
      omega

namespace StandsBehind

theorem refl (stage : Stage) : StandsBehind stage 0 stage where
  remaining_eq := rfl
  halfSpan_eq := (Nat.div_one _).symm
  branches_eq := by
    rw [Nat.pow_zero, Nat.mul_one, Nat.mod_eq_of_lt]
    exact stage.branches.toNat_lt

theorem single (step : stage.next = some later) : StandsBehind stage 1 later where
  remaining_eq := by
    have fewer := remaining_of_next step
    omega
  halfSpan_eq := by
    rw [eq_of_next step, UInt64.toNat_shiftRight]
    exact Nat.shiftRight_eq_div_pow _ 1
  branches_eq := by
    rw [eq_of_next step, UInt64.toNat_shiftLeft, ← Nat.shiftLeft_eq]
    rfl

theorem trans {further : Nat} (first : StandsBehind stage steps middle)
    (second : StandsBehind middle further later) : StandsBehind stage (steps + further) later where
  remaining_eq := by rw [second.remaining_eq, first.remaining_eq, Nat.sub_sub]
  halfSpan_eq := by
    rw [second.halfSpan_eq, first.halfSpan_eq, Nat.div_div_eq_div_mul, Nat.pow_add]
  branches_eq := by
    rw [second.branches_eq, first.branches_eq, Nat.mod_mul_mod, Nat.mul_assoc, Nat.pow_add]

end StandsBehind

theorem standsBehind_of_getElem?_chain (found : stage.chain[steps]? = some later) :
    StandsBehind stage steps later := by
  induction stage using chain_induction generalizing steps with
  | last stage last =>
      rw [chain_of_last last] at found
      cases steps with
      | zero =>
          cases found
          exact .refl _
      | succ steps => cases found
  | before stage second step ih =>
      rw [chain_of_next step] at found
      cases steps with
      | zero =>
          cases found
          exact .refl _
      | succ steps =>
          have behind := (StandsBehind.single step).trans (ih found)
          rwa [Nat.add_comm] at behind

structure Halvable (stage : Stage) (size : Nat) : Prop where
  half : 2 ^ (stage.remaining.toNat - 1) ∣ stage.halfSpan.toNat
  frameSize_eq : stage.frameSize = .ok size

theorem Halvable.next (halvable : stage.Halvable size) (step : stage.next = some later) :
    later.Halvable size := by
  obtain ⟨fewer, halved, doubled⟩ := StandsBehind.single step
  obtain ⟨product, small⟩ := frameSize_eq_ok_iff.mp halvable.frameSize_eq
  obtain ⟨part, half⟩ := halvable.half
  have many := one_lt_remaining_of_next step
  have power : 2 ^ (stage.remaining.toNat - 1) = 2 * 2 ^ (later.remaining.toNat - 1) := by
    rw [fewer, ← Nat.pow_succ']
    congr 1
    omega
  rw [power, Nat.mul_assoc] at half
  rw [half, Nat.pow_one, Nat.mul_div_cancel_left _ Nat.two_pos] at halved
  refine ⟨⟨part, halved⟩, frameSize_eq_ok_iff.mpr ⟨?_, small⟩⟩
  rw [← halved] at half
  rw [half] at product
  -- The count of branches without symbols may overflow its word; the product stays zero.
  rcases Nat.eq_zero_or_pos later.halfSpan.toNat with empty | nonempty
  · rw [empty] at product ⊢
    omega
  · have fits : stage.branches.toNat * 2 < sizeLimit :=
      calc stage.branches.toNat * 2
        _ ≤ stage.branches.toNat * (2 * later.halfSpan.toNat) :=
            Nat.mul_le_mul_left _ (Nat.le_mul_of_pos_right _ nonempty)
        _ ≤ stage.branches.toNat * (2 * later.halfSpan.toNat) * 2 :=
            Nat.le_mul_of_pos_right _ Nat.two_pos
        _ = size := product
        _ < sizeLimit := small
    rw [doubled, Nat.pow_one, Nat.mod_eq_of_lt fits, ← product, Nat.mul_assoc _ 2]

theorem Halvable.chain (halvable : stage.Halvable size) :
    ∀ later ∈ stage.chain, later.Halvable size := by
  induction stage using chain_induction with
  | last stage last =>
      rw [chain_of_last last]
      exact List.forall_mem_singleton.mpr halvable
  | before stage second step ih =>
      rw [chain_of_next step]
      exact List.forall_mem_cons.mpr ⟨halvable, ih (halvable.next step)⟩

/-- From any three words the successors never fault and visit as many stages as the first one says
are left, and at least the first. Each of them has one stage fewer left than the one before, half
the half without its lowest bit, and twice the branches without their highest bit. If the half is
divisible by two once for each later stage and the first stage has a frame size, which is then twice
the product of half and branches, every stage of the chain has this frame size. -/
theorem chain_is_exact (stage : Stage) :
    (∀ steps, reach steps stage = .ok stage.chain[steps]?) ∧
      stage.chain.length = max stage.remaining.toNat 1 ∧
      (∀ steps later, stage.chain[steps]? = some later → StandsBehind stage steps later) ∧
      ∀ size, 2 ^ (stage.remaining.toNat - 1) ∣ stage.halfSpan.toNat → stage.frameSize = .ok size →
        stage.branches.toNat * stage.halfSpan.toNat * 2 = size ∧
          ∀ later ∈ stage.chain, later.frameSize = .ok size := by
  refine ⟨fun steps => reach_eq steps stage, length_chain stage, ?_, ?_⟩
  · intro steps later found
    exact standsBehind_of_getElem?_chain found
  · intro size half frameSize_eq
    have halvable : stage.Halvable size := ⟨half, frameSize_eq⟩
    refine ⟨(frameSize_eq_ok_iff.mp frameSize_eq).1, ?_⟩
    intro later member
    exact (halvable.chain later member).frameSize_eq

/-- Five branches of 24 symbols: the half is divisible by four and three stages have the same frame
size. The next halving would lose a bit. -/
theorem chain_is_exact_three :
    2 ^ ((⟨3, 12, 5⟩ : Stage).remaining.toNat - 1) ∣ (⟨3, 12, 5⟩ : Stage).halfSpan.toNat ∧
      (⟨3, 12, 5⟩ : Stage).frameSize = .ok 120 ∧
      (⟨3, 12, 5⟩ : Stage).chain = [⟨3, 12, 5⟩, ⟨2, 6, 10⟩, ⟨1, 3, 20⟩] ∧
      ∀ later ∈ (⟨3, 12, 5⟩ : Stage).chain, later.frameSize = .ok 120 := by
  have half : 2 ^ ((⟨3, 12, 5⟩ : Stage).remaining.toNat - 1) ∣
      (⟨3, 12, 5⟩ : Stage).halfSpan.toNat := by decide
  obtain ⟨_, _, _, preserved⟩ := chain_is_exact ⟨3, 12, 5⟩
  exact ⟨half, rfl, rfl, (preserved 120 half rfl).2⟩

/-- Ten branches more than half a word holds, and an odd half: both ends of the chain lose bits. -/
example :
    (⟨3, 7, 0x800000000000000A⟩ : Stage).chain =
      [⟨3, 7, 0x800000000000000A⟩, ⟨2, 3, 20⟩, ⟨1, 1, 40⟩] := rfl

end PolarCoding.Stage
