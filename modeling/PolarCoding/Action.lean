import PolarCoding.Kernel.Detection

/-!
# Faults and the actions that may end in them

A fault ends a call whose precondition does not hold. What is described here is the library built
with its debug assertions and overflow checks: every assertion is made and every sum, product and
difference of sizes is checked, also where a release build would leave the check out. That a call
with a bad frame size ends before it has written anything rests on this.
-/

namespace PolarCoding

/-! ## Faults -/

/-- The conditions under which the lane machine does its work. A caller that has passed the
checks of the vector encoders meets all of them. -/
inductive LaneContract where
  /-- A wide stage has a half-span that is a positive multiple of a register. -/
  | wholeRegisters
  /-- Both buffers hold the whole stage. -/
  | stageFits
  /-- The next two registers to read lie inside the scratch buffer. -/
  | readFits
  /-- The next two registers to write lie inside the frame. -/
  | writeFits
  /-- A fused pass has a branch to work on. -/
  | someBranch
  /-- Both buffers hold all branches of a fused pass. -/
  | branchesFit
  /-- The stage that a fused pass starts from spans one register. -/
  | registerSpan
  /-- The frame size is a power of two and fills a register. -/
  | frameFillsRegister
  /-- Both buffers hold the frame. -/
  | frameFits
  /-- A register that is loaded or stored lies inside its memory. -/
  | inBounds
  deriving DecidableEq

def LaneContract.text : LaneContract → String
  | .wholeRegisters => "the half-span is a positive multiple of the lane count"
  | .stageFits => "both buffers hold the stage"
  | .readFits => "the registers to read lie in the scratch buffer"
  | .writeFits => "the registers to write lie in the frame"
  | .someBranch => "there is a branch"
  | .branchesFit => "both buffers hold all branches"
  | .registerSpan => "a branch spans one register"
  | .frameFillsRegister => "the frame size is a power of two of at least one register"
  | .frameFits => "both buffers hold the frame"
  | .inBounds => "the register lies in memory"

/-- The causes that end a call. `Fault.message` is the only place that puts them into words. -/
inductive Fault where
  /-- The exponent of a number that is no power of two was asked for. -/
  | exponentOfNonPower
  /-- The mask has fewer positions than the symbols it describes. -/
  | maskTooShort
  /-- A value source of the given length had no value left. -/
  | sourceExhausted (length : Nat)
  /-- A position was used that the sequence of the given length does not have. -/
  | positionOutside (position length : Nat)
  | sumOverflow
  | productOverflow
  | differenceNegative
  /-- A branch of a butterfly stage has no symbols. -/
  | emptyBranch
  | frameShorterThanStage
  | scratchShorterThanStage
  /-- The scalar encoder was given a frame size that is no power of two. -/
  | frameSizeNotPowerOfTwo
  /-- A slice ends behind its buffer. -/
  | sliceEndsOutside (stop length : Nat)
  /-- A vector encoder was given a frame size that is no power of two or fills no register. -/
  | frameSizeNotVectorisable (frameSize : UInt32)
  /-- A vector encoder was given a buffer that is shorter than the frame. -/
  | buffersShorterThanFrame (frameSize : UInt32)
  /-- An aligned access met an address with the given remainder. -/
  | misaligned (remainder : Nat)
  /-- A kernel was asked for that cannot run on these buffers. -/
  | kernelUnsupported (kernel : Kernel) (frameSize : UInt32)
  /-- A buffer larger than the address space was asked for. -/
  | capacityOverflow
  /-- The lane machine met a condition of its own that does not hold. -/
  | laneContract (broken : LaneContract)
  deriving DecidableEq

def Fault.message : Fault → String
  | .exponentOfNonPower => "assertion failed: value.is_power_of_two()"
  | .maskTooShort => "assertion failed: frozen_bit_mask.len() >= len"
  | .sourceExhausted length =>
      s!"index out of bounds: the len is {length} but the index is {length}"
  | .positionOutside position length =>
      s!"index out of bounds: the len is {length} but the index is {position}"
  | .sumOverflow => "attempt to add with overflow"
  | .productOverflow => "attempt to multiply with overflow"
  | .differenceNegative => "attempt to subtract with overflow"
  | .emptyBranch => "assertion failed: frame_half > 0"
  | .frameShorterThanStage => "assertion failed: frame.len() >= num_branches * span"
  | .scratchShorterThanStage => "assertion failed: temp.len() >= num_branches * span"
  | .frameSizeNotPowerOfTwo => "assertion failed: frame_size.is_power_of_two()"
  | .sliceEndsOutside stop length =>
      s!"range end index {stop} out of range for slice of length {length}"
  | .frameSizeNotVectorisable frameSize =>
      s!"frame size {frameSize} is not a power of two of at least 16"
  | .buffersShorterThanFrame frameSize => s!"buffers shorter than frame size {frameSize}"
  | .misaligned remainder =>
      s!"assertion `left == right` failed\n  left: {remainder}\n right: 0"
  | .kernelUnsupported kernel frameSize =>
      s!"{kernel.name} kernel not supported for frame size {frameSize} on this CPU"
  | .capacityOverflow => "capacity overflow"
  | .laneContract broken => s!"lane machine: {broken.text} does not hold"

/-! ## Actions -/

/-- A computation on a state of type `σ` that may end in a fault. It keeps the state that it has
reached in both cases, so what was written before the fault stays visible. -/
abbrev Action (σ α : Type) : Type := EStateM Fault σ α

instance {σ : Type} : MonadLift (Except Fault) (EStateM Fault σ) where
  monadLift outcome := fun state =>
    match outcome with
    | .ok value => .ok value state
    | .error fault => .error fault state

namespace Action

variable {σ α β : Type}

theorem bind_apply (action : Action σ α) (continuation : α → Action σ β) (state : σ) :
    (action >>= continuation) state =
      match action state with
      | .ok value after => continuation value after
      | .error fault after => .error fault after := by
  cases run : action state <;> simp [bind, EStateM.bind, run]

@[simp]
theorem pure_apply (value : α) (state : σ) : (pure value : Action σ α) state = .ok value state :=
  rfl

@[simp] theorem lift_ok (value : α) (state : σ) :
    (liftM (Except.ok value : Except Fault α) : Action σ α) state = .ok value state := rfl

@[simp] theorem lift_error (fault : Fault) (state : σ) :
    (liftM (Except.error fault : Except Fault α) : Action σ α) state = .error fault state := rfl

@[simp] theorem get_apply (state : σ) : (get : Action σ σ) state = .ok state state := rfl

@[simp]
theorem set_apply (after state : σ) : (set after : Action σ PUnit) state = .ok ⟨⟩ after := rfl

@[simp] theorem modify_apply (change : σ → σ) (state : σ) :
    (modify change : Action σ PUnit) state = .ok ⟨⟩ (change state) := rfl

end Action

def require (condition : Prop) [Decidable condition] (fault : Fault) : Except Fault Unit :=
  if condition then .ok () else .error fault

theorem require_of {condition : Prop} [Decidable condition] {fault : Fault} (holds : condition) :
    require condition fault = .ok () := if_pos holds

theorem require_of_not {condition : Prop} [Decidable condition] {fault : Fault}
    (fails : ¬ condition) : require condition fault = .error fault := if_neg fails

/-! ## Checked arithmetic

Sizes and offsets are words of 64 bits. Their sums, products and differences are computed exactly,
and a result that is no such word is a fault. -/

def sizeLimit : Nat := UInt64.size

namespace Checked

def below (limit value : Nat) (fault : Fault) : Except Fault Nat :=
  if value < limit then .ok value else .error fault

def add (a b : Nat) : Except Fault Nat := below sizeLimit (a + b) .sumOverflow

def mul (a b : Nat) : Except Fault Nat := below sizeLimit (a * b) .productOverflow

def sub (a b : Nat) : Except Fault Nat := if b ≤ a then .ok (a - b) else .error .differenceNegative

theorem below_of_lt {limit value : Nat} (fits : value < limit) (fault : Fault) :
    below limit value fault = .ok value := if_pos fits

theorem below_eq_ok_iff {limit value result : Nat} {fault : Fault} :
    below limit value fault = .ok result ↔ value = result ∧ result < limit := by
  unfold below
  split
  · rename_i fits
    constructor
    · intro same
      cases same
      exact ⟨rfl, fits⟩
    · rintro ⟨rfl, _⟩
      rfl
  · rename_i large
    constructor
    · intro faulted
      cases faulted
    · rintro ⟨rfl, fits⟩
      exact absurd fits large

theorem below_bind {limit value : Nat} {fault : Fault} {α : Type}
    (continuation : Nat → Except Fault α) :
    (below limit value fault >>= continuation) =
      if value < limit then continuation value else .error fault := by
  unfold below
  split <;> rfl

theorem add_of_lt {a b : Nat} (fits : a + b < sizeLimit) : add a b = .ok (a + b) :=
  below_of_lt fits _

theorem mul_of_lt {a b : Nat} (fits : a * b < sizeLimit) : mul a b = .ok (a * b) :=
  below_of_lt fits _

theorem sub_of_le {a b : Nat} (fits : b ≤ a) : sub a b = .ok (a - b) := if_pos fits

end Checked

end PolarCoding
