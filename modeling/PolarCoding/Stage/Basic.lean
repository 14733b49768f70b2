import PolarCoding.Action

/-!
# Butterfly stages

A frame of `2 ^ k` symbols is encoded in `k` stages. The first stage treats the whole frame as
one branch; each later stage has twice as many branches of half the span. A butterfly works on each
branch separately. It adds neighbouring symbols in pairs: the sums fill the first half of the
branch, the second symbols of the pairs fill the second half. Symbols are bytes and their sum is the
exclusive or.
-/

namespace PolarCoding

/-! ## Powers of two

Frame sizes are powers of two. The exponent of such a number is the index of its single set bit,
and that index is read off one binary digit at a time. -/

def IsPowerOfTwo (value : UInt32) : Prop := value.toNat.isPowerOfTwo

/-- A power of two has a single set bit: clearing the lowest set bit leaves nothing. -/
theorem isPowerOfTwo_iff (value : UInt32) :
    IsPowerOfTwo value ↔ value ≠ 0 ∧ value &&& (value - 1) = 0 := by
  by_cases zero : value = 0
  · subst zero
    simp [IsPowerOfTwo, Nat.isPowerOfTwo, eq_comm (a := 0)]
  · have nonzero : value.toNat ≠ 0 := fun equal => zero (UInt32.toNat_inj.mp equal)
    have low : (1 : UInt32) ≤ value := by
      rw [UInt32.le_iff_toNat_le]
      exact Nat.one_le_iff_ne_zero.mpr nonzero
    rw [IsPowerOfTwo, ← Nat.and_sub_one_eq_zero_iff_isPowerOfTwo nonzero]
    constructor
    · intro clear
      refine ⟨zero, UInt32.toNat_inj.mp ?_⟩
      rw [UInt32.toNat_and, UInt32.toNat_sub_of_le _ _ low]
      exact clear
    · intro ⟨_, clear⟩
      have same := congrArg UInt32.toNat clear
      rw [UInt32.toNat_and, UInt32.toNat_sub_of_le _ _ low] at same
      exact same

instance (value : UInt32) : Decidable (IsPowerOfTwo value) :=
  decidable_of_iff _ (isPowerOfTwo_iff value).symm

/-- For each binary digit of a bit index, lowest first, the bits whose index has that digit set. -/
def indexDigitMasks : List UInt32 :=
  [0xAAAAAAAA, 0xCCCCCCCC, 0xF0F0F0F0, 0xFF00FF00, 0xFFFF0000]

/-- The number with the given binary digits, lowest first. -/
def ofDigits : List Bool → Nat
  | [] => 0
  | digit :: rest => digit.toNat + 2 * ofDigits rest

/-- The index of the single set bit. Only the bits of one digit's mask meet that bit exactly if
the digit of its index is set. -/
def singleBitIndex (value : UInt32) : UInt32 :=
  (ofDigits (indexDigitMasks.map fun mask => value &&& mask != 0)).toUInt32

def exponent (value : UInt32) : Except Fault UInt32 := do
  require (IsPowerOfTwo value) .exponentOfNonPower
  pure (singleBitIndex value)

theorem exponent_of_not {value : UInt32} (other : ¬ IsPowerOfTwo value) :
    exponent value = .error .exponentOfNonPower := by
  rw [exponent, require_of_not other]
  rfl

/-! ## Stages

A `Stage` is three plain numbers, so it may also hold values that no frame gives rise to: its
successor is defined for all of them, its frame size only where the product is a size. -/

structure Stage where
  /-- Stages left to apply, this one included. -/
  remaining : UInt32
  /-- Half the number of symbols of one branch. -/
  halfSpan : UInt64
  /-- Number of independent branches. -/
  branches : UInt64
  deriving DecidableEq

namespace Stage

def first (frameSize : UInt32) : Except Fault Stage := do
  let remaining ← exponent frameSize
  pure ⟨remaining, (frameSize >>> 1).toUInt64, 1⟩

/-- The stage after this one: half the span, twice the branches, both as words. -/
def next (stage : Stage) : Option Stage :=
  if stage.remaining ≤ 1 then none
  else some ⟨stage.remaining - 1, stage.halfSpan >>> 1, stage.branches <<< 1⟩

def frameSize (stage : Stage) : Except Fault Nat := do
  let halves ← Checked.mul stage.branches.toNat stage.halfSpan.toNat
  Checked.mul halves 2

/-- A stage and its successors, at most `limit` of them. -/
def follow : (limit : Nat) → Stage → List Stage
  | 0, stage => [stage]
  | limit + 1, stage =>
      stage ::
        match stage.next with
        | none => []
        | some later => follow limit later

def chain (stage : Stage) : List Stage := follow (stage.remaining.toNat - 1) stage

theorem frameSize_eq_ok_iff {stage : Stage} {size : Nat} :
    stage.frameSize = .ok size ↔
      stage.branches.toNat * stage.halfSpan.toNat * 2 = size ∧ size < sizeLimit := by
  rw [frameSize, Checked.mul, Checked.below_bind]
  split
  · exact Checked.below_eq_ok_iff
  · rename_i large
    constructor
    · intro faulted
      cases faulted
    · rintro ⟨rfl, small⟩
      omega

@[simp] theorem next_eq_none_iff (stage : Stage) : stage.next = none ↔ stage.remaining ≤ 1 := by
  unfold next
  split <;> simp_all

/-- Every successor has one stage fewer left. -/
theorem remaining_of_next {stage later : Stage} (step : stage.next = some later) :
    later.remaining.toNat + 1 = stage.remaining.toNat := by
  unfold next at step
  split at step
  · cases step
  · rename_i many
    cases step
    have above : 1 < stage.remaining.toNat := by
      simpa [UInt32.le_iff_toNat_le] using many
    have sub : (stage.remaining - 1).toNat = stage.remaining.toNat - 1 := by
      rw [UInt32.toNat_sub_of_le _ _ (by rw [UInt32.le_iff_toNat_le]; simp; omega)]
      rfl
    simp only [sub]
    omega

/-- A chain is complete: it is the stage and, if there is one, the chain of its successor. -/
theorem chain_eq (stage : Stage) :
    stage.chain = stage :: (match stage.next with | none => [] | some later => later.chain) := by
  unfold chain
  cases step : stage.next with
  | none =>
      cases left : stage.remaining.toNat - 1 with
      | zero => rfl
      | succ limit => simp [follow, step]
  | some later =>
      have fewer := remaining_of_next step
      cases left : stage.remaining.toNat - 1 with
      | zero =>
          have few : stage.remaining ≤ 1 := by
            rw [UInt32.le_iff_toNat_le]
            simpa using (by omega : stage.remaining.toNat ≤ 1)
          rw [(next_eq_none_iff stage).mpr few] at step
          cases step
      | succ limit =>
          have same : limit = later.remaining.toNat - 1 := by omega
          simp [follow, step, same]

end Stage

/-! ## The butterfly -/

def pairSums : List UInt8 → List UInt8
  | first :: second :: rest => (first ^^^ second) :: pairSums rest
  | _ => []

def pairSeconds : List UInt8 → List UInt8
  | _ :: second :: rest => second :: pairSeconds rest
  | _ => []

def splitBranch (branch : List UInt8) : List UInt8 := pairSums branch ++ pairSeconds branch

def splitBranches : (count span : Nat) → List UInt8 → List UInt8
  | 0, _, _ => []
  | count + 1, span, symbols =>
      splitBranch (symbols.take span) ++ splitBranches count span (symbols.drop span)

/-- Apply a butterfly stage of `branches` branches of `2 * halfSpan` symbols to `input` and write
it over the front of `output`. The result is `output` after the stage; symbols behind the
branches stay as they are. -/
def butterfly (branches halfSpan : UInt64) (input output : List UInt8) :
    Except Fault (List UInt8) := do
  let span ← Checked.mul 2 halfSpan.toNat
  require (0 < halfSpan) .emptyBranch
  let size ← Checked.mul branches.toNat span
  require (size ≤ output.length) .frameShorterThanStage
  require (size ≤ input.length) .scratchShorterThanStage
  pure (splitBranches branches.toNat span input ++ output.drop size)

@[simp] theorem length_pairSums (symbols : List UInt8) :
    (pairSums symbols).length = symbols.length / 2 := by
  fun_induction pairSums symbols with
  | case1 first second rest ih => simp only [List.length_cons, ih]; omega
  | case2 symbols short =>
      match symbols, short with
      | [], _ => rfl
      | [_], _ => simp
      | first :: second :: rest, short => exact absurd rfl (short first second rest)

@[simp] theorem length_pairSeconds (symbols : List UInt8) :
    (pairSeconds symbols).length = symbols.length / 2 := by
  fun_induction pairSeconds symbols with
  | case1 first second rest ih => simp only [List.length_cons, ih]; omega
  | case2 symbols short =>
      match symbols, short with
      | [], _ => rfl
      | [_], _ => simp
      | first :: second :: rest, short => exact absurd rfl (short first second rest)

end PolarCoding
