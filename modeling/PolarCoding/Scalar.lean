import PolarCoding.Buffer
import PolarCoding.Stage.Cursor

/-!
# The scalar encoder

A mask says for each position of a frame which source its symbol comes from: a nonzero byte
takes the next frozen value, a zero byte the next information value. Both sources are used in
order, and what is left of them does not matter. The scalar encoder fills the frame into the scratch
buffer. Each stage then reads the scratch buffer, writes the frame and copies the frame back, so
that both hold the codeword in the end.
-/

namespace PolarCoding

/-! ## Filling a frame from two sources -/

inductive Source where
  | frozen
  | info
  deriving DecidableEq

def Source.ofFlag (flag : UInt8) : Source := if flag = 0 then .info else .frozen

def frozenCount (mask : List UInt8) : Nat := mask.countP (· ≠ 0)

def infoCount (mask : List UInt8) : Nat := mask.countP (· = 0)

/-- The symbols of `frame` at the positions that `mask` gives to one source, in order. -/
def valuesAt (source : Source) : (mask frame : List UInt8) → List UInt8
  | flag :: mask, symbol :: frame =>
      if Source.ofFlag flag = source then symbol :: valuesAt source mask frame
      else valuesAt source mask frame
  | _, _ => []

/-- What came of filling a frame: the symbols up to the first position whose source had no value
left, and that source. -/
structure Filling where
  symbols : List UInt8
  exhausted : Option Source
  deriving DecidableEq

def Filling.cons (symbol : UInt8) (filling : Filling) : Filling :=
  ⟨symbol :: filling.symbols, filling.exhausted⟩

def fill : (mask frozen info : List UInt8) → Filling
  | [], _, _ => ⟨[], none⟩
  | flag :: mask, frozen, info =>
      match Source.ofFlag flag, frozen, info with
      | .frozen, [], _ => ⟨[], some .frozen⟩
      | .frozen, value :: frozen, info => (fill mask frozen info).cons value
      | .info, _, [] => ⟨[], some .info⟩
      | .info, frozen, value :: info => (fill mask frozen info).cons value

structure Sources where
  mask : List UInt8
  frozen : List UInt8
  info : List UInt8
  deriving DecidableEq

namespace Sources

def values (sources : Sources) : Source → List UInt8
  | .frozen => sources.frozen
  | .info => sources.info

/-- Fill the whole target. If a source runs out, the positions before that one are written. -/
def interleave (sources : Sources) : Action (List UInt8) Unit := fun target =>
  if sources.mask.length < target.length then .error .maskTooShort target
  else
    let filling := fill (sources.mask.take target.length) sources.frozen sources.info
    let written := filling.symbols ++ target.drop filling.symbols.length
    match filling.exhausted with
    | none => .ok () written
    | some source => .error (.sourceExhausted (sources.values source).length) written

end Sources

theorem frozenCount_add_infoCount (mask : List UInt8) :
    frozenCount mask + infoCount mask = mask.length := by
  induction mask with
  | nil => rfl
  | cons flag mask ih =>
      unfold frozenCount infoCount at *
      by_cases zero : flag = 0 <;> simp_all <;> omega

/-! ## Encoding -/

namespace Scalar

/-- One stage: a butterfly from the scratch buffer to the frame, and a copy of the first `size`
symbols back. -/
def stagePass (size : Nat) (stage : Stage) : Action Workspace Unit := do
  let workspace ← get
  let frame ← butterfly stage.branches stage.halfSpan workspace.scratch.symbols
    workspace.frame.symbols
  set { workspace with
    frame.symbols := frame
    scratch.symbols := frame.take size ++ workspace.scratch.symbols.drop size }

def stagePasses (size : Nat) : List Stage → Action Workspace Unit
  | [] => pure ()
  | stage :: later => do
      stagePass size stage
      stagePasses size later

def transform (frameSize : UInt32) : Action Workspace Unit := do
  let stages ← stagesOf frameSize
  stagePasses frameSize.toNat stages

def copyToFrame (size : Nat) : Action Workspace Unit :=
  modify fun workspace =>
    let filled := workspace.scratch.symbols.take size
    { workspace with frame.symbols := filled ++ workspace.frame.symbols.drop size }

def encode (sources : Sources) (frameSize : UInt32) : Action Workspace Unit := do
  let size := frameSize.toNat
  require (IsPowerOfTwo frameSize) .frameSizeNotPowerOfTwo
  let frameLength := (← get).frame.symbols.length
  require (size ≤ frameLength) (.sliceEndsOutside size frameLength)
  Workspace.onScratchFront size sources.interleave
  if size = 1 then copyToFrame size else transform frameSize

end Scalar

end PolarCoding
