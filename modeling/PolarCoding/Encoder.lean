import PolarCoding.Kernel.Encode

/-!
# The checked encoder

An encoder owns a layout, which is a shape with a mask and the values of the frozen positions,
and a scratch buffer. It is built only for consistent layouts and it checks every payload, so
that a kernel never meets a precondition that does not hold. A call that is refused changes
nothing.
-/

namespace PolarCoding

/-! ## Why an encoder refuses its input -/

/-- Each constructor is one defect of a layout or of a payload, with the numbers that show it. -/
inductive EncoderError where
  | frameSizeNotPowerOfTwo (frameSize : UInt32)
  /-- There are more information bits than positions. -/
  | infoBitsExceedFrame (infoBits frameSize : UInt32)
  /-- The sequence named `what` has the wrong length. -/
  | invalidLength (what : String) (expected actual : Nat)
  /-- The mask has a byte other than the two that stand for frozen and information. -/
  | invalidMaskByte (index : Nat) (value : UInt8)
  /-- The mask has the wrong number of information positions. -/
  | infoCountMismatch (expected actual : Nat)
  /-- The sequence named `what` has a value other than zero and one. -/
  | invalidBit (what : String) (index : Nat) (value : UInt8)
  deriving DecidableEq

def hexDigit (value : Nat) : Char := "0123456789abcdef".toList.getD value '0'

def hexByte (value : UInt8) : String :=
  String.ofList [hexDigit (value.toNat / 16), hexDigit (value.toNat % 16)]

def EncoderError.message : EncoderError → String
  | .frameSizeNotPowerOfTwo frameSize => s!"frame size {frameSize} is not a power of two"
  | .infoBitsExceedFrame infoBits frameSize =>
      s!"{infoBits} info bits do not fit in a frame of {frameSize}"
  | .invalidLength what expected actual => s!"{what} has length {actual}, expected {expected}"
  | .invalidMaskByte index value =>
      s!"frozen bit mask byte 0x{hexByte value} at {index} is neither 0x00 nor 0xFF"
  | .infoCountMismatch expected actual =>
      s!"frozen bit mask has {actual} information positions, expected {expected}"
  | .invalidBit what index value => s!"{what} value {value} at {index} is not a bit"

inductive Failure where
  /-- The input was refused. -/
  | rejected (error : EncoderError)
  /-- A precondition inside the library did not hold. -/
  | faulted (fault : Fault)
  deriving DecidableEq

instance : MonadLift (Except EncoderError) (Except Failure) where
  monadLift outcome := outcome.mapError .rejected

instance : MonadLift (Except Fault) (Except Failure) where
  monadLift outcome := outcome.mapError .faulted

def Failure.message : Failure → String
  | .rejected error => error.message
  | .faulted fault => fault.message

/-! ## Frame shapes -/

structure FrameShape where
  frameSize : UInt32
  infoBits : UInt32
  deriving DecidableEq

namespace FrameShape

instance : Ord FrameShape where
  compare first second :=
    (compare first.frameSize second.frameSize).then (compare first.infoBits second.infoBits)

def validate (shape : FrameShape) : Except EncoderError Unit :=
  if ¬ IsPowerOfTwo shape.frameSize then .error (.frameSizeNotPowerOfTwo shape.frameSize)
  else if shape.frameSize < shape.infoBits then
    .error (.infoBitsExceedFrame shape.infoBits shape.frameSize)
  else .ok ()

/-- The number of frozen positions, zero if the information does not fit. -/
def frozenBits (shape : FrameShape) : UInt32 :=
  if shape.infoBits ≤ shape.frameSize then shape.frameSize - shape.infoBits else 0

def stages (shape : FrameShape) : Except Fault UInt32 := exponent shape.frameSize

@[simp] theorem validate_eq_ok_iff (shape : FrameShape) :
    shape.validate = .ok () ↔ IsPowerOfTwo shape.frameSize ∧ shape.infoBits ≤ shape.frameSize := by
  unfold validate
  split
  · simp_all
  · split <;> simp_all

end FrameShape

/-! ## Checks -/

/-- The first byte that satisfies a test, with its position counted from `index` on. -/
def firstWhere (test : UInt8 → Bool) : (index : Nat) → List UInt8 → Option (Nat × UInt8)
  | _, [] => none
  | index, byte :: rest =>
      if test byte then some (index, byte) else firstWhere test (index + 1) rest

def checkLength (what : String) (expected actual : Nat) : Except EncoderError Unit :=
  if expected = actual then .ok () else .error (.invalidLength what expected actual)

def checkBits (what : String) (bits : List UInt8) : Except EncoderError Unit :=
  match firstWhere (1 < ·) 0 bits with
  | none => .ok ()
  | some (index, value) => .error (.invalidBit what index value)

def checkMask (mask : List UInt8) : Except EncoderError Unit :=
  match firstWhere (fun byte => byte ≠ 0 ∧ byte ≠ 0xFF) 0 mask with
  | none => .ok ()
  | some (index, value) => .error (.invalidMaskByte index value)

def checkInfoCount (expected actual : Nat) : Except EncoderError Unit :=
  if actual = expected then .ok () else .error (.infoCountMismatch expected actual)

structure Encoder where
  shape : FrameShape
  /-- For each position 255 if it is frozen and 0 if it carries information. -/
  mask : List UInt8
  /-- The values of the frozen positions, in frame order. -/
  frozen : List UInt8
  scratch : Buffer
  deriving DecidableEq

/-! ## Encoders and calls -/

namespace Encoder

/-- Check that a mask and frozen values fit a shape. The number of frozen positions is a checked
difference, but by then the information is known to fit. -/
def checkLayout (shape : FrameShape) (mask frozen : List UInt8) : Except Failure Unit := do
  let size := shape.frameSize.toNat
  shape.validate
  checkLength "frozen bit mask" size mask.length
  checkMask mask
  checkInfoCount shape.infoBits.toNat (infoCount mask)
  let frozenPositions ← Checked.sub size (infoCount mask)
  checkLength "frozen bits" frozenPositions frozen.length
  checkBits "frozen bits" frozen

def build (shape : FrameShape) (mask frozen : List UInt8) (scratchAddress : Nat) :
    Logged (Except Failure Encoder) :=
  match checkLayout shape mask frozen with
  | .error failure => ⟨.error failure, []⟩
  | .ok () =>
      match shape.stages with
      | .error fault => ⟨.error (.faulted fault), []⟩
      | .ok stages =>
          ⟨.ok ⟨shape, mask, frozen, Buffer.zeroed scratchAddress shape.frameSize.toNat⟩,
            [.encoderCreated shape.frameSize shape.infoBits stages]⟩

def copyAt (encoder : Encoder) (scratchAddress : Nat) : Encoder :=
  { encoder with scratch.address := scratchAddress }

def sources (encoder : Encoder) (info : List UInt8) : Sources :=
  ⟨encoder.mask, encoder.frozen, info⟩

structure Call where
  answer : Except Failure Unit
  encoder : Encoder
  frame : Buffer
  events : List LogEvent

def Call.codeword (call : Call) : Except Failure (List UInt8) :=
  call.answer.map fun _ => call.frame.symbols

def checkCall (encoder : Encoder) (info frame : List UInt8) : Except EncoderError Unit := do
  checkLength "info bits" encoder.shape.infoBits.toNat info.length
  checkBits "info bits" info
  checkLength "frame" encoder.shape.frameSize.toNat frame.length

def encodeIntoOn (encoder : Encoder) (isa : Isa) (info : List UInt8) (frame : Buffer) : Call :=
  match encoder.checkCall info frame.symbols with
  | .error error => ⟨.error (.rejected error), encoder, frame, []⟩
  | .ok () =>
      let workspace : Workspace := ⟨frame, encoder.scratch⟩
      let size := encoder.shape.frameSize
      let kernel := Kernel.selectOn isa workspace size
      let events := [.encodingFrame kernel size]
      match kernel.encodeOn isa (encoder.sources info) size workspace with
      | .ok () after => ⟨.ok (), { encoder with scratch := after.scratch }, after.frame, events⟩
      | .error fault after =>
          ⟨.error (.faulted fault), { encoder with scratch := after.scratch }, after.frame, events⟩

def encodeOn (encoder : Encoder) (isa : Isa) (info : List UInt8) (frameAddress : Nat) : Call :=
  encoder.encodeIntoOn isa info (Buffer.zeroed frameAddress encoder.shape.frameSize.toNat)

/-! The same calls on the machine that the library is run on. -/

def encodeInto (encoder : Encoder) (info : List UInt8) (frame : Buffer) : Call :=
  encoder.encodeIntoOn .host info frame

def encode (encoder : Encoder) (info : List UInt8) (frameAddress : Nat) : Call :=
  encoder.encodeInto info (Buffer.zeroed frameAddress encoder.shape.frameSize.toNat)

end Encoder

end PolarCoding
