import PolarCoding.Trial.Basic

/-!
# The checked encoder on good and bad input

A case is a consistent layout with a payload, and perhaps one defect to plant in it. With a
defect the encoder has to refuse the layout or the payload. Without one it has to produce a
codeword of bits from which encoding once more, with all positions carrying information, recovers
the filled frame.
-/

namespace PolarCoding.Trial

structure EncoderCase where
  shape : FrameShape
  mask : List UInt8
  frozen : List UInt8
  info : List UInt8
  defect : Option Defect
  deriving DecidableEq

structure Placement where
  scratch : Nat
  frame : Nat
  deriving DecidableEq

namespace EncoderCase

section Drawing

variable {σ ε : Type} (supply : Supply σ ε)

def drawDefect (size : Nat) : Draw σ ε Defect := do
  match ← supply.between 0 5 with
  | 0 => pure .frameSize
  | 1 => pure .infoBits
  | 2 => do
      let index ← supply.position size
      let value ← supply.between 0x01 0xFE
      pure (.maskByte index (UInt8.ofNat value))
  | 3 => do
      let index ← supply.size
      pure (.frozenBit index)
  | 4 => do
      let index ← supply.size
      pure (.infoBit index)
  | _ => pure .infoLength

/-- Draw one position: whether it is frozen, and its value. -/
def drawPosition : Draw σ ε (Bool × UInt8) := do
  let isFrozen ← supply.bool
  let value ← supply.bit
  pure (isFrozen, value)

/-- Draw a case. One case in eight has a defect. -/
def draw : Draw σ ε EncoderCase := do
  let exponent ← supply.exponent
  let size := 1 <<< exponent
  let positions ← Draw.times size (drawPosition supply)
  let mask := positions.map fun position => if position.1 then 0xFF else 0
  let frozen := (positions.filter fun position => position.1).map Prod.snd
  let info := (positions.filter fun position => !position.1).map Prod.snd
  let shape : FrameShape := ⟨UInt32.ofNat size, UInt32.ofNat info.length⟩
  if ← supply.ratio 1 8 then do
    let defect ← drawDefect supply size
    pure ⟨shape, mask, frozen, info, some defect⟩
  else pure ⟨shape, mask, frozen, info, none⟩

end Drawing

def ofBytes (bytes : List UInt8) : EncoderCase := Bytes.value (draw Bytes.supply) bytes

def text (trial : EncoderCase) : String :=
  "FuzzInput \x7b config: Config \x7b frame_size: " ++ toString trial.shape.frameSize
    ++ ", info_bits: " ++ toString trial.shape.infoBits
    ++ " \x7d, mask: " ++ bytesText trial.mask
    ++ ", frozen_bits: " ++ bytesText trial.frozen
    ++ ", info: " ++ bytesText trial.info
    ++ ", corruption: "
    ++ (match trial.defect with
        | none => "None"
        | some defect => "Some(" ++ defect.text ++ ")")
    ++ " \x7d"

/-- Replace the value at `index`, counted round and round, or give an empty sequence a zero. -/
def spoil (values : List UInt8) (index : Nat) (value : UInt8) : List UInt8 :=
  if values.length = 0 then [0] else values.set (index % values.length) value

def plant (trial : EncoderCase) : Defect → Except Fault EncoderCase
  | .frameSize => do
      let size ← Checked.below UInt32.size (trial.shape.frameSize.toNat * 3) .productOverflow
      pure { trial with shape.frameSize := UInt32.ofNat size }
  | .infoBits => do
      let count ← Checked.below UInt32.size (trial.shape.infoBits.toNat + 1) .sumOverflow
      pure { trial with shape.infoBits := UInt32.ofNat count }
  | .maskByte index value => do
      require (index < trial.mask.length) (.positionOutside index trial.mask.length)
      pure { trial with mask := trial.mask.set index value }
  | .frozenBit index => pure { trial with frozen := spoil trial.frozen index 2 }
  | .infoBit index => pure { trial with info := spoil trial.info index 0xFF }
  | .infoLength => pure { trial with info := trial.info ++ [1] }

/-- Build the encoder of a case and encode its payload, on a machine with the given instruction
set. The encoder is left as the call leaves it. -/
def attempt (trial : EncoderCase) (isa : Isa) (placement : Placement) :
    Except Failure (Encoder × List UInt8) := do
  let encoder ← (Encoder.build trial.shape trial.mask trial.frozen placement.scratch).value
  let call := encoder.encodeOn isa trial.info placement.frame
  let codeword ← call.codeword
  pure (call.encoder, codeword)

def findingOf : Failure → Finding
  | .rejected error => .refused error
  | .faulted fault => .faulted fault

def checkDefect (trial : EncoderCase) (defect : Defect) (isa : Isa) (placement : Placement) :
    Except Finding Unit := do
  let planted ← (trial.plant defect).mapError .faulted
  match planted.attempt isa placement with
  | .error (.rejected _) => .ok ()
  | .error (.faulted fault) => .error (.faulted fault)
  | .ok _ => .error (.accepted defect)

def checkSymbol (recovered : List UInt8) (position : Nat) (value : Option UInt8) :
    Except Finding Unit :=
  match recovered[position]? with
  | none => .error (.faulted (.positionOutside position recovered.length))
  | some symbol => if some symbol = value then .ok () else .error (.notRecovered position)

def checkRecovered (recovered : List UInt8) :
    (position : Nat) → (mask frozen info : List UInt8) → Except Finding Unit
  | _, [], _, _ => .ok ()
  | position, flag :: mask, frozen, info =>
      match Source.ofFlag flag with
      | .frozen => do
          checkSymbol recovered position frozen.head?
          checkRecovered recovered (position + 1) mask frozen.tail info
      | .info => do
          checkSymbol recovered position info.head?
          checkRecovered recovered (position + 1) mask frozen info.tail

def allInfo (frameSize : UInt32) (word : List UInt8) : EncoderCase :=
  ⟨⟨frameSize, frameSize⟩, List.replicate word.length 0, [], word, none⟩

/-- Require that the codeword consists of bits and decodes. The second placement is that of the
encoder that decodes. -/
def checkClean (trial : EncoderCase) (isa : Isa) (encoding decoding : Placement) :
    Except Finding Unit := do
  let size := trial.shape.frameSize
  let (encoder, codeword) ← (trial.attempt isa encoding).mapError findingOf
  if codeword.length ≠ size.toNat then .error (.wrongLength size.toNat codeword.length)
  else if codeword.any (1 < ·) then .error .notABit
  else do
    let (_, recovered) ← ((allInfo size codeword).attempt isa decoding).mapError findingOf
    checkRecovered recovered 0 encoder.mask encoder.frozen trial.info

def checkOn (trial : EncoderCase) (isa : Isa) (encoding decoding : Placement) :
    Except Finding Unit :=
  match trial.defect with
  | some defect => trial.checkDefect defect isa encoding
  | none => trial.checkClean isa encoding decoding

def check (trial : EncoderCase) (encoding decoding : Placement) : Except Finding Unit :=
  trial.checkOn .host encoding decoding

end EncoderCase

end PolarCoding.Trial
