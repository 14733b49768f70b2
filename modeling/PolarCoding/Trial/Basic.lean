import PolarCoding.Encoder

/-!
# Trials

A trial runs the library on one case and compares the outcome with what it has to be. A finding
is a difference between the two; a correct library gives none. The values that a case is made of are
drawn one after the other. How a draw comes by its value is left open: cases are decoded from any
supply of draws, and the run of bytes that the program reads is one of them.
-/

namespace PolarCoding.Trial

/-! ## Drawing values -/

/-- A computation that draws from a state of type `σ` and may fail with an error of type `ε`. -/
abbrev Draw (σ ε α : Type) : Type := StateT σ (Except ε) α

/-- The draws that cases are decoded with. -/
structure Supply (σ ε : Type) where
  /-- A number between two bounds, both included. -/
  between : (low high : Nat) → Draw σ ε Nat
  /-- A position in a sequence of the given length. -/
  position : (length : Nat) → Draw σ ε Nat
  bool : Draw σ ε Bool
  /-- True in `part` of `whole` cases. -/
  ratio : (part whole : Nat) → Draw σ ε Bool
  /-- Any size. -/
  size : Draw σ ε Nat

variable {σ ε α : Type}

namespace Supply

variable (supply : Supply σ ε)

def exponent : Draw σ ε Nat := supply.between 0 12

def bit : Draw σ ε UInt8 := do
  let value ← supply.between 0 1
  pure (UInt8.ofNat value)

end Supply

def Draw.times : (count : Nat) → Draw σ ε α → Draw σ ε (List α)
  | 0, _ => pure []
  | count + 1, draw => do
      let value ← draw
      let later ← times count draw
      pure (value :: later)

/-! ## Drawing from bytes

Every draw takes bytes from the front; when they run out the draw goes on with what there is. So no
draw fails, and each run of bytes describes some case. -/

namespace Bytes

/-- A number from at most `count` bytes, the most significant first, after the digits of `value`. -/
def bigEndian : (count : Nat) → (value : Nat) → Draw (List UInt8) Empty Nat
  | 0, value => pure value
  | count + 1, value => do
      match ← get with
      | [] => pure value
      | byte :: rest =>
          set rest
          bigEndian count (value * 256 + byte.toNat)

/-- The number of bytes that a value up to `bound` takes. -/
def width (bound : Nat) : Nat := if bound = 0 then 0 else bound.log2 / 8 + 1

/-- Equal bounds take no byte. -/
def between (low high : Nat) : Draw (List UInt8) Empty Nat := do
  let spread := high - low
  let raw ← bigEndian (width spread) 0
  pure (low + raw % (spread + 1))

/-- The lowest bit of one byte, false if there is none. -/
def bool : Draw (List UInt8) Empty Bool := do
  match ← get with
  | [] => pure false
  | byte :: rest =>
      set rest
      pure (byte &&& 1 = 1)

def ofLittleEndian : List UInt8 → Nat
  | [] => 0
  | byte :: rest => byte.toNat + 256 * ofLittleEndian rest

def size : Draw (List UInt8) Empty Nat := do
  let bytes ← get
  set (bytes.drop 8)
  pure (ofLittleEndian (bytes.take 8))

/-- No case asks for a position in an empty sequence. -/
def supply : Supply (List UInt8) Empty where
  between := between
  position length := between 0 (length - 1)
  bool := bool
  ratio part whole := do
    let ticket ← between 1 whole
    pure (ticket ≤ part)
  size := size

def value (draw : Draw (List UInt8) Empty α) (bytes : List UInt8) : α :=
  match draw.run bytes with
  | .ok (value, _) => value
  | .error impossible => nomatch impossible

end Bytes

/-! ## Findings -/

inductive Defect where
  | frameSize
  | infoBits
  | maskByte (index : Nat) (value : UInt8)
  | frozenBit (index : Nat)
  | infoBit (index : Nat)
  | infoLength
  deriving DecidableEq

inductive Finding where
  /-- A call ended in a fault. -/
  | faulted (fault : Fault)
  /-- Consistent input was refused. -/
  | refused (error : EncoderError)
  /-- A kernel and the scalar encoder differ. -/
  | disagreement (kernel : Kernel)
  /-- Input with a defect was accepted. -/
  | accepted (defect : Defect)
  /-- A codeword has the wrong length. -/
  | wrongLength (expected actual : Nat)
  /-- A codeword of bits has a symbol that is not a bit. -/
  | notABit
  /-- Encoding the codeword again does not give back the filled frame. -/
  | notRecovered (position : Nat)
  deriving DecidableEq

def Defect.text : Defect → String
  | .frameSize => "FrameSize"
  | .infoBits => "InfoBitsConfig"
  | .maskByte index value =>
      "MaskByte \x7b index: " ++ toString index ++ ", value: " ++ toString value ++ " \x7d"
  | .frozenBit index => "FrozenBit \x7b index: " ++ toString index ++ " \x7d"
  | .infoBit index => "InfoBit \x7b index: " ++ toString index ++ " \x7d"
  | .infoLength => "InfoLength"

def Finding.message : Finding → String
  | .faulted fault => fault.message
  | .refused error => error.message
  | .disagreement kernel => s!"{kernel.name} disagrees with generic"
  | .accepted defect => s!"{defect.text} accepted"
  | .wrongLength expected actual => s!"codeword has length {actual}, expected {expected}"
  | .notABit => "codeword symbol is not a bit"
  | .notRecovered position => s!"position {position}"

def bytesText (bytes : List UInt8) : String :=
  "[" ++ ", ".intercalate (bytes.map toString) ++ "]"

end PolarCoding.Trial
