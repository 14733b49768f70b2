import PolarCoding.Trial.Basic

/-!
# Kernels against the scalar encoder

A case holds a mask with values for all its positions and a distance from an aligned address.
Every kernel that can run on buffers at that distance has to produce the scalar codeword.
-/

namespace PolarCoding.Trial

structure KernelCase where
  frameSize : UInt32
  sources : Sources
  /-- Distance of both buffers from an aligned address. -/
  shift : Nat
  deriving DecidableEq

namespace KernelCase

def draw {σ ε : Type} (supply : Supply σ ε) : Draw σ ε KernelCase := do
  let exponent ← supply.exponent
  let flags ← Draw.times (1 <<< exponent) supply.bool
  let mask := flags.map fun flag => if flag then 0xFF else 0
  let frozen ← Draw.times (frozenCount mask) supply.bit
  let info ← Draw.times (infoCount mask) supply.bit
  let shift ← supply.between 0 (laneCount - 1)
  pure ⟨UInt32.ofNat (1 <<< exponent), ⟨mask, frozen, info⟩, shift⟩

def ofBytes (bytes : List UInt8) : KernelCase := Bytes.value (draw Bytes.supply) bytes

def text (trial : KernelCase) : String :=
  "FuzzInput \x7b frame_size: " ++ toString trial.frameSize
    ++ ", mask: " ++ bytesText trial.sources.mask
    ++ ", frozen_bits: " ++ bytesText trial.sources.frozen
    ++ ", info_bits: " ++ bytesText trial.sources.info
    ++ ", shift: " ++ toString trial.shift ++ " \x7d"

def expected (trial : KernelCase) : Except Finding (List UInt8) :=
  let size := trial.frameSize.toNat
  let fresh : Workspace := ⟨Buffer.zeroed 0 size, Buffer.zeroed 0 size⟩
  match Scalar.encode trial.sources trial.frameSize fresh with
  | .ok () after => .ok after.frame.symbols
  | .error fault _ => .error (.faulted fault)

/-- The part of an aligned buffer that is `shift` bytes behind its start. -/
def shifted (trial : KernelCase) (address : Nat) : Except Fault Buffer := do
  let size := trial.frameSize.toNat
  let storage ← AlignedBuffer.ofLength (size + laneCount) address
  let used ← storage.used
  pure (used.slice trial.shift size)

/-- Run the given kernels one after the other on the same buffers. The frame is cleared before
each run, the scratch buffer is not. -/
def compareKernels (trial : KernelCase) (isa : Isa) (expected : List UInt8) :
    List Kernel → Workspace → Except Finding Unit
  | [], _ => .ok ()
  | kernel :: later, workspace =>
      if kernel.supportsOn isa workspace trial.frameSize then
        let cleared := { workspace with
          frame.symbols := List.replicate workspace.frame.symbols.length 0 }
        match kernel.encodeOn isa trial.sources trial.frameSize cleared with
        | .error fault _ => .error (.faulted fault)
        | .ok () after =>
            if after.frame.symbols = expected then compareKernels trial isa expected later after
            else .error (.disagreement kernel)
      else compareKernels trial isa expected later workspace

def checkOn (trial : KernelCase) (isa : Isa) (frameAddress scratchAddress : Nat) :
    Except Finding Unit := do
  let expected ← trial.expected
  let frame ← (trial.shifted frameAddress).mapError .faulted
  let scratch ← (trial.shifted scratchAddress).mapError .faulted
  trial.compareKernels isa expected Kernel.all ⟨frame, scratch⟩

def check (trial : KernelCase) (frameAddress scratchAddress : Nat) : Except Finding Unit :=
  trial.checkOn .host frameAddress scratchAddress

end KernelCase

end PolarCoding.Trial
