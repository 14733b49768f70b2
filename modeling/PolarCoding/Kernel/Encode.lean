import PolarCoding.Lanes.Encode

/-!
# Choosing and running a kernel

The choice looks at the instruction set, the frame size and the alignment of both buffers, never at
their lengths or contents. A kernel that is asked for by name first checks that it can run.
-/

namespace PolarCoding.Kernel

def selectOn (isa : Isa) (workspace : Workspace) (frameSize : UInt32) : Kernel :=
  if frameSize.toNat < laneCount then .generic
  else
    match isa with
    | .ssse3 => if workspace.IsAligned then .ssse3Aligned else .ssse3
    | .neon => .neon
    | .portable => .portable

def supportsOn (kernel : Kernel) (isa : Isa) (workspace : Workspace) (frameSize : UInt32) : Bool :=
  let vector := decide (laneCount ≤ frameSize.toNat)
  let aligned := decide workspace.IsAligned
  match kernel with
  | .generic => true
  | .portable => vector
  | .portableAligned => vector && aligned
  | .ssse3 => vector && isa == .ssse3
  | .ssse3Aligned => vector && aligned && isa == .ssse3
  | .neon => vector && isa == .neon

def encodeOn (kernel : Kernel) (isa : Isa) (sources : Sources) (frameSize : UInt32) :
    Action Workspace Unit := do
  let workspace ← get
  require (kernel.supportsOn isa workspace frameSize) (.kernelUnsupported kernel frameSize)
  match kernel with
  | .generic => Scalar.encode sources frameSize
  | .portable => Lanes.encode ⟨.portable, .unaligned⟩ sources frameSize
  | .portableAligned => Lanes.encode ⟨.portable, .aligned⟩ sources frameSize
  | .ssse3 => Lanes.encode ⟨.ssse3, .unaligned⟩ sources frameSize
  | .ssse3Aligned => Lanes.encode ⟨.ssse3, .aligned⟩ sources frameSize
  | .neon => Lanes.encode ⟨.neon, .unaligned⟩ sources frameSize

/-! The same on the machine that the library is run on. -/

def select (workspace : Workspace) (frameSize : UInt32) : Kernel :=
  selectOn .host workspace frameSize

def supports (kernel : Kernel) (workspace : Workspace) (frameSize : UInt32) : Bool :=
  kernel.supportsOn .host workspace frameSize

def encode (kernel : Kernel) (sources : Sources) (frameSize : UInt32) : Action Workspace Unit :=
  kernel.encodeOn .host sources frameSize

end PolarCoding.Kernel

namespace PolarCoding

/-- Encode with the kernel chosen for these buffers on a machine with the given instruction set.
The result is that kernel. -/
def encodeOn (isa : Isa) (sources : Sources) (frameSize : UInt32) : Action Workspace Kernel := do
  let kernel := Kernel.selectOn isa (← get) frameSize
  kernel.encodeOn isa sources frameSize
  pure kernel

def encode (sources : Sources) (frameSize : UInt32) : Action Workspace Kernel :=
  encodeOn .host sources frameSize

end PolarCoding
