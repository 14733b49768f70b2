import PolarCoding.Lanes.Machine
import PolarCoding.Scalar

/-!
# The vector encoder

The frame is filled into the scratch buffer. Wide stages follow, each copied back, until a branch
spans one register; one fused pass then does the rest. It is not copied back, so the scratch
buffer keeps the symbols as they were before the last four stages.
-/

namespace PolarCoding.Lanes

open Machine

/-! ## Wide stages

A wide stage has branches whose halves consist of whole registers. Two neighbouring registers of
the scratch buffer are turned into one register of sums and one of second symbols; the two go to
the same place in the first and in the second half of the branch. The scratch buffer is read
straight through: the reading position runs twice as fast as the writing position. -/

/-- Add to each lane the one `distance` above it, where the mask is set. -/
def absorb (distance : Nat) (mask register : Register) : Register :=
  ((register.shiftDown distance).and mask).xor register

/-- A butterfly on neighbouring lanes: sums go to the low half, second symbols to the high half. -/
def butterflyLanes (unit : VectorUnit) (register : Register) : Register :=
  (absorb 1 evenLanes register).shuffle unit separateEvenOdd

structure Mode where
  unit : VectorUnit
  access : Access
  deriving DecidableEq

/-- Turn the two registers at `source` into those at `target` and half a branch above it. The
result is the next position to read. -/
def wideStep (mode : Mode) (half source target : Nat) : Action Machine Nat := do
  let sourceStop ← Checked.add source (2 * laneCount)
  requireSizes 0 sourceStop (.laneContract .readFits)
  let upper ← Checked.add target half
  let targetStop ← Checked.add upper laneCount
  requireSizes targetStop 0 (.laneContract .writeFits)
  let first := butterflyLanes mode.unit (← load mode.access source)
  let nextSource ← Checked.add source laneCount
  let second := butterflyLanes mode.unit (← load mode.access nextSource)
  store mode.access target (first.concatLow second)
  store mode.access upper (first.concatHigh second)
  pure sourceStop

def wideSteps (mode : Mode) (half : Nat) :
    (steps : Nat) → (source target : Nat) → Action Machine Nat
  | 0, source, _ => pure source
  | steps + 1, source, target => do
      let nextSource ← wideStep mode half source target
      wideSteps mode half steps nextSource (target + laneCount)

def wideBranches (mode : Mode) (half : Nat) :
    (count : Nat) → (branch source : Nat) → Action Machine Unit
  | 0, _, _ => pure ()
  | count + 1, branch, source => do
      let halves ← Checked.mul branch 2
      let base ← Checked.mul halves half
      let _ ← Checked.add base half
      let nextSource ← wideSteps mode half (half / laneCount) source base
      wideBranches mode half count (branch + 1) nextSource

def wideStage (mode : Mode) (stage : Stage) : Action Machine Unit := do
  let half := stage.halfSpan.toNat
  require (laneCount ≤ half ∧ half % laneCount = 0) (.laneContract .wholeRegisters)
  let size ← stage.frameSize
  requireSizes size size (.laneContract .stageFits)
  note (.begin (.wide stage))
  wideBranches mode half stage.branches.toNat 0 0

/-! ## The fused last stages

Once a branch spans a single register, its four remaining stages are done in that register: its
lanes are put into bit-reversed order, then each lane absorbs the lane 8, 4, 2 and 1 above it.
The next register is loaded before the present one is finished. -/

def absorbAt (register : Register) (distance : Nat) : Register :=
  absorb distance (absorbMask distance) register

/-- The first part of a branch's work: reorder the lanes and absorb over the largest distance. -/
def fusedBegin (unit : VectorUnit) (register : Register) : Register :=
  (fusedDistances.take 1).foldl absorbAt (register.shuffle unit bitReversal)

/-- The second part: absorb over the remaining distances. -/
def fusedFinish (register : Register) : Register :=
  (fusedDistances.drop 1).foldl absorbAt register

/-- The branches from `branch` on, of which there are `count`. The register of the first of them
has been loaded. -/
def fusedBranches (mode : Mode) (total : Nat) :
    (count : Nat) → (branch : Nat) → (loaded : Register) → Action Machine Unit
  | 0, _, _ => pure ()
  | count + 1, branch, loaded => do
      let offset ← Checked.mul branch laneCount
      let begun := fusedBegin mode.unit loaded
      let nextBranch ← Checked.add branch 1
      let nextLoaded ←
        if nextBranch < total then do
          let nextOffset ← Checked.add offset laneCount
          load mode.access nextOffset
        else pure loaded
      store mode.access offset (fusedFinish begun)
      fusedBranches mode total count nextBranch nextLoaded

def fusedStages (mode : Mode) (branches : Nat) : Action Machine Unit := do
  require (0 < branches) (.laneContract .someBranch)
  let size ← Checked.mul branches laneCount
  requireSizes size size (.laneContract .branchesFit)
  note (.begin (.fused branches))
  let loaded ← load mode.access 0
  fusedBranches mode branches branches 0 loaded

/-! ## Encoding -/

/-- The given stages of a frame of `size` symbols. Stages behind the fused pass are part of it. -/
def stagePasses (mode : Mode) (size : Nat) : List Stage → Action Machine Unit
  | [] => pure ()
  | stage :: later =>
      if stage.halfSpan.toNat < laneCount then do
        require (stage.halfSpan.toNat = laneCount / 2) (.laneContract .registerSpan)
        fusedStages mode stage.branches.toNat
      else do
        wideStage mode stage
        copyBack size
        stagePasses mode size later

def requireAlignment (access : Access) : Action Machine Unit := do
  let machine ← get
  access.check machine.frame.address
  access.check machine.scratch.address

def transform (mode : Mode) (frameSize : UInt32) : Action Machine Unit := do
  let size := frameSize.toNat
  require (IsPowerOfTwo frameSize ∧ laneCount ≤ size) (.laneContract .frameFillsRegister)
  requireSizes size size (.laneContract .frameFits)
  requireAlignment mode.access
  let stages ← stagesOf frameSize
  stagePasses mode size stages

def prepare (sources : Sources) (frameSize : UInt32) : Action Workspace Unit := do
  let size := frameSize.toNat
  require (IsPowerOfTwo frameSize ∧ laneCount ≤ size) (.frameSizeNotVectorisable frameSize)
  let workspace ← get
  require (size ≤ workspace.frame.symbols.length ∧ size ≤ workspace.scratch.symbols.length)
    (.buffersShorterThanFrame frameSize)
  Workspace.onScratchFront size sources.interleave

/-- Let the machine run on a workspace. The result is the journal of the run. -/
def onMachine (action : Action Machine Unit) : Action Workspace (List Event) := fun workspace =>
  match action (Machine.ofWorkspace workspace) with
  | .ok () machine => .ok machine.events machine.toWorkspace
  | .error fault machine => .error fault machine.toWorkspace

def encodeJournalled (mode : Mode) (sources : Sources) (frameSize : UInt32) :
    Action Workspace (List Event) := do
  prepare sources frameSize
  onMachine (transform mode frameSize)

def encode (mode : Mode) (sources : Sources) (frameSize : UInt32) : Action Workspace Unit := do
  let _ ← encodeJournalled mode sources frameSize
  pure ()

end PolarCoding.Lanes
