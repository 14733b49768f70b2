import PolarCoding.Lanes.Register
import PolarCoding.Stage.Basic

/-!
# The lane machine

The machine loads registers from the scratch buffer and stores registers to the frame. Its
journal lists the passes it begins and every load and store with its offset, so that what a run
touches can be read off afterwards.
-/

namespace PolarCoding.Lanes

/-! ## Memory

Registers travel to and from memory as sixteen neighbouring bytes. Aligned access is restricted
to addresses that are a multiple of a register; a load or store elsewhere is a fault. -/

inductive Access where
  /-- Any address will do. -/
  | unaligned
  /-- The address must be a multiple of a register. -/
  | aligned
  deriving DecidableEq

def Access.alignment : Access → Nat
  | .unaligned => 1
  | .aligned => laneCount

def Access.check (access : Access) (address : Nat) : Except Fault Unit :=
  let remainder := address % access.alignment
  require (remainder = 0) (.misaligned remainder)

structure Memory where
  /-- The address of the first byte. -/
  address : Nat
  cells : Array UInt8
  deriving DecidableEq

namespace Memory

def ofBuffer (buffer : Buffer) : Memory := ⟨buffer.address, buffer.symbols.toArray⟩

def toBuffer (memory : Memory) : Buffer := ⟨memory.address, memory.cells.toList⟩

def check (memory : Memory) (access : Access) (offset : Nat) : Except Fault Unit := do
  access.check (memory.address + offset)
  require (offset + laneCount ≤ memory.cells.size) (.laneContract .inBounds)

def read (memory : Memory) (offset : Nat) : Register :=
  Vector.ofFn fun lane => memory.cells.getD (offset + lane.val) 0

def putBytes (cells : Array UInt8) (offset : Nat) : List UInt8 → Array UInt8
  | [] => cells
  | byte :: rest => putBytes (cells.setIfInBounds offset byte) (offset + 1) rest

def write (memory : Memory) (offset : Nat) (register : Register) : Memory :=
  { memory with cells := putBytes memory.cells offset register.toList }

def load (memory : Memory) (access : Access) (offset : Nat) : Except Fault Register := do
  memory.check access offset
  pure (memory.read offset)

def store (memory : Memory) (access : Access) (offset : Nat) (register : Register) :
    Except Fault Memory := do
  memory.check access offset
  pure (memory.write offset register)

end Memory

@[simp]
theorem Memory.toBuffer_ofBuffer (buffer : Buffer) : (ofBuffer buffer).toBuffer = buffer := rfl

/-! ## The machine and its journal -/

inductive Pass where
  /-- One stage whose branches consist of whole registers. -/
  | wide (stage : Stage)
  /-- The last four stages at once, on branches of one register. -/
  | fused (branches : Nat)
  deriving DecidableEq

inductive Event where
  | begin (pass : Pass)
  /-- A register is loaded from an offset of the scratch buffer. -/
  | load (offset : Nat)
  /-- A register is stored to an offset of the frame. -/
  | store (offset : Nat)
  deriving DecidableEq

/-- Both buffers and the journal, latest event first. -/
structure Machine where
  frame : Memory
  scratch : Memory
  journal : List Event

namespace Machine

def ofWorkspace (workspace : Workspace) : Machine :=
  ⟨Memory.ofBuffer workspace.frame, Memory.ofBuffer workspace.scratch, []⟩

def toWorkspace (machine : Machine) : Workspace :=
  ⟨machine.frame.toBuffer, machine.scratch.toBuffer⟩

def note (event : Event) : Action Machine Unit :=
  modify fun machine => { machine with journal := event :: machine.journal }

def load (access : Access) (offset : Nat) : Action Machine Register := do
  let register ← (← get).scratch.load access offset
  note (.load offset)
  pure register

def store (access : Access) (offset : Nat) (register : Register) : Action Machine Unit := do
  (← get).frame.check access offset
  note (.store offset)
  modify fun machine => { machine with frame := machine.frame.write offset register }

def copyBack (size : Nat) : Action Machine Unit :=
  modify fun machine =>
    let rest := machine.scratch.cells.extract size machine.scratch.cells.size
    { machine with scratch.cells := machine.frame.cells.extract 0 size ++ rest }

def requireSizes (frameSize scratchSize : Nat) (fault : Fault) : Action Machine Unit := do
  let machine ← get
  require (frameSize ≤ machine.frame.cells.size ∧ scratchSize ≤ machine.scratch.cells.size) fault

def events (machine : Machine) : List Event := machine.journal.reverse

end Machine

end PolarCoding.Lanes
