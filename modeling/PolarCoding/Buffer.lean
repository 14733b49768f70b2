import PolarCoding.Action

/-!
# Buffers

A buffer is a run of symbols at an address. The address matters in one respect only: a buffer is
aligned if it starts at a multiple of a register. A workspace is the pair of buffers that every
encoder works on: the frame receives the codeword, the scratch buffer the filled frame.
-/

namespace PolarCoding

abbrev laneCount : Nat := 16

def overwrite (symbols : List UInt8) (start : Nat) (values : List UInt8) : List UInt8 :=
  symbols.take start ++ values ++ symbols.drop (start + values.length)

structure Buffer where
  /-- The address of the first symbol. -/
  address : Nat
  symbols : List UInt8
  deriving DecidableEq

namespace Buffer

def zeroed (address length : Nat) : Buffer := ⟨address, List.replicate length 0⟩

def IsAligned (buffer : Buffer) : Prop := buffer.address % laneCount = 0

instance (buffer : Buffer) : Decidable buffer.IsAligned :=
  inferInstanceAs (Decidable (_ = _))

def slice (buffer : Buffer) (start length : Nat) : Buffer :=
  ⟨buffer.address + start, (buffer.symbols.drop start).take length⟩

def splice (buffer : Buffer) (start : Nat) (part : Buffer) : Buffer :=
  { buffer with symbols := overwrite buffer.symbols start part.symbols }

end Buffer

structure Workspace where
  /-- Receives the codeword. -/
  frame : Buffer
  /-- Receives the filled frame and intermediate results. -/
  scratch : Buffer
  deriving DecidableEq

namespace Workspace

def IsAligned (workspace : Workspace) : Prop :=
  workspace.frame.IsAligned ∧ workspace.scratch.IsAligned

instance (workspace : Workspace) : Decidable workspace.IsAligned :=
  inferInstanceAs (Decidable (_ ∧ _))

def onScratchFront {α : Type} (size : Nat) (action : Action (List UInt8) α) :
    Action Workspace α := fun workspace =>
  let symbols := workspace.scratch.symbols
  let put (front : List UInt8) : Workspace :=
    { workspace with scratch.symbols := front ++ symbols.drop size }
  if symbols.length < size then .error (.sliceEndsOutside size symbols.length) workspace
  else
    match action (symbols.take size) with
    | .ok value front => .ok value (put front)
    | .error fault front => .error fault (put front)

end Workspace

/-! ## Storage that hides an aligned buffer

An allocator may place storage at any address. Asking it for one register more than needed
leaves room to start at the next multiple of a register. The distance to that multiple is
measured once, when the storage is allocated, and kept from then on. -/

/-- The largest number of bytes that one allocation may have is one less than this. -/
def capacityLimit : Nat := UInt64.size / 2

/-- Zeroed storage of the given length, at the address that the allocator chose. -/
def Buffer.allocate (address length : Nat) : Except Fault Buffer := do
  require (length < capacityLimit) .capacityOverflow
  pure (Buffer.zeroed address length)

def alignmentOffset (address : Nat) : Nat := (laneCount - address % laneCount) % laneCount

/-- Storage with the position and length of the part of it that is used. -/
structure AlignedBuffer where
  storage : Buffer
  offset : Nat
  length : Nat
  deriving DecidableEq

namespace AlignedBuffer

def ofLength (length address : Nat) : Except Fault AlignedBuffer := do
  let size ← Checked.add length laneCount
  let storage ← Buffer.allocate address size
  pure ⟨storage, alignmentOffset address, length⟩

/-- A copy whose storage the allocator placed at `address`. Offset and length are copied. -/
def copyAt (buffer : AlignedBuffer) (address : Nat) : AlignedBuffer :=
  { buffer with storage.address := address }

def used (buffer : AlignedBuffer) : Except Fault Buffer := do
  let stop ← Checked.add buffer.offset buffer.length
  let size := buffer.storage.symbols.length
  require (stop ≤ size) (.sliceEndsOutside stop size)
  pure (buffer.storage.slice buffer.offset buffer.length)

def update (buffer : AlignedBuffer) (part : Buffer) : AlignedBuffer :=
  { buffer with storage := buffer.storage.splice buffer.offset part }

end AlignedBuffer

theorem alignmentOffset_lt (address : Nat) : alignmentOffset address < laneCount :=
  Nat.mod_lt _ (by decide)

theorem add_alignmentOffset_mod (address : Nat) :
    (address + alignmentOffset address) % laneCount = 0 := by
  unfold alignmentOffset laneCount
  omega

end PolarCoding
