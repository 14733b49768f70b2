import PolarCoding.Lanes.Machine
import PolarCoding.Proofs.Overwrite
import PolarCoding.Proofs.Runs

/-!
# Loads and stores of the lane machine

A load or store at a multiple of a register inside both buffers succeeds with either kind of
access. A load reads sixteen neighbouring symbols, a store overwrites as many and nothing else,
and each leaves one event in the journal.
-/

namespace PolarCoding.Lanes

def Memory.withCells (memory : Memory) (cells : List UInt8) : Memory :=
  ⟨memory.address, cells.toArray⟩

theorem Memory.putBytes_eq {cells : Array UInt8} {offset : Nat} {bytes : List UInt8}
    (fit : offset + bytes.length ≤ cells.size) :
    putBytes cells offset bytes = (overwrite cells.toList offset bytes).toArray := by
  induction bytes generalizing cells offset with
  | nil => rw [putBytes, overwrite_nil, Array.toArray_toList]
  | cons byte rest ih =>
      rw [List.length_cons] at fit
      have inside : offset < cells.toList.length := by rw [Array.length_toList]; omega
      have later : offset + 1 + rest.length ≤ (cells.setIfInBounds offset byte).size := by
        rw [Array.size_setIfInBounds]
        omega
      rw [putBytes, ih later, Array.toList_setIfInBounds, overwrite_cons byte inside]

theorem Memory.write_eq {memory : Memory} {offset : Nat} (register : Register)
    (fit : offset + laneCount ≤ memory.cells.size) :
    memory.write offset register =
      memory.withCells (overwrite memory.cells.toList offset register.toList) := by
  have length : register.toList.length = laneCount := Vector.length_toList
  rw [write, putBytes_eq (by rwa [length]), withCells]

/-- A register that is read consists of the cells from its offset on. -/
theorem Memory.toList_read {memory : Memory} {offset : Nat}
    (fit : offset + laneCount ≤ memory.cells.size) :
    (memory.read offset).toList = (memory.cells.toList.drop offset).take laneCount := by
  apply List.ext_getElem
  · rw [Vector.length_toList, List.length_take_of_le]
    rw [List.length_drop, Array.length_toList]
    omega
  · intro lane inside _
    rw [Vector.length_toList] at inside
    have present : offset + lane < memory.cells.size := by unfold laneCount at fit; omega
    have byte : (memory.read offset)[lane] = memory.cells[offset + lane] := by
      simp only [Memory.read, Vector.getElem_ofFn, Array.getD, dif_pos present]
      rfl
    rw [Vector.getElem_toList, List.getElem_take, List.getElem_drop, Array.getElem_toList, byte]

/-- A multiple of a register suits every access from an address that does. -/
theorem Access.suits_add {access : Access} {address offset : Nat}
    (suits : address % access.alignment = 0) (whole : offset % laneCount = 0) :
    (address + offset) % access.alignment = 0 := by
  cases access with
  | unaligned => exact Nat.mod_one _
  | aligned => rw [alignment, Nat.add_mod, whole, Nat.add_zero, Nat.mod_mod]; exact suits

theorem Memory.check_eq {memory : Memory} {access : Access} {offset : Nat}
    (suits : memory.address % access.alignment = 0) (whole : offset % laneCount = 0)
    (fit : offset + laneCount ≤ memory.cells.size) : memory.check access offset = .ok () := by
  rw [check, Access.check, require_of (Access.suits_add suits whole), require_of fit]
  rfl

namespace Machine

/-- The machine can work on `size` symbols with the given access: both buffers hold them and begin
at an address that suits. -/
structure Ready (machine : Machine) (access : Access) (size : Nat) : Prop where
  frameFits : size ≤ machine.frame.cells.size
  scratchFits : size ≤ machine.scratch.cells.size
  frameSuits : machine.frame.address % access.alignment = 0
  scratchSuits : machine.scratch.address % access.alignment = 0

def frameSymbols (machine : Machine) : List UInt8 := machine.frame.cells.toList

def scratchSymbols (machine : Machine) : List UInt8 := machine.scratch.cells.toList

/-- The machine with other symbols in its frame, after some more events. -/
def wrote (machine : Machine) (symbols : List UInt8) (events : List Event) : Machine :=
  { machine with
    frame := machine.frame.withCells symbols
    journal := events.reverse ++ machine.journal }

section Wrote

variable {machine : Machine} {access : Access} {size offset : Nat} {symbols : List UInt8}
  {events : List Event}

theorem Ready.le_scratch (ready : machine.Ready access size) :
    size ≤ machine.scratchSymbols.length := ready.scratchFits

theorem Ready.le_frame (ready : machine.Ready access size)
    (length : symbols.length = machine.frameSymbols.length) : size ≤ symbols.length :=
  length ▸ (ready.frameFits : size ≤ machine.frameSymbols.length)

/-- Symbols put over those of the frame leave its length. -/
theorem Ready.length_overwrite {front : List UInt8} (ready : machine.Ready access size)
    (length : symbols.length = machine.frameSymbols.length)
    (fit : offset + front.length ≤ size) :
    (overwrite symbols offset front).length = machine.frameSymbols.length := by
  rw [← length]
  exact PolarCoding.length_overwrite (Nat.le_trans fit (ready.le_frame length))

@[simp] theorem frame_wrote :
    (machine.wrote symbols events).frame = machine.frame.withCells symbols := rfl

@[simp] theorem wrote_nil : machine.wrote machine.frameSymbols [] = machine := rfl

/-- The journal keeps the order of events. -/
theorem note_eq (event : Event) :
    note event (machine.wrote symbols events) =
      .ok () (machine.wrote symbols (events ++ [event])) := by
  rw [note, Action.modify_apply, wrote, wrote, List.reverse_append]
  rfl

theorem load_eq (ready : machine.Ready access size) (whole : offset % laneCount = 0)
    (fit : offset + laneCount ≤ size) :
    load access offset (machine.wrote symbols events) =
      .ok (machine.scratch.read offset) (machine.wrote symbols (events ++ [.load offset])) := by
  have inside : offset + laneCount ≤ machine.scratch.cells.size :=
    Nat.le_trans fit ready.scratchFits
  have loaded : machine.scratch.load access offset = .ok (machine.scratch.read offset) := by
    rw [Memory.load, Memory.check_eq ready.scratchSuits whole inside]
    rfl
  rw [load, Action.get_bind, wrote, Action.lift_bind_of_ok loaded, ← wrote,
    Action.bind_of_ok (note_eq _)]
  rfl

theorem store_eq (register : Register) (ready : machine.Ready access size)
    (length : symbols.length = machine.frameSymbols.length) (whole : offset % laneCount = 0)
    (fit : offset + laneCount ≤ size) :
    store access offset register (machine.wrote symbols events) =
      .ok () (machine.wrote (overwrite symbols offset register.toList)
        (events ++ [.store offset])) := by
  have inside : offset + laneCount ≤ symbols.toArray.size :=
    Nat.le_trans fit (ready.le_frame length)
  have checked : (machine.frame.withCells symbols).check access offset = .ok () :=
    Memory.check_eq ready.frameSuits whole inside
  have written : (machine.frame.withCells symbols).write offset register =
      machine.frame.withCells (overwrite symbols offset register.toList) :=
    Memory.write_eq register inside
  rw [store, Action.get_bind, frame_wrote, Action.lift_bind_of_ok checked,
    Action.bind_of_ok (note_eq _), Action.modify_apply, wrote, wrote, written]

theorem requireSizes_eq {frameSize scratchSize : Nat} {fault : Fault}
    (ready : machine.Ready access size) (length : symbols.length = machine.frameSymbols.length)
    (frameFits : frameSize ≤ size) (scratchFits : scratchSize ≤ size) :
    requireSizes frameSize scratchSize fault (machine.wrote symbols events) =
      .ok () (machine.wrote symbols events) := by
  have inside : frameSize ≤ symbols.toArray.size :=
    Nat.le_trans frameFits (ready.le_frame length)
  have sizes : frameSize ≤ (machine.wrote symbols events).frame.cells.size ∧
      scratchSize ≤ (machine.wrote symbols events).scratch.cells.size :=
    ⟨inside, Nat.le_trans scratchFits ready.scratchFits⟩
  rw [requireSizes, Action.get_bind, require_of sizes, Action.lift_ok]

end Wrote

end Machine

end PolarCoding.Lanes
