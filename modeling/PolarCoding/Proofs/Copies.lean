import PolarCoding.Kernel.Encode

/-!
# Copies of aligned buffers

The distance to the next multiple of a register is measured when the storage of a buffer is
allocated. A copy has storage of its own, at an address of its own, and takes this distance over.
The part of the storage that it uses has the right length and lies inside, but it is aligned only if
the new address leaves the same remainder as the first one.
-/

namespace PolarCoding.AlignedBuffer

section Inheritance

variable {buffer : AlignedBuffer} {length origin : Nat}

/-- What every copy of a buffer that was allocated at `origin` takes over from it. -/
structure Inherits (buffer : AlignedBuffer) (length origin : Nat) : Prop where
  symbols_eq : buffer.storage.symbols = List.replicate (length + laneCount) 0
  offset_eq : buffer.offset = alignmentOffset origin
  length_eq : buffer.length = length

theorem ofLength_eq (fits : length + laneCount < capacityLimit) (origin : Nat) :
    ofLength length origin =
      .ok ⟨Buffer.zeroed origin (length + laneCount), alignmentOffset origin, length⟩ := by
  have size : length + laneCount < sizeLimit := Nat.lt_trans fits (by decide)
  have storage : Buffer.allocate origin (length + laneCount) =
      .ok (Buffer.zeroed origin (length + laneCount)) := by
    rw [Buffer.allocate, require_of fits]
    rfl
  rw [ofLength, Checked.add_of_lt size]
  change (Buffer.allocate origin (length + laneCount) >>= fun _ => _) = _
  rw [storage]
  rfl

namespace Inherits

theorem copyAt (inherits : buffer.Inherits length origin) (address : Nat) :
    (buffer.copyAt address).Inherits length origin :=
  ⟨inherits.symbols_eq, inherits.offset_eq, inherits.length_eq⟩

theorem copies (inherits : buffer.Inherits length origin) (addresses : List Nat) :
    (addresses.foldl AlignedBuffer.copyAt buffer).Inherits length origin := by
  induction addresses generalizing buffer with
  | nil => exact inherits
  | cons address later ih => exact ih (inherits.copyAt address)

/-- The used part fits the storage wherever that is. -/
theorem used_eq (inherits : buffer.Inherits length origin)
    (fits : length + laneCount < capacityLimit) :
    buffer.used =
      .ok ⟨buffer.storage.address + alignmentOffset origin, List.replicate length 0⟩ := by
  obtain ⟨symbols, offset, counted⟩ := inherits
  have distance := alignmentOffset_lt origin
  have size : alignmentOffset origin + length < sizeLimit := by
    have limit : capacityLimit ≤ sizeLimit := by decide
    omega
  have inside : alignmentOffset origin + length ≤ buffer.storage.symbols.length := by
    rw [symbols, List.length_replicate]
    omega
  have part : buffer.storage.slice (alignmentOffset origin) length =
      ⟨buffer.storage.address + alignmentOffset origin, List.replicate length 0⟩ := by
    rw [Buffer.slice, symbols, List.drop_replicate, List.take_replicate]
    congr 2
    omega
  rw [used, offset, counted, Checked.add_of_lt size, ← part]
  change (require _ _ >>= fun _ => _) = _
  rw [require_of inside]
  rfl

end Inherits

end Inheritance

/-- How a buffer came about: allocated for `length` symbols in storage at `origin` and then copied,
each time from the copy before. -/
structure Lineage where
  length : Nat
  origin : Nat
  /-- Where the allocator placed the storage of each copy, the first one first. -/
  copies : List Nat
  deriving DecidableEq

namespace Lineage

variable {lineage : Lineage}

def Fits (lineage : Lineage) : Prop := lineage.length + laneCount < capacityLimit

instance (lineage : Lineage) : Decidable lineage.Fits := inferInstanceAs (Decidable (_ < _))

def last (lineage : Lineage) : Except Fault AlignedBuffer := do
  let first ← ofLength lineage.length lineage.origin
  pure (lineage.copies.foldl copyAt first)

def used (lineage : Lineage) : Except Fault Buffer := do
  let buffer ← lineage.last
  buffer.used

def address (lineage : Lineage) : Nat := lineage.copies.getLastD lineage.origin

/-- The storage of the last copy is as far behind a multiple of a register as the first storage. -/
def KeepsRemainder (lineage : Lineage) : Prop :=
  lineage.address % laneCount = lineage.origin % laneCount

instance (lineage : Lineage) : Decidable lineage.KeepsRemainder :=
  inferInstanceAs (Decidable (_ = _))

theorem address_foldl (copies : List Nat) (first : AlignedBuffer) :
    (copies.foldl copyAt first).storage.address = copies.getLastD first.storage.address := by
  induction copies generalizing first with
  | nil => rfl
  | cons address later ih =>
      rw [List.foldl_cons, ih, List.getLastD_cons]
      rfl

/-- The used part of a buffer: as many zeros as asked for, inside the storage of this buffer, and
aligned exactly if the storage lies as the first one did. -/
structure Delivers (lineage : Lineage) (part : Buffer) : Prop where
  used_eq : lineage.used = .ok part
  symbols_eq : part.symbols = List.replicate lineage.length 0
  inside : ∃ buffer, lineage.last = .ok buffer ∧ buffer.storage.address = lineage.address ∧
    lineage.address ≤ part.address ∧
    part.address + lineage.length ≤ lineage.address + buffer.storage.symbols.length
  isAligned_iff : part.IsAligned ↔ lineage.KeepsRemainder
  fresh : lineage.copies = [] → part.IsAligned

theorem isAligned_offset_iff (address origin : Nat) (symbols : List UInt8) :
    (⟨address + alignmentOffset origin, symbols⟩ : Buffer).IsAligned ↔
      address % laneCount = origin % laneCount := by
  change (address + (laneCount - origin % laneCount) % laneCount) % laneCount = 0 ↔ _
  unfold laneCount
  omega

def first (lineage : Lineage) : AlignedBuffer :=
  ⟨Buffer.zeroed lineage.origin (lineage.length + laneCount), alignmentOffset lineage.origin,
    lineage.length⟩

theorem last_eq (fits : lineage.Fits) :
    lineage.last = .ok (lineage.copies.foldl copyAt lineage.first) := by
  rw [last, ofLength_eq fits]
  rfl

theorem exists_delivers (fits : lineage.Fits) : ∃ part, lineage.Delivers part := by
  have fresh : lineage.first.Inherits lineage.length lineage.origin := ⟨rfl, rfl, rfl⟩
  have inherits := fresh.copies lineage.copies
  have placed : (lineage.copies.foldl copyAt lineage.first).storage.address = lineage.address :=
    address_foldl lineage.copies lineage.first
  have distance := alignmentOffset_lt lineage.origin
  refine ⟨⟨lineage.address + alignmentOffset lineage.origin, List.replicate lineage.length 0⟩, ?_⟩
  constructor
  case used_eq =>
    rw [used, last_eq fits, ← placed]
    exact inherits.used_eq fits
  case symbols_eq => rfl
  case inside =>
    refine ⟨_, last_eq fits, placed, Nat.le_add_right _ _, ?_⟩
    rw [inherits.symbols_eq, List.length_replicate, Nat.add_assoc]
    apply Nat.add_le_add_left
    omega
  case isAligned_iff => exact isAligned_offset_iff lineage.address lineage.origin _
  case fresh =>
    intro none_made
    have unmoved : lineage.address = lineage.origin := by
      rw [address, none_made]
      rfl
    rw [unmoved]
    exact add_alignmentOffset_mod lineage.origin

end Lineage

/-- Fresh buffers and copies deliver as many zeros as they were made for, from inside their own
storage, wherever the allocator placed it. A fresh buffer is aligned; a copy is aligned exactly if
its storage lies as far behind a multiple of a register as the storage that the buffer was allocated
with. From one register on, the aligned kernels can therefore run on two buffers, on a machine that
has their instructions, exactly if both of them keep this remainder. -/
theorem copies_deliver {frame scratch : Lineage} (frameFits : frame.Fits)
    (scratchFits : scratch.Fits) :
    ∃ framePart scratchPart, frame.Delivers framePart ∧ scratch.Delivers scratchPart ∧
      ∀ frameSize : UInt32, laneCount ≤ frameSize.toNat →
        ∀ kernel ∈ [Kernel.portableAligned, Kernel.ssse3Aligned],
          (kernel.supportsOn .ssse3 ⟨framePart, scratchPart⟩ frameSize = true ↔
            frame.KeepsRemainder ∧ scratch.KeepsRemainder) := by
  obtain ⟨framePart, frameDelivers⟩ := Lineage.exists_delivers frameFits
  obtain ⟨scratchPart, scratchDelivers⟩ := Lineage.exists_delivers scratchFits
  refine ⟨framePart, scratchPart, frameDelivers, scratchDelivers, ?_⟩
  intro frameSize register kernel member
  have aligned : (⟨framePart, scratchPart⟩ : Workspace).IsAligned ↔
      frame.KeepsRemainder ∧ scratch.KeepsRemainder :=
    and_congr frameDelivers.isAligned_iff scratchDelivers.isAligned_iff
  have supports : kernel.supportsOn .ssse3 ⟨framePart, scratchPart⟩ frameSize = true ↔
      (⟨framePart, scratchPart⟩ : Workspace).IsAligned := by
    simp only [List.mem_cons, List.not_mem_nil, or_false] at member
    rcases member with rfl | rfl <;> simp [Kernel.supportsOn, register]
  exact supports.trans aligned

/-- Two buffers that were copied, each at last to an address like its first one. -/
theorem copies_deliver_twenty :
    let frame : Lineage := ⟨20, 5, [40, 21]⟩
    let scratch : Lineage := ⟨16, 3, [35]⟩
    frame.Fits ∧ scratch.Fits ∧
      frame.used = .ok ⟨32, List.replicate 20 0⟩ ∧ scratch.used = .ok ⟨48, List.replicate 16 0⟩ ∧
      ∀ kernel ∈ [Kernel.portableAligned, Kernel.ssse3Aligned],
        kernel.supportsOn .ssse3 ⟨⟨32, List.replicate 20 0⟩, ⟨48, List.replicate 16 0⟩⟩ 16 =
          true := by
  intro frame scratch
  have frameFits : frame.Fits := by decide
  have scratchFits : scratch.Fits := by decide
  have frameUsed : frame.used = .ok ⟨32, List.replicate 20 0⟩ := rfl
  have scratchUsed : scratch.used = .ok ⟨48, List.replicate 16 0⟩ := rfl
  obtain ⟨framePart, scratchPart, frameDelivers, scratchDelivers, supports⟩ :=
    copies_deliver frameFits scratchFits
  obtain rfl := Except.ok.inj (frameUsed.symm.trans frameDelivers.used_eq)
  obtain rfl := Except.ok.inj (scratchUsed.symm.trans scratchDelivers.used_eq)
  refine ⟨frameFits, scratchFits, frameUsed, scratchUsed, ?_⟩
  intro kernel member
  exact (supports 16 (by decide) kernel member).mpr ⟨by decide, by decide⟩

/-- A buffer of sixteen symbols, allocated at a multiple of a register, is copied into storage one
byte behind a multiple. The copy starts there too, and no aligned kernel can run on it. -/
theorem copy_is_misaligned :
    let copied : Lineage := ⟨16, 0, [1]⟩
    copied.Fits ∧ ∃ part, copied.used = .ok part ∧ ¬ part.IsAligned ∧
      ∀ kernel ∈ [Kernel.portableAligned, Kernel.ssse3Aligned],
        kernel.supportsOn .ssse3 ⟨part, part⟩ 16 = false := by
  exact ⟨by decide, ⟨1, List.replicate 16 0⟩, rfl, by decide, by decide⟩

end PolarCoding.AlignedBuffer
