import PolarCoding.Proofs.Filling

/-!
# Workspaces and their fronts

An encoder works on the first symbols of both buffers of a workspace and leaves the rest alone.
It begins by filling the frame into the scratch buffer.
-/

namespace PolarCoding

structure Buffer.Alike (first second : Buffer) : Prop where
  address : first.address = second.address
  length : first.symbols.length = second.symbols.length

/-- What a call may do to a buffer: its symbols change in the first `size` positions only. -/
structure Buffer.SameBehind (size : Nat) (before after : Buffer) : Prop extends
    Buffer.Alike before after where
  rest : after.symbols.drop size = before.symbols.drop size

namespace Buffer

variable {buffer : Buffer} {front : List UInt8} {size : Nat}

theorem SameBehind.refl (size : Nat) (buffer : Buffer) : SameBehind size buffer buffer :=
  ⟨⟨rfl, rfl⟩, rfl⟩

@[simp] theorem drop_withFront (buffer : Buffer) (front : List UInt8) :
    (buffer.withFront front).symbols.drop front.length = buffer.symbols.drop front.length := by
  rw [symbols_withFront, List.drop_left]

/-- A front within the first symbols. -/
theorem sameBehind_withFront (short : front.length ≤ size)
    (fit : size ≤ buffer.symbols.length) : SameBehind size buffer (buffer.withFront front) := by
  refine ⟨⟨rfl, (length_withFront (Nat.le_trans short fit)).symm⟩, ?_⟩
  obtain ⟨more, rfl⟩ := Nat.exists_eq_add_of_le short
  rw [← List.drop_drop, drop_withFront, List.drop_drop]

end Buffer

namespace Workspace

structure Holds (workspace : Workspace) (size : Nat) : Prop where
  frame : size ≤ workspace.frame.symbols.length
  scratch : size ≤ workspace.scratch.symbols.length

def withFronts (workspace : Workspace) (frameFront scratchFront : List UInt8) : Workspace :=
  ⟨workspace.frame.withFront frameFront, workspace.scratch.withFront scratchFront⟩

variable {workspace : Workspace} {size : Nat}

theorem Holds.withFronts {frameFront scratchFront : List UInt8} (holds : workspace.Holds size)
    (frameSize : frameFront.length = size) (scratchSize : scratchFront.length = size) :
    (workspace.withFronts frameFront scratchFront).Holds size := by
  subst frameSize
  constructor
  · exact Nat.le_trans holds.frame (Nat.le_of_eq (Buffer.length_withFront holds.frame).symm)
  · rw [← scratchSize] at holds ⊢
    exact Nat.le_trans holds.scratch (Nat.le_of_eq (Buffer.length_withFront holds.scratch).symm)

theorem withFronts_withFronts {frameFront scratchFront newFrame newScratch : List UInt8}
    (sameFrame : frameFront.length = newFrame.length)
    (sameScratch : scratchFront.length = newScratch.length) :
    (workspace.withFronts frameFront scratchFront).withFronts newFrame newScratch =
      workspace.withFronts newFrame newScratch := by
  simp only [withFronts, Buffer.withFront_withFront sameFrame,
    Buffer.withFront_withFront sameScratch]

theorem take_frame_withFronts {frameFront : List UInt8} (length : frameFront.length = size)
    {scratchFront : List UInt8} :
    (workspace.withFronts frameFront scratchFront).frame.symbols.take size = frameFront :=
  length ▸ Buffer.take_withFront workspace.frame frameFront

theorem take_scratch_withFronts {scratchFront : List UInt8} (length : scratchFront.length = size)
    {frameFront : List UInt8} :
    (workspace.withFronts frameFront scratchFront).scratch.symbols.take size = scratchFront :=
  length ▸ Buffer.take_withFront workspace.scratch scratchFront

def filledWith (workspace : Workspace) (symbols : List UInt8) : Workspace :=
  { workspace with scratch := workspace.scratch.withFront symbols }

section Filled

variable {symbols : List UInt8}

theorem Holds.filledWith (holds : workspace.Holds size) (length : symbols.length = size) :
    (workspace.filledWith symbols).Holds size := by
  subst length
  exact ⟨holds.frame,
    Nat.le_trans holds.scratch (Nat.le_of_eq (Buffer.length_withFront holds.scratch).symm)⟩

theorem take_scratch_filledWith (length : symbols.length = size) :
    (workspace.filledWith symbols).scratch.symbols.take size = symbols :=
  length ▸ Buffer.take_withFront workspace.scratch symbols

theorem withFronts_filledWith {frameFront scratchFront : List UInt8}
    (same : symbols.length = scratchFront.length) :
    (workspace.filledWith symbols).withFronts frameFront scratchFront =
      workspace.withFronts frameFront scratchFront := by
  simp only [withFronts, filledWith, Buffer.withFront_withFront same]

end Filled

/-- Filling the front of the scratch buffer. -/
theorem onScratchFront_interleave {sources : Sources} (cover : sources.Cover size)
    (fit : size ≤ workspace.scratch.symbols.length) :
    onScratchFront size sources.interleave workspace =
      .ok () (workspace.filledWith (sources.frame size)) := by
  have front : (workspace.scratch.symbols.take size).length = size := List.length_take_of_le fit
  have filled : sources.interleave (workspace.scratch.symbols.take size) =
      .ok () (sources.frame (workspace.scratch.symbols.take size).length) :=
    Sources.Cover.interleave_eq (front.symm ▸ cover)
  rw [front] at filled
  simp only [onScratchFront, if_neg (Nat.not_lt.mpr fit), filled, filledWith, Buffer.withFront,
    overwrite_zero, cover.length_frame]

theorem cover_of_onScratchFront {sources : Sources} {after : Workspace}
    (run : onScratchFront size sources.interleave workspace = .ok () after) :
    size ≤ workspace.scratch.symbols.length ∧ sources.Cover size := by
  by_cases fit : size ≤ workspace.scratch.symbols.length
  · have front : (workspace.scratch.symbols.take size).length = size := List.length_take_of_le fit
    refine ⟨fit, ?_⟩
    simp only [onScratchFront, if_neg (Nat.not_lt.mpr fit)] at run
    cases filled : sources.interleave (workspace.scratch.symbols.take size) with
    | ok value written => exact front ▸ Sources.cover_of_interleave filled
    | error fault written => simp [filled] at run
  · simp [onScratchFront, Nat.lt_of_not_le fit] at run

/-! ## Unchanged symbols -/

structure SameBehind (size : Nat) (before after : Workspace) : Prop where
  frame : Buffer.SameBehind size before.frame after.frame
  scratch : Buffer.SameBehind size before.scratch after.scratch

theorem SameBehind.refl (size : Nat) (workspace : Workspace) :
    SameBehind size workspace workspace := ⟨.refl size _, .refl size _⟩

theorem sameBehind_filledWith {front : List UInt8} (short : front.length ≤ size)
    (holds : workspace.Holds size) : SameBehind size workspace (workspace.filledWith front) :=
  ⟨.refl size _, Buffer.sameBehind_withFront short holds.scratch⟩

theorem sameBehind_withFronts {frameFront scratchFront : List UInt8}
    (frameSize : frameFront.length = size) (scratchSize : scratchFront.length = size)
    (holds : workspace.Holds size) :
    SameBehind size workspace (workspace.withFronts frameFront scratchFront) :=
  ⟨Buffer.sameBehind_withFront (Nat.le_of_eq frameSize) holds.frame,
    Buffer.sameBehind_withFront (Nat.le_of_eq scratchSize) holds.scratch⟩

/-- What was filled is found in the scratch buffer. -/
theorem getElem?_filledWith_frame {sources : Sources} {position : Nat}
    (filled : position < (sources.frame size).length) :
    (workspace.filledWith (sources.frame size)).scratch.symbols[position]? =
      sources.valueAt? position := by
  rw [filledWith, Buffer.symbols_withFront, List.getElem?_append_left filled,
    Sources.getElem?_frame filled]

end Workspace

end PolarCoding
