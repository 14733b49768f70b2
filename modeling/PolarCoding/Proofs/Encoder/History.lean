import PolarCoding.Proofs.Encoder.Checks
import PolarCoding.Proofs.Kernel

/-!
# Encoders over whole histories

An encoder is used again and again, and every call leaves other symbols in its scratch buffer. The
layout and the length of that buffer stay as they were, and this is all that a call depends on: an
accepted payload is always answered by the codeword that the scalar encoder computes from scratch.
-/

namespace PolarCoding.Encoder

/-- A payload to encode, into a new frame or into one of the caller, each time on a machine with any
instruction set. -/
inductive Request where
  | encode (isa : Isa) (info : List UInt8) (frameAddress : Nat)
  | encodeInto (isa : Isa) (info : List UInt8) (frame : Buffer)

def Request.serve (encoder : Encoder) : Request → Call
  | .encode isa info frameAddress => encoder.encodeOn isa info frameAddress
  | .encodeInto isa info frame => encoder.encodeIntoOn isa info frame

def history (encoder : Encoder) : List Request → Encoder
  | [] => encoder
  | request :: later => history (request.serve encoder).encoder later

structure Serves (encoder : Encoder) (shape : FrameShape) (mask frozen : List UInt8) : Prop where
  shape_eq : encoder.shape = shape
  mask_eq : encoder.mask = mask
  frozen_eq : encoder.frozen = frozen
  consistent : shape.Consistent mask frozen
  scratch : encoder.scratch.symbols.length = shape.frameSize.toNat

/-- A call succeeded, and its frame consists of bits and is the one that the scalar encoder makes
of zeroed buffers. -/
structure Call.Delivers (call : Call) (sources : Sources) (frameSize : UInt32) : Prop where
  answer : call.answer = .ok ()
  scalar : ∀ frameAddress scratchAddress, ∃ fresh,
    Scalar.encode sources frameSize ⟨.zeroed frameAddress frameSize.toNat,
        .zeroed scratchAddress frameSize.toNat⟩ = .ok () fresh ∧
      fresh.frame.symbols = call.frame.symbols
  length : call.frame.symbols.length = frameSize.toNat
  bits : ∀ symbol ∈ call.frame.symbols, symbol ≤ 1

variable {shape : FrameShape} {mask frozen info : List UInt8} {encoder : Encoder} {frame : Buffer}
  {depth : Nat}

theorem serves_of_build {scratchAddress : Nat}
    (built : (build shape mask frozen scratchAddress).value = .ok encoder) :
    encoder.Serves shape mask frozen := by
  obtain ⟨consistent, rfl⟩ := (build_eq_ok_iff shape mask frozen scratchAddress encoder).mp built
  exact ⟨rfl, rfl, rfl, consistent, Buffer.length_zeroed _ _⟩

/-- A consistent layout and an accepted payload have a value for each position. -/
theorem cover_of_accepts (consistent : shape.Consistent mask frozen)
    (accepts : shape.Accepts info) :
    (Sources.mk mask frozen info).Cover shape.frameSize.toNat := by
  have whole : mask.take shape.frameSize.toNat = mask := by
    rw [← consistent.maskLength, List.take_length]
  constructor
  · exact Nat.le_of_eq consistent.maskLength.symm
  · rw [whole]
    exact Nat.le_of_eq consistent.frozenCount.symm
  · rw [whole, consistent.infoCount]
    exact Nat.le_of_eq accepts.length.symm

/-- A check that fails ends the call before anything is changed. -/
theorem encodeIntoOn_of_checkCall {error : EncoderError} (isa : Isa)
    (check : encoder.checkCall info frame.symbols = .error error) :
    encoder.encodeIntoOn isa info frame = ⟨.error (.rejected error), encoder, frame, []⟩ := by
  rw [encodeIntoOn, check]

/-- An accepted payload is encoded. -/
theorem Serves.encodeIntoOn_eq (isa : Isa) (serves : encoder.Serves shape mask frozen)
    (accepts : shape.Accepts info) (fits : frame.symbols.length = shape.frameSize.toNat)
    (power : shape.frameSize.toNat = 2 ^ depth) :
    ∃ (left : List UInt8) (events : List LogEvent), left.length = shape.frameSize.toNat ∧
      encoder.encodeIntoOn isa info frame =
        ⟨.ok (), { encoder with scratch := encoder.scratch.withFront left },
          frame.withFront ((Sources.mk mask frozen info).codeword depth), events⟩ := by
  obtain ⟨rfl, rfl, rfl, consistent, scratch⟩ := serves
  have check := (checkCall_eq_ok_iff encoder info frame.symbols).mpr ⟨accepts, fits⟩
  have holds : Workspace.Holds ⟨frame, encoder.scratch⟩ encoder.shape.frameSize.toNat :=
    ⟨Nat.le_of_eq fits.symm, Nat.le_of_eq scratch.symm⟩
  have supported := Kernel.supportsOn_selectOn isa ⟨frame, encoder.scratch⟩ encoder.shape.frameSize
  obtain ⟨left, length, run⟩ :=
    Kernel.encodeOn_eq supported power holds (cover_of_accepts consistent accepts)
  let kernel := Kernel.selectOn isa ⟨frame, encoder.scratch⟩ encoder.shape.frameSize
  refine ⟨left, [.encodingFrame kernel encoder.shape.frameSize], length, ?_⟩
  simp only [encodeIntoOn, check, sources, run, Workspace.withFronts, kernel]

/-- Whatever comes of a call, the layout and the length of the scratch buffer stay. -/
theorem Serves.encodeIntoOn (serves : encoder.Serves shape mask frozen) (isa : Isa)
    (info : List UInt8) (frame : Buffer) :
    (encoder.encodeIntoOn isa info frame).encoder.Serves shape mask frozen := by
  cases check : encoder.checkCall info frame.symbols with
  | error error =>
      rw [encodeIntoOn_of_checkCall isa check]
      exact serves
  | ok value =>
      obtain ⟨accepts, fits⟩ := (checkCall_eq_ok_iff encoder info frame.symbols).mp check
      rw [serves.shape_eq] at accepts fits
      obtain ⟨depth, power⟩ := serves.consistent.power
      obtain ⟨left, events, length, call⟩ := serves.encodeIntoOn_eq isa accepts fits power
      rw [call]
      refine ⟨serves.shape_eq, serves.mask_eq, serves.frozen_eq, serves.consistent, ?_⟩
      rw [← serves.scratch]
      exact Buffer.length_withFront (Nat.le_of_eq (length.trans serves.scratch.symm))

theorem Serves.serve (serves : encoder.Serves shape mask frozen) (request : Request) :
    (request.serve encoder).encoder.Serves shape mask frozen := by
  cases request with
  | encode isa info frameAddress => exact serves.encodeIntoOn isa info _
  | encodeInto isa info frame => exact serves.encodeIntoOn isa info frame

theorem Serves.history (serves : encoder.Serves shape mask frozen) (requests : List Request) :
    (encoder.history requests).Serves shape mask frozen := by
  induction requests generalizing encoder with
  | nil => exact serves
  | cons request later ih => exact ih (serves.serve request)

/-- The sum of two bits is a bit. -/
theorem xor_le_one {first second : UInt8} (firstBit : first ≤ 1) (secondBit : second ≤ 1) :
    first ^^^ second ≤ 1 := by
  have values {bit : UInt8} (small : bit ≤ 1) : bit = 0 ∨ bit = 1 := by
    rw [UInt8.le_iff_toNat_le] at small
    rw [← UInt8.toNat_inj, ← UInt8.toNat_inj]
    exact Nat.le_one_iff_eq_zero_or_eq_one.mp small
  obtain rfl | rfl := values firstBit <;> obtain rfl | rfl := values secondBit <;> decide

/-- A codeword has the length of its frame and consists of bits. -/
theorem codeword_of_accepts (consistent : shape.Consistent mask frozen)
    (accepts : shape.Accepts info) (power : shape.frameSize.toNat = 2 ^ depth) :
    ((Sources.mk mask frozen info).codeword depth).length = shape.frameSize.toNat ∧
      ∀ symbol ∈ (Sources.mk mask frozen info).codeword depth, symbol ≤ 1 := by
  constructor
  · exact (cover_of_accepts consistent accepts).length_codeword power
  · exact forall_mem_polarTransform (fun _ _ => xor_le_one) depth
      (forall_mem_fill consistent.frozenBits accepts.bits)

/-- An accepted payload has its codeword as answer, wherever the new frame lies. -/
theorem Serves.codeword_encodeOn (serves : encoder.Serves shape mask frozen) (isa : Isa)
    (accepts : shape.Accepts info) (power : shape.frameSize.toNat = 2 ^ depth)
    (frameAddress : Nat) :
    (encoder.encodeOn isa info frameAddress).codeword =
      .ok ((Sources.mk mask frozen info).codeword depth) := by
  have zeroed := Buffer.length_zeroed frameAddress shape.frameSize.toNat
  have length := (codeword_of_accepts serves.consistent accepts power).1
  obtain ⟨left, events, _, call⟩ := serves.encodeIntoOn_eq isa accepts zeroed power
  rw [encodeOn, serves.shape_eq, call]
  exact congrArg Except.ok (Buffer.symbols_withFront_of_length (length.trans zeroed.symm))

theorem Serves.delivers (serves : encoder.Serves shape mask frozen) (isa : Isa)
    (accepts : shape.Accepts info) (fits : frame.symbols.length = shape.frameSize.toNat) :
    (encoder.encodeIntoOn isa info frame).Delivers ⟨mask, frozen, info⟩ shape.frameSize := by
  obtain ⟨depth, power⟩ := serves.consistent.power
  obtain ⟨length, bits⟩ := codeword_of_accepts serves.consistent accepts power
  obtain ⟨left, events, _, call⟩ := serves.encodeIntoOn_eq isa accepts fits power
  have symbols := Buffer.symbols_withFront_of_length (length.trans fits.symm)
  rw [call]
  refine ⟨rfl, ?_, by rw [symbols, length], by rwa [symbols]⟩
  intro frameAddress scratchAddress
  have zeroed (address : Nat) := Buffer.length_zeroed address shape.frameSize.toNat
  have holds : Workspace.Holds ⟨.zeroed frameAddress shape.frameSize.toNat,
      .zeroed scratchAddress shape.frameSize.toNat⟩ shape.frameSize.toNat :=
    ⟨Nat.le_of_eq (zeroed _).symm, Nat.le_of_eq (zeroed _).symm⟩
  refine ⟨_, Scalar.encode_eq power holds (cover_of_accepts serves.consistent accepts), ?_⟩
  rw [symbols]
  exact Buffer.symbols_withFront_of_length (length.trans (zeroed _).symm)

/-- After any requests to an encoder, refused or answered and on whichever machines, its layout and
the length of its scratch buffer are what they were, and whatever symbols that buffer now holds,
every machine encodes every accepted payload as the scalar encoder encodes it in zeroed buffers. -/
theorem history_delivers {scratchAddress : Nat}
    (built : (build shape mask frozen scratchAddress).value = .ok encoder)
    (requests : List Request) :
    ((encoder.history requests).shape = shape ∧ (encoder.history requests).mask = mask ∧
        (encoder.history requests).frozen = frozen ∧
        (encoder.history requests).scratch.symbols.length = shape.frameSize.toNat) ∧
      ∀ (isa : Isa) (info : List UInt8), shape.Accepts info →
        (∀ frameAddress, ((encoder.history requests).encodeOn isa info frameAddress).Delivers
            ⟨mask, frozen, info⟩ shape.frameSize) ∧
          ∀ frame : Buffer, frame.symbols.length = shape.frameSize.toNat →
            ((encoder.history requests).encodeIntoOn isa info frame).Delivers
              ⟨mask, frozen, info⟩ shape.frameSize := by
  have serves := (serves_of_build built).history requests
  refine ⟨⟨serves.shape_eq, serves.mask_eq, serves.frozen_eq, serves.scratch⟩, ?_⟩
  intro isa info accepts
  constructor
  · intro frameAddress
    rw [encodeOn, serves.shape_eq]
    exact serves.delivers isa accepts (Buffer.length_zeroed _ _)
  · intro frame fits
    exact serves.delivers isa accepts fits

/-- Sixteen symbols: requests that are answered with NEON and with aligned SSSE3 registers, one that
is refused, and then one that is answered with plain arrays. -/
theorem history_delivers_sixteen :
    let mask : List UInt8 := List.replicate 12 255 ++ List.replicate 4 0
    let frozen : List UInt8 := List.replicate 12 1
    let requests : List Request :=
      [.encode .neon [1, 0, 0, 1] 3, .encode .ssse3 [0, 1, 1, 1] 48,
        .encodeInto .ssse3 [2] ⟨0, [9]⟩]
    ∃ encoder, (build ⟨16, 4⟩ mask frozen 32).value = .ok encoder ∧
      ((encoder.history requests).encodeOn .portable [1, 1, 0, 1] 8).Delivers
        ⟨mask, frozen, [1, 1, 0, 1]⟩ 16 := by
  intro mask frozen requests
  have built : (build ⟨16, 4⟩ mask frozen 32).value =
      .ok ⟨⟨16, 4⟩, mask, frozen, .zeroed 32 16⟩ := rfl
  have accepts : FrameShape.Accepts ⟨16, 4⟩ [1, 1, 0, 1] := ⟨rfl, by simp⟩
  exact ⟨_, built, ((history_delivers built requests).2 .portable _ accepts).1 8⟩

end PolarCoding.Encoder
