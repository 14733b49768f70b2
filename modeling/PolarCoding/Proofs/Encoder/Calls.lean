import PolarCoding.Proofs.Encoder.Defects
import PolarCoding.Proofs.Encoder.History

/-!
# What a call on an encoder answers

An encoder that was built, and then used and copied in any way, answers every call. The answer is
that of the checks made before anything is written: behind them the layout suits whichever kernel is
chosen, and in front of them neither the encoder nor the frame of the caller is touched.
-/

namespace PolarCoding

/-! ## The checks of a call -/

namespace FrameShape

/-- What the check of each rank looks for in a payload and in the length of a frame, and how it is
reported. -/
inductive CallDefect (shape : FrameShape) (info : List UInt8) (frameLength : Nat) :
    (rank : Nat) → EncoderError → Prop where
  | infoLength (fails : info.length ≠ shape.infoBits.toNat) :
      CallDefect shape info frameLength 0
        (.invalidLength "info bits" shape.infoBits.toNat info.length)
  | infoBit {index : Nat} {value : UInt8} (first : FirstAt (1 < ·) info index value) :
      CallDefect shape info frameLength 1 (.invalidBit "info bits" index value)
  | frameLength (fails : frameLength ≠ shape.frameSize.toNat) :
      CallDefect shape info frameLength 2
        (.invalidLength "frame" shape.frameSize.toNat frameLength)

variable {shape : FrameShape} {info : List UInt8} {frameLength rank : Nat}
  {error other : EncoderError}

theorem CallDefect.unique (defect : shape.CallDefect info frameLength rank error)
    (again : shape.CallDefect info frameLength rank other) : error = other := by
  cases defect with
  | infoLength => cases again; rfl
  | infoBit first =>
      cases again with
      | infoBit second =>
          obtain ⟨rfl, rfl⟩ := first.unique second
          rfl
  | frameLength => cases again; rfl

/-- There are three checks. -/
theorem CallDefect.rank_lt (defect : shape.CallDefect info frameLength rank error) : rank < 3 := by
  cases defect <;> decide

theorem reports_infoLength :
    checkLength "info bits" shape.infoBits.toNat info.length = .error error ↔
      shape.CallDefect info frameLength 0 error := by
  rw [checkLength_eq_error_iff]
  constructor
  · rintro ⟨fails, rfl⟩
    exact .infoLength fails
  · intro defect
    cases defect with
    | infoLength fails => exact ⟨fails, rfl⟩

theorem reports_infoBit :
    checkBits "info bits" info = .error error ↔ shape.CallDefect info frameLength 1 error := by
  rw [checkBits_eq_error_iff]
  constructor
  · rintro ⟨index, value, first, rfl⟩
    exact .infoBit first
  · intro defect
    cases defect with
    | infoBit first => exact ⟨_, _, first, rfl⟩

theorem reports_frameLength :
    checkLength "frame" shape.frameSize.toNat frameLength = .error error ↔
      shape.CallDefect info frameLength 2 error := by
  rw [checkLength_eq_error_iff]
  constructor
  · rintro ⟨fails, rfl⟩
    exact .frameLength fails
  · intro defect
    cases defect with
    | frameLength fails => exact ⟨fails, rfl⟩

end FrameShape

/-- Two checks inside a call. -/
theorem lift_checks (first second : Except EncoderError Unit) :
    (liftM (first >>= fun _ => second) : Except Failure Unit) =
      (liftM first : Except Failure Unit) >>= fun _ => liftM second := by
  cases first <;> rfl

namespace Encoder

open FrameShape

variable {shape : FrameShape} {mask frozen info : List UInt8} {encoder : Encoder} {frame : Buffer}

/-- The checks of a call are made in the order of their ranks. -/
theorem decides_checkCall (encoder : Encoder) (info frame : List UInt8) :
    Decides (encoder.shape.CallDefect info frame.length) 0
      (liftM (encoder.checkCall info frame) : Except Failure Unit) := by
  rw [checkCall, lift_checks, lift_checks]
  refine .cons (fun _ => reports_infoLength) fun _ => .cons (fun _ => reports_infoBit) fun _ =>
    .single (fun _ => reports_frameLength) ?_
  intro later behind error defect
  exact absurd defect.rank_lt (Nat.not_lt.mpr behind)

/-! ## Encoders in use -/

/-- Encoders for a layout: those that were built for it, those that served a call on any machine,
and copies, which have a scratch buffer of their own. -/
inductive Reachable (shape : FrameShape) (mask frozen : List UInt8) : Encoder → Prop where
  | built {scratchAddress : Nat} {encoder : Encoder}
      (value_eq : (build shape mask frozen scratchAddress).value = .ok encoder) :
      Reachable shape mask frozen encoder
  | encoded {encoder : Encoder} (reached : Reachable shape mask frozen encoder) (isa : Isa)
      (info : List UInt8) (frameAddress : Nat) :
      Reachable shape mask frozen (encoder.encodeOn isa info frameAddress).encoder
  | encodedInto {encoder : Encoder} (reached : Reachable shape mask frozen encoder) (isa : Isa)
      (info : List UInt8) (frame : Buffer) :
      Reachable shape mask frozen (encoder.encodeIntoOn isa info frame).encoder
  | copied {encoder : Encoder} (reached : Reachable shape mask frozen encoder)
      (scratchAddress : Nat) : Reachable shape mask frozen (encoder.copyAt scratchAddress)

/-- The layout does not depend on where the scratch buffer lies. -/
theorem Serves.copyAt (serves : encoder.Serves shape mask frozen) (scratchAddress : Nat) :
    (encoder.copyAt scratchAddress).Serves shape mask frozen :=
  ⟨serves.shape_eq, serves.mask_eq, serves.frozen_eq, serves.consistent, serves.scratch⟩

/-- However an encoder was used, it serves the layout that it was built for. -/
theorem Reachable.serves (reached : Reachable shape mask frozen encoder) :
    encoder.Serves shape mask frozen := by
  induction reached with
  | built value_eq => exact serves_of_build value_eq
  | encoded reached isa info frameAddress ih => exact ih.encodeIntoOn isa info _
  | encodedInto reached isa info frame ih => exact ih.encodeIntoOn isa info frame
  | copied reached scratchAddress ih => exact ih.copyAt scratchAddress

/-! ## Answers -/

section Answers

variable {isa : Isa}

/-- The answer of a call is the outcome of its checks: behind them no kernel fails. -/
theorem Serves.answer_eq (serves : encoder.Serves shape mask frozen) :
    (encoder.encodeIntoOn isa info frame).answer =
      liftM (encoder.checkCall info frame.symbols) := by
  cases check : encoder.checkCall info frame.symbols with
  | error error =>
      rw [encodeIntoOn_of_checkCall isa check]
      rfl
  | ok value =>
      obtain ⟨accepts, fits⟩ := (checkCall_eq_ok_iff encoder info frame.symbols).mp check
      rw [serves.shape_eq] at accepts fits
      obtain ⟨depth, power⟩ := serves.consistent.power
      obtain ⟨left, events, _, call⟩ := serves.encodeIntoOn_eq isa accepts fits power
      rw [call]
      rfl

theorem Serves.answer_eq_ok_iff (serves : encoder.Serves shape mask frozen) :
    (encoder.encodeIntoOn isa info frame).answer = .ok () ↔
      shape.Accepts info ∧ frame.symbols.length = shape.frameSize.toNat := by
  rw [serves.answer_eq, lift_eq_ok_iff, checkCall_eq_ok_iff, serves.shape_eq]

theorem Serves.answer_eq_error_iff (serves : encoder.Serves shape mask frozen)
    (error : EncoderError) :
    (encoder.encodeIntoOn isa info frame).answer = .error (.rejected error) ↔
      FirstDefect (shape.CallDefect info frame.symbols.length) 0 error := by
  rw [serves.answer_eq, ← serves.shape_eq]
  exact (decides_checkCall encoder info frame.symbols).eq_error_iff fun _ _ _ => CallDefect.unique

theorem Serves.answer_ne_fault (serves : encoder.Serves shape mask frozen) (fault : Fault) :
    (encoder.encodeIntoOn isa info frame).answer ≠ .error (.faulted fault) := by
  rw [serves.answer_eq]
  exact (decides_checkCall encoder info frame.symbols).ne_fault fault

/-- A call that fails leaves the encoder and the frame as they were. -/
theorem Serves.unchanged_of_error (serves : encoder.Serves shape mask frozen) {failure : Failure}
    (failed : (encoder.encodeIntoOn isa info frame).answer = .error failure) :
    (encoder.encodeIntoOn isa info frame).encoder = encoder ∧
      (encoder.encodeIntoOn isa info frame).frame = frame := by
  cases check : encoder.checkCall info frame.symbols with
  | error error =>
      rw [encodeIntoOn_of_checkCall isa check]
      exact ⟨rfl, rfl⟩
  | ok value =>
      rw [serves.answer_eq, check] at failed
      cases failed

/-- The codeword is missing for the reason that the answer gives. -/
theorem Call.codeword_eq_error_iff {call : Call} {failure : Failure} :
    call.codeword = .error failure ↔ call.answer = .error failure := by
  rw [codeword]
  cases call.answer <;> simp [Except.map]

theorem Call.exists_codeword_iff {call : Call} :
    (∃ word, call.codeword = .ok word) ↔ call.answer = .ok () := by
  rw [codeword]
  cases call.answer <;> simp [Except.map]

end Answers

/-- However an encoder was used, and on whichever machine, a call on it never ends in a fault. It
succeeds exactly for payloads of the right length that consist of bits and, if the caller brings the
frame, for frames of the right length. Otherwise the first check that fails is reported, and nothing
is changed: not the frame of the caller, and of the encoder not even the scratch buffer. -/
theorem calls_never_fault (reached : Reachable shape mask frozen encoder) (isa : Isa)
    (info : List UInt8) :
    (∀ frame : Buffer,
        (∀ fault, (encoder.encodeIntoOn isa info frame).answer ≠ .error (.faulted fault)) ∧
          ((encoder.encodeIntoOn isa info frame).answer = .ok () ↔
            info.length = shape.infoBits.toNat ∧ (∀ bit ∈ info, bit ≤ 1) ∧
              frame.symbols.length = shape.frameSize.toNat) ∧
          (∀ error, (encoder.encodeIntoOn isa info frame).answer = .error (.rejected error) ↔
            FirstDefect (shape.CallDefect info frame.symbols.length) 0 error) ∧
          ∀ failure, (encoder.encodeIntoOn isa info frame).answer = .error failure →
            (encoder.encodeIntoOn isa info frame).encoder = encoder ∧
              (encoder.encodeIntoOn isa info frame).frame = frame) ∧
      ∀ frameAddress,
        (∀ fault, (encoder.encodeOn isa info frameAddress).codeword ≠ .error (.faulted fault)) ∧
          ((∃ word, (encoder.encodeOn isa info frameAddress).codeword = .ok word) ↔
            info.length = shape.infoBits.toNat ∧ ∀ bit ∈ info, bit ≤ 1) ∧
          (∀ error, (encoder.encodeOn isa info frameAddress).codeword = .error (.rejected error) ↔
            FirstDefect (shape.CallDefect info shape.frameSize.toNat) 0 error) ∧
          ∀ failure, (encoder.encodeOn isa info frameAddress).codeword = .error failure →
            (encoder.encodeOn isa info frameAddress).encoder = encoder := by
  have serves := reached.serves
  constructor
  · intro frame
    refine ⟨serves.answer_ne_fault, ?_, serves.answer_eq_error_iff, ?_⟩
    · rw [serves.answer_eq_ok_iff]
      constructor
      · rintro ⟨⟨length, bits⟩, fits⟩
        exact ⟨length, bits, fits⟩
      · rintro ⟨length, bits, fits⟩
        exact ⟨⟨length, bits⟩, fits⟩
    · intro failure failed
      exact serves.unchanged_of_error failed
  · -- A new frame has the right length, so the last check passes.
    intro frameAddress
    have fits : (Buffer.zeroed frameAddress encoder.shape.frameSize.toNat).symbols.length =
        shape.frameSize.toNat := by
      rw [Buffer.length_zeroed, serves.shape_eq]
    refine ⟨?_, ?_, ?_, ?_⟩
    · intro fault faulted
      exact serves.answer_ne_fault fault (Call.codeword_eq_error_iff.mp faulted)
    · rw [Call.exists_codeword_iff, encodeOn, serves.answer_eq_ok_iff]
      constructor
      · rintro ⟨⟨length, bits⟩, _⟩
        exact ⟨length, bits⟩
      · rintro ⟨length, bits⟩
        exact ⟨⟨length, bits⟩, fits⟩
    · intro error
      rw [Call.codeword_eq_error_iff, encodeOn, serves.answer_eq_error_iff, fits]
    · intro failure failed
      exact (serves.unchanged_of_error (Call.codeword_eq_error_iff.mp failed)).1

/-- An encoder for sixteen symbols has encoded a payload with plain arrays, aligned SSSE3 registers
and NEON registers, and is copied. The copy refuses a payload with a wrong byte, although the frame
has a wrong length as well, and is left as it was. -/
theorem calls_never_fault_sixteen :
    let mask : List UInt8 := List.replicate 12 255 ++ List.replicate 4 0
    ∃ encoder, Reachable ⟨16, 4⟩ mask (List.replicate 12 0) encoder ∧
      encoder.scratch = ⟨8, List.replicate 12 0 ++ [1, 0, 1, 1]⟩ ∧
        (encoder.encodeIntoOn .neon [1, 1, 2, 0] ⟨3, [9]⟩).answer =
          .error (.rejected (.invalidBit "info bits" 2 2)) ∧
        (encoder.encodeIntoOn .neon [1, 1, 2, 0] ⟨3, [9]⟩).encoder = encoder ∧
        (encoder.encodeIntoOn .neon [1, 1, 2, 0] ⟨3, [9]⟩).frame = ⟨3, [9]⟩ := by
  intro mask
  have value_eq : (build ⟨16, 4⟩ mask (List.replicate 12 0) 32).value =
      .ok ⟨⟨16, 4⟩, mask, List.replicate 12 0, .zeroed 32 16⟩ := rfl
  have used := ((Reachable.built value_eq).encoded .portable [1, 1, 0, 0] 3).encoded .ssse3
    [0, 1, 1, 0] 48
  have reached := (used.encoded .neon [1, 0, 1, 1] 7).copied 8
  obtain ⟨_, _, reports, unchanged⟩ := (calls_never_fault reached .neon [1, 1, 2, 0]).1 ⟨3, [9]⟩
  have wrong : FirstAt (1 < ·) [1, 1, 2, 0] 2 2 := by
    refine ⟨rfl, by decide, ?_⟩
    intro earlier before byte found
    match earlier, before with
    | 0, _ => cases found; decide
    | 1, _ => cases found; decide
  have first : FirstDefect (FrameShape.CallDefect ⟨16, 4⟩ [1, 1, 2, 0] 1) 0
      (.invalidBit "info bits" 2 2) := by
    refine ⟨1, Nat.zero_le 1, .infoBit wrong, ?_⟩
    intro between _ before other defect
    obtain rfl := Nat.lt_one_iff.mp before
    cases defect with
    | infoLength fails => exact fails rfl
  have refused := (reports _).mpr first
  exact ⟨_, reached, by decide +kernel, refused, unchanged _ refused⟩

end Encoder

end PolarCoding
