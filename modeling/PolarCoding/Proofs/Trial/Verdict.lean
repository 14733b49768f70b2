import PolarCoding.Proofs.Encoder.Calls
import PolarCoding.Proofs.Encoder.Reencoding
import PolarCoding.Proofs.Trial.Drawing

/-!
# What the trial of an encoder finds

Each defect makes a well-formed case one that no encoder accepts, be it that a count no longer fits
because there was nothing to spoil. Without a defect the case is accepted, and encoding its codeword
once more gives back the values of both sources. So the trial of a well-formed case finds nothing.
-/

namespace PolarCoding.Trial.EncoderCase

open Encoder

variable {trial : EncoderCase} {defect : Defect} {depth : Nat}

structure Acceptable (trial : EncoderCase) : Prop where
  consistent : trial.shape.Consistent trial.mask trial.frozen
  accepts : trial.shape.Accepts trial.info

theorem WellFormed.acceptable (wellFormed : trial.WellFormed) : trial.Acceptable := by
  obtain ⟨depth, _, power⟩ := wellFormed.frameSize
  constructor
  · refine ⟨⟨depth, power⟩, wellFormed.maskLength, wellFormed.maskBytes, ?_, ?_,
      wellFormed.frozenBits⟩
    · exact wellFormed.infoLength.symm.trans wellFormed.infoCount.symm
    · rw [wellFormed.frozenLength, frozenCount_of_flags wellFormed.maskBytes]
  · exact ⟨wellFormed.infoCount.symm, wellFormed.infoBits⟩

/-! ## Attempts -/

section Attempts

variable (isa : Isa) (placement : Placement)

/-- Behind a successful build, the outcome of an attempt is that of the call. -/
theorem attempt_of_build {encoder : Encoder}
    (built : (build trial.shape trial.mask trial.frozen placement.scratch).value = .ok encoder) :
    trial.attempt isa placement =
      (encoder.encodeOn isa trial.info placement.frame).codeword.map fun codeword =>
        ((encoder.encodeOn isa trial.info placement.frame).encoder, codeword) := by
  rw [attempt, built]
  exact (map_eq_pure_bind _ (encoder.encodeOn isa trial.info placement.frame).codeword).symm

/-- What is acceptable is encoded, by an encoder that keeps the layout. -/
theorem Acceptable.attempt_eq (acceptable : trial.Acceptable)
    (power : trial.shape.frameSize.toNat = 2 ^ depth) :
    ∃ encoder, (encoder.mask = trial.mask ∧ encoder.frozen = trial.frozen) ∧
      trial.attempt isa placement =
        .ok (encoder, (Sources.mk trial.mask trial.frozen trial.info).codeword depth) := by
  have built := (build_eq_ok_iff trial.shape trial.mask trial.frozen placement.scratch _).mpr
    ⟨acceptable.consistent, rfl⟩
  have serves := serves_of_build built
  have later := (Reachable.built built).encoded isa trial.info placement.frame
  refine ⟨_, ⟨later.serves.mask_eq, later.serves.frozen_eq⟩, ?_⟩
  rw [attempt_of_build isa placement built,
    serves.codeword_encodeOn isa acceptable.accepts power placement.frame]
  rfl

/-- What is not acceptable is refused, with the layout or with the payload. -/
theorem attempt_of_not_acceptable (refused : ¬ trial.Acceptable) :
    ∃ error, trial.attempt isa placement = .error (.rejected error) := by
  cases built : (build trial.shape trial.mask trial.frozen placement.scratch).value with
  | error failure =>
      rw [attempt, built]
      cases failure with
      | rejected error => exact ⟨error, rfl⟩
      | faulted fault => exact absurd (build_eq_error_iff.mp built) (checkLayout_ne_fault fault)
  | ok encoder =>
      have serves := serves_of_build built
      cases answer : (encoder.encodeOn isa trial.info placement.frame).answer with
      | error failure =>
          cases failure with
          | rejected error =>
              rw [attempt_of_build isa placement built, Call.codeword_eq_error_iff.mpr answer]
              exact ⟨error, rfl⟩
          | faulted fault => exact absurd answer (serves.answer_ne_fault fault)
      | ok value =>
          have accepts := (serves.answer_eq_ok_iff.mp answer).1
          exact absurd ⟨serves.consistent, accepts⟩ refused

end Attempts

/-! ## Defects -/

/-- A spoilt sequence has another length, or a value that it must not have. -/
theorem length_spoil_ne_or_mem (values : List UInt8) (index : Nat) (value : UInt8) :
    (spoil values index value).length ≠ values.length ∨ value ∈ spoil values index value := by
  by_cases empty : values.length = 0
  · rw [spoil, if_pos empty, empty]
    exact .inl Nat.one_ne_zero
  · rw [spoil, if_neg empty]
    exact .inr (List.mem_set (Nat.mod_lt index (Nat.pos_of_ne_zero empty)) value)

/-- A spoilt sequence of bits is no such sequence of the same length. -/
theorem not_bits_spoil {values : List UInt8} {index length : Nat} {value : UInt8}
    (wrong : 1 < value) (was : values.length = length) :
    ¬ ((spoil values index value).length = length ∧ ∀ bit ∈ spoil values index value, bit ≤ 1) := by
  rintro ⟨same, bits⟩
  rcases length_spoil_ne_or_mem values index value with other | member
  · exact other (same.trans was.symm)
  · exact absurd (bits value member) (UInt8.not_le.mpr wrong)

/-- Three times a power of two is no power of two. -/
theorem three_mul_two_pow_ne (depth other : Nat) : 2 ^ depth * 3 ≠ 2 ^ other := by
  intro same
  have divides : 3 ∣ 2 ^ other := ⟨2 ^ depth, by rw [← same, Nat.mul_comm]⟩
  have coprime : Nat.Coprime 3 (2 ^ other) := Nat.Coprime.pow_right other (by decide)
  exact absurd (coprime.eq_one_of_dvd divides) (by decide)

/-- Planting a defect succeeds, and what it leaves is not acceptable. -/
theorem WellFormed.plant (wellFormed : trial.WellFormed)
    (fits : defect.Fits trial.shape.frameSize.toNat) :
    ∃ planted, trial.plant defect = .ok planted ∧ ¬ planted.Acceptable := by
  obtain ⟨depth, small, power⟩ := wellFormed.frameSize
  have bound : trial.shape.frameSize.toNat ≤ 2 ^ 12 :=
    power ▸ Nat.pow_le_pow_right Nat.two_pos small
  have acceptable := wellFormed.acceptable
  cases defect with
  | frameSize =>
      have word : trial.shape.frameSize.toNat * 3 < UInt32.size :=
        Nat.lt_of_le_of_lt (Nat.mul_le_mul_right 3 bound) (by decide)
      refine ⟨_, by rw [EncoderCase.plant, Checked.below_of_lt word]; rfl, ?_⟩
      rintro ⟨consistent, _⟩
      obtain ⟨other, shape⟩ := consistent.power
      rw [UInt32.toNat_ofNat_of_lt' word, power] at shape
      exact three_mul_two_pow_ne depth other shape
  | infoBits =>
      have few : trial.shape.infoBits.toNat ≤ 2 ^ 12 := by
        rw [wellFormed.infoCount, wellFormed.infoLength]
        exact Nat.le_trans List.count_le_length (wellFormed.maskLength ▸ bound)
      have word : trial.shape.infoBits.toNat + 1 < UInt32.size :=
        Nat.lt_of_le_of_lt (Nat.succ_le_succ few) (by decide)
      refine ⟨_, by rw [EncoderCase.plant, Checked.below_of_lt word]; rfl, ?_⟩
      rintro ⟨_, accepts⟩
      have length := accepts.length
      rw [UInt32.toNat_ofNat_of_lt' word, wellFormed.infoCount] at length
      exact Nat.succ_ne_self _ length.symm
  | maskByte index value =>
      obtain ⟨inside, low, high⟩ := fits
      rw [← wellFormed.maskLength] at inside
      refine ⟨_, by rw [EncoderCase.plant, require_of inside]; rfl, ?_⟩
      rintro ⟨consistent, _⟩
      rcases consistent.maskBytes value (List.mem_set inside value) with rfl | rfl
      · exact absurd low (by decide)
      · exact absurd high (by decide)
  | frozenBit index =>
      refine ⟨_, rfl, ?_⟩
      rintro ⟨consistent, _⟩
      exact not_bits_spoil (by decide) acceptable.consistent.frozenCount
        ⟨consistent.frozenCount, consistent.frozenBits⟩
  | infoBit index =>
      refine ⟨_, rfl, ?_⟩
      rintro ⟨_, accepts⟩
      exact not_bits_spoil (by decide) acceptable.accepts.length ⟨accepts.length, accepts.bits⟩
  | infoLength =>
      refine ⟨_, rfl, ?_⟩
      rintro ⟨_, accepts⟩
      have length : (trial.info ++ [1]).length = trial.shape.infoBits.toNat := accepts.length
      rw [List.length_append, acceptable.accepts.length] at length
      exact Nat.succ_ne_self _ length

/-! ## Recovered frames -/

section Recovered

variable {recovered : List UInt8} {position : Nat}

/-- A source without a value is not accepted. -/
theorem checkSymbol_none_ne_ok : checkSymbol recovered position none ≠ .ok () := by
  rw [checkSymbol]
  cases recovered[position]? <;> simp

/-- A value is accepted where the frame has it. -/
theorem checkSymbol_some_eq_ok_iff {value : UInt8} :
    checkSymbol recovered position (some value) = .ok () ↔ recovered[position]? = some value := by
  rw [checkSymbol]
  cases recovered[position]? <;> simp

/-- What a list holds from a position on begins with the symbol at that position. -/
theorem cons_prefix_drop_iff {symbol : UInt8} {later values : List UInt8} :
    symbol :: later <+: values.drop position ↔
      values[position]? = some symbol ∧ later <+: values.drop (position + 1) := by
  rw [← List.head?_drop, ← List.tail_drop]
  cases values.drop position with
  | nil => simp
  | cons first rest => simp [List.cons_prefix_cons, eq_comm]

/-- A frame is accepted from a position on if what it holds from there begins with what the sources
fill. -/
theorem checkRecovered_eq_ok_iff (mask frozen info : List UInt8) :
    checkRecovered recovered position mask frozen info = .ok () ↔
      (fill mask frozen info).exhausted = none ∧
        (fill mask frozen info).symbols <+: recovered.drop position := by
  -- The check walks along the mask as the filling does, and stops where that stops.
  fun_induction fill mask frozen info generalizing position with
  | case1 frozen info => simp [checkRecovered]
  | case2 flag mask info kind =>
      simp [checkRecovered, kind, checks_eq_ok_iff, checkSymbol_none_ne_ok]
  | case3 flag mask value frozen info kind ih =>
      simp only [checkRecovered, kind, List.head?_cons, List.tail_cons, checks_eq_ok_iff,
        checkSymbol_some_eq_ok_iff, ih, Filling.cons, cons_prefix_drop_iff]
      exact and_left_comm
  | case4 flag mask frozen kind =>
      simp [checkRecovered, kind, checks_eq_ok_iff, checkSymbol_none_ne_ok]
  | case5 flag mask frozen value info kind ih =>
      simp only [checkRecovered, kind, List.head?_cons, List.tail_cons, checks_eq_ok_iff,
        checkSymbol_some_eq_ok_iff, ih, Filling.cons, cons_prefix_drop_iff]
      exact and_left_comm

end Recovered

/-! ## Verdicts -/

def Refuses (trial : EncoderCase) (defect : Defect) (isa : Isa) (placement : Placement) : Prop :=
  ∃ planted error, trial.plant defect = .ok planted ∧
    planted.attempt isa placement = .error (.rejected error)

/-- The case is encoded to a word of bits, and encoding that word with all positions carrying
information gives each position the value that its source has for it. -/
def Recovers (trial : EncoderCase) (isa : Isa) (encoding decoding : Placement) : Prop :=
  ∃ encoder word full recovered,
    trial.attempt isa encoding = .ok (encoder, word) ∧
      (word.length = trial.shape.frameSize.toNat ∧ ∀ symbol ∈ word, symbol ≤ 1) ∧
        (allInfo trial.shape.frameSize word).attempt isa decoding = .ok (full, recovered) ∧
          recovered.length = trial.shape.frameSize.toNat ∧
            ∀ position < trial.shape.frameSize.toNat, recovered[position]? =
              (Sources.mk trial.mask trial.frozen trial.info).valueAt? position

section Verdicts

variable (isa : Isa) (encoding decoding : Placement)

theorem WellFormed.refuses (wellFormed : trial.WellFormed)
    (fits : defect.Fits trial.shape.frameSize.toNat) : trial.Refuses defect isa encoding := by
  obtain ⟨planted, plant, refused⟩ := wellFormed.plant fits
  obtain ⟨error, attempt⟩ := attempt_of_not_acceptable isa encoding refused
  exact ⟨planted, error, plant, attempt⟩

variable {isa encoding decoding} in
theorem Refuses.checkDefect_eq (refuses : trial.Refuses defect isa encoding) :
    trial.checkDefect defect isa encoding = .ok () := by
  obtain ⟨planted, error, plant, attempt⟩ := refuses
  simp only [checkDefect, plant, Except.mapError, bind, Except.bind, attempt]

/-- A word of bits is encoded to its transform if all positions carry information. -/
theorem attempt_allInfo {frameSize : UInt32} {word : List UInt8}
    (power : frameSize.toNat = 2 ^ depth) (length : word.length = frameSize.toNat)
    (bits : ∀ symbol ∈ word, symbol ≤ 1) :
    ∃ full, (allInfo frameSize word).attempt isa decoding =
      .ok (full, polarTransform depth word) := by
  have acceptable : (allInfo frameSize word).Acceptable := by
    constructor
    · rw [allInfo, length]
      exact consistent_allInformation ⟨depth, power⟩
    · exact ⟨length, bits⟩
  obtain ⟨full, _, attempt⟩ := acceptable.attempt_eq isa decoding power
  rw [allInfo, length, Sources.codeword_information length power] at attempt
  rw [allInfo, length]
  exact ⟨full, attempt⟩

/-- What is acceptable is encoded to a word of bits, and that word is encoded to the filled
frame. -/
theorem Acceptable.decodes (acceptable : trial.Acceptable) :
    ∃ encoder word full,
      (trial.attempt isa encoding = .ok (encoder, word) ∧
        encoder.mask = trial.mask ∧ encoder.frozen = trial.frozen) ∧
      (word.length = trial.shape.frameSize.toNat ∧ ∀ symbol ∈ word, symbol ≤ 1) ∧
        (allInfo trial.shape.frameSize word).attempt isa decoding =
          .ok (full, (Sources.mk trial.mask trial.frozen trial.info).frame
            trial.shape.frameSize.toNat) := by
  obtain ⟨consistent, accepts⟩ := acceptable
  obtain ⟨depth, power⟩ := consistent.power
  obtain ⟨encoder, layout, attempt⟩ :=
    Acceptable.attempt_eq isa encoding ⟨consistent, accepts⟩ power
  obtain ⟨length, bits⟩ := codeword_of_accepts consistent accepts power
  obtain ⟨full, decoded⟩ := attempt_allInfo isa decoding power length bits
  rw [polarTransform_codeword consistent accepts power] at decoded
  exact ⟨encoder, _, full, ⟨attempt, layout⟩, ⟨length, bits⟩, decoded⟩

theorem Acceptable.recovers (acceptable : trial.Acceptable) :
    trial.Recovers isa encoding decoding := by
  obtain ⟨encoder, word, full, ⟨attempt, _⟩, isWord, decoded⟩ :=
    acceptable.decodes isa encoding decoding
  have cover := cover_of_accepts acceptable.consistent acceptable.accepts
  refine ⟨encoder, word, full, _, attempt, isWord, decoded, cover.length_frame, ?_⟩
  intro position inside
  exact cover.getElem?_frame inside

/-- A frame that was filled passes. -/
theorem checkRecovered_frame {mask frozen info : List UInt8} {shape : FrameShape}
    (consistent : shape.Consistent mask frozen) (accepts : shape.Accepts info) :
    checkRecovered ((Sources.mk mask frozen info).frame shape.frameSize.toNat) 0 mask frozen info =
      .ok () := by
  rw [checkRecovered_eq_ok_iff, frame_of_consistent consistent]
  exact ⟨complete_of_accepts consistent accepts, List.prefix_rfl⟩

theorem Acceptable.checkClean_eq (acceptable : trial.Acceptable) :
    trial.checkClean isa encoding decoding = .ok () := by
  obtain ⟨encoder, word, full, ⟨attempt, mask, frozen⟩, ⟨length, bits⟩, decoded⟩ :=
    acceptable.decodes isa encoding decoding
  have noLarger : word.any (1 < ·) = false := by
    simpa using bits
  have recovered := checkRecovered_frame acceptable.consistent acceptable.accepts
  simp [checkClean, attempt, Except.mapError, bind, Except.bind, length, noLarger, decoded, mask,
    frozen, recovered]

end Verdicts

/-- A case that is drawn from a supply of numbers within their bounds is well formed, and on
whichever machine and wherever its buffers lie, the trial of a well-formed case finds nothing. A
defect can be planted, and then the case is refused; without one it is encoded and its sources are
recovered. -/
theorem trial_finds_nothing {σ ε : Type} {supply : Supply σ ε} (ranged : supply.Ranged) :
    (∀ state trial rest, (draw supply).run state = .ok (trial, rest) → trial.WellFormed) ∧
      ∀ (trial : EncoderCase) (isa : Isa) (encoding decoding : Placement), trial.WellFormed →
        trial.checkOn isa encoding decoding = .ok () ∧
          (∀ defect, trial.defect = some defect → trial.Refuses defect isa encoding) ∧
            (trial.defect = none → trial.Recovers isa encoding decoding) := by
  refine ⟨always_draw ranged, ?_⟩
  intro trial isa encoding decoding wellFormed
  refine ⟨?_, ?_, fun _ => wellFormed.acceptable.recovers isa encoding decoding⟩
  · rw [checkOn]
    cases planted : trial.defect with
    | none => exact wellFormed.acceptable.checkClean_eq isa encoding decoding
    | some defect =>
        exact (wellFormed.refuses isa encoding (wellFormed.defect defect planted)).checkDefect_eq
  · intro defect planted
    exact wellFormed.refuses isa encoding (wellFormed.defect defect planted)

/-- Sixteen positions are drawn from bytes, once with a wrong mask byte and once without. -/
theorem trial_finds_nothing_sixteen :
    let positions : List UInt8 := (List.replicate 8 [1, 1, 0, 0]).flatten
    ∃ planted clean rest,
      (draw Bytes.supply).run (4 :: positions ++ [0, 2, 3, 6]) = .ok (planted, []) ∧
        planted.defect = some (.maskByte 3 7) ∧ planted.checkOn .ssse3 ⟨32, 16⟩ ⟨0, 3⟩ = .ok () ∧
      (draw Bytes.supply).run (4 :: positions ++ [7, 9]) = .ok (clean, rest) ∧
        clean.Recovers .neon ⟨5, 16⟩ ⟨0, 3⟩ := by
  intro positions
  obtain ⟨drawn, finds⟩ := trial_finds_nothing Bytes.ranged_supply
  have planted := drawn (4 :: positions ++ [0, 2, 3, 6]) _ _ rfl
  have clean := drawn (4 :: positions ++ [7, 9]) _ _ rfl
  exact ⟨_, _, _, rfl, rfl, (finds _ _ _ _ planted).1, rfl, (finds _ _ _ _ clean).2.2 rfl⟩

end PolarCoding.Trial.EncoderCase
