import PolarCoding.Proofs.Encoder.History

/-!
# Decoding by encoding again

An encoder without frozen positions transforms what it is given. The transform undoes itself, so
applied to a codeword it returns the filled frame, from which the payload can be read off, and a
word is a codeword exactly if its own transform has the frozen values in their places.
-/

namespace PolarCoding.Encoder

/-- The encoder answers a payload with a word, whatever requests came before, on whichever machine
and wherever the new frame lies. -/
def Encodes (encoder : Encoder) (info word : List UInt8) : Prop :=
  ∀ (requests : List Request) (isa : Isa) (frameAddress : Nat),
    ((encoder.history requests).encodeOn isa info frameAddress).codeword = .ok word

def allInformation (frameSize : UInt32) : FrameShape := ⟨frameSize, frameSize⟩

variable {shape : FrameShape} {mask frozen info word : List UInt8} {encoder : Encoder}
  {depth : Nat}

theorem Serves.encodes (serves : encoder.Serves shape mask frozen) (accepts : shape.Accepts info)
    (power : shape.frameSize.toNat = 2 ^ depth) :
    encoder.Encodes info ((Sources.mk mask frozen info).codeword depth) := by
  intro requests isa frameAddress
  exact (serves.history requests).codeword_encodeOn isa accepts power frameAddress

/-- The word for a payload is unique. -/
theorem Encodes.unique {first second : List UInt8} (firstWord : encoder.Encodes info first)
    (secondWord : encoder.Encodes info second) : first = second := by
  have same := (firstWord [] .portable 0).symm.trans (secondWord [] .portable 0)
  exact Except.ok.inj same

section AllInformation

theorem consistent_allInformation {frameSize : UInt32} (power : IsPowerOfTwo frameSize) :
    (allInformation frameSize).Consistent (List.replicate frameSize.toNat 0) [] := by
  obtain ⟨frozen, info⟩ := counts_replicate_zero frameSize.toNat
  refine ⟨power, List.length_replicate, ?_, info, frozen.symm, fun bit member => by cases member⟩
  intro flag member
  exact .inl (List.eq_of_mem_replicate member)

/-- An encoder without frozen positions transforms the payload. -/
theorem Serves.encodes_polarTransform {full : Encoder} {frameSize : UInt32}
    (serves : full.Serves (allInformation frameSize) (List.replicate frameSize.toNat 0) [])
    (length : word.length = frameSize.toNat) (bits : ∀ symbol ∈ word, symbol ≤ 1)
    (power : frameSize.toNat = 2 ^ depth) : full.Encodes word (polarTransform depth word) := by
  have encodes := serves.encodes ⟨length, bits⟩ power
  rwa [Sources.codeword_information length power] at encodes

end AllInformation

section Layout

variable (consistent : shape.Consistent mask frozen)

include consistent

theorem frame_of_consistent (info : List UInt8) :
    (Sources.mk mask frozen info).frame shape.frameSize.toNat =
      (fill mask frozen info).symbols := by
  rw [Sources.frame, ← consistent.maskLength, List.take_length]

/-- The sources last for the whole mask. -/
theorem complete_of_accepts (accepts : shape.Accepts info) :
    (fill mask frozen info).exhausted = none := by
  rw [exhausted_fill_eq_none_iff, consistent.infoCount, accepts.length]
  exact ⟨Nat.le_of_eq consistent.frozenCount.symm, Nat.le_refl _⟩

/-- The values of both sources can be read off a filled frame. -/
theorem valuesAt_frame (accepts : shape.Accepts info) :
    valuesAt .info mask ((Sources.mk mask frozen info).frame shape.frameSize.toNat) = info ∧
      valuesAt .frozen mask ((Sources.mk mask frozen info).frame shape.frameSize.toNat) =
        frozen := by
  obtain ⟨frozenRead, infoRead⟩ := valuesAt_fill (complete_of_accepts consistent accepts)
  rw [← consistent.frozenCount, List.take_length] at frozenRead
  rw [consistent.infoCount, ← accepts.length, List.take_length] at infoRead
  rw [frame_of_consistent consistent]
  exact ⟨infoRead, frozenRead⟩

/-- Transforming a codeword gives the filled frame. -/
theorem polarTransform_codeword (accepts : shape.Accepts info)
    (power : shape.frameSize.toNat = 2 ^ depth) :
    polarTransform depth ((Sources.mk mask frozen info).codeword depth) =
      (Sources.mk mask frozen info).frame shape.frameSize.toNat := by
  have filled := (cover_of_accepts consistent accepts).length_frame
  rw [power] at filled ⊢
  exact polarTransform_polarTransform filled

/-- A word whose transform has the frozen values in their places is a codeword. -/
theorem codeword_valuesAt (length : word.length = shape.frameSize.toNat)
    (bits : ∀ symbol ∈ word, symbol ≤ 1) (power : shape.frameSize.toNat = 2 ^ depth)
    (carries : valuesAt .frozen mask (polarTransform depth word) = frozen) :
    shape.Accepts (valuesAt .info mask (polarTransform depth word)) ∧
      (Sources.mk mask frozen (valuesAt .info mask (polarTransform depth word))).codeword depth =
        word := by
  have size : word.length = 2 ^ depth := length.trans power
  have same : mask.length = (polarTransform depth word).length := by
    rw [length_polarTransform size, consistent.maskLength, power]
  have rebuilt := fill_valuesAt same
  rw [carries] at rebuilt
  refine ⟨⟨?_, ?_⟩, ?_⟩
  · rw [(length_valuesAt same).2, consistent.infoCount]
  · exact forall_mem_valuesAt .info
      (forall_mem_polarTransform (fun _ _ => xor_le_one) depth bits)
  · rw [Sources.codeword, ← power, frame_of_consistent consistent, rebuilt,
      polarTransform_polarTransform size]

end Layout

section Both

variable {full : Encoder} (serves : encoder.Serves shape mask frozen)
  (fullServes : full.Serves (allInformation shape.frameSize)
    (List.replicate shape.frameSize.toNat 0) [])

include serves fullServes

/-- The codeword of a payload is encoded to the filled frame. -/
theorem Serves.decodes (accepts : shape.Accepts info) :
    ∃ word filled, (word.length = shape.frameSize.toNat ∧ ∀ symbol ∈ word, symbol ≤ 1) ∧
      encoder.Encodes info word ∧ full.Encodes word filled ∧
        (∀ target : List UInt8, target.length = shape.frameSize.toNat →
          (Sources.mk mask frozen info).interleave target = .ok () filled) ∧
        valuesAt .info mask filled = info ∧ valuesAt .frozen mask filled = frozen := by
  have consistent := serves.consistent
  obtain ⟨depth, power⟩ := consistent.power
  obtain ⟨length, bits⟩ := codeword_of_accepts consistent accepts power
  have filled := fullServes.encodes_polarTransform length bits power
  rw [polarTransform_codeword consistent accepts power] at filled
  refine ⟨_, _, ⟨length, bits⟩, serves.encodes accepts power, filled, ?_,
    valuesAt_frame consistent accepts⟩
  intro target size
  have cover := cover_of_accepts consistent accepts
  rw [← size] at cover ⊢
  exact cover.interleave_eq

/-- Every word of bits is encoded to a frame. If that has the frozen values in their places, its
information values are a payload with this word. -/
theorem Serves.reencodes (length : word.length = shape.frameSize.toNat)
    (bits : ∀ symbol ∈ word, symbol ≤ 1) :
    ∃ filled, full.Encodes word filled ∧
      (valuesAt .frozen mask filled = frozen →
        shape.Accepts (valuesAt .info mask filled) ∧
          encoder.Encodes (valuesAt .info mask filled) word) := by
  obtain ⟨depth, power⟩ := serves.consistent.power
  refine ⟨_, fullServes.encodes_polarTransform length bits power, ?_⟩
  intro carries
  obtain ⟨accepts, codeword⟩ := codeword_valuesAt serves.consistent length bits power carries
  have encodes := serves.encodes accepts power
  rw [codeword] at encodes
  exact ⟨accepts, encodes⟩

end Both

/-- An encoder for information only decodes the codewords of every other encoder for frames of the
same size: it turns a codeword into the filled frame it came from, and the words that it turns into
a frame with the frozen values are the codewords of their information values. -/
theorem reencoding_decodes {scratchAddress : Nat}
    (built : (build shape mask frozen scratchAddress).value = .ok encoder) (fullAddress : Nat) :
    ∃ full,
      (build (allInformation shape.frameSize) (List.replicate shape.frameSize.toNat 0) []
          fullAddress).value = .ok full ∧
        (∀ info, shape.Accepts info → ∃ word filled,
          encoder.Encodes info word ∧ full.Encodes word filled ∧
            (∀ target : List UInt8, target.length = shape.frameSize.toNat →
              (Sources.mk mask frozen info).interleave target = .ok () filled) ∧
            valuesAt .info mask filled = info ∧ valuesAt .frozen mask filled = frozen) ∧
        (∀ first second word, shape.Accepts first → shape.Accepts second →
          encoder.Encodes first word → encoder.Encodes second word → first = second) ∧
        (∀ word : List UInt8, word.length = shape.frameSize.toNat →
          (∀ symbol ∈ word, symbol ≤ 1) → ∃ filled, full.Encodes word filled ∧
            (valuesAt .frozen mask filled = frozen →
              shape.Accepts (valuesAt .info mask filled) ∧
                encoder.Encodes (valuesAt .info mask filled) word)) ∧
        ∀ word : List UInt8,
          (∃ info, shape.Accepts info ∧ encoder.Encodes info word) ↔
            (word.length = shape.frameSize.toNat ∧ ∀ symbol ∈ word, symbol ≤ 1) ∧
              ∃ filled, full.Encodes word filled ∧ valuesAt .frozen mask filled = frozen := by
  have serves := serves_of_build built
  have consistent := consistent_allInformation serves.consistent.power
  have fullBuilt := (build_eq_ok_iff _ _ _ fullAddress _).mpr ⟨consistent, rfl⟩
  have fullServes := serves_of_build fullBuilt
  refine ⟨_, fullBuilt, ?_, ?_, ?_, ?_⟩
  · intro info accepts
    obtain ⟨word, filled, _, decoded⟩ := serves.decodes fullServes accepts
    exact ⟨word, filled, decoded⟩
  · intro first second word firstAccepts secondAccepts firstWord secondWord
    obtain ⟨_, firstFilled, _, firstEncodes, firstDecodes, _, firstInfo, _⟩ :=
      serves.decodes fullServes firstAccepts
    obtain ⟨_, secondFilled, _, secondEncodes, secondDecodes, _, secondInfo, _⟩ :=
      serves.decodes fullServes secondAccepts
    obtain rfl := firstEncodes.unique firstWord
    obtain rfl := secondEncodes.unique secondWord
    rw [← firstInfo, ← secondInfo, firstDecodes.unique secondDecodes]
  · intro word length bits
    exact serves.reencodes fullServes length bits
  · intro word
    constructor
    · rintro ⟨info, accepts, encodes⟩
      obtain ⟨_, filled, isWord, infoEncodes, decodes, _, _, carries⟩ :=
        serves.decodes fullServes accepts
      obtain rfl := infoEncodes.unique encodes
      exact ⟨isWord, filled, decodes, carries⟩
    · rintro ⟨⟨length, bits⟩, filled, decodes, carries⟩
      obtain ⟨other, otherDecodes, rebuild⟩ := serves.reencodes fullServes length bits
      obtain rfl := decodes.unique otherDecodes
      exact ⟨_, rebuild carries⟩

/-- Sixteen symbols, of which every other one carries information. -/
theorem reencoding_decodes_sixteen :
    let mask : List UInt8 := [255, 0, 255, 0, 255, 0, 255, 0, 255, 0, 255, 0, 255, 0, 255, 0]
    ∃ encoder full word, (build ⟨16, 8⟩ mask [0, 1, 0, 1, 0, 1, 0, 1] 5).value = .ok encoder ∧
      (build (allInformation 16) (List.replicate 16 0) [] 16).value = .ok full ∧
        encoder.Encodes [1, 1, 1, 1, 0, 0, 0, 0] word ∧
          full.Encodes word [0, 1, 1, 1, 0, 1, 1, 1, 0, 0, 1, 0, 0, 0, 1, 0] := by
  intro mask
  have built : (build ⟨16, 8⟩ mask [0, 1, 0, 1, 0, 1, 0, 1] 5).value =
      .ok ⟨⟨16, 8⟩, mask, [0, 1, 0, 1, 0, 1, 0, 1], .zeroed 5 16⟩ := rfl
  have accepts : FrameShape.Accepts ⟨16, 8⟩ [1, 1, 1, 1, 0, 0, 0, 0] := ⟨rfl, by simp⟩
  obtain ⟨full, fullBuilt, decodes, _⟩ := reencoding_decodes built 16
  obtain ⟨word, filled, encodes, decoded, interleaved, _⟩ := decodes _ accepts
  have frame : EStateM.Result.ok () [0, 1, 1, 1, 0, 1, 1, 1, 0, 0, 1, 0, 0, 0, 1, 0] =
      EStateM.Result.ok () filled := interleaved (List.replicate 16 9) rfl
  obtain rfl : _ = filled := by injection frame
  exact ⟨_, full, word, built, fullBuilt, encodes, decoded⟩

end PolarCoding.Encoder
