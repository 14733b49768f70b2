import PolarCoding.Proofs.Encoder.Checks

/-!
# The defect that an encoder reports

A layout may have several defects at once. The checks are made in a fixed order, each of them
meaningful because those before it passed, and the first that fails decides what is reported:
which check it was, the numbers it compared, or the first byte that it refused. An encoder is
built exactly if nothing is wrong.
-/

namespace PolarCoding

/-! ## The first byte that is refused -/

structure FirstAt (property : UInt8 → Prop) (bytes : List UInt8) (index : Nat) (value : UInt8) :
    Prop where
  found : bytes[index]? = some value
  holds : property value
  least : ∀ earlier < index, ∀ byte, bytes[earlier]? = some byte → ¬ property byte

section First

variable {property : UInt8 → Prop} {bytes : List UInt8} {index : Nat} {value : UInt8}

theorem FirstAt.mem (first : FirstAt property bytes index value) : value ∈ bytes :=
  List.mem_of_getElem? first.found

theorem FirstAt.cons {byte : UInt8} (other : ¬ property byte)
    (first : FirstAt property bytes index value) :
    FirstAt property (byte :: bytes) (index + 1) value := by
  refine ⟨first.found, first.holds, ?_⟩
  intro earlier before found present
  cases earlier with
  | zero =>
      cases present
      exact other
  | succ earlier => exact first.least earlier (Nat.lt_of_succ_lt_succ before) found present

/-- There is at most one first value. -/
theorem FirstAt.unique {otherIndex : Nat} {otherValue : UInt8}
    (first : FirstAt property bytes index value)
    (other : FirstAt property bytes otherIndex otherValue) :
    index = otherIndex ∧ value = otherValue := by
  rcases Nat.lt_trichotomy index otherIndex with before | rfl | behind
  · exact absurd first.holds (other.least index before value first.found)
  · exact ⟨rfl, Option.some.inj (first.found.symm.trans other.found)⟩
  · exact absurd other.holds (first.least otherIndex behind otherValue other.found)

variable [DecidablePred property]

/-- A search that counts from `start` stops at the first value that passes its test. -/
theorem firstAt_of_firstWhere {start : Nat}
    (stops : firstWhere (fun byte => decide (property byte)) start bytes = some (index, value)) :
    ∃ offset, index = start + offset ∧ FirstAt property bytes offset value := by
  induction bytes generalizing start with
  | nil => cases stops
  | cons byte rest ih =>
      rw [firstWhere] at stops
      by_cases hit : property byte
      · rw [if_pos (decide_eq_true hit)] at stops
        cases stops
        refine ⟨0, rfl, rfl, hit, ?_⟩
        intro earlier before
        exact absurd before (Nat.not_lt_zero earlier)
      · rw [if_neg (by simpa using hit)] at stops
        obtain ⟨offset, rfl, first⟩ := ih stops
        exact ⟨offset + 1, by rw [Nat.add_assoc, Nat.add_comm 1], first.cons hit⟩

theorem firstWhere_eq_some_iff :
    firstWhere (fun byte => decide (property byte)) 0 bytes = some (index, value) ↔
      FirstAt property bytes index value := by
  constructor
  · intro stops
    obtain ⟨offset, rfl, first⟩ := firstAt_of_firstWhere stops
    rwa [Nat.zero_add]
  · intro first
    cases search : firstWhere (fun byte => decide (property byte)) 0 bytes with
    | none =>
        have refuses := (firstWhere_eq_none_iff _ 0 bytes).mp search value first.mem
        exact absurd first.holds (of_decide_eq_false refuses)
    | some stop =>
        obtain ⟨otherIndex, otherValue⟩ := stop
        obtain ⟨offset, rfl, other⟩ := firstAt_of_firstWhere search
        obtain ⟨rfl, rfl⟩ := first.unique other
        rw [Nat.zero_add]

end First

/-! ## What each check reports -/

section Checks

variable {error : EncoderError}

theorem checkLength_eq_error_iff {what : String} {expected actual : Nat} :
    checkLength what expected actual = .error error ↔
      actual ≠ expected ∧ error = .invalidLength what expected actual := by
  unfold checkLength
  by_cases same : expected = actual
  · simp [same]
  · simp [same, Ne.symm same, eq_comm]

theorem checkInfoCount_eq_error_iff {expected actual : Nat} :
    checkInfoCount expected actual = .error error ↔
      actual ≠ expected ∧ error = .infoCountMismatch expected actual := by
  unfold checkInfoCount
  by_cases same : actual = expected
  · simp [same]
  · simp [same, eq_comm]

theorem checkMask_eq_error_iff {mask : List UInt8} :
    checkMask mask = .error error ↔
      ∃ index value, FirstAt (fun flag => flag ≠ 0 ∧ flag ≠ 0xFF) mask index value ∧
        error = .invalidMaskByte index value := by
  simp only [← firstWhere_eq_some_iff, checkMask]
  cases firstWhere (fun flag => flag ≠ 0 ∧ flag ≠ 0xFF) 0 mask with
  | none => simp
  | some stop =>
      constructor
      · intro refused
        cases refused
        exact ⟨stop.1, stop.2, rfl, rfl⟩
      · rintro ⟨index, value, found, rfl⟩
        cases found
        rfl

theorem checkBits_eq_error_iff {what : String} {bits : List UInt8} :
    checkBits what bits = .error error ↔
      ∃ index value, FirstAt (1 < ·) bits index value ∧ error = .invalidBit what index value := by
  simp only [← firstWhere_eq_some_iff, checkBits]
  cases firstWhere (1 < ·) 0 bits with
  | none => simp
  | some stop =>
      constructor
      · intro refused
        cases refused
        exact ⟨stop.1, stop.2, rfl, rfl⟩
      · rintro ⟨index, value, found, rfl⟩
        cases found
        rfl

end Checks

/-! ## Checks in a row

The defects that a row of checks looks for are a family indexed by rank, the place of the check in
the row. -/

section Rows

variable {defect : Nat → EncoderError → Prop} {rank : Nat} {error other : EncoderError}

def FirstDefect (defect : Nat → EncoderError → Prop) (rank : Nat) (error : EncoderError) : Prop :=
  ∃ failing, rank ≤ failing ∧ defect failing error ∧
    ∀ between, rank ≤ between → between < failing → ∀ other, ¬ defect between other

/-- There is at most one first defect if each check has one way to report that it fails. -/
theorem FirstDefect.unique
    (functional : ∀ rank error other, defect rank error → defect rank other → error = other)
    (first : FirstDefect defect rank error) (again : FirstDefect defect rank other) :
    error = other := by
  obtain ⟨failing, above, holds, clear⟩ := first
  obtain ⟨otherFailing, otherAbove, otherHolds, otherClear⟩ := again
  rcases Nat.lt_trichotomy failing otherFailing with before | rfl | behind
  · exact absurd holds (otherClear failing above before error)
  · exact functional failing error other holds otherHolds
  · exact absurd otherHolds (clear otherFailing otherAbove behind other)

/-- The checks from a rank on: they pass if nothing is wrong at these ranks, and otherwise they end
with the first defect. -/
structure Decides (defect : Nat → EncoderError → Prop) (rank : Nat) (checks : Except Failure Unit) :
    Prop where
  passes : checks = .ok () → ∀ later, rank ≤ later → ∀ error, ¬ defect later error
  fails : ∀ failure, checks = .error failure →
    ∃ error, failure = .rejected error ∧ FirstDefect defect rank error

/-- No checks, behind the last rank. -/
theorem decides_nil (none_left : ∀ later, rank ≤ later → ∀ error, ¬ defect later error) :
    Decides defect rank (.ok ()) := by
  refine ⟨fun _ => none_left, ?_⟩
  intro failure impossible
  cases impossible

/-- A check in front of those that decide the later ranks. These may rely on it. -/
theorem Decides.cons {check : Except EncoderError Unit} {rest : Except Failure Unit}
    (reports : ∀ error, check = .error error ↔ defect rank error)
    (later : check = .ok () → Decides defect (rank + 1) rest) :
    Decides defect rank ((liftM check : Except Failure Unit) >>= fun _ => rest) := by
  cases check with
  | error error =>
      constructor
      · intro impossible
        cases impossible
      · intro failure run
        cases run
        refine ⟨error, rfl, rank, Nat.le_refl rank, (reports error).mp rfl, ?_⟩
        intro between above below
        exact absurd (Nat.lt_of_le_of_lt above below) (Nat.lt_irrefl rank)
  | ok value =>
      have clear : ∀ error, ¬ defect rank error := by
        intro error holds
        cases (reports error).mpr holds
      obtain ⟨restPasses, restFails⟩ := later rfl
      constructor
      · intro run behind above
        rcases Nat.eq_or_lt_of_le above with rfl | further
        · exact clear
        · exact restPasses run behind further
      · intro failure run
        obtain ⟨error, rejected, failing, above, holds, restClear⟩ := restFails failure run
        refine ⟨error, rejected, failing, Nat.le_of_succ_le above, holds, ?_⟩
        intro between above below
        rcases Nat.eq_or_lt_of_le above with rfl | further
        · exact clear
        · exact restClear between further below

/-- Checks that decide end with the first defect. -/
theorem Decides.eq_error_iff {checks : Except Failure Unit}
    (functional : ∀ rank error other, defect rank error → defect rank other → error = other)
    (decides : Decides defect rank checks) :
    checks = .error (.rejected error) ↔ FirstDefect defect rank error := by
  constructor
  · intro refused
    obtain ⟨reported, same, first⟩ := decides.fails _ refused
    cases same
    exact first
  · intro first
    cases checks with
    | ok value =>
        obtain ⟨failing, above, holds, _⟩ := first
        exact absurd holds (decides.passes rfl failing above error)
    | error failure =>
        obtain ⟨reported, rfl, again⟩ := decides.fails failure rfl
        rw [first.unique functional again]

theorem Decides.ne_fault {checks : Except Failure Unit} (decides : Decides defect rank checks)
    (fault : Fault) : checks ≠ .error (.faulted fault) := by
  intro faulted
  obtain ⟨reported, same, _⟩ := decides.fails _ faulted
  cases same

/-- The last check of a row. -/
theorem Decides.single {check : Except EncoderError Unit}
    (reports : ∀ error, check = .error error ↔ defect rank error)
    (none_left : ∀ later, rank < later → ∀ error, ¬ defect later error) :
    Decides defect rank (liftM check : Except Failure Unit) := by
  have alone : (liftM check : Except Failure Unit) = liftM check >>= fun _ => .ok () := by
    cases check <;> rfl
  rw [alone]
  exact .cons reports fun _ => decides_nil none_left

end Rows

/-! ## The checks of a layout -/

namespace FrameShape

/-- What the check of each rank looks for, and how it is reported. -/
inductive Defect (shape : FrameShape) (mask frozen : List UInt8) :
    (rank : Nat) → EncoderError → Prop where
  | frameSize (fails : ¬ IsPowerOfTwo shape.frameSize) :
      Defect shape mask frozen 0 (.frameSizeNotPowerOfTwo shape.frameSize)
  | infoBits (fails : shape.frameSize < shape.infoBits) :
      Defect shape mask frozen 1 (.infoBitsExceedFrame shape.infoBits shape.frameSize)
  | maskLength (fails : mask.length ≠ shape.frameSize.toNat) :
      Defect shape mask frozen 2
        (.invalidLength "frozen bit mask" shape.frameSize.toNat mask.length)
  | maskByte {index : Nat} {value : UInt8}
      (first : FirstAt (fun flag => flag ≠ 0 ∧ flag ≠ 0xFF) mask index value) :
      Defect shape mask frozen 3 (.invalidMaskByte index value)
  | infoCount (fails : mask.count 0 ≠ shape.infoBits.toNat) :
      Defect shape mask frozen 4 (.infoCountMismatch shape.infoBits.toNat (mask.count 0))
  | frozenLength (fails : frozen.length ≠ mask.count 0xFF) :
      Defect shape mask frozen 5 (.invalidLength "frozen bits" (mask.count 0xFF) frozen.length)
  | frozenBit {index : Nat} {value : UInt8} (first : FirstAt (1 < ·) frozen index value) :
      Defect shape mask frozen 6 (.invalidBit "frozen bits" index value)

variable {shape : FrameShape} {mask frozen : List UInt8} {rank : Nat} {error other : EncoderError}

theorem Defect.unique (defect : shape.Defect mask frozen rank error)
    (again : shape.Defect mask frozen rank other) : error = other := by
  cases defect with
  | frameSize => cases again; rfl
  | infoBits => cases again; rfl
  | maskLength => cases again; rfl
  | maskByte first =>
      cases again with
      | maskByte second =>
          obtain ⟨rfl, rfl⟩ := first.unique second
          rfl
  | infoCount => cases again; rfl
  | frozenLength => cases again; rfl
  | frozenBit first =>
      cases again with
      | frozenBit second =>
          obtain ⟨rfl, rfl⟩ := first.unique second
          rfl

/-- There are seven checks. -/
theorem Defect.rank_lt (defect : shape.Defect mask frozen rank error) : rank < 7 := by
  cases defect <;> decide

/-- A shape is checked for its frame size first, then for its information. -/
theorem validate_bind (shape : FrameShape) (rest : Except Failure Unit) :
    ((liftM shape.validate : Except Failure Unit) >>= fun _ => rest) =
      ((liftM (if IsPowerOfTwo shape.frameSize then .ok ()
          else .error (.frameSizeNotPowerOfTwo shape.frameSize) : Except EncoderError Unit) :
        Except Failure Unit) >>= fun _ =>
        (liftM (if shape.frameSize < shape.infoBits then
            .error (.infoBitsExceedFrame shape.infoBits shape.frameSize)
          else .ok () : Except EncoderError Unit) : Except Failure Unit) >>= fun _ => rest) := by
  unfold validate
  by_cases power : IsPowerOfTwo shape.frameSize
  · rw [if_neg (not_not_intro power), if_pos power]
    rfl
  · rw [if_pos power, if_neg power]
    rfl

/-! Each check reports the defects of its rank and no others. -/

theorem reports_frameSize :
    (if IsPowerOfTwo shape.frameSize then .ok ()
      else .error (.frameSizeNotPowerOfTwo shape.frameSize) : Except EncoderError Unit) =
        .error error ↔ shape.Defect mask frozen 0 error := by
  constructor
  · intro failed
    split at failed
    · cases failed
    · rename_i fails
      cases failed
      exact .frameSize fails
  · intro defect
    cases defect with
    | frameSize fails => exact if_neg fails

theorem reports_infoBits :
    (if shape.frameSize < shape.infoBits then
        .error (.infoBitsExceedFrame shape.infoBits shape.frameSize)
      else .ok () : Except EncoderError Unit) =
        .error error ↔ shape.Defect mask frozen 1 error := by
  constructor
  · intro failed
    split at failed
    · rename_i fails
      cases failed
      exact .infoBits fails
    · cases failed
  · intro defect
    cases defect with
    | infoBits fails => exact if_pos fails

theorem reports_maskLength :
    checkLength "frozen bit mask" shape.frameSize.toNat mask.length = .error error ↔
      shape.Defect mask frozen 2 error := by
  rw [checkLength_eq_error_iff]
  constructor
  · rintro ⟨fails, rfl⟩
    exact .maskLength fails
  · intro defect
    cases defect with
    | maskLength fails => exact ⟨fails, rfl⟩

theorem reports_maskByte :
    checkMask mask = .error error ↔ shape.Defect mask frozen 3 error := by
  rw [checkMask_eq_error_iff]
  constructor
  · rintro ⟨index, value, first, rfl⟩
    exact .maskByte first
  · intro defect
    cases defect with
    | maskByte first => exact ⟨_, _, first, rfl⟩

theorem reports_infoCount :
    checkInfoCount shape.infoBits.toNat (PolarCoding.infoCount mask) = .error error ↔
      shape.Defect mask frozen 4 error := by
  rw [checkInfoCount_eq_error_iff]
  constructor
  · rintro ⟨fails, rfl⟩
    exact .infoCount fails
  · intro defect
    cases defect with
    | infoCount fails => exact ⟨fails, rfl⟩

theorem reports_frozenLength :
    checkLength "frozen bits" (mask.count 0xFF) frozen.length = .error error ↔
      shape.Defect mask frozen 5 error := by
  rw [checkLength_eq_error_iff]
  constructor
  · rintro ⟨fails, rfl⟩
    exact .frozenLength fails
  · intro defect
    cases defect with
    | frozenLength fails => exact ⟨fails, rfl⟩

theorem reports_frozenBit :
    checkBits "frozen bits" frozen = .error error ↔ shape.Defect mask frozen 6 error := by
  rw [checkBits_eq_error_iff]
  constructor
  · rintro ⟨index, value, first, rfl⟩
    exact .frozenBit first
  · intro defect
    cases defect with
    | frozenBit first => exact ⟨_, _, first, rfl⟩

end FrameShape

namespace Encoder

open FrameShape

variable {shape : FrameShape} {mask frozen : List UInt8}

/-- In a mask of flags, the positions that are not information are marked by the byte 255. -/
theorem frozenCount_of_flags (flags : ∀ flag ∈ mask, flag = 0 ∨ flag = 0xFF) :
    frozenCount mask = mask.count 0xFF := by
  apply List.countP_congr
  intro flag member
  rcases flags flag member with rfl | rfl <;> decide

/-- In a mask of the right length, the difference that the length of the frozen values is compared
with is not negative, and it is the number of frozen positions. -/
theorem sub_infoCount (maskLength : mask.length = shape.frameSize.toNat)
    (flags : ∀ flag ∈ mask, flag = 0 ∨ flag = 0xFF) :
    Checked.sub shape.frameSize.toNat (infoCount mask) = .ok (mask.count 0xFF) := by
  have total := frozenCount_add_infoCount mask
  rw [frozenCount_of_flags flags, maskLength] at total
  rw [← total, Checked.sub_of_le (Nat.le_add_left _ _), Nat.add_sub_cancel]

/-- The checks of a layout are made in the order of their ranks. -/
theorem decides_checkLayout (shape : FrameShape) (mask frozen : List UInt8) :
    Decides (shape.Defect mask frozen) 0 (checkLayout shape mask frozen) := by
  rw [checkLayout, validate_bind]
  refine .cons (fun _ => reports_frameSize) fun _ => .cons (fun _ => reports_infoBits) fun _ =>
    .cons (fun _ => reports_maskLength) fun maskLength =>
    .cons (fun _ => reports_maskByte) fun maskBytes =>
    .cons (fun _ => reports_infoCount) fun _ => ?_
  -- The subtraction is reached only when the checks in front of it rule out an overflow.
  have size := (checkLength_eq_ok_iff _ _ _).mp maskLength
  have flags := (checkMask_eq_ok_iff mask).mp maskBytes
  rw [sub_infoCount size flags]
  refine .cons (fun _ => reports_frozenLength) fun _ => .single (fun _ => reports_frozenBit) ?_
  intro later behind error defect
  exact absurd defect.rank_lt (Nat.not_lt.mpr behind)

/-- A layout that passes its checks has stages, so an encoder is refused by these checks only. -/
theorem build_eq_error_iff {scratchAddress : Nat} {failure : Failure} :
    (build shape mask frozen scratchAddress).value = .error failure ↔
      checkLayout shape mask frozen = .error failure := by
  rw [build]
  cases check : checkLayout shape mask frozen with
  | error reported => simp
  | ok value =>
      have consistent := (checkLayout_eq_ok_iff shape mask frozen).mp check
      obtain ⟨stages, run⟩ := exists_stages consistent.power
      simp [run]

theorem checkLayout_eq_error_iff {error : EncoderError} :
    checkLayout shape mask frozen = .error (.rejected error) ↔
      FirstDefect (shape.Defect mask frozen) 0 error :=
  (decides_checkLayout shape mask frozen).eq_error_iff fun _ _ _ => Defect.unique

theorem checkLayout_ne_fault (fault : Fault) :
    checkLayout shape mask frozen ≠ .error (.faulted fault) :=
  (decides_checkLayout shape mask frozen).ne_fault fault

/-- An encoder is built exactly for the layouts whose mask and frozen values are those of the shape.
For any other layout the first check that fails is reported, and no layout ends in a fault. That the
information fits the frame need not be asked for: a mask of the right length has room for it. -/
theorem build_reports_first_defect (shape : FrameShape) (mask frozen : List UInt8)
    (scratchAddress : Nat) :
    (∀ encoder, (build shape mask frozen scratchAddress).value = .ok encoder ↔
      (IsPowerOfTwo shape.frameSize ∧ mask.length = shape.frameSize.toNat ∧
        (∀ flag ∈ mask, flag = 0 ∨ flag = 0xFF) ∧ mask.count 0 = shape.infoBits.toNat ∧
        frozen.length = mask.count 0xFF ∧ ∀ bit ∈ frozen, bit ≤ 1) ∧
        encoder = ⟨shape, mask, frozen, .zeroed scratchAddress shape.frameSize.toNat⟩) ∧
      (∀ error, (build shape mask frozen scratchAddress).value = .error (.rejected error) ↔
        FirstDefect (shape.Defect mask frozen) 0 error) ∧
      (∀ fault, (build shape mask frozen scratchAddress).value ≠ .error (.faulted fault)) ∧
      ((∃ encoder, (build shape mask frozen scratchAddress).value = .ok encoder) →
        shape.infoBits ≤ shape.frameSize) := by
  refine ⟨?_, ?_, ?_, ?_⟩
  · intro encoder
    rw [build_eq_ok_iff, and_congr_left_iff]
    intro _
    constructor
    · rintro ⟨power, maskLength, maskBytes, info, frozenLength, bits⟩
      rw [frozenCount_of_flags maskBytes] at frozenLength
      exact ⟨power, maskLength, maskBytes, info, frozenLength, bits⟩
    · rintro ⟨power, maskLength, maskBytes, info, frozenLength, bits⟩
      rw [← frozenCount_of_flags maskBytes] at frozenLength
      exact ⟨power, maskLength, maskBytes, info, frozenLength, bits⟩
  · intro error
    rw [build_eq_error_iff, checkLayout_eq_error_iff]
  · intro fault faulted
    exact checkLayout_ne_fault fault (build_eq_error_iff.mp faulted)
  · rintro ⟨encoder, built⟩
    obtain ⟨consistent, _⟩ := (build_eq_ok_iff _ _ _ _ _).mp built
    have total := frozenCount_add_infoCount mask
    rw [consistent.maskLength, consistent.infoCount] at total
    exact UInt32.le_iff_toNat_le.mpr (total ▸ Nat.le_add_left _ _)

/-- Two bytes of the mask are wrong, and so are the number and the values of the frozen bits. -/
example : (build ⟨4, 2⟩ [255, 0, 7, 9] [2] 5).value =
    .error (.rejected (.invalidMaskByte 2 7)) := rfl

end Encoder

end PolarCoding
