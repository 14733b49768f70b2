import PolarCoding.Proofs.Levels
import PolarCoding.Trial.EncoderCase

/-!
# What the trial of an encoder is drawn from

Whatever supply the values come from, a case that is drawn is a consistent layout of at most 4096
positions with a payload for it, and a wrong mask byte that is to be planted lies inside the mask.
Of the supply only this is assumed: numbers lie between the bounds that were asked for and positions
inside their sequence. A draw may fail, and then there is no case.
-/

namespace PolarCoding.Trial

variable {σ ε α β : Type}

namespace Draw

/-- Whatever state a value is drawn from, it has the property. -/
def Always (draw : Draw σ ε α) (property : α → Prop) : Prop :=
  ∀ state value rest, draw.run state = .ok (value, rest) → property value

variable {draw : Draw σ ε α} {property : α → Prop} {conclusion : β → Prop}

theorem always_true : draw.Always fun _ => True := fun _ _ _ _ => trivial

theorem always_pure {value : α} (holds : property value) :
    (pure value : Draw σ ε α).Always property := by
  rintro state drawn rest ⟨⟩
  exact holds

theorem Always.bind {next : α → Draw σ ε β} (first : draw.Always property)
    (later : ∀ value, property value → (next value).Always conclusion) :
    (draw >>= next).Always conclusion := by
  intro state value rest run
  rw [StateT.run_bind] at run
  cases drawn : draw.run state with
  | error error =>
      rw [drawn] at run
      cases run
  | ok result =>
      obtain ⟨middle, left⟩ := result
      rw [drawn] at run
      exact later middle (first state middle left drawn) left value rest run

theorem Always.times (each : draw.Always property) (count : Nat) :
    (times count draw).Always fun values =>
      values.length = count ∧ ∀ value ∈ values, property value := by
  induction count with
  | zero =>
      refine always_pure ⟨rfl, ?_⟩
      intro value member
      cases member
  | succ count ih =>
      refine each.bind fun value holds => ih.bind fun values ⟨length, hold⟩ => always_pure ?_
      exact ⟨congrArg Nat.succ length, List.forall_mem_cons.mpr ⟨holds, hold⟩⟩

end Draw

/-- Numbers lie between their bounds and positions inside their sequence, if there are any. -/
structure Supply.Ranged (supply : Supply σ ε) : Prop where
  between : ∀ {low high}, low ≤ high →
    (supply.between low high).Always fun value => low ≤ value ∧ value ≤ high
  position : ∀ {length}, 0 < length → (supply.position length).Always fun value => value < length

theorem Supply.Ranged.bit {supply : Supply σ ε} (ranged : supply.Ranged) :
    supply.bit.Always fun value => value ≤ 1 := by
  refine (ranged.between (Nat.zero_le 1)).bind fun value bounds => Draw.always_pure ?_
  rw [UInt8.le_iff_toNat_le, UInt8.toNat_ofNat_of_lt' (Nat.lt_of_le_of_lt bounds.2 (by decide))]
  exact bounds.2

/-- The numbers that are read off bytes are brought between their bounds. -/
theorem Bytes.ranged_supply : supply.Ranged := by
  have bounds {low high : Nat} (ordered : low ≤ high) :
      (Bytes.between low high).Always fun value => low ≤ value ∧ value ≤ high := by
    refine Draw.always_true.bind fun raw _ => Draw.always_pure ?_
    have small : raw % (high - low + 1) < high - low + 1 := Nat.mod_lt _ (Nat.succ_pos _)
    omega
  constructor
  case between =>
    intro low high ordered
    exact bounds ordered
  case position =>
    intro length some_position state value rest run
    have inside := (bounds (Nat.zero_le (length - 1)) state value rest run).2
    omega

/-- A wrong byte for a mask of `size` positions lies inside the mask and is neither of the bytes
that a mask is made of. Every other defect fits any layout. -/
def Defect.Fits (size : Nat) : Defect → Prop
  | .maskByte index value => index < size ∧ 1 ≤ value ∧ value ≤ 0xFE
  | _ => True

namespace EncoderCase

structure WellFormed (trial : EncoderCase) : Prop where
  frameSize : ∃ depth ≤ 12, trial.shape.frameSize.toNat = 2 ^ depth
  maskLength : trial.mask.length = trial.shape.frameSize.toNat
  maskBytes : ∀ flag ∈ trial.mask, flag = 0 ∨ flag = 0xFF
  frozenLength : trial.frozen.length = trial.mask.count 0xFF
  frozenBits : ∀ bit ∈ trial.frozen, bit ≤ 1
  infoLength : trial.info.length = trial.mask.count 0
  infoBits : ∀ bit ∈ trial.info, bit ≤ 1
  infoCount : trial.shape.infoBits.toNat = trial.info.length
  defect : ∀ defect, trial.defect = some defect → defect.Fits trial.shape.frameSize.toNat

section Positions

variable (positions : List (Bool × UInt8))

/-- Every position is counted with its source. -/
theorem counts_of_positions :
    (positions.map fun position => if position.1 then (0xFF : UInt8) else 0).count 0xFF =
        (positions.filter fun position => position.1).length ∧
      (positions.map fun position => if position.1 then (0xFF : UInt8) else 0).count 0 =
        (positions.filter fun position => !position.1).length := by
  induction positions with
  | nil => exact ⟨rfl, rfl⟩
  | cons position rest ih =>
      obtain ⟨isFrozen, value⟩ := position
      obtain ⟨frozen, info⟩ := ih
      cases isFrozen with
      | true => simp [frozen, info]
      | false => simp [frozen, info]

variable {positions}

/-- The values that are kept of some positions are values of these positions. -/
theorem forall_mem_kept {property : UInt8 → Prop} (keep : Bool × UInt8 → Bool)
    (hold : ∀ position ∈ positions, property position.2) :
    ∀ value ∈ (positions.filter keep).map Prod.snd, property value := by
  intro value member
  obtain ⟨position, kept, rfl⟩ := List.mem_map.mp member
  exact hold position (List.mem_filter.mp kept).1

/-- The case made of drawn positions. -/
theorem wellFormed_of_positions {exponent : Nat} (small : exponent ≤ 12)
    (length : positions.length = 1 <<< exponent) (bits : ∀ position ∈ positions, position.2 ≤ 1)
    {defect : Option Defect}
    (fits : ∀ planted, defect = some planted → planted.Fits (1 <<< exponent)) :
    let mask := positions.map fun position => if position.1 then (0xFF : UInt8) else 0
    let frozen := (positions.filter fun position => position.1).map Prod.snd
    let info := (positions.filter fun position => !position.1).map Prod.snd
    WellFormed ⟨⟨UInt32.ofNat (1 <<< exponent), UInt32.ofNat info.length⟩, mask, frozen, info,
      defect⟩ := by
  intro mask frozen info
  obtain ⟨frozenCount, infoCount⟩ := counts_of_positions positions
  have power : 1 <<< exponent = 2 ^ exponent := Nat.one_shiftLeft exponent
  have bound : 1 <<< exponent < UInt32.size := by
    rw [power]
    exact Nat.lt_of_le_of_lt (Nat.pow_le_pow_right Nat.two_pos small) (by decide)
  have size : (UInt32.ofNat (1 <<< exponent)).toNat = 1 <<< exponent :=
    UInt32.toNat_ofNat_of_lt' bound
  have fewer : info.length ≤ 1 <<< exponent := by
    rw [← length, List.length_map]
    exact List.length_filter_le _ positions
  constructor
  · exact ⟨exponent, small, size.trans power⟩
  · rw [size, ← length]
    exact List.length_map _
  · intro flag member
    obtain ⟨position, _, rfl⟩ := List.mem_map.mp member
    split
    · exact .inr rfl
    · exact .inl rfl
  · rw [frozenCount]
    exact List.length_map _
  · exact forall_mem_kept _ bits
  · rw [infoCount]
    exact List.length_map _
  · exact forall_mem_kept _ bits
  · exact UInt32.toNat_ofNat_of_lt' (Nat.lt_of_le_of_lt fewer bound)
  · rw [size]
    exact fits

end Positions

section Supply

variable {supply : Supply σ ε} (ranged : supply.Ranged)

include ranged

theorem always_drawPosition : (drawPosition supply).Always fun position => position.2 ≤ 1 :=
  Draw.always_true.bind fun _ _ => ranged.bit.bind fun _ small => Draw.always_pure small

theorem always_drawDefect {size : Nat} (positive : 0 < size) :
    (drawDefect supply size).Always (Defect.Fits size) := by
  refine (ranged.between (Nat.zero_le 5)).bind fun kind _ => ?_
  split
  · exact Draw.always_pure trivial
  · exact Draw.always_pure trivial
  · refine (ranged.position positive).bind fun index inside =>
      (ranged.between (by decide)).bind fun value bounds => Draw.always_pure ?_
    have word : (UInt8.ofNat value).toNat = value :=
      UInt8.toNat_ofNat_of_lt' (Nat.lt_of_le_of_lt bounds.2 (by decide))
    refine ⟨inside, ?_, ?_⟩
    · rw [UInt8.le_iff_toNat_le, word]
      exact bounds.1
    · rw [UInt8.le_iff_toNat_le, word]
      exact bounds.2
  · exact Draw.always_true.bind fun _ _ => Draw.always_pure trivial
  · exact Draw.always_true.bind fun _ _ => Draw.always_pure trivial
  · exact Draw.always_pure trivial

/-- Every case that is drawn is well formed. -/
theorem always_draw : (draw supply).Always WellFormed := by
  refine (ranged.between (Nat.zero_le 12)).bind fun exponent bounds =>
    ((always_drawPosition ranged).times _).bind fun positions ⟨length, bits⟩ =>
    Draw.always_true.bind fun planting _ => ?_
  have some_position : 0 < 1 <<< exponent := by
    rw [Nat.one_shiftLeft]
    exact Nat.two_pow_pos exponent
  split
  · refine (always_drawDefect ranged some_position).bind fun defect fits => Draw.always_pure ?_
    refine wellFormed_of_positions bounds.2 length bits ?_
    rintro planted ⟨⟩
    exact fits
  · refine Draw.always_pure (wellFormed_of_positions bounds.2 length bits ?_)
    rintro planted ⟨⟩

end Supply

end EncoderCase

end PolarCoding.Trial
