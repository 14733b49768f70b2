import PolarCoding.Buffer

/-!
# Registers of byte lanes

A register holds sixteen bytes, lane 0 first. A vector unit executes the operations below in one
instruction each. Units agree on all of them but the shuffle, which they complete differently for
indices that name no lane. For each operation a lemma gives the lanes of its result.
-/

namespace PolarCoding

/-! ## Bit reversal

Reversing the order of the low bits of an index is the permutation behind every polar code: the
last four stages of an encoder begin with it, and it relates positions of a codeword to positions
of the filled frame. -/

/-- The low `width` bits of `index` in reversed order: the lowest becomes the highest. -/
def reverseBits : (width index : Nat) → Nat
  | 0, _ => 0
  | width + 1, index => (index % 2) <<< width + reverseBits width (index / 2)

theorem reverseBits_lt (width index : Nat) : reverseBits width index < 1 <<< width := by
  induction width generalizing index with
  | zero => exact Nat.one_pos
  | succ width ih =>
      have inner := ih (index / 2)
      have twice : 1 <<< (width + 1) = 1 <<< width + 1 <<< width := by
        rw [Nat.shiftLeft_succ, Nat.two_mul]
      rw [reverseBits, twice]
      cases Nat.mod_two_eq_zero_or_one index with
      | inl even =>
          rw [even, Nat.zero_shiftLeft]
          omega
      | inr odd =>
          rw [odd]
          omega

namespace Lanes

/-! ## Registers and vector units -/

abbrev Register : Type := Vector UInt8 16

inductive VectorUnit where
  /-- Plain arrays: an index is taken modulo the number of lanes. -/
  | portable
  /-- The byte shuffle of x86: an index of 128 or more yields zero, any other is taken modulo the
  number of lanes. -/
  | ssse3
  /-- The table lookup of Arm: an index that names no lane yields zero. -/
  | neon
  deriving DecidableEq

namespace Register

def ofList (bytes : List UInt8) : Register := Vector.ofFn fun lane => bytes.getD lane.val 0

def zero : Register := Vector.replicate 16 0

def lane (register : Register) (index : Nat) : UInt8 := register[index % 16]

/-- Every byte moves `distance` lanes down. The lanes at the top become zero. -/
def shiftDown (register : Register) (distance : Nat) : Register :=
  Vector.ofFn fun lane =>
    if inside : lane.val + distance < 16 then register[lane.val + distance] else 0

def and (first second : Register) : Register :=
  Vector.ofFn fun lane => first[lane] &&& second[lane]

def xor (first second : Register) : Register :=
  Vector.ofFn fun lane => first[lane] ^^^ second[lane]

/-- Each lane of the result is the lane of `register` that `indices` names. -/
def shuffle (unit : VectorUnit) (register indices : Register) : Register :=
  Vector.ofFn fun lane =>
    let index := indices[lane]
    match unit with
    | .portable => register.lane index.toNat
    | .ssse3 => if index < 128 then register.lane index.toNat else 0
    | .neon => if index < 16 then register.lane index.toNat else 0

def concatLow (first second : Register) : Register :=
  Vector.ofFn fun lane => if lane.val < 8 then first[lane] else second[lane.val - 8]

def concatHigh (first second : Register) : Register :=
  Vector.ofFn fun lane => if inside : lane.val < 8 then first[lane.val + 8] else second[lane]

theorem lane_of_lt (register : Register) {index : Nat} (inside : index < 16) :
    register.lane index = register[index] := by
  simp [lane, Nat.mod_eq_of_lt inside]

@[simp] theorem getElem_shiftDown (register : Register) (distance : Nat) {index : Nat}
    (inside : index < 16) :
    (register.shiftDown distance)[index] =
      if _ : index + distance < 16 then register[index + distance] else 0 := by
  simp [shiftDown]

@[simp] theorem getElem_and (first second : Register) {index : Nat} (inside : index < 16) :
    (first.and second)[index] = first[index] &&& second[index] := by
  simp [and]

@[simp] theorem getElem_xor (first second : Register) {index : Nat} (inside : index < 16) :
    (first.xor second)[index] = first[index] ^^^ second[index] := by
  simp [xor]

/-- All units agree on indices that name a lane. -/
theorem getElem_shuffle (unit : VectorUnit) (register indices : Register) {index : Nat}
    (inside : index < 16) (named : indices[index].toNat < 16) :
    (shuffle unit register indices)[index] = register[indices[index].toNat] := by
  have low : indices[index] < 128 := by
    rw [UInt8.lt_iff_toNat_lt]
    exact Nat.lt_trans named (by decide)
  have lane : indices[index] < 16 := UInt8.lt_iff_toNat_lt.mpr named
  cases unit <;> simp [shuffle, lane_of_lt register named, low, lane]

@[simp] theorem getElem_concatLow (first second : Register) {index : Nat} (inside : index < 16) :
    (first.concatLow second)[index] = if index < 8 then first[index] else second[index - 8] := by
  simp [concatLow]

@[simp] theorem getElem_concatHigh (first second : Register) {index : Nat} (inside : index < 16) :
    (first.concatHigh second)[index] =
      if _ : index < 8 then first[index + 8] else second[index] := by
  simp [concatHigh]

end Register

/-! ## Masks and shuffle tables

The constant registers of the vector encoders, each given by the rule for its lanes. -/

/-- The lanes that absorb the lane `distance` above them: those whose index shares no bit with
the distance. For a power of two these are the lower halves of all butterflies of that reach. -/
def absorbMask (distance : Nat) : Register :=
  Vector.ofFn fun lane => if lane.val &&& distance = 0 then 0xFF else 0

def evenLanes : Register := absorbMask 1

/-- Moves the even lanes to the low half and the odd lanes to the high half. -/
def separateEvenOdd : Register :=
  Vector.ofFn fun lane =>
    if lane.val < 8 then UInt8.ofNat (2 * lane.val) else UInt8.ofNat (2 * (lane.val - 8) + 1)

def bitReversal : Register := Vector.ofFn fun lane => UInt8.ofNat (reverseBits 4 lane.val)

def fusedDistances : List Nat := [8, 4, 2, 1]

@[simp] theorem getElem_absorbMask (distance : Nat) {index : Nat} (inside : index < 16) :
    (absorbMask distance)[index] = if index &&& distance = 0 then 0xFF else 0 := by
  simp [absorbMask]

theorem toNat_separateEvenOdd {index : Nat} (inside : index < 16) :
    separateEvenOdd[index].toNat = if index < 8 then 2 * index else 2 * (index - 8) + 1 := by
  by_cases low : index < 8 <;> simp [separateEvenOdd, low] <;> omega

theorem toNat_bitReversal {index : Nat} (inside : index < 16) :
    bitReversal[index].toNat = reverseBits 4 index := by
  have bound := reverseBits_lt 4 index
  simp only [bitReversal, Vector.getElem_ofFn, UInt8.toNat_ofNat']
  omega

end Lanes

end PolarCoding
