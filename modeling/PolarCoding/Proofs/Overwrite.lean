import Mathlib.Tactic.SplitIfs
import PolarCoding.Buffer

/-!
# Overwriting parts of a buffer

Everything that an encoder writes is a run of symbols put over others of a buffer. Runs that touch
make up one run, runs that are apart may be written in either order, and nothing else changes.
-/

namespace PolarCoding

section Runs

variable {symbols first second : List UInt8} {start next : Nat}

theorem length_portion {count : Nat} (fit : start + count ≤ symbols.length) :
    ((symbols.drop start).take count).length = count := by
  rw [List.length_take_of_le]
  rw [List.length_drop]
  exact Nat.le_sub_of_add_le (Nat.add_comm start count ▸ fit)

/-- Portions of equal length, the first of them apart from the others. -/
theorem portion_succ (symbols : List UInt8) (start portions count : Nat) :
    (symbols.drop start).take ((portions + 1) * count) =
      (symbols.drop start).take count ++
        (symbols.drop (start + count)).take (portions * count) := by
  rw [Nat.succ_mul, Nat.add_comm, List.take_add, List.drop_drop]

@[simp]
theorem overwrite_nil (symbols : List UInt8) (start : Nat) :
    overwrite symbols start [] = symbols := by
  simp [overwrite]

theorem overwrite_zero (symbols values : List UInt8) :
    overwrite symbols 0 values = values ++ symbols.drop values.length := by
  simp [overwrite]

@[simp] theorem length_overwrite (fit : start + first.length ≤ symbols.length) :
    (overwrite symbols start first).length = symbols.length := by
  simp only [overwrite, List.length_append, List.length_take, List.length_drop]
  omega

theorem getElem?_overwrite (fit : start ≤ symbols.length) (position : Nat) :
    (overwrite symbols start first)[position]? =
      if position < start then symbols[position]?
      else if position < start + first.length then first[position - start]?
      else symbols[position]? := by
  have front : (symbols.take start).length = start := List.length_take_of_le fit
  by_cases before : position < start
  · rw [if_pos before, overwrite, List.append_assoc, List.getElem?_append_left (by omega),
      List.getElem?_take_of_lt before]
  · rw [if_neg before, overwrite, List.append_assoc, List.getElem?_append_right (by omega), front]
    by_cases inside : position < start + first.length
    · rw [if_pos inside, List.getElem?_append_left (by omega)]
    · rw [if_neg inside, List.getElem?_append_right (by omega), List.getElem?_drop]
      congr 1
      omega

/-- A run and the run behind it are one run. -/
theorem overwrite_overwrite (meet : next = start + first.length) (fit : next ≤ symbols.length) :
    overwrite (overwrite symbols start first) next second =
      overwrite symbols start (first ++ second) := by
  have front : (symbols.take start ++ first).length = next := by
    rw [List.length_append, List.length_take_of_le (by omega), meet]
  have behind : next + second.length = start + (first ++ second).length := by
    rw [List.length_append, meet, Nat.add_assoc]
  rw [overwrite, overwrite, List.take_left' front, ← List.drop_drop, List.drop_left' front,
    overwrite, List.drop_drop, ← behind, meet, List.append_assoc _ first second]

/-- Runs that do not meet are written independently of each other. -/
theorem overwrite_comm (apart : start + first.length ≤ next)
    (fit : next + second.length ≤ symbols.length) :
    overwrite (overwrite symbols start first) next second =
      overwrite (overwrite symbols next second) start first := by
  have firstSize : (overwrite symbols start first).length = symbols.length :=
    length_overwrite (by omega)
  have secondSize : (overwrite symbols next second).length = symbols.length := length_overwrite fit
  apply List.ext_getElem?
  intro position
  rw [getElem?_overwrite (by omega), getElem?_overwrite (by omega), getElem?_overwrite (by omega),
    getElem?_overwrite (by omega)]
  split_ifs <;> first | rfl | omega

/-- Two runs that are continued in turn, the lower one without reaching the upper one. -/
theorem overwrite_runs {lowFirst lowSecond highFirst highSecond : List UInt8} {low high : Nat}
    (apart : low + (lowFirst ++ lowSecond).length ≤ high)
    (fit : high + (highFirst ++ highSecond).length ≤ symbols.length) :
    overwrite
        (overwrite (overwrite (overwrite symbols low lowFirst) high highFirst)
          (low + lowFirst.length) lowSecond)
        (high + highFirst.length) highSecond =
      overwrite (overwrite symbols low (lowFirst ++ lowSecond)) high (highFirst ++ highSecond) := by
  rw [List.length_append] at apart fit
  have firstSize : (overwrite symbols low lowFirst).length = symbols.length :=
    length_overwrite (by omega)
  have lowSize : (overwrite symbols low (lowFirst ++ lowSecond)).length = symbols.length :=
    length_overwrite (by rw [List.length_append]; omega)
  have low_first :
      overwrite (overwrite (overwrite symbols low lowFirst) high highFirst)
          (low + lowFirst.length) lowSecond =
        overwrite (overwrite symbols low (lowFirst ++ lowSecond)) high highFirst := by
    rw [← overwrite_comm (by omega) (by omega), overwrite_overwrite rfl (by omega)]
  rw [low_first, overwrite_overwrite rfl (by omega)]

theorem overwrite_cons (value : UInt8) (fit : start < symbols.length) :
    overwrite symbols start (value :: second) =
      overwrite (symbols.set start value) (start + 1) second := by
  have single : symbols.set start value = overwrite symbols start [value] := by
    rw [List.set_eq_take_append_cons_drop, if_pos fit, overwrite, List.append_assoc]
    rfl
  have meet : start + 1 = start + [value].length := rfl
  rw [single, overwrite_overwrite meet (Nat.succ_le_of_lt fit), List.singleton_append]

@[simp] theorem take_overwrite_zero (symbols values : List UInt8) :
    (overwrite symbols 0 values).take values.length = values := by
  rw [overwrite_zero, List.take_left]

/-- A front that is written where it stands changes nothing. -/
@[simp] theorem overwrite_zero_take {size : Nat} (fit : size ≤ symbols.length) :
    overwrite symbols 0 (symbols.take size) = symbols := by
  rw [overwrite_zero, List.length_take_of_le fit, List.take_append_drop]

/-- Writing a front again leaves nothing of what was there. -/
theorem overwrite_zero_overwrite_zero (same : first.length = second.length) :
    overwrite (overwrite symbols 0 first) 0 second = overwrite symbols 0 second := by
  rw [overwrite_zero, overwrite_zero, overwrite_zero, ← same, List.drop_left]

end Runs

namespace Buffer

def withFront (buffer : Buffer) (front : List UInt8) : Buffer :=
  { buffer with symbols := overwrite buffer.symbols 0 front }

variable {buffer : Buffer} {first second : List UInt8}

@[simp] theorem length_zeroed (address size : Nat) : (zeroed address size).symbols.length = size :=
  List.length_replicate

theorem symbols_withFront (buffer : Buffer) (front : List UInt8) :
    (buffer.withFront front).symbols = front ++ buffer.symbols.drop front.length :=
  overwrite_zero buffer.symbols front

/-- A front as long as the buffer is all that remains. -/
theorem symbols_withFront_of_length {front : List UInt8}
    (same : front.length = buffer.symbols.length) : (buffer.withFront front).symbols = front := by
  rw [symbols_withFront, same, List.drop_length, List.append_nil]

@[simp] theorem length_withFront (fit : first.length ≤ buffer.symbols.length) :
    (buffer.withFront first).symbols.length = buffer.symbols.length :=
  length_overwrite (by rwa [Nat.zero_add])

@[simp] theorem take_withFront (buffer : Buffer) (front : List UInt8) :
    (buffer.withFront front).symbols.take front.length = front :=
  take_overwrite_zero buffer.symbols front

theorem withFront_withFront (same : first.length = second.length) :
    (buffer.withFront first).withFront second = buffer.withFront second := by
  rw [withFront, withFront, withFront, overwrite_zero_overwrite_zero same]

end Buffer

end PolarCoding
