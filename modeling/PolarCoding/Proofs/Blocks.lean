import PolarCoding.Stage.Basic

/-!
# Working block by block

A butterfly stage treats the branches of a frame alike and independently of each other. So do all
later stages, each on smaller branches. `mapBlocks` applies one change to every block of a frame;
changes of blocks and changes of their parts compose, and this is how stages are combined.
-/

namespace PolarCoding

def mapBlocks (change : List UInt8 → List UInt8) : (count span : Nat) → List UInt8 → List UInt8
  | 0, _, _ => []
  | count + 1, span, symbols =>
      change (symbols.take span) ++ mapBlocks change count span (symbols.drop span)

def KeepsLength (span : Nat) (change : List UInt8 → List UInt8) : Prop :=
  ∀ block : List UInt8, block.length = span → (change block).length = span

variable {change outer inner : List UInt8 → List UInt8}

theorem splitBranches_eq_mapBlocks (count span : Nat) (symbols : List UInt8) :
    splitBranches count span symbols = mapBlocks splitBranch count span symbols := by
  induction count generalizing symbols with
  | zero => rfl
  | succ count ih => rw [splitBranches, mapBlocks, ih]

@[simp] theorem length_splitBranch (branch : List UInt8) :
    (splitBranch branch).length = branch.length / 2 + branch.length / 2 := by
  simp [splitBranch]

theorem keepsLength_splitBranch (half : Nat) : KeepsLength (2 * half) splitBranch := by
  intro block size
  rw [length_splitBranch, size]
  omega

/-- The first block is there and leaves room for the others. -/
theorem blocks_fit_succ {count span length : Nat} (fit : (count + 1) * span ≤ length) :
    span ≤ length ∧ count * span ≤ length - span := by
  rw [Nat.succ_mul] at fit
  omega

theorem length_mapBlocks {count span : Nat} {symbols : List UInt8}
    (keeps : KeepsLength span change) (fit : count * span ≤ symbols.length) :
    (mapBlocks change count span symbols).length = count * span := by
  induction count generalizing symbols with
  | zero => rw [mapBlocks, Nat.zero_mul, List.length_nil]
  | succ count ih =>
      obtain ⟨present, later⟩ := blocks_fit_succ fit
      have front : (symbols.take span).length = span := List.length_take_of_le present
      rw [mapBlocks, List.length_append, keeps _ front, ih (by rwa [List.length_drop]),
        Nat.succ_mul, Nat.add_comm]

/-- A symbol of the changed frame stands at the same offset of its changed block. -/
theorem getElem?_mapBlocks {count span block offset : Nat} {symbols : List UInt8}
    (keeps : KeepsLength span change) (fit : count * span ≤ symbols.length)
    (counted : block < count) (inside : offset < span) :
    (mapBlocks change count span symbols)[span * block + offset]? =
      (change ((symbols.drop (span * block)).take span))[offset]? := by
  induction count generalizing block symbols with
  | zero => exact absurd counted (Nat.not_lt_zero block)
  | succ count ih =>
      obtain ⟨present, later⟩ := blocks_fit_succ fit
      have front : (change (symbols.take span)).length = span :=
        keeps _ (List.length_take_of_le present)
      rw [mapBlocks]
      cases block with
      | zero =>
          rw [Nat.mul_zero, Nat.zero_add, List.drop_zero,
            List.getElem?_append_left (by rwa [front])]
      | succ block =>
          have behind : span * (block + 1) + offset = span + (span * block + offset) := by
            rw [Nat.mul_succ]
            omega
          rw [behind, List.getElem?_append_right (by omega), front, Nat.add_sub_cancel_left,
            ih (by rwa [List.length_drop]) (Nat.lt_of_succ_lt_succ counted), List.drop_drop,
            Nat.mul_succ, Nat.add_comm span]

theorem length_splitBranches {count half : Nat} {symbols : List UInt8}
    (fit : count * (2 * half) ≤ symbols.length) :
    (splitBranches count (2 * half) symbols).length = count * (2 * half) := by
  rw [splitBranches_eq_mapBlocks, length_mapBlocks (keepsLength_splitBranch half) fit]

theorem mapBlocks_add (first second span : Nat) (symbols : List UInt8) :
    mapBlocks change (first + second) span symbols =
      mapBlocks change first span symbols ++
        mapBlocks change second span (symbols.drop (first * span)) := by
  induction first generalizing symbols with
  | zero => simp [mapBlocks]
  | succ first ih =>
      rw [Nat.succ_add, mapBlocks, mapBlocks, ih, List.append_assoc, List.drop_drop,
        Nat.succ_mul, Nat.add_comm span]

/-- Symbols behind the blocks do not matter. -/
theorem mapBlocks_append (count span : Nat) {symbols : List UInt8}
    (fit : count * span ≤ symbols.length) (tail : List UInt8) :
    mapBlocks change count span (symbols ++ tail) = mapBlocks change count span symbols := by
  induction count generalizing symbols with
  | zero => rfl
  | succ count ih =>
      obtain ⟨present, later⟩ := blocks_fit_succ fit
      rw [mapBlocks, mapBlocks, List.take_append_of_le_length present,
        List.drop_append_of_le_length present, ih (by rwa [List.length_drop])]

theorem mapBlocks_take {count span size : Nat} {symbols : List UInt8}
    (inside : count * span ≤ size) (fit : size ≤ symbols.length) :
    mapBlocks change count span (symbols.take size) = mapBlocks change count span symbols := by
  have whole : mapBlocks change count span (symbols.take size ++ symbols.drop size) =
      mapBlocks change count span (symbols.take size) :=
    mapBlocks_append count span (by rwa [List.length_take_of_le fit]) _
  rw [List.take_append_drop] at whole
  exact whole.symm

/-- A change of nothing. -/
theorem mapBlocks_id (count span : Nat) (symbols : List UInt8) :
    mapBlocks id count span symbols = symbols.take (count * span) := by
  induction count generalizing symbols with
  | zero => simp [mapBlocks]
  | succ count ih =>
      rw [mapBlocks, ih, Nat.succ_mul, Nat.add_comm (count * span), List.take_add, id]

theorem mapBlocks_one {span : Nat} {symbols : List UInt8} (size : symbols.length = span) :
    mapBlocks change 1 span symbols = change symbols := by
  simp [mapBlocks, ← size]

/-- Only what a change does to blocks of the given span matters. -/
theorem mapBlocks_congr {count span : Nat} {symbols : List UInt8}
    (fit : count * span ≤ symbols.length)
    (agree : ∀ block : List UInt8, block.length = span → outer block = inner block) :
    mapBlocks outer count span symbols = mapBlocks inner count span symbols := by
  induction count generalizing symbols with
  | zero => rfl
  | succ count ih =>
      obtain ⟨present, later⟩ := blocks_fit_succ fit
      rw [mapBlocks, mapBlocks, agree _ (List.length_take_of_le present),
        ih (by rwa [List.length_drop])]

/-- A change of blocks, then a change of their parts, is done block by block as well. -/
theorem mapBlocks_mapBlocks {count parts span : Nat} {symbols : List UInt8}
    (keeps : KeepsLength (parts * span) inner)
    (fit : count * (parts * span) ≤ symbols.length) :
    mapBlocks outer (count * parts) span (mapBlocks inner count (parts * span) symbols) =
      mapBlocks (fun block => mapBlocks outer parts span (inner block)) count (parts * span)
        symbols := by
  induction count generalizing symbols with
  | zero => simp [mapBlocks]
  | succ count ih =>
      obtain ⟨present, later⟩ := blocks_fit_succ fit
      have front : (inner (symbols.take (parts * span))).length = parts * span :=
        keeps _ (List.length_take_of_le present)
      rw [Nat.succ_mul, Nat.add_comm (count * parts), mapBlocks_add, mapBlocks, mapBlocks,
        mapBlocks_append parts span (Nat.le_of_eq front.symm), List.drop_left' front,
        ih (by rwa [List.length_drop])]

end PolarCoding
