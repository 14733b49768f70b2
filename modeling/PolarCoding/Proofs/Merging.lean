import Mathlib.Logic.Equiv.Defs
import PolarCoding.Proofs.Filling

/-!
# Interleaving as a lossless merge

With exactly one value for each position, interleaving merges the two sources and reading the
positions of each source takes the frame apart again. For a fixed mask the two are inverse to each
other, so frames correspond to pairs of sources.
-/

namespace PolarCoding

section Reading

variable {mask frame : List UInt8}

/-- The values of a source are read off the frame by the flags beside them. -/
theorem valuesAt_eq_filter (source : Source) (mask frame : List UInt8) :
    valuesAt source mask frame =
      ((mask.zip frame).filter fun entry => Source.ofFlag entry.1 = source).map Prod.snd := by
  induction mask generalizing frame with
  | nil => rfl
  | cons flag mask ih =>
      cases frame with
      | nil => rfl
      | cons symbol frame =>
          rw [valuesAt, List.zip_cons_cons]
          by_cases kind : Source.ofFlag flag = source
          · rw [if_pos kind, List.filter_cons, if_pos (decide_eq_true kind), List.map_cons, ih]
          · rw [if_neg kind, List.filter_cons, if_neg (by simpa using kind), ih]

theorem valuesAt_sublist (source : Source) (same : mask.length = frame.length) :
    (valuesAt source mask frame).Sublist frame := by
  have chosen := (List.filter_sublist (l := mask.zip frame)
    (p := fun entry => Source.ofFlag entry.1 = source)).map Prod.snd
  rwa [List.map_snd_zip (Nat.le_of_eq same.symm), ← valuesAt_eq_filter] at chosen

/-- Every symbol of a frame is a value of exactly one source. -/
theorem perm_valuesAt (same : mask.length = frame.length) :
    frame.Perm (valuesAt .frozen mask frame ++ valuesAt .info mask frame) := by
  have others (entry : UInt8 × UInt8) :
      (!decide (Source.ofFlag entry.1 = .frozen)) = decide (Source.ofFlag entry.1 = .info) := by
    cases Source.ofFlag entry.1 <;> rfl
  have split := List.filter_append_perm
    (fun entry : UInt8 × UInt8 => decide (Source.ofFlag entry.1 = .frozen)) (mask.zip frame)
  simp only [others] at split
  have symbols := split.map Prod.snd
  rw [List.map_append, List.map_snd_zip (Nat.le_of_eq same.symm), ← valuesAt_eq_filter,
    ← valuesAt_eq_filter] at symbols
  exact symbols.symm

end Reading

/-- One value of its source for each position of a mask. -/
structure Parts (mask : List UInt8) where
  frozen : List UInt8
  info : List UInt8
  frozenLength : frozen.length = frozenCount mask
  infoLength : info.length = infoCount mask

structure Merged (mask : List UInt8) where
  symbols : List UInt8
  length : symbols.length = mask.length

namespace Parts

variable {mask : List UInt8}

def sources (parts : Parts mask) : Sources := ⟨mask, parts.frozen, parts.info⟩

theorem cover (parts : Parts mask) : parts.sources.Cover mask.length := by
  refine ⟨Nat.le_refl _, ?_, ?_⟩
  · rw [sources, List.take_length]
    exact Nat.le_of_eq parts.frozenLength.symm
  · rw [sources, List.take_length]
    exact Nat.le_of_eq parts.infoLength.symm

def merge (parts : Parts mask) : Merged mask :=
  ⟨parts.sources.frame mask.length, parts.cover.length_frame⟩

def ofMerged (frame : Merged mask) : Parts mask :=
  ⟨valuesAt .frozen mask frame.symbols, valuesAt .info mask frame.symbols,
    (length_valuesAt frame.length.symm).1, (length_valuesAt frame.length.symm).2⟩

theorem valuesAt_merge (parts : Parts mask) :
    valuesAt .frozen mask parts.merge.symbols = parts.frozen ∧
      valuesAt .info mask parts.merge.symbols = parts.info := by
  have complete := parts.cover.complete
  have symbols : parts.merge.symbols = (fill mask parts.frozen parts.info).symbols := by
    simp only [merge, sources, Sources.frame, List.take_length]
  rw [sources, List.take_length] at complete
  obtain ⟨frozen, info⟩ := valuesAt_fill complete
  rw [symbols, frozen, info, ← parts.frozenLength, ← parts.infoLength, List.take_length,
    List.take_length]
  exact ⟨rfl, rfl⟩

theorem ofMerged_merge (parts : Parts mask) : ofMerged parts.merge = parts := by
  obtain ⟨frozen, info⟩ := parts.valuesAt_merge
  simp only [ofMerged, frozen, info]

theorem merge_ofMerged (frame : Merged mask) : (ofMerged frame).merge = frame := by
  have rebuilt := fill_valuesAt frame.length.symm
  simp only [merge, Sources.frame, sources, ofMerged, List.take_length, rebuilt]

def equivMerged (mask : List UInt8) : Parts mask ≃ Merged mask where
  toFun := merge
  invFun := ofMerged
  left_inv := ofMerged_merge
  right_inv := merge_ofMerged

/-- Interleaving merges the parts, whatever stood in the target. -/
theorem interleave_eq (parts : Parts mask) {target : List UInt8}
    (same : target.length = mask.length) :
    parts.sources.interleave target = .ok () parts.merge.symbols := by
  have cover : parts.sources.Cover target.length := same ▸ parts.cover
  rw [cover.interleave_eq, same]
  rfl

end Parts

/-- Under any mask, the values of both sources can be read off the frame that they are interleaved
to, each in its order and none besides. Conversely the symbols of any frame, read off at the
positions of each source, are interleaved to that frame. Interleaving is thus a bijection between
the pairs of sources that fit the mask and the frames that do. -/
theorem interleaving_is_lossless (mask : List UInt8) :
    (∀ frozen info target : List UInt8, frozen.length = frozenCount mask →
      info.length = infoCount mask → target.length = mask.length →
        ∃ frame : List UInt8, frame.length = mask.length ∧
          (Sources.mk mask frozen info).interleave target = .ok () frame ∧
          valuesAt .frozen mask frame = frozen ∧ valuesAt .info mask frame = info ∧
          frame.Perm (frozen ++ info) ∧ frozen.Sublist frame ∧ info.Sublist frame) ∧
      (∀ frame target : List UInt8, frame.length = mask.length → target.length = mask.length →
        (Sources.mk mask (valuesAt .frozen mask frame) (valuesAt .info mask frame)).interleave
          target = .ok () frame) ∧
      ∃ merging : Parts mask ≃ Merged mask, ∀ (parts : Parts mask) (target : List UInt8),
        target.length = mask.length →
          parts.sources.interleave target = .ok () (merging parts).symbols := by
  refine ⟨?_, ?_, Parts.equivMerged mask, fun parts target same => parts.interleave_eq same⟩
  · intro frozen info target frozenLength infoLength same
    let parts : Parts mask := ⟨frozen, info, frozenLength, infoLength⟩
    have length := parts.merge.length
    obtain ⟨frozenRead, infoRead⟩ := parts.valuesAt_merge
    have symbols := perm_valuesAt length.symm
    have frozenOrder := valuesAt_sublist .frozen length.symm
    have infoOrder := valuesAt_sublist .info length.symm
    rw [frozenRead, infoRead] at symbols
    rw [frozenRead] at frozenOrder
    rw [infoRead] at infoOrder
    exact ⟨_, length, parts.interleave_eq same, frozenRead, infoRead, symbols, frozenOrder,
      infoOrder⟩
  · intro frame target length same
    let whole : Merged mask := ⟨frame, length⟩
    have run := (Parts.ofMerged whole).interleave_eq same
    rw [Parts.merge_ofMerged] at run
    exact run

/-- A mask with flags of several values, written over other symbols. -/
theorem interleaving_is_lossless_four :
    ∃ frame : List UInt8,
      (Sources.mk [0, 9, 255, 0] [7, 130] [200, 33]).interleave [1, 2, 3, 4] = .ok () frame ∧
        valuesAt .frozen [0, 9, 255, 0] frame = [7, 130] ∧
        valuesAt .info [0, 9, 255, 0] frame = [200, 33] := by
  obtain ⟨merges, _⟩ := interleaving_is_lossless [0, 9, 255, 0]
  obtain ⟨frame, _, run, frozen, info, _⟩ := merges [7, 130] [200, 33] [1, 2, 3, 4] rfl rfl rfl
  exact ⟨frame, run, frozen, info⟩

end PolarCoding
