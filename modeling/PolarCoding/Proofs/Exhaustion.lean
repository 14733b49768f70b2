import PolarCoding.Proofs.Workspace

/-!
# Where filling stops

A filling that runs out of values stops at the first position whose source has none left. The
positions before it hold their values, and nothing behind them is written. A mask that is too short
is noticed before anything is written.
-/

namespace PolarCoding

section Values

variable {flag value : UInt8} {mask frozen info : List UInt8}

/-- Behind a frozen position, the remaining values are those of the remaining positions. -/
theorem valueAt?_cons_frozen (kind : Source.ofFlag flag = .frozen) (position : Nat) :
    (Sources.mk (flag :: mask) (value :: frozen) info).valueAt? (position + 1) =
      (Sources.mk mask frozen info).valueAt? position := by
  obtain ⟨frozenCons, infoCons⟩ := counts_cons_frozen kind (mask.take position)
  simp only [Sources.valueAt?, List.getElem?_cons_succ, List.take_succ_cons, frozenCons, infoCons]

/-- Behind an information position, the remaining values are those of the remaining positions. -/
theorem valueAt?_cons_info (kind : Source.ofFlag flag = .info) (position : Nat) :
    (Sources.mk (flag :: mask) frozen (value :: info)).valueAt? (position + 1) =
      (Sources.mk mask frozen info).valueAt? position := by
  obtain ⟨frozenCons, infoCons⟩ := counts_cons_info kind (mask.take position)
  simp only [Sources.valueAt?, List.getElem?_cons_succ, List.take_succ_cons, frozenCons, infoCons]

/-- A filling stops at a position of the mask that has no value. -/
theorem valueAt?_length_fill {source : Source} :
    (fill mask frozen info).exhausted = some source →
      (fill mask frozen info).symbols.length < mask.length ∧
        (Sources.mk mask frozen info).valueAt? (fill mask frozen info).symbols.length = none := by
  -- Behind a filled position the remaining sources stop at the same place, counted from there.
  fun_induction fill mask frozen info with
  | case1 frozen info =>
      intro stops
      cases stops
  | case2 flag mask info kind =>
      intro _
      refine ⟨Nat.succ_pos _, ?_⟩
      simp [Sources.valueAt?, kind]
  | case3 flag mask value frozen info kind ih =>
      intro stops
      obtain ⟨inside, missing⟩ := ih stops
      exact ⟨Nat.succ_lt_succ inside, (valueAt?_cons_frozen kind _).trans missing⟩
  | case4 flag mask frozen kind =>
      intro _
      refine ⟨Nat.succ_pos _, ?_⟩
      simp [Sources.valueAt?, kind]
  | case5 flag mask frozen value info kind ih =>
      intro stops
      obtain ⟨inside, missing⟩ := ih stops
      exact ⟨Nat.succ_lt_succ inside, (valueAt?_cons_info kind _).trans missing⟩

end Values

namespace Sources

variable {sources : Sources} {size position : Nat}

/-- Behind the mask there are no values. -/
theorem valueAt?_outside (outside : sources.mask.length ≤ position) :
    sources.valueAt? position = none := by
  simp only [valueAt?, List.getElem?_eq_none outside]

/-- The filled positions, and the first one without a value if the sources do not cover the
frame. -/
theorem stop_of_exhausted {source : Source} (enough : size ≤ sources.mask.length)
    (stops : (fill (sources.mask.take size) sources.frozen sources.info).exhausted = some source) :
    (sources.frame size).length < size ∧
      sources.valueAt? (sources.frame size).length = none := by
  obtain ⟨inside, missing⟩ := valueAt?_length_fill stops
  rw [List.length_take_of_le enough] at inside
  exact ⟨inside, (valueAt?_take inside).symm.trans missing⟩

structure StopsAt (sources : Sources) (position : Nat) : Prop where
  missing : sources.valueAt? position = none
  earlier : ∀ before < position, sources.valueAt? before ≠ none

theorem StopsAt.unique {other : Nat} (stops : sources.StopsAt position)
    (otherStops : sources.StopsAt other) : position = other := by
  rcases Nat.lt_trichotomy position other with before | same | behind
  · exact absurd stops.missing (otherStops.earlier position before)
  · exact same
  · exact absurd otherStops.missing (stops.earlier other behind)

/-- The filled positions have values. -/
theorem valueAt?_ne_none (filled : position < (sources.frame size).length) :
    sources.valueAt? position ≠ none := by
  rw [← getElem?_frame filled, List.getElem?_eq_getElem filled]
  exact Option.some_ne_none _

/-- A filling that is not complete ends where the sources stop. -/
theorem stopsAt_of_exhausted {source : Source} (enough : size ≤ sources.mask.length)
    (stops : (fill (sources.mask.take size) sources.frozen sources.info).exhausted = some source) :
    (sources.frame size).length < size ∧ sources.StopsAt (sources.frame size).length := by
  obtain ⟨inside, missing⟩ := stop_of_exhausted enough stops
  exact ⟨inside, missing, fun _ filled => valueAt?_ne_none filled⟩

/-- A mask that is too short is noticed before anything is written. -/
theorem interleave_of_short_mask {target : List UInt8}
    (short : sources.mask.length < target.length) :
    sources.interleave target = .error .maskTooShort target := if_pos short

/-- A source that runs out is reported with its length, when the positions before are written. -/
theorem interleave_of_exhausted {target : List UInt8} {source : Source}
    (enough : target.length ≤ sources.mask.length)
    (stops : (fill (sources.mask.take target.length) sources.frozen sources.info).exhausted =
      some source) :
    sources.interleave target =
      .error (.sourceExhausted (sources.values source).length)
        (overwrite target 0 (sources.frame target.length)) := by
  simp only [interleave, if_neg (Nat.not_lt.mpr enough), stops, overwrite_zero, frame]

end Sources

namespace Workspace

variable {workspace : Workspace} {sources : Sources} {size : Nat}

theorem onScratchFront_of_short_mask (fit : size ≤ workspace.scratch.symbols.length)
    (short : sources.mask.length < size) :
    onScratchFront size sources.interleave workspace = .error .maskTooShort workspace := by
  have front : (workspace.scratch.symbols.take size).length = size := List.length_take_of_le fit
  have refused : sources.interleave (workspace.scratch.symbols.take size) =
      .error .maskTooShort (workspace.scratch.symbols.take size) :=
    Sources.interleave_of_short_mask (by rwa [front])
  simp only [onScratchFront, if_neg (Nat.not_lt.mpr fit), refused, List.take_append_drop]

theorem onScratchFront_of_exhausted {source : Source}
    (fit : size ≤ workspace.scratch.symbols.length) (enough : size ≤ sources.mask.length)
    (stops : (fill (sources.mask.take size) sources.frozen sources.info).exhausted = some source) :
    onScratchFront size sources.interleave workspace =
      .error (.sourceExhausted (sources.values source).length)
        (workspace.filledWith (sources.frame size)) := by
  have front : (workspace.scratch.symbols.take size).length = size := List.length_take_of_le fit
  have written : sources.interleave (workspace.scratch.symbols.take size) = _ :=
    Sources.interleave_of_exhausted (by rwa [front]) (by rwa [front])
  rw [front] at written
  obtain ⟨inside, _⟩ := Sources.stop_of_exhausted enough stops
  have behind : (workspace.scratch.symbols.take size).drop (sources.frame size).length ++
      workspace.scratch.symbols.drop size =
      workspace.scratch.symbols.drop (sources.frame size).length := by
    rw [← List.drop_append_of_le_length (by rw [front]; exact Nat.le_of_lt inside),
      List.take_append_drop]
  simp only [onScratchFront, if_neg (Nat.not_lt.mpr fit), written, filledWith, Buffer.withFront,
    overwrite_zero, List.append_assoc, behind]

end Workspace

end PolarCoding
