import PolarCoding.Proofs.Exhaustion

/-!
# Interleaving two sources

Interleaving goes through the mask once and counts the positions of each source. It succeeds exactly
if neither count outgrows its source. Otherwise it stops at the first position whose source is used
up: what it wrote before is right, and nothing behind is touched.
-/

namespace PolarCoding

def Source.count : Source → (mask : List UInt8) → Nat
  | .frozen, mask => frozenCount mask
  | .info, mask => infoCount mask

section Used

variable {source : Source} {mask frozen info : List UInt8}

/-- A filling stops at a position of the source that it reports. All values of that source have been
taken by then, one for each position of it that came before. -/
theorem used_of_exhausted_fill :
    (fill mask frozen info).exhausted = some source →
      (mask[(fill mask frozen info).symbols.length]?).map Source.ofFlag = some source ∧
        source.count (mask.take (fill mask frozen info).symbols.length) =
          ((Sources.mk mask frozen info).values source).length := by
  -- Each filled position adds one to the count of its source and takes one value from it.
  fun_induction fill mask frozen info with
  | case1 frozen info =>
      intro stops
      cases stops
  | case2 flag mask info kind =>
      intro stops
      cases stops
      exact ⟨congrArg some kind, rfl⟩
  | case3 flag mask value frozen info kind ih =>
      intro stops
      obtain ⟨selected, used⟩ := ih stops
      refine ⟨selected, ?_⟩
      obtain ⟨frozenCons, infoCons⟩ :=
        counts_cons_frozen kind (mask.take (fill mask frozen info).symbols.length)
      cases source with
      | frozen => exact frozenCons.trans (congrArg Nat.succ used)
      | info => exact infoCons.trans used
  | case4 flag mask frozen kind =>
      intro stops
      cases stops
      exact ⟨congrArg some kind, rfl⟩
  | case5 flag mask frozen value info kind ih =>
      intro stops
      obtain ⟨selected, used⟩ := ih stops
      refine ⟨selected, ?_⟩
      obtain ⟨frozenCons, infoCons⟩ :=
        counts_cons_info kind (mask.take (fill mask frozen info).symbols.length)
      cases source with
      | frozen => exact frozenCons.trans used
      | info => exact infoCons.trans (congrArg Nat.succ used)

end Used

namespace Sources

variable {sources : Sources} {source : Source} {size : Nat}

/-- The first position without a value belongs to `source`, and every value of that source stands at
an earlier position. -/
structure UsedUpAt (sources : Sources) (source : Source) (position : Nat) : Prop extends
    sources.StopsAt position where
  selected : (sources.mask[position]?).map Source.ofFlag = some source
  used : source.count (sources.mask.take position) = (sources.values source).length

/-- A filling that is not complete ends where the source that it reports is used up. -/
theorem usedUpAt_of_exhausted (enough : size ≤ sources.mask.length)
    (stops : (fill (sources.mask.take size) sources.frozen sources.info).exhausted = some source) :
    (sources.frame size).length < size ∧ sources.UsedUpAt source (sources.frame size).length := by
  obtain ⟨inside, stopsAt⟩ := stopsAt_of_exhausted enough stops
  obtain ⟨selected, used⟩ := used_of_exhausted_fill stops
  change ((sources.mask.take size)[(sources.frame size).length]?).map Source.ofFlag = some source
    at selected
  change source.count ((sources.mask.take size).take (sources.frame size).length) = _ at used
  rw [List.getElem?_take_of_lt inside] at selected
  rw [List.take_take, Nat.min_eq_left (Nat.le_of_lt inside)] at used
  exact ⟨inside, stopsAt, selected, by cases source <;> exact used⟩

/-- An attempt that fails although the mask is long enough was stopped by a source. -/
theorem exhausted_of_interleave {target written : List UInt8} {fault : Fault}
    (enough : target.length ≤ sources.mask.length)
    (run : sources.interleave target = .error fault written) :
    ∃ source, (fill (sources.mask.take target.length) sources.frozen sources.info).exhausted =
      some source := by
  cases complete : (fill (sources.mask.take target.length) sources.frozen
      sources.info).exhausted with
  | some source => exact ⟨source, rfl⟩
  | none =>
      obtain ⟨frozen, info⟩ := (exhausted_fill_eq_none_iff _ _ _).mp complete
      have cover : sources.Cover target.length := ⟨enough, frozen, info⟩
      rw [cover.interleave_eq] at run
      cases run

/-- A target is filled exactly if the mask is at least as long and both sources have a value for
each of their positions in it, and then every position holds the value of its source whose index is
the number of earlier positions of that source. A mask that is too short is noticed before anything
is written. Any other failure is met at the first position whose source is used up. It reports the
length of that source, which is also the index of the value that is missing. The positions before
hold their values, and from that position on the target is unchanged. -/
theorem interleave_is_exact (sources : Sources) (target : List UInt8) :
    ((∃ written, sources.interleave target = .ok () written) ↔
        target.length ≤ sources.mask.length ∧
          frozenCount (sources.mask.take target.length) ≤ sources.frozen.length ∧
          infoCount (sources.mask.take target.length) ≤ sources.info.length) ∧
      (∀ written, sources.interleave target = .ok () written →
        written.length = target.length ∧
          ∀ position < target.length, written[position]? = sources.valueAt? position) ∧
      ∀ fault written, sources.interleave target = .error fault written →
        (sources.mask.length < target.length → fault = .maskTooShort ∧ written = target) ∧
          (target.length ≤ sources.mask.length →
            ∃ position source, position < target.length ∧ sources.UsedUpAt source position ∧
              fault = .sourceExhausted (sources.values source).length ∧
              (let length := (sources.values source).length
                let index := source.count (sources.mask.take position)
                fault.message =
                  s!"index out of bounds: the len is {length} but the index is {index}") ∧
              (∀ earlier < position, written[earlier]? = sources.valueAt? earlier) ∧
              written.drop position = target.drop position) := by
  refine ⟨⟨?_, ?_⟩, ?_, ?_⟩
  · rintro ⟨written, run⟩
    have cover := cover_of_interleave run
    exact ⟨cover.mask, cover.frozen, cover.info⟩
  · rintro ⟨enough, frozen, info⟩
    have cover : sources.Cover target.length := ⟨enough, frozen, info⟩
    exact ⟨_, cover.interleave_eq⟩
  · intro written run
    have cover := cover_of_interleave run
    rw [cover.interleave_eq] at run
    cases run
    exact ⟨cover.length_frame, fun position => cover.getElem?_frame⟩
  · intro fault written run
    constructor
    · intro short
      rw [interleave_of_short_mask short] at run
      cases run
      exact ⟨rfl, rfl⟩
    · intro enough
      obtain ⟨source, stops⟩ := exhausted_of_interleave enough run
      obtain ⟨inside, usedUp⟩ := usedUpAt_of_exhausted enough stops
      rw [interleave_of_exhausted enough stops, overwrite_zero] at run
      cases run
      refine ⟨_, source, inside, usedUp, rfl, ?_, ?_, List.drop_left⟩
      · rw [usedUp.used]
        rfl
      · intro earlier before
        rw [List.getElem?_append_left before, getElem?_frame before]

/-- Two of six positions are written when the frozen values are used up. -/
example :
    (Sources.mk [0, 255, 7, 0, 0, 1, 1] [10] [20, 21, 22]).interleave [9, 9, 9, 9, 9, 9] =
      .error (.sourceExhausted 1) [20, 10, 9, 9, 9, 9] := rfl

end Sources

end PolarCoding
