import PolarCoding.Proofs.EntryPoint

/-!
# What a failed call leaves behind

No call changes a symbol behind the frame size. A call that fails leaves the frame as it was, and
the scratch buffer too, unless it had begun to fill the frame: then the values stand there that it
had found, and only an aligned access to other addresses can fail when they are complete.
-/

namespace PolarCoding

namespace EntryPoint

variable {entry : EntryPoint} {sources : Sources} {frameSize : UInt32} {workspace after : Workspace}
  {fault : Fault}

theorem sameBehind_of_run_eq_ok (run : entry.run sources frameSize workspace = .ok () after) :
    workspace.SameBehind frameSize.toNat after := by
  have outcome := outcome_run entry sources frameSize workspace
  rw [run] at outcome
  cases outcome with
  | encoded admits cover suits shape length =>
      exact Workspace.sameBehind_withFronts (cover.length_codeword shape) length admits.holds

theorem sameBehind_of_run_eq_error
    (run : entry.run sources frameSize workspace = .error fault after) :
    workspace.SameBehind frameSize.toNat after := by
  have outcome := outcome_run entry sources frameSize workspace
  rw [run] at outcome
  cases outcome with
  | refused => exact .refl _ _
  | maskShort => exact .refl _ _
  | exhausted source admits enough stops =>
      have inside := (Sources.stop_of_exhausted enough stops).1
      exact Workspace.sameBehind_filledWith (Nat.le_of_lt inside) admits.holds
  | misaligned remainder admits cover fails =>
      exact Workspace.sameBehind_filledWith (Nat.le_of_eq cover.length_frame) admits.holds

/-- A call changes nothing behind the frame size. If it fails, the frame is unchanged. So is the
scratch buffer if a check before the filling fails or the mask is too short. If a source is
exhausted, the values before that position stand in the scratch buffer, which is unchanged from
there on. If all of this is in order, the access is aligned and the addresses are not, and the
scratch buffer holds the filled frame. -/
theorem failed_call_leaves_frame (entry : EntryPoint) (sources : Sources) (frameSize : UInt32)
    (workspace : Workspace) :
    (∀ after, entry.run sources frameSize workspace = .ok () after →
        workspace.SameBehind frameSize.toNat after) ∧
      ∀ fault after, entry.run sources frameSize workspace = .error fault after →
        workspace.SameBehind frameSize.toNat after ∧ after.frame = workspace.frame ∧
          (¬ entry.Admits workspace frameSize ∨ sources.mask.length < frameSize.toNat →
            after = workspace) ∧
          (entry.Admits workspace frameSize → frameSize.toNat ≤ sources.mask.length →
            ∀ position < frameSize.toNat, sources.StopsAt position →
              (∀ earlier < position,
                after.scratch.symbols[earlier]? = sources.valueAt? earlier) ∧
                after.scratch.symbols.drop position = workspace.scratch.symbols.drop position) ∧
          (entry.Admits workspace frameSize →
            (∀ position < frameSize.toNat, sources.valueAt? position ≠ none) →
              ¬ entry.Suits workspace ∧ (∃ remainder, fault = .misaligned remainder) ∧
                ∀ position < frameSize.toNat,
                  after.scratch.symbols[position]? = sources.valueAt? position) := by
  refine ⟨fun after run => sameBehind_of_run_eq_ok run, ?_⟩
  intro fault after run
  refine ⟨sameBehind_of_run_eq_error run, ?_⟩
  have outcome := outcome_run entry sources frameSize workspace
  rw [run] at outcome
  cases outcome with
  | refused _ fails =>
      exact ⟨rfl, fun _ => rfl, fun admits => absurd admits fails,
        fun admits => absurd admits fails⟩
  | maskShort admits short =>
      refine ⟨rfl, fun _ => rfl, fun _ enough => absurd enough (Nat.not_le.mpr short), ?_⟩
      intro _ values
      exact absurd (sources.valueAt?_outside (Nat.le_refl _)) (values _ short)
  | exhausted source admits enough stops =>
      obtain ⟨inside, stopsAt⟩ := Sources.stopsAt_of_exhausted enough stops
      refine ⟨rfl, ?_, ?_, fun _ values => absurd stopsAt.missing (values _ inside)⟩
      · rintro (fails | short)
        · exact absurd admits fails
        · exact absurd enough (Nat.not_le.mpr short)
      · intro _ _ position _ first
        -- The first position without a value is the one where the filling stopped.
        obtain rfl := first.unique stopsAt
        exact ⟨fun earlier filled => Workspace.getElem?_filledWith_frame filled,
          Buffer.drop_withFront _ _⟩
  | misaligned remainder admits cover fails =>
      refine ⟨rfl, ?_, ?_, ?_⟩
      · rintro (fails | short)
        · exact absurd admits fails
        · exact absurd cover.mask (Nat.not_le.mpr short)
      · intro _ _ position inside first
        rw [← cover.length_frame] at inside
        exact absurd first.missing (Sources.valueAt?_ne_none inside)
      · intro _ _
        refine ⟨fails, ⟨remainder, rfl⟩, ?_⟩
        intro position inside
        rw [← cover.length_frame] at inside
        exact Workspace.getElem?_filledWith_frame inside

/-- Aligned access to a frame at an odd address, with three values and with sixteen. -/
theorem failed_call_leaves_frame_sixteen :
    let entry := EntryPoint.vector ⟨.ssse3, .aligned⟩
    let workspace : Workspace := ⟨⟨1, List.replicate 20 9⟩, ⟨64, List.replicate 17 5⟩⟩
    let short : Sources := ⟨List.replicate 17 0, [], [1, 2, 3]⟩
    let full : Sources := ⟨List.replicate 17 0, [], List.replicate 16 7⟩
    (∃ after, entry.run short 16 workspace = .error (.sourceExhausted 3) after ∧
        after.frame = workspace.frame ∧ after.scratch.symbols[2]? = short.valueAt? 2 ∧
          after.scratch.symbols.drop 3 = workspace.scratch.symbols.drop 3) ∧
      ∃ fault after, entry.run full 16 workspace = .error fault after ∧
        (∃ remainder, fault = .misaligned remainder) ∧ after.frame = workspace.frame ∧
          after.scratch.symbols[15]? = full.valueAt? 15 := by
  intro entry workspace short full
  have registers : laneCount ≤ (16 : UInt32).toNat := by decide
  have admits : entry.Admits workspace 16 := ⟨registers, by decide, by decide, by decide⟩
  constructor
  · have run : entry.run short 16 workspace = .error (.sourceExhausted 3) _ := rfl
    obtain ⟨_, unchanged, _, filled, _⟩ :=
      (failed_call_leaves_frame entry short 16 workspace).2 _ _ run
    obtain ⟨values, behind⟩ := filled admits (by decide) 3 (by decide) ⟨rfl, by decide⟩
    exact ⟨_, run, unchanged, values 2 (by decide), behind⟩
  · have run : entry.run full 16 workspace = .error (.misaligned 1) _ := rfl
    obtain ⟨_, unchanged, _, _, filled⟩ :=
      (failed_call_leaves_frame entry full 16 workspace).2 _ _ run
    obtain ⟨_, misaligned, values⟩ := filled admits (by decide)
    exact ⟨_, _, run, misaligned, unchanged, values 15 (by decide)⟩

end EntryPoint

end PolarCoding
