import PolarCoding.Proofs.Exhaustion
import PolarCoding.Proofs.Kernel

/-!
# Entry points and the outcomes of a call

A frame can be encoded in several ways, each with checks of its own. They have in common that
nothing is written before the scratch buffer is filled, that the frame is written only when nothing
can fail any more, and that an aligned access to other addresses is noticed between the two. The
outcomes of a call are therefore few, and each of them says what both buffers hold.
-/

namespace PolarCoding

inductive EntryPoint where
  /-- By the scalar encoder. -/
  | scalar
  /-- By a vector encoder, on any unit and with either access. -/
  | vector (mode : Lanes.Mode)
  /-- By a kernel that is asked for by name. -/
  | kernel (isa : Isa) (chosen : Kernel)
  /-- By the kernel that is chosen for the buffers. -/
  | dispatch (isa : Isa)

namespace EntryPoint

def run (entry : EntryPoint) (sources : Sources) (frameSize : UInt32) : Action Workspace Unit :=
  match entry with
  | .scalar => Scalar.encode sources frameSize
  | .vector mode => Lanes.encode mode sources frameSize
  | .kernel isa chosen => chosen.encodeOn isa sources frameSize
  | .dispatch isa => do
      let _ ← encodeOn isa sources frameSize
      pure ()

def CanRun (entry : EntryPoint) (workspace : Workspace) (frameSize : UInt32) : Prop :=
  match entry with
  | .scalar => True
  | .vector _ => laneCount ≤ frameSize.toNat
  | .kernel isa chosen => chosen.supportsOn isa workspace frameSize = true
  | .dispatch _ => True

structure Admits (entry : EntryPoint) (workspace : Workspace) (frameSize : UInt32) : Prop where
  canRun : entry.CanRun workspace frameSize
  power : IsPowerOfTwo frameSize
  holds : workspace.Holds frameSize.toNat

/-- The addresses suit the access, which is checked when the frame is filled. A kernel has checked
them before. -/
def Suits (entry : EntryPoint) (workspace : Workspace) : Prop :=
  match entry with
  | .vector mode => mode.access = .aligned → workspace.IsAligned
  | _ => True

inductive Outcome (entry : EntryPoint) (sources : Sources) (frameSize : UInt32)
    (workspace : Workspace) : EStateM.Result Fault Workspace Unit → Prop where
  /-- A check fails before the frame is filled. -/
  | refused (fault : Fault) (fails : ¬ entry.Admits workspace frameSize) :
      Outcome entry sources frameSize workspace (.error fault workspace)
  /-- The mask does not reach over the frame. -/
  | maskShort (admits : entry.Admits workspace frameSize)
      (short : sources.mask.length < frameSize.toNat) :
      Outcome entry sources frameSize workspace (.error .maskTooShort workspace)
  /-- A source has no value left. The frame is filled up to there. -/
  | exhausted (source : Source) (admits : entry.Admits workspace frameSize)
      (enough : frameSize.toNat ≤ sources.mask.length)
      (stops : (fill (sources.mask.take frameSize.toNat) sources.frozen sources.info).exhausted =
        some source) :
      Outcome entry sources frameSize workspace
        (.error (.sourceExhausted (sources.values source).length)
          (workspace.filledWith (sources.frame frameSize.toNat)))
  /-- An aligned access meets other addresses. The frame is filled. -/
  | misaligned (remainder : Nat) (admits : entry.Admits workspace frameSize)
      (cover : sources.Cover frameSize.toNat) (fails : ¬ entry.Suits workspace) :
      Outcome entry sources frameSize workspace
        (.error (.misaligned remainder) (workspace.filledWith (sources.frame frameSize.toNat)))
  /-- The codeword stands in the frame, and as many other symbols in the scratch buffer. -/
  | encoded {depth : Nat} {left : List UInt8} (admits : entry.Admits workspace frameSize)
      (cover : sources.Cover frameSize.toNat) (suits : entry.Suits workspace)
      (shape : frameSize.toNat = 2 ^ depth) (length : left.length = frameSize.toNat) :
      Outcome entry sources frameSize workspace
        (.ok () (workspace.withFronts (sources.codeword depth) left))

variable {entry other : EntryPoint} {sources : Sources} {frameSize : UInt32}
  {workspace : Workspace} {result : EStateM.Result Fault Workspace Unit}

theorem Admits.transfer (admits : entry.Admits workspace frameSize)
    (runs : entry.CanRun workspace frameSize ↔ other.CanRun workspace frameSize) :
    other.Admits workspace frameSize := ⟨runs.mp admits.canRun, admits.power, admits.holds⟩

/-- Entry points with the same conditions have the same outcomes. -/
theorem Outcome.transfer (outcome : entry.Outcome sources frameSize workspace result)
    (runs : entry.CanRun workspace frameSize ↔ other.CanRun workspace frameSize)
    (suitability : entry.Suits workspace ↔ other.Suits workspace) :
    other.Outcome sources frameSize workspace result := by
  cases outcome with
  | refused fault fails => exact .refused fault fun admits => fails (admits.transfer runs.symm)
  | maskShort admits short => exact .maskShort (admits.transfer runs) short
  | exhausted source admits enough stops =>
      exact .exhausted source (admits.transfer runs) enough stops
  | misaligned remainder admits cover fails =>
      exact .misaligned remainder (admits.transfer runs) cover (mt suitability.mpr fails)
  | encoded admits cover suits shape length =>
      exact .encoded (admits.transfer runs) cover (suitability.mp suits) shape length

/-- An encoder that begins to fill the frame fails if that fails. Otherwise the frame is filled, and
the outcome depends on what follows. -/
theorem outcome_of_filling (admits : entry.Admits workspace frameSize)
    (stops : ∀ fault after,
      Workspace.onScratchFront frameSize.toNat sources.interleave workspace = .error fault after →
        entry.run sources frameSize workspace = .error fault after)
    (goes : sources.Cover frameSize.toNat →
      entry.Outcome sources frameSize workspace (entry.run sources frameSize workspace)) :
    entry.Outcome sources frameSize workspace (entry.run sources frameSize workspace) := by
  have fit := admits.holds.scratch
  by_cases short : sources.mask.length < frameSize.toNat
  · rw [stops _ _ (Workspace.onScratchFront_of_short_mask fit short)]
    exact .maskShort admits short
  · have enough := Nat.not_lt.mp short
    cases complete : (fill (sources.mask.take frameSize.toNat) sources.frozen
        sources.info).exhausted with
    | some source =>
        rw [stops _ _ (Workspace.onScratchFront_of_exhausted fit enough complete)]
        exact .exhausted source admits enough complete
    | none =>
        obtain ⟨frozen, info⟩ := (exhausted_fill_eq_none_iff _ _ _).mp complete
        exact goes ⟨enough, frozen, info⟩

theorem outcome_scalar (sources : Sources) (frameSize : UInt32) (workspace : Workspace) :
    EntryPoint.scalar.Outcome sources frameSize workspace
      (EntryPoint.scalar.run sources frameSize workspace) := by
  change EntryPoint.scalar.Outcome sources frameSize workspace
    (Scalar.encode sources frameSize workspace)
  by_cases power : IsPowerOfTwo frameSize
  case neg =>
    rw [Scalar.encode, Action.lift_bind_of_error (require_of_not power)]
    exact .refused _ fun admits => power admits.power
  by_cases frame : frameSize.toNat ≤ workspace.frame.symbols.length
  case neg =>
    rw [Scalar.encode, Action.require_bind power, Action.get_bind,
      Action.lift_bind_of_error (require_of_not frame)]
    exact .refused _ fun admits => frame admits.holds.frame
  have begun : Scalar.encode sources frameSize workspace =
      (Workspace.onScratchFront frameSize.toNat sources.interleave >>= fun _ =>
        if frameSize.toNat = 1 then Scalar.copyToFrame frameSize.toNat
        else Scalar.transform frameSize) workspace := by
    rw [Scalar.encode, Action.require_bind power, Action.get_bind, Action.require_bind frame]
  by_cases scratch : frameSize.toNat ≤ workspace.scratch.symbols.length
  case neg =>
    have refused : Workspace.onScratchFront frameSize.toNat sources.interleave workspace =
        .error (.sliceEndsOutside frameSize.toNat workspace.scratch.symbols.length) workspace :=
      if_pos (Nat.not_le.mp scratch)
    rw [begun, Action.bind_of_error refused]
    exact .refused _ fun admits => scratch admits.holds.scratch
  have admits : EntryPoint.scalar.Admits workspace frameSize := ⟨trivial, power, ⟨frame, scratch⟩⟩
  apply outcome_of_filling admits
  · intro fault after failed
    exact begun.trans (Action.bind_of_error failed _)
  · intro cover
    obtain ⟨depth, shape⟩ := power
    have run : EntryPoint.scalar.run sources frameSize workspace = _ :=
      Scalar.encode_eq shape admits.holds cover
    rw [run]
    exact .encoded admits cover trivial shape (cover.length_codeword shape)

theorem outcome_vector (mode : Lanes.Mode) (sources : Sources) (frameSize : UInt32)
    (workspace : Workspace) :
    (EntryPoint.vector mode).Outcome sources frameSize workspace
      ((EntryPoint.vector mode).run sources frameSize workspace) := by
  change (EntryPoint.vector mode).Outcome sources frameSize workspace
    (Lanes.encode mode sources frameSize workspace)
  by_cases shape : IsPowerOfTwo frameSize ∧ laneCount ≤ frameSize.toNat
  case neg =>
    have refused : Lanes.prepare sources frameSize workspace = .error _ workspace :=
      Action.lift_bind_of_error (require_of_not shape) _
    rw [Lanes.encode_of_prepare_eq_error refused]
    exact .refused _ fun admits => shape ⟨admits.power, admits.canRun⟩
  by_cases holds : frameSize.toNat ≤ workspace.frame.symbols.length ∧
      frameSize.toNat ≤ workspace.scratch.symbols.length
  case neg =>
    have refused : Lanes.prepare sources frameSize workspace =
        .error (.buffersShorterThanFrame frameSize) workspace := by
      rw [Lanes.prepare, Action.require_bind shape, Action.get_bind,
        Action.lift_bind_of_error (require_of_not holds)]
    rw [Lanes.encode_of_prepare_eq_error refused]
    exact .refused _ fun admits => holds ⟨admits.holds.frame, admits.holds.scratch⟩
  have begun : Lanes.prepare sources frameSize workspace =
      Workspace.onScratchFront frameSize.toNat sources.interleave workspace := by
    rw [Lanes.prepare, Action.require_bind shape, Action.get_bind, Action.require_bind holds]
  have admits : (EntryPoint.vector mode).Admits workspace frameSize :=
    ⟨shape.2, shape.1, ⟨holds.1, holds.2⟩⟩
  apply outcome_of_filling admits
  · intro fault after failed
    exact Lanes.encode_of_prepare_eq_error (begun.trans failed)
  · intro cover
    obtain ⟨extra, shape⟩ := Lanes.exists_extra shape.1 shape.2
    by_cases suits : mode.access = .aligned → workspace.IsAligned
    · have run : (EntryPoint.vector mode).run sources frameSize workspace = _ :=
        Lanes.encode_eq shape admits.holds cover suits
      rw [run]
      exact .encoded admits cover suits shape (Lanes.passes_of_frame shape cover).2
    · obtain ⟨remainder, stopped⟩ := Lanes.encode_of_misaligned shape admits.holds cover suits
      have run : (EntryPoint.vector mode).run sources frameSize workspace = _ := stopped
      rw [run]
      exact .misaligned remainder admits cover suits

theorem outcome_kernel (isa : Isa) (chosen : Kernel) (sources : Sources) (frameSize : UInt32)
    (workspace : Workspace) :
    (EntryPoint.kernel isa chosen).Outcome sources frameSize workspace
      ((EntryPoint.kernel isa chosen).run sources frameSize workspace) := by
  change (EntryPoint.kernel isa chosen).Outcome sources frameSize workspace
    (chosen.encodeOn isa sources frameSize workspace)
  by_cases supported : chosen.supportsOn isa workspace frameSize = true
  case neg =>
    unfold Kernel.encodeOn
    rw [Action.get_bind, Action.lift_bind_of_error (require_of_not supported)]
    exact .refused _ fun admits => supported admits.canRun
  -- What a vector encoder asks of its addresses has been checked by the kernel.
  rcases Kernel.encodeOn_cases sources supported with run | ⟨mode, registers, aligned, run⟩
  · rw [run]
    exact (outcome_scalar sources frameSize workspace).transfer (iff_of_true trivial supported)
      (iff_of_true trivial trivial)
  · rw [run]
    exact (outcome_vector mode sources frameSize workspace).transfer
      (iff_of_true registers supported) (iff_of_true aligned trivial)

/-- The dispatching entry point runs the kernel that is chosen. -/
theorem run_dispatch (isa : Isa) (sources : Sources) (frameSize : UInt32)
    (workspace : Workspace) :
    (EntryPoint.dispatch isa).run sources frameSize workspace =
      (EntryPoint.kernel isa (Kernel.selectOn isa workspace frameSize)).run sources frameSize
        workspace := by
  change (encodeOn isa sources frameSize >>= fun _ => pure ()) workspace =
    (Kernel.selectOn isa workspace frameSize).encodeOn isa sources frameSize workspace
  unfold encodeOn
  cases run : (Kernel.selectOn isa workspace frameSize).encodeOn isa sources frameSize
      workspace with
  | ok value after =>
      rw [Action.bind_apply, Action.get_bind, Action.bind_of_ok run]
      rfl
  | error fault after => rw [Action.bind_apply, Action.get_bind, Action.bind_of_error run]

/-- Whatever the entry point and its arguments, a call has one of the outcomes. -/
theorem outcome_run (entry : EntryPoint) (sources : Sources) (frameSize : UInt32)
    (workspace : Workspace) :
    entry.Outcome sources frameSize workspace (entry.run sources frameSize workspace) := by
  cases entry with
  | scalar => exact outcome_scalar sources frameSize workspace
  | vector mode => exact outcome_vector mode sources frameSize workspace
  | kernel isa chosen => exact outcome_kernel isa chosen sources frameSize workspace
  | dispatch isa =>
      have supported := Kernel.supportsOn_selectOn isa workspace frameSize
      rw [run_dispatch]
      exact (outcome_kernel isa _ sources frameSize workspace).transfer
        (iff_of_true supported trivial) (iff_of_true trivial trivial)

/-- A run that succeeds met all conditions and left the codeword in the frame. -/
theorem of_run_eq_ok {after : Workspace}
    (run : entry.run sources frameSize workspace = .ok () after) :
    entry.Admits workspace frameSize ∧ sources.Cover frameSize.toNat ∧ entry.Suits workspace ∧
      ∃ depth, frameSize.toNat = 2 ^ depth ∧
        after.frame.symbols.take frameSize.toNat = sources.codeword depth := by
  have outcome := outcome_run entry sources frameSize workspace
  rw [run] at outcome
  cases outcome with
  | encoded admits cover suits shape length =>
      exact ⟨admits, cover, suits, _, shape,
        Workspace.take_frame_withFronts (cover.length_codeword shape)⟩

/-- A run that meets all conditions succeeds. -/
theorem exists_run_eq_ok (admits : entry.Admits workspace frameSize)
    (cover : sources.Cover frameSize.toNat) (suits : entry.Suits workspace) :
    ∃ after, entry.run sources frameSize workspace = .ok () after := by
  have outcome := outcome_run entry sources frameSize workspace
  cases run : entry.run sources frameSize workspace with
  | ok value after => exact ⟨after, rfl⟩
  | error fault after =>
      rw [run] at outcome
      cases outcome with
      | refused _ fails => exact absurd admits fails
      | maskShort _ short => exact absurd cover.mask (Nat.not_le.mpr short)
      | exhausted source _ _ stops =>
          rw [cover.complete] at stops
          cases stops
      | misaligned remainder _ _ fails => exact absurd suits fails

end EntryPoint

end PolarCoding
