import PolarCoding.Proofs.Atomicity

/-!
# What a codeword depends on

A codeword depends on which positions of the mask are frozen and on the values that are taken from
both sources. Other bytes of the mask, values that are left over and the former contents of the
buffers do not matter, and neither does the way in which the frame is encoded. In a sequence of
calls on the same buffers, each call therefore gives the answer that it would give alone.
-/

namespace PolarCoding

/-! ## The data that matters -/

/-- Filling takes no more values than there are positions for them. -/
theorem fill_take (mask frozen info : List UInt8) :
    fill mask (frozen.take (frozenCount mask)) (info.take (infoCount mask)) =
      fill mask frozen info := by
  fun_induction fill mask frozen info with
  | case1 frozen info => rfl
  | case2 flag mask info kind => simp [fill, kind]
  | case3 flag mask value frozen info kind ih =>
      obtain ⟨frozenCons, infoCons⟩ := counts_cons_frozen kind mask
      rw [frozenCons, infoCons, List.take_succ_cons]
      simp only [fill, kind, ih]
  | case4 flag mask frozen kind => simp [fill, kind]
  | case5 flag mask frozen value info kind ih =>
      obtain ⟨frozenCons, infoCons⟩ := counts_cons_info kind mask
      rw [frozenCons, infoCons, List.take_succ_cons]
      simp only [fill, kind, ih]

/-- Of the mask, only the kinds of its positions matter. -/
theorem fill_of_kinds {mask other : List UInt8}
    (same : mask.map Source.ofFlag = other.map Source.ofFlag) (frozen info : List UInt8) :
    fill mask frozen info = fill other frozen info := by
  induction mask generalizing other frozen info with
  | nil =>
      cases other with
      | nil => rfl
      | cons flag other => cases same
  | cons flag mask ih =>
      cases other with
      | nil => cases same
      | cons otherFlag other =>
          obtain ⟨kind, kinds⟩ := List.cons.inj same
          simp only [fill, kind, ih kinds]

/-- The counts of a mask are counts of kinds. -/
theorem counts_eq_count_kinds (mask : List UInt8) :
    frozenCount mask = (mask.map Source.ofFlag).count .frozen ∧
      infoCount mask = (mask.map Source.ofFlag).count .info := by
  constructor
  · rw [frozenCount, List.count, List.countP_map]
    exact List.countP_congr fun flag _ => by simp [ofFlag_eq_frozen_iff]
  · rw [infoCount, List.count, List.countP_map]
    exact List.countP_congr fun flag _ => by simp [ofFlag_eq_info_iff]

namespace Sources

/-- Two collections of sources with the same data for a frame of `size` symbols: the same positions
are frozen, and as many values as there are positions for them are the same. -/
structure Agree (first second : Sources) (size : Nat) : Prop where
  zeros : ∀ position < size, first.mask[position]? = some 0 ↔ second.mask[position]? = some 0
  frozen : first.frozen.take (frozenCount (first.mask.take size)) =
    second.frozen.take (frozenCount (first.mask.take size))
  info : first.info.take (infoCount (first.mask.take size)) =
    second.info.take (infoCount (first.mask.take size))

variable {first second : Sources} {size : Nat}

theorem Agree.kinds (agree : first.Agree second size) (enough : size ≤ first.mask.length)
    (otherEnough : size ≤ second.mask.length) :
    (first.mask.take size).map Source.ofFlag = (second.mask.take size).map Source.ofFlag := by
  have length := (List.length_take_of_le enough).trans (List.length_take_of_le otherEnough).symm
  apply List.ext_getElem
  · rw [List.length_map, List.length_map, length]
  · intro position inFirst inSecond
    rw [List.length_map, List.length_take_of_le enough] at inFirst
    have zeros := agree.zeros position inFirst
    rw [List.getElem?_eq_getElem (Nat.lt_of_lt_of_le inFirst enough),
      List.getElem?_eq_getElem (Nat.lt_of_lt_of_le inFirst otherEnough), Option.some.injEq,
      Option.some.injEq] at zeros
    rw [List.getElem_map, List.getElem_map, List.getElem_take, List.getElem_take]
    simp only [Source.ofFlag, zeros]

/-- Sources that agree fill a frame alike. -/
theorem Agree.frame_eq (agree : first.Agree second size) (enough : size ≤ first.mask.length)
    (otherEnough : size ≤ second.mask.length) : first.frame size = second.frame size := by
  have kinds := agree.kinds enough otherEnough
  obtain ⟨frozen, info⟩ := counts_eq_count_kinds (first.mask.take size)
  obtain ⟨otherFrozen, otherInfo⟩ := counts_eq_count_kinds (second.mask.take size)
  rw [← kinds] at otherFrozen otherInfo
  rw [frame, frame, ← fill_take, agree.frozen, agree.info, fill_of_kinds kinds, frozen, info,
    ← otherFrozen, ← otherInfo, fill_take]

theorem Agree.refl (sources : Sources) (size : Nat) : sources.Agree sources size :=
  ⟨fun _ _ => Iff.rfl, rfl, rfl⟩

end Sources

/-! ## Buffers that differ in their contents only -/

structure Workspace.Alike (first second : Workspace) : Prop where
  frame : Buffer.Alike first.frame second.frame
  scratch : Buffer.Alike first.scratch second.scratch

namespace Workspace

variable {first second third : Workspace} {size : Nat}

theorem Alike.refl (workspace : Workspace) : workspace.Alike workspace :=
  ⟨⟨rfl, rfl⟩, ⟨rfl, rfl⟩⟩

theorem Alike.symm (alike : first.Alike second) : second.Alike first :=
  ⟨⟨alike.frame.address.symm, alike.frame.length.symm⟩,
    ⟨alike.scratch.address.symm, alike.scratch.length.symm⟩⟩

theorem Alike.trans (alike : first.Alike second) (further : second.Alike third) :
    first.Alike third :=
  ⟨⟨alike.frame.address.trans further.frame.address,
      alike.frame.length.trans further.frame.length⟩,
    ⟨alike.scratch.address.trans further.scratch.address,
      alike.scratch.length.trans further.scratch.length⟩⟩

theorem SameBehind.alike (same : first.SameBehind size second) : first.Alike second :=
  ⟨same.frame.toAlike, same.scratch.toAlike⟩

theorem Alike.holds (alike : first.Alike second) (holds : first.Holds size) : second.Holds size :=
  ⟨alike.frame.length ▸ holds.frame, alike.scratch.length ▸ holds.scratch⟩

theorem Alike.isAligned_iff (alike : first.Alike second) : first.IsAligned ↔ second.IsAligned := by
  simp only [IsAligned, Buffer.IsAligned, alike.frame.address, alike.scratch.address]

end Workspace

namespace EntryPoint

variable {entry : EntryPoint} {sources : Sources} {frameSize : UInt32}
  {first second workspace : Workspace}

/-- Whether a call is admitted does not depend on the contents of the buffers. -/
theorem Admits.alike (admits : entry.Admits first frameSize) (alike : first.Alike second) :
    entry.Admits second frameSize := by
  refine ⟨?_, admits.power, alike.holds admits.holds⟩
  have runs := admits.canRun
  cases entry with
  | scalar => exact trivial
  | vector mode => exact runs
  | kernel isa chosen =>
      unfold CanRun Kernel.supportsOn at runs ⊢
      simpa only [alike.isAligned_iff] using runs
  | dispatch isa => exact trivial

theorem Suits.alike (suits : entry.Suits first) (alike : first.Alike second) :
    entry.Suits second := by
  cases entry with
  | vector mode => exact fun aligned => alike.isAligned_iff.mp (suits aligned)
  | scalar => exact trivial
  | kernel isa chosen => exact trivial
  | dispatch isa => exact trivial

/-- Two runs on sources that agree leave the same codeword, whatever the buffers. -/
theorem take_frame_of_agree {other : EntryPoint} {otherSources : Sources}
    {after otherAfter : Workspace} (agree : sources.Agree otherSources frameSize.toNat)
    (run : entry.run sources frameSize first = .ok () after)
    (otherRun : other.run otherSources frameSize second = .ok () otherAfter) :
    after.frame.symbols.take frameSize.toNat = otherAfter.frame.symbols.take frameSize.toNat := by
  obtain ⟨_, cover, _, depth, shape, codeword⟩ := of_run_eq_ok run
  obtain ⟨_, otherCover, _, otherDepth, otherShape, otherCodeword⟩ := of_run_eq_ok otherRun
  obtain rfl : depth = otherDepth :=
    Nat.pow_right_injective (Nat.le_refl 2) (shape.symm.trans otherShape)
  have filled := agree.frame_eq cover.mask otherCover.mask
  rw [codeword, otherCodeword, Sources.codeword, Sources.codeword, ← shape, filled]

end EntryPoint

/-! ## Sequences of calls -/

structure Invocation where
  entry : EntryPoint
  sources : Sources
  frameSize : UInt32

namespace Invocation

def run (call : Invocation) : Action Workspace Unit := call.entry.run call.sources call.frameSize

def answer (call : Invocation) (workspace : Workspace) : Option (List UInt8) :=
  match call.run workspace with
  | .ok () after => some (after.frame.symbols.take call.frameSize.toNat)
  | .error _ _ => none

def leaves (call : Invocation) (workspace : Workspace) : Workspace :=
  match call.run workspace with
  | .ok () after => after
  | .error _ after => after

def answers : List Invocation → Workspace → List (Option (List UInt8))
  | [], _ => []
  | call :: later, workspace => call.answer workspace :: answers later (call.leaves workspace)

variable {call : Invocation} {workspace first second : Workspace} {word : List UInt8}

theorem answer_eq_some_iff :
    call.answer workspace = some word ↔
      ∃ after, call.entry.run call.sources call.frameSize workspace = .ok () after ∧
        after.frame.symbols.take call.frameSize.toNat = word := by
  unfold answer run
  cases call.entry.run call.sources call.frameSize workspace with
  | ok value after => simp
  | error fault after => simp

/-- A call leaves buffers that are like those it was given. -/
theorem alike_leaves (call : Invocation) (workspace : Workspace) :
    workspace.Alike (call.leaves workspace) := by
  unfold leaves run
  cases ran : call.entry.run call.sources call.frameSize workspace with
  | ok value after => exact (EntryPoint.sameBehind_of_run_eq_ok ran).alike
  | error fault after => exact (EntryPoint.sameBehind_of_run_eq_error ran).alike

/-- An answer does not depend on the contents of the buffers. -/
theorem answer_of_alike (call : Invocation) (alike : first.Alike second) :
    call.answer first = call.answer second := by
  have carries {before other : Workspace} (alike : before.Alike other) (word : List UInt8)
      (answered : call.answer before = some word) : call.answer other = some word := by
    obtain ⟨after, run, rfl⟩ := answer_eq_some_iff.mp answered
    obtain ⟨admits, cover, suits, _⟩ := EntryPoint.of_run_eq_ok run
    obtain ⟨last, otherRun⟩ :=
      EntryPoint.exists_run_eq_ok (admits.alike alike) cover (suits.alike alike)
    have same := EntryPoint.take_frame_of_agree (.refl _ _) run otherRun
    exact answer_eq_some_iff.mpr ⟨last, otherRun, same.symm⟩
  exact Option.ext fun word => ⟨carries alike word, carries alike.symm word⟩

/-- In a sequence, each call gives the answer that it gives alone. -/
theorem answers_eq_map (calls : List Invocation) (alike : first.Alike second) :
    answers calls first = calls.map (·.answer second) := by
  -- The contents change from call to call. What the induction carries is the likeness.
  induction calls generalizing first with
  | nil => rfl
  | cons call later ih =>
      have behind := (call.alike_leaves first).symm.trans alike
      rw [answers, List.map_cons, call.answer_of_alike alike, ih behind]

/-- An answer in a sequence is the answer of that call alone. -/
theorem answer_of_answers {calls : List Invocation} {position : Nat}
    (present : calls[position]? = some call)
    (answered : (answers calls workspace)[position]? = some (some word)) :
    call.answer workspace = some word := by
  rw [answers_eq_map calls (.refl workspace), List.getElem?_map, present] at answered
  exact Option.some.inj answered

/-- Two calls that succeed on sources that agree, with the same frame size, leave the same codeword,
whichever way each of them is encoded and whatever the buffers hold and where they are. The same is
true of calls in sequences: the calls before them do not matter. What a sequence answers are the
answers that its calls give alone, on any buffers like those of the sequence. -/
theorem calls_do_not_interfere :
    (∀ (entry other : EntryPoint) (sources otherSources : Sources) (frameSize : UInt32)
        (first second after otherAfter : Workspace),
      sources.Agree otherSources frameSize.toNat →
        entry.run sources frameSize first = .ok () after →
          other.run otherSources frameSize second = .ok () otherAfter →
            after.frame.symbols.take frameSize.toNat =
              otherAfter.frame.symbols.take frameSize.toNat) ∧
      (∀ (calls otherCalls : List Invocation) (first second : Workspace)
          (position otherPosition : Nat) (call other : Invocation) (word otherWord : List UInt8),
        calls[position]? = some call → otherCalls[otherPosition]? = some other →
          call.frameSize = other.frameSize →
            call.sources.Agree other.sources call.frameSize.toNat →
              (answers calls first)[position]? = some (some word) →
                (answers otherCalls second)[otherPosition]? = some (some otherWord) →
                  word = otherWord) ∧
        ∀ (calls : List Invocation) (first second : Workspace), first.Alike second →
          answers calls first = calls.map (·.answer second) := by
  refine ⟨?_, ?_, fun calls first second alike => answers_eq_map calls alike⟩
  · intro entry other sources otherSources frameSize first second after otherAfter agree run
      otherRun
    exact EntryPoint.take_frame_of_agree agree run otherRun
  · intro calls otherCalls first second position otherPosition call other word otherWord present
      otherPresent size agree answered otherAnswered
    obtain ⟨after, run, rfl⟩ := answer_eq_some_iff.mp (answer_of_answers present answered)
    obtain ⟨otherAfter, otherRun, rfl⟩ :=
      answer_eq_some_iff.mp (answer_of_answers otherPresent otherAnswered)
    rw [← size] at otherRun ⊢
    exact EntryPoint.take_frame_of_agree agree run otherRun

/-- Sixteen symbols by the scalar encoder after a larger frame, and by registers on other buffers
with another mask and spare values. -/
theorem calls_do_not_interfere_sixteen :
    let mask : List UInt8 := (List.replicate 4 [255, 0, 255, 0]).flatten
    let otherMask : List UInt8 := (List.replicate 4 [1, 0, 128, 0]).flatten ++ [9]
    let frozen : List UInt8 := [10, 20, 30, 40, 50, 60, 70, 80]
    let info : List UInt8 := [1, 2, 3, 4, 5, 6, 7, 8]
    let large : Invocation := ⟨.scalar, ⟨List.replicate 32 0, [], List.replicate 32 77⟩, 32⟩
    let call : Invocation := ⟨.scalar, ⟨mask, frozen, info⟩, 16⟩
    let other : Invocation := ⟨.dispatch .ssse3, ⟨otherMask, frozen ++ [90], info ++ [9]⟩, 16⟩
    let workspace : Workspace := ⟨⟨0, List.replicate 33 200⟩, ⟨1, List.replicate 32 100⟩⟩
    let otherWorkspace : Workspace := ⟨⟨3, List.replicate 16 1⟩, ⟨16, List.replicate 40 2⟩⟩
    ∃ word, (answers [large, call] workspace)[1]? = some (some word) ∧
      (answers [other, large] otherWorkspace)[0]? = some (some word) := by
  intro mask otherMask frozen info large call other workspace otherWorkspace
  have answered : (answers [large, call] workspace)[1]? =
      some (some [56, 20, 40, 25, 88, 98, 116, 88, 8, 12, 8, 15, 8, 14, 12, 8]) := by
    decide +kernel
  have otherAnswered : (answers [other, large] otherWorkspace)[0]? =
      some (some [56, 20, 40, 25, 88, 98, 116, 88, 8, 12, 8, 15, 8, 14, 12, 8]) := by
    decide +kernel
  have same := calls_do_not_interfere.2.1 [large, call] [other, large] workspace otherWorkspace 1 0
    call other _ _ rfl rfl rfl ⟨by decide, rfl, rfl⟩ answered otherAnswered
  exact ⟨_, answered, same ▸ otherAnswered⟩

end Invocation

end PolarCoding
