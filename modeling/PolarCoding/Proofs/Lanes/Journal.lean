import Mathlib.Data.List.Perm.Basic
import Mathlib.Data.List.Nodup
import PolarCoding.Proofs.Lanes.Encode

/-!
# What a vector encoder touches

The journal of a run lists the passes with their loads and stores. Every pass loads each register
of the scratch buffer once and stores each register of the frame once, although the order of the
stores is another one in each wide stage and the fused pass loads a register before the one in
front of it is stored. All registers lie inside the frame size.
-/

namespace PolarCoding.Lanes

/-! ## Neighbouring registers -/

def registersFrom (start count : Nat) : List Nat :=
  (List.range count).map fun register => start + register * laneCount

@[simp] theorem registersFrom_zero (start : Nat) : registersFrom start 0 = [] := rfl

theorem registersFrom_succ (start count : Nat) :
    registersFrom start (count + 1) = start :: registersFrom (start + laneCount) count := by
  have later (register : Nat) :
      start + (register + 1) * laneCount = start + laneCount + register * laneCount := by
    rw [Nat.succ_mul, Nat.add_comm (register * laneCount), Nat.add_assoc]
  simp only [registersFrom, List.range_succ_eq_map, List.map_cons, List.map_map, Nat.zero_mul,
    Nat.add_zero, Function.comp_def, later]

theorem registersFrom_add (start first second : Nat) :
    registersFrom start (first + second) =
      registersFrom start first ++ registersFrom (start + first * laneCount) second := by
  induction first generalizing start with
  | zero => simp
  | succ first ih =>
      rw [Nat.succ_add, registersFrom_succ, ih, registersFrom_succ, List.cons_append, Nat.succ_mul,
        Nat.add_comm (first * laneCount), Nat.add_assoc]

@[simp] theorem mem_registersFrom_zero {offset count : Nat} :
    offset ∈ registersFrom 0 count ↔ ∃ register < count, offset = register * laneCount := by
  simp only [registersFrom, List.mem_map, List.mem_range, Nat.zero_add, eq_comm (a := offset)]

theorem nodup_registersFrom (start count : Nat) : (registersFrom start count).Nodup := by
  apply List.Nodup.map _ List.nodup_range
  intro first second same
  have products : first * laneCount = second * laneCount := Nat.add_left_cancel same
  exact Nat.eq_of_mul_eq_mul_right (by decide) products

/-! ## Accesses of a pass -/

def Event.loadedAt : Event → Option Nat
  | .load offset => some offset
  | _ => none

def Event.storedAt : Event → Option Nat
  | .store offset => some offset
  | _ => none

/-- The accesses belong to one pass, which loads from and stores to the given offsets in some
order. -/
structure Touches (accesses : List Event) (loaded stored : List Nat) : Prop where
  onePass : ∀ pass, .begin pass ∉ accesses
  loads : (accesses.filterMap Event.loadedAt).Perm loaded
  stores : (accesses.filterMap Event.storedAt).Perm stored

section Touches

variable {accesses later : List Event} {loaded stored moreLoaded moreStored : List Nat}

theorem touches_nil : Touches [] [] [] := ⟨fun _ => List.not_mem_nil, .refl _, .refl _⟩

theorem touches_load (offset : Nat) : Touches [.load offset] [offset] [] := by
  refine ⟨fun pass member => ?_, .refl _, .refl _⟩
  cases List.mem_singleton.mp member

theorem touches_store (offset : Nat) : Touches [.store offset] [] [offset] := by
  refine ⟨fun pass member => ?_, .refl _, .refl _⟩
  cases List.mem_singleton.mp member

theorem Touches.append (first : Touches accesses loaded stored)
    (second : Touches later moreLoaded moreStored) :
    Touches (accesses ++ later) (loaded ++ moreLoaded) (stored ++ moreStored) := by
  constructor
  · intro pass member
    rcases List.mem_append.mp member with early | late
    · exact first.onePass pass early
    · exact second.onePass pass late
  · rw [List.filterMap_append]
    exact first.loads.append second.loads
  · rw [List.filterMap_append]
    exact first.stores.append second.stores

/-- The order of the stores does not matter. -/
theorem Touches.reorder {others : List Nat} (touches : Touches accesses loaded stored)
    (same : stored.Perm others) : Touches accesses loaded others :=
  ⟨touches.onePass, touches.loads, touches.stores.trans same⟩

theorem count_load (accesses : List Event) (offset : Nat) :
    accesses.count (.load offset) = (accesses.filterMap Event.loadedAt).count offset := by
  induction accesses with
  | nil => rfl
  | cons event rest ih =>
      cases event <;> simp [List.count_cons, List.filterMap_cons, Event.loadedAt, ih]

theorem count_store (accesses : List Event) (offset : Nat) :
    accesses.count (.store offset) = (accesses.filterMap Event.storedAt).count offset := by
  induction accesses with
  | nil => rfl
  | cons event rest ih =>
      cases event <;> simp [List.count_cons, List.filterMap_cons, Event.storedAt, ih]

end Touches

section Passes

variable {half registers source target total count branch : Nat}

theorem touches_stepEvents (half source target : Nat) :
    Touches (stepEvents half source target) [source, source + laneCount]
      [target, target + half] := by
  refine ⟨fun pass member => ?_, .refl _, .refl _⟩
  simp [stepEvents] at member

/-- The steps of a branch load neighbouring registers and store to both halves in turn. -/
theorem touches_stepsEvents (half steps source target : Nat) :
    Touches (stepsEvents half steps source target) (registersFrom source (2 * steps))
      (registersFrom target steps ++ registersFrom (target + half) steps) := by
  induction steps generalizing source target with
  | zero => exact touches_nil
  | succ steps ih =>
      have loaded : registersFrom source (2 * (steps + 1)) =
          [source, source + laneCount] ++ registersFrom (source + 2 * laneCount) (2 * steps) := by
        rw [Nat.mul_succ, registersFrom_succ, registersFrom_succ, Nat.add_assoc, ← Nat.two_mul]
        rfl
      have stored : ([target, target + half] ++
            (registersFrom (target + laneCount) steps ++
              registersFrom (target + laneCount + half) steps)).Perm
          (registersFrom target (steps + 1) ++ registersFrom (target + half) (steps + 1)) := by
        rw [registersFrom_succ, registersFrom_succ, Nat.add_right_comm]
        simp only [List.cons_append, List.nil_append]
        exact .cons target List.perm_middle.symm
      rw [stepsEvents, loaded]
      exact ((touches_stepEvents half source target).append (ih _ _)).reorder stored

/-- The branches from one on load and store all their registers. -/
theorem touches_branchesEvents (whole : half = registers * laneCount) (count branch : Nat) :
    Touches (branchesEvents half count branch)
      (registersFrom (branch * (2 * half)) (count * (2 * registers)))
      (registersFrom (branch * (2 * half)) (count * (2 * registers))) := by
  induction count generalizing branch with
  | zero =>
      rw [Nat.zero_mul]
      exact touches_nil
  | succ count ih =>
      have steps : half / laneCount = registers := by
        rw [whole]
        exact Nat.mul_div_cancel registers (by decide)
      have next : branch * (2 * half) + 2 * registers * laneCount = (branch + 1) * (2 * half) := by
        rw [Nat.succ_mul branch, whole, Nat.mul_assoc]
      have all : registersFrom (branch * (2 * half)) ((count + 1) * (2 * registers)) =
          registersFrom (branch * (2 * half)) (2 * registers) ++
            registersFrom ((branch + 1) * (2 * half)) (count * (2 * registers)) := by
        rw [Nat.succ_mul count, Nat.add_comm (count * _), registersFrom_add, next]
      have halves : registersFrom (branch * (2 * half)) (2 * registers) =
          registersFrom (branch * (2 * half)) registers ++
            registersFrom (branch * (2 * half) + half) registers := by
        rw [Nat.two_mul registers, registersFrom_add, ← whole]
      have first := touches_stepsEvents half registers (branch * (2 * half)) (branch * (2 * half))
      rw [← halves] at first
      rw [branchesEvents, steps, all]
      exact first.append (ih (branch + 1))

/-- The first register of a fused pass is loaded before its branches. -/
theorem touches_fusedBranchesEvents (sum : branch + count = total) :
    Touches (fusedBranchesEvents total count branch)
      (registersFrom ((branch + 1) * laneCount) (count - 1))
      (registersFrom (branch * laneCount) count) := by
  induction count generalizing branch with
  | zero => exact touches_nil
  | succ count ih =>
      have next : branch * laneCount + laneCount = (branch + 1) * laneCount :=
        (Nat.succ_mul _ _).symm
      have others : branch + 1 + count = total := by omega
      have later := ih others
      have stored := touches_store (branch * laneCount)
      rw [fusedBranchesEvents, Nat.add_sub_cancel, registersFrom_succ (branch * laneCount), next]
      cases count with
      | zero =>
          have last : ¬ branch + 1 < total := by omega
          rw [prefetchEvents, if_neg last]
          exact stored.append later
      | succ count =>
          have more : branch + 1 < total := by omega
          have loaded : registersFrom ((branch + 1) * laneCount) (count + 1) =
              [(branch + 1) * laneCount] ++ registersFrom ((branch + 1 + 1) * laneCount) count := by
            rw [registersFrom_succ, ← Nat.succ_mul (branch + 1)]
            rfl
          have all : Touches ([.load ((branch + 1) * laneCount)] ++
                .store (branch * laneCount) :: fusedBranchesEvents total (count + 1) (branch + 1))
              ([(branch + 1) * laneCount] ++ registersFrom ((branch + 1 + 1) * laneCount) count)
              (branch * laneCount :: registersFrom ((branch + 1) * laneCount) (count + 1)) :=
            (touches_load _).append (stored.append later)
          rw [← loaded] at all
          rw [prefetchEvents, if_pos more, next]
          exact all

end Passes

/-! ## Passes over a frame -/

/-- The accesses load each register of the first `size` symbols once, store each of them once, and
touch nothing else. -/
structure Sweeps (accesses : List Event) (size : Nat) : Prop where
  loadedOnce : ∀ register < size / laneCount, accesses.count (.load (register * laneCount)) = 1
  storedOnce : ∀ register < size / laneCount, accesses.count (.store (register * laneCount)) = 1
  only : ∀ event ∈ accesses, ∃ register < size / laneCount,
    event = .load (register * laneCount) ∨ event = .store (register * laneCount)

theorem Touches.sweeps {accesses : List Event} {registers size : Nat}
    (touches : Touches accesses (registersFrom 0 registers) (registersFrom 0 registers))
    (all : size / laneCount = registers) : Sweeps accesses size := by
  subst all
  have once {register : Nat} (inside : register < size / laneCount) :
      (registersFrom 0 (size / laneCount)).count (register * laneCount) = 1 :=
    List.count_eq_one_of_mem (nodup_registersFrom _ _)
      (mem_registersFrom_zero.mpr ⟨register, inside, rfl⟩)
  constructor
  · intro register inside
    rw [count_load, touches.loads.count_eq, once inside]
  · intro register inside
    rw [count_store, touches.stores.count_eq, once inside]
  · intro event member
    cases event with
    | begin pass => exact absurd member (touches.onePass pass)
    | load offset =>
        have loaded : offset ∈ accesses.filterMap Event.loadedAt :=
          List.mem_filterMap.mpr ⟨_, member, rfl⟩
        obtain ⟨register, inside, rfl⟩ :=
          mem_registersFrom_zero.mp (touches.loads.mem_iff.mp loaded)
        exact ⟨register, inside, .inl rfl⟩
    | store offset =>
        have stored : offset ∈ accesses.filterMap Event.storedAt :=
          List.mem_filterMap.mpr ⟨_, member, rfl⟩
        obtain ⟨register, inside, rfl⟩ :=
          mem_registersFrom_zero.mp (touches.stores.mem_iff.mp stored)
        exact ⟨register, inside, .inr rfl⟩

structure PassRecord where
  pass : Pass
  accesses : List Event

def PassRecord.events (record : PassRecord) : List Event := .begin record.pass :: record.accesses

def wideRecord (stage : Stage) : PassRecord :=
  ⟨.wide stage, branchesEvents stage.halfSpan.toNat stage.branches.toNat 0⟩

def fusedRecord (branches : Nat) : PassRecord :=
  ⟨.fused branches, .load 0 :: fusedBranchesEvents branches branches 0⟩

theorem sweeps_wideRecord {stage : Stage} {size : Nat} (spans : stage.Spans size)
    (whole : stage.halfSpan.toNat % laneCount = 0) : Sweeps (wideRecord stage).accesses size := by
  obtain ⟨registers, half⟩ := Nat.dvd_of_mod_eq_zero whole
  rw [Nat.mul_comm] at half
  have all : size / laneCount = stage.branches.toNat * (2 * registers) := by
    rw [← spans.size_eq, half, ← Nat.mul_assoc 2, ← Nat.mul_assoc]
    exact Nat.mul_div_cancel _ (by decide)
  have touches := touches_branchesEvents half stage.branches.toNat 0
  rw [Nat.zero_mul] at touches
  exact touches.sweeps all

theorem sweeps_fusedRecord {branches size : Nat} (some_branch : 0 < branches)
    (whole : branches * laneCount = size) : Sweeps (fusedRecord branches).accesses size := by
  have all : size / laneCount = branches := by
    rw [← whole]
    exact Nat.mul_div_cancel branches (by decide)
  have later := touches_fusedBranchesEvents (Nat.zero_add branches)
  have loaded : [0] ++ registersFrom ((0 + 1) * laneCount) (branches - 1) =
      registersFrom 0 branches := by
    obtain ⟨others, rfl⟩ := Nat.exists_eq_succ_of_ne_zero (Nat.ne_of_gt some_branch)
    rw [registersFrom_succ]
    rfl
  have touches := (touches_load 0).append later
  rw [loaded, Nat.zero_mul, List.nil_append] at touches
  exact touches.sweeps all

/-! ## The passes of a frame -/

/-- The stages of branches of `2 ^ (extra + 4)` symbols that are done in wide passes. -/
def wideLevels : (extra branches : Nat) → List Stage
  | 0, _ => []
  | extra + 1, branches => Stage.level (extra + 4) branches :: wideLevels extra (2 * branches)

theorem stagesFrom_eq_append (extra branches : Nat) :
    stagesFrom (extra + 4) branches =
      wideLevels extra branches ++ stagesFrom 4 (branches * 2 ^ extra) := by
  induction extra generalizing branches with
  | zero => rw [Nat.pow_zero, Nat.mul_one]; rfl
  | succ extra ih =>
      change Stage.level (extra + 4) branches :: stagesFrom (extra + 4) (2 * branches) = _
      rw [ih, branches_succ]
      rfl

theorem passesEvents_eq_flatMap (extra branches : Nat) :
    passesEvents extra branches =
      ((wideLevels extra branches).map wideRecord ++
        [fusedRecord (branches * 2 ^ extra)]).flatMap PassRecord.events := by
  induction extra generalizing branches with
  | zero =>
      rw [Nat.pow_zero, Nat.mul_one, wideLevels, List.map_nil, List.nil_append,
        List.flatMap_singleton]
      rfl
  | succ extra ih =>
      rw [passesEvents, ih, branches_succ]
      rfl

/-- The halves of a wide pass consist of whole registers. -/
theorem whole_of_mem_wideLevels {extra branches : Nat}
    (fits : branches * 2 ^ (extra + 4) < sizeLimit) (some_branch : 0 < branches) :
    ∀ stage ∈ wideLevels extra branches,
      stage.halfSpan.toNat % laneCount = 0 ∧ laneCount ≤ stage.halfSpan.toNat := by
  induction extra generalizing branches with
  | zero => simp [wideLevels]
  | succ extra ih =>
      have spanned : branches * 2 ^ (extra + 4 + 1) < sizeLimit := fits
      have twice : 2 * branches * 2 ^ (extra + 4) < sizeLimit := by rwa [branches_succ]
      have half := (words_of_level spanned some_branch).1
      rw [wideLevels]
      refine List.forall_mem_cons.mpr ⟨?_, ih twice (Nat.mul_pos Nat.two_pos some_branch)⟩
      rw [half]
      exact whole_registers extra

/-- Every pass over a frame, the fused one included, sweeps it. -/
theorem sweeps_of_mem_records {frameSize : UInt32} {extra : Nat}
    (shape : frameSize.toNat = 2 ^ (extra + 4)) :
    ∀ record ∈ (wideLevels extra 1).map wideRecord ++ [fusedRecord (2 ^ extra)],
      Sweeps record.accesses frameSize.toNat := by
  have halves := whole_of_mem_wideLevels (frame_fits shape) Nat.one_pos
  have spans := spans_of_mem_stages shape
  rw [stagesFrom_eq_append, ← shape] at spans
  intro record member
  rcases List.mem_append.mp member with wide | fused
  · obtain ⟨stage, inside, rfl⟩ := List.mem_map.mp wide
    exact sweeps_wideRecord (spans stage (List.mem_append_left _ inside)) (halves stage inside).1
  · obtain rfl := List.mem_singleton.mp fused
    exact sweeps_fusedRecord (Nat.two_pow_pos extra) (by rw [shape, Nat.pow_add])

/-- The event is an access inside the first `size` symbols of its buffer, at an aligned address if
the access asks for it, or the begin of a pass. -/
def Event.Within (access : Access) (workspace : Workspace) (size : Nat) : Event → Prop
  | .begin _ => True
  | .load offset => offset + laneCount ≤ size ∧
      (access = .aligned → (workspace.scratch.address + offset) % laneCount = 0)
  | .store offset => offset + laneCount ≤ size ∧
      (access = .aligned → (workspace.frame.address + offset) % laneCount = 0)

theorem within_of_sweeps {access : Access} {workspace : Workspace} {size : Nat}
    {accesses : List Event} (sweeps : Sweeps accesses size)
    (aligned : access = .aligned → workspace.IsAligned) {event : Event}
    (member : event ∈ accesses) : event.Within access workspace size := by
  obtain ⟨register, inside, touched⟩ := sweeps.only event member
  have fit : register * laneCount + laneCount ≤ size := by
    rw [← Nat.succ_mul]
    exact Nat.le_trans (Nat.mul_le_mul_right _ inside) (Nat.div_mul_le_self size laneCount)
  have whole (address : Nat) (start : address % laneCount = 0) :
      (address + register * laneCount) % laneCount = 0 := by
    rw [Nat.add_mul_mod_self_right, start]
  rcases touched with rfl | rfl
  · exact ⟨fit, fun required => whole _ (aligned required).2⟩
  · exact ⟨fit, fun required => whole _ (aligned required).1⟩

/-- Once the buffers are checked and the frame is filled, a vector encoder runs without a fault.
Every load and store lies inside the frame size, at aligned addresses if the access asks for it.
The journal consists of one wide pass for each stage with whole registers and one fused pass from
the stage behind them, whose branches span one register, and every pass sweeps both buffers. The
stores make up the codeword, and no symbol behind the frame size is changed. -/
theorem run_stays_within {mode : Mode} {sources : Sources} {frameSize : UInt32}
    {workspace filled : Workspace} (prepared : prepare sources frameSize workspace = .ok () filled)
    (aligned : mode.access = .aligned → workspace.IsAligned) :
    ∃ (journal : List Event) (after : Workspace) (records : List PassRecord) (wide : List Stage)
        (last : Stage) (narrow : List Stage),
      encodeJournalled mode sources frameSize workspace = .ok journal after ∧
        (∃ depth, frameSize.toNat = 2 ^ depth ∧
          after.frame = workspace.frame.withFront (sources.codeword depth)) ∧
        workspace.SameBehind frameSize.toNat after ∧
        (∀ event ∈ journal, event.Within mode.access workspace frameSize.toNat) ∧
        journal = records.flatMap PassRecord.events ∧
        (∀ record ∈ records, Sweeps record.accesses frameSize.toNat) ∧
        records.map PassRecord.pass = wide.map .wide ++ [.fused last.branches.toNat] ∧
        stagesOf frameSize = .ok (wide ++ last :: narrow) ∧
        (∀ stage ∈ wide, laneCount ≤ stage.halfSpan.toNat) ∧
        last.halfSpan = 8 ∧ last.branches.toNat = frameSize.toNat / laneCount := by
  obtain ⟨⟨power, registers⟩, holds, cover⟩ := of_prepare_eq_ok prepared
  obtain ⟨extra, shape⟩ := exists_extra power registers
  have run := encodeJournalled_eq shape holds cover aligned
  have stages := stagesOf_of_two_pow shape
  rw [stagesFrom_eq_append, Nat.one_mul] at stages
  rw [passesEvents_eq_flatMap, Nat.one_mul] at run
  have small : 2 ^ extra < sizeLimit := by
    have fits := frame_fits shape
    rw [Nat.one_mul] at fits
    exact Nat.lt_of_le_of_lt (Nat.pow_le_pow_right Nat.two_pos (Nat.le_add_right extra 4)) fits
  have branches : (Stage.level 3 (2 ^ extra)).branches.toNat = 2 ^ extra :=
    Stage.toNat_branches_level 3 small
  have halves := whole_of_mem_wideLevels (frame_fits shape) Nat.one_pos
  have sweeps := sweeps_of_mem_records shape
  have kept := Workspace.sameBehind_withFronts (cover.length_codeword shape)
    (passes_of_frame shape cover).2 holds
  refine ⟨_, _, _, wideLevels extra 1, Stage.level 3 (2 ^ extra), _, run, ⟨_, shape, rfl⟩, kept, ?_,
    rfl, sweeps, ?_, stages, fun stage member => (halves stage member).2, rfl, ?_⟩
  · intro event member
    obtain ⟨record, inside, touched⟩ := List.mem_flatMap.mp member
    rcases List.mem_cons.mp touched with rfl | access
    · trivial
    · exact within_of_sweeps (sweeps record inside) aligned access
  · rw [branches, List.map_append, List.map_map]
    rfl
  · rw [branches, shape, Nat.pow_add]
    exact (Nat.mul_div_cancel (2 ^ extra) (by decide)).symm

/-- Thirty-two symbols at the front of longer buffers, with aligned access: the last pass has two
branches. -/
theorem run_stays_within_thirty_two :
    let sources : Sources := ⟨List.replicate 33 0, [], List.replicate 32 1⟩
    let workspace : Workspace := ⟨⟨32, List.replicate 40 9⟩, ⟨64, List.replicate 33 5⟩⟩
    ∃ (filled : Workspace) (journal : List Event) (after : Workspace) (records : List PassRecord)
        (wide : List Stage),
      prepare sources 32 workspace = .ok () filled ∧
        encodeJournalled ⟨.ssse3, .aligned⟩ sources 32 workspace = .ok journal after ∧
        after.frame = workspace.frame.withFront (sources.codeword 5) ∧
        workspace.SameBehind 32 after ∧
        (∀ event ∈ journal, event.Within .aligned workspace 32) ∧
        journal = records.flatMap PassRecord.events ∧
        records.map PassRecord.pass = wide.map .wide ++ [.fused 2] := by
  intro sources workspace
  have shape : (32 : UInt32).toNat = 2 ^ (1 + 4) := rfl
  have holds : workspace.Holds (32 : UInt32).toNat := ⟨by decide, by decide⟩
  have cover : sources.Cover (32 : UInt32).toNat := ⟨by decide, by decide, by decide⟩
  have prepared := prepare_eq shape holds cover
  have aligned : Mode.access ⟨.ssse3, .aligned⟩ = .aligned → workspace.IsAligned :=
    fun _ => by decide
  obtain ⟨journal, after, records, wide, last, _, run, ⟨depth, power, stored⟩, kept, within, split,
    _, passes, _, _, _, branches⟩ := run_stays_within prepared aligned
  obtain rfl : depth = 5 := Nat.pow_right_injective (Nat.le_refl 2) (power.symm.trans shape)
  have two : last.branches.toNat = 2 := branches
  rw [two] at passes
  exact ⟨_, journal, after, records, wide, prepared, run, stored, kept, within, split, passes⟩

end PolarCoding.Lanes
