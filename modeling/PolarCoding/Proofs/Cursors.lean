import PolarCoding.Proofs.Chains
import PolarCoding.Proofs.Levels

/-!
# Walking through stages in any way

A cursor may be moved one item or several at a time, asked about what is ahead of it, copied, and
replaced by an earlier copy, in any order. It only holds the stage to yield next, and says how many
items are left without looking at them. Whatever is done, it answers as a position in the written
out list of stages would.
-/

namespace PolarCoding

/-- What a kind of cursor answers. The next item, and the item behind some others, come with the
cursor behind them. -/
structure CursorKind (κ : Type) where
  next : κ → Option Stage × κ
  nth : (skipped : Nat) → κ → Option Stage × κ
  last : κ → Option Stage
  count : κ → Nat
  length : κ → Nat
  sizeHint : κ → Nat × Option Nat

def CursorKind.stages : CursorKind StageCursor :=
  ⟨StageCursor.next, StageCursor.nth, StageCursor.last, StageCursor.count, StageCursor.length,
    StageCursor.sizeHint⟩

/-- The positions in a list of items: how many of them have been used up. -/
def CursorKind.positions (items : List Stage) : CursorKind Nat where
  next used := (items[used]?, min items.length (used + 1))
  nth skipped used := (items[used + skipped]?, min items.length (used + skipped + 1))
  last used := if items.length ≤ used then none else items.getLast?
  count used := items.length - used
  length used := items.length - used
  sizeHint used := (items.length - used, some (items.length - used))

/-- One use of a cursor. The questions are answered by a copy. -/
inductive CursorUse where
  | next
  | nth (skipped : Nat)
  | last
  | count
  | length
  | sizeHint
  /-- Put a copy aside. -/
  | save (slot : Nat)
  /-- Go on from a copy of what was put aside. -/
  | restore (slot : Nat)

inductive CursorAnswer where
  | item (stage : Option Stage)
  | number (value : Nat)
  | bounds (lowerAndUpper : Nat × Option Nat)
  | done
  deriving DecidableEq

structure CursorSession (κ : Type) where
  current : κ
  copies : Nat → κ

namespace CursorSession

variable {κ ι : Type}

def begin (start : κ) : CursorSession κ := ⟨start, fun _ => start⟩

def serve (kind : CursorKind κ) (session : CursorSession κ) :
    CursorUse → CursorAnswer × CursorSession κ
  | .next =>
      let moved := kind.next session.current
      (.item moved.1, { session with current := moved.2 })
  | .nth skipped =>
      let moved := kind.nth skipped session.current
      (.item moved.1, { session with current := moved.2 })
  | .last => (.item (kind.last session.current), session)
  | .count => (.number (kind.count session.current), session)
  | .length => (.number (kind.length session.current), session)
  | .sizeHint => (.bounds (kind.sizeHint session.current), session)
  | .save slot =>
      (.done, { session with
        copies := fun other => if other = slot then session.current else session.copies other })
  | .restore slot => (.done, { session with current := session.copies slot })

def run (kind : CursorKind κ) :
    List CursorUse → CursorSession κ → List CursorAnswer × CursorSession κ
  | [], session => ([], session)
  | use :: later, session =>
      let served := session.serve kind use
      let rest := run kind later served.2
      (served.1 :: rest.1, rest.2)

structure Matches (related : κ → ι → Prop) (session : CursorSession κ)
    (other : CursorSession ι) : Prop where
  current : related session.current other.current
  copies : ∀ slot, related (session.copies slot) (other.copies slot)

theorem matches_begin {related : κ → ι → Prop} {start : κ} {otherStart : ι}
    (same : related start otherStart) : (begin start).Matches related (begin otherStart) :=
  ⟨same, fun _ => same⟩

end CursorSession

structure CursorKind.Simulates {κ ι : Type} (kind : CursorKind κ) (other : CursorKind ι)
    (related : κ → ι → Prop) : Prop where
  next : ∀ {cursor position}, related cursor position →
    (kind.next cursor).1 = (other.next position).1 ∧
      related (kind.next cursor).2 (other.next position).2
  nth : ∀ skipped {cursor position}, related cursor position →
    (kind.nth skipped cursor).1 = (other.nth skipped position).1 ∧
      related (kind.nth skipped cursor).2 (other.nth skipped position).2
  last : ∀ {cursor position}, related cursor position →
    kind.last cursor = other.last position
  count : ∀ {cursor position}, related cursor position →
    kind.count cursor = other.count position
  length : ∀ {cursor position}, related cursor position →
    kind.length cursor = other.length position
  sizeHint : ∀ {cursor position}, related cursor position →
    kind.sizeHint cursor = other.sizeHint position

namespace CursorKind.Simulates

variable {κ ι : Type} {kind : CursorKind κ} {other : CursorKind ι} {related : κ → ι → Prop}

theorem serve (simulates : kind.Simulates other related) {session : CursorSession κ}
    {otherSession : CursorSession ι} (same : session.Matches related otherSession)
    (use : CursorUse) :
    (session.serve kind use).1 = (otherSession.serve other use).1 ∧
      (session.serve kind use).2.Matches related (otherSession.serve other use).2 := by
  cases use with
  | next =>
      obtain ⟨item, moved⟩ := simulates.next same.current
      exact ⟨congrArg CursorAnswer.item item, moved, same.copies⟩
  | nth skipped =>
      obtain ⟨item, moved⟩ := simulates.nth skipped same.current
      exact ⟨congrArg CursorAnswer.item item, moved, same.copies⟩
  | last => exact ⟨congrArg CursorAnswer.item (simulates.last same.current), same⟩
  | count => exact ⟨congrArg CursorAnswer.number (simulates.count same.current), same⟩
  | length => exact ⟨congrArg CursorAnswer.number (simulates.length same.current), same⟩
  | sizeHint => exact ⟨congrArg CursorAnswer.bounds (simulates.sizeHint same.current), same⟩
  | save slot =>
      refine ⟨rfl, same.current, ?_⟩
      intro saved
      simp only [CursorSession.serve]
      split
      · exact same.current
      · exact same.copies saved
  | restore slot => exact ⟨rfl, same.copies slot, same.copies⟩

theorem run (simulates : kind.Simulates other related) {session : CursorSession κ}
    {otherSession : CursorSession ι} (same : session.Matches related otherSession)
    (uses : List CursorUse) :
    (session.run kind uses).1 = (otherSession.run other uses).1 ∧
      (session.run kind uses).2.Matches related (otherSession.run other uses).2 := by
  induction uses generalizing session otherSession with
  | nil => exact ⟨rfl, same⟩
  | cons use later ih =>
      obtain ⟨answer, served⟩ := simulates.serve same use
      obtain ⟨answers, matching⟩ := ih served
      refine ⟨?_, matching⟩
      rw [CursorSession.run, CursorSession.run, answer, answers]

end CursorKind.Simulates

namespace StageCursor

def pull : (calls : Nat) → StageCursor → List (Option Stage)
  | 0, _ => []
  | calls + 1, cursor => cursor.next.1 :: pull calls cursor.next.2

theorem next_fst (cursor : StageCursor) : cursor.next.1 = cursor.toList.head? := by
  rw [toList_eq cursor]
  obtain ⟨pending⟩ := cursor
  cases pending <;> rfl

theorem toList_next (cursor : StageCursor) : cursor.next.2.toList = cursor.toList.tail := by
  rw [toList_eq cursor]
  obtain ⟨pending⟩ := cursor
  cases pending <;> rfl

/-- Skipping items walks along the items to come, and stays at their end. -/
theorem nth_eq (skipped : Nat) (cursor : StageCursor) :
    (cursor.nth skipped).1 = cursor.toList[skipped]? ∧
      (cursor.nth skipped).2.toList = cursor.toList.drop (skipped + 1) := by
  induction skipped generalizing cursor with
  | zero =>
      rw [List.drop_one, ← toList_next, ← List.head?_eq_getElem?, ← next_fst]
      exact ⟨rfl, rfl⟩
  | succ skipped ih =>
      have item := next_fst cursor
      have behind := toList_next cursor
      rw [nth]
      generalize cursor.next = moved at item behind ⊢
      obtain ⟨first, rest⟩ := moved
      cases first with
      | none =>
          -- The walk ends here, however many items are still to be skipped.
          have ended : cursor.toList = [] := List.head?_eq_none_iff.mp item.symm
          rw [ended] at behind ⊢
          exact ⟨rfl, behind⟩
      | some stage =>
          obtain ⟨found, left⟩ := ih rest
          rw [behind, List.getElem?_tail] at found
          rw [behind, List.drop_tail] at left
          exact ⟨found, left⟩

theorem pull_eq (calls : Nat) (cursor : StageCursor) :
    cursor.pull calls = (List.range calls).map fun index => cursor.toList[index]? := by
  induction calls generalizing cursor with
  | zero => rfl
  | succ calls ih =>
      rw [pull, next_fst, ih, toList_next, List.range_succ_eq_map, List.map_cons, List.map_map,
        List.head?_eq_getElem?]
      simp only [List.getElem?_tail, Function.comp_def]

/-- The number of items that the pending stage names is right as long as no item has none left. -/
theorem length_eq {cursor : StageCursor}
    (some_left : ∀ stage ∈ cursor.toList, 0 < stage.remaining.toNat) :
    cursor.length = cursor.toList.length := by
  obtain ⟨pending⟩ := cursor
  cases pending with
  | none => rfl
  | some stage =>
      have first : stage ∈ stage.chain := by
        rw [Stage.chain_eq]
        exact List.mem_cons_self
      have positive := some_left stage first
      simp only [length, toList, Stage.length_chain]
      omega

structure Stands (items : List Stage) (cursor : StageCursor) (used : Nat) : Prop where
  within : used ≤ items.length
  toList_eq : cursor.toList = items.drop used

/-- Items that all count themselves make cursors and positions the same. -/
theorem simulates {items : List Stage} (counted : ∀ stage ∈ items, 0 < stage.remaining.toNat) :
    CursorKind.stages.Simulates (CursorKind.positions items) (Stands items) := by
  -- Moving to the next item is skipping none.
  have skips (skipped : Nat) {cursor : StageCursor} {used : Nat}
      (stands : Stands items cursor used) :
      (cursor.nth skipped).1 = items[used + skipped]? ∧
        Stands items (cursor.nth skipped).2 (min items.length (used + skipped + 1)) := by
    obtain ⟨item, behind⟩ := nth_eq skipped cursor
    rw [stands.toList_eq, List.getElem?_drop] at item
    rw [stands.toList_eq, List.drop_drop, ← Nat.add_assoc] at behind
    refine ⟨item, Nat.min_le_left _ _, ?_⟩
    rcases Nat.le_total items.length (used + skipped + 1) with ended | inside
    · rw [behind, Nat.min_eq_left ended, List.drop_of_length_le ended, List.drop_length]
    · rw [behind, Nat.min_eq_right inside]
  have lengths {cursor : StageCursor} {used : Nat} (stands : Stands items cursor used) :
      cursor.length = items.length - used := by
    have left : ∀ stage ∈ cursor.toList, 0 < stage.remaining.toNat := by
      intro stage member
      rw [stands.toList_eq] at member
      exact counted stage (List.mem_of_mem_drop member)
    rw [length_eq left, stands.toList_eq, List.length_drop]
  constructor
  case next =>
    intro cursor used stands
    exact skips 0 stands
  case nth =>
    intro skipped cursor used stands
    exact skips skipped stands
  case last =>
    intro cursor used stands
    change cursor.toList.getLast? = _
    rw [stands.toList_eq, List.getLast?_drop]
    rfl
  case count =>
    intro cursor used stands
    change cursor.toList.length = _
    rw [stands.toList_eq, List.length_drop]
    rfl
  case length =>
    intro cursor used stands
    exact lengths stands
  case sizeHint =>
    intro cursor used stands
    have left := lengths stands
    change (cursor.length, some cursor.length) = _
    rw [left]
    rfl

theorem nth_of_ended {cursor : StageCursor} (ended : cursor.next.1 = none) (skipped : Nat) :
    cursor.nth skipped = (none, cursor) := by
  obtain ⟨pending⟩ := cursor
  cases pending with
  | none => cases skipped <;> rfl
  | some stage => cases ended

/-- What a cursor says of the items that are left, and what it does with them, once some of the
items are used up. -/
structure Exact (items : List Stage) (cursor : StageCursor) (used : Nat) : Prop where
  within : used ≤ items.length
  length_eq : cursor.length = items.length - used
  sizeHint_eq : cursor.sizeHint = (items.length - used, some (items.length - used))
  count_eq : cursor.count = items.length - used
  last_eq : cursor.last = if items.length ≤ used then none else items.getLast?
  pull_eq : ∀ calls, cursor.pull calls = (List.range calls).map fun index => items[used + index]?
  nth_item : ∀ skipped, (cursor.nth skipped).1 = items[used + skipped]?
  nth_left : ∀ skipped, (cursor.nth skipped).2.length = items.length - used - skipped - 1
  ended : cursor.next.1 = none → ∀ skipped, cursor.nth skipped = (none, cursor)

theorem Stands.exact {items : List Stage} {cursor : StageCursor} {used : Nat}
    (counted : ∀ stage ∈ items, 0 < stage.remaining.toNat) (stands : Stands items cursor used) :
    Exact items cursor used := by
  have same := simulates counted
  refine ⟨stands.within, same.length stands, same.sizeHint stands, same.count stands,
    same.last stands, ?_, fun skipped => (same.nth skipped stands).1, ?_, nth_of_ended⟩
  · intro calls
    rw [pull_eq, stands.toList_eq]
    simp only [List.getElem?_drop]
  · intro skipped
    obtain ⟨-, moved⟩ := same.nth skipped stands
    have left : (cursor.nth skipped).2.length =
        items.length - min items.length (used + skipped + 1) := same.length moved
    omega

end StageCursor

structure StagesOfFrame (depth : Nat) (items : List Stage) : Prop where
  length_eq : items.length = depth
  item : ∀ index stage, items[index]? = some stage →
    stage.remaining.toNat = depth - index ∧ stage.halfSpan.toNat = 2 ^ (depth - 1 - index) ∧
      stage.branches.toNat = 2 ^ index ∧ stage.frameSize = .ok (2 ^ depth)
  finest : ∀ stage, items.getLast? = some stage → stage.halfSpan = 1

theorem StagesOfFrame.counted {depth : Nat} {items : List Stage}
    (stages : StagesOfFrame depth items) : ∀ stage ∈ items, 0 < stage.remaining.toNat := by
  intro stage member
  obtain ⟨index, inside, rfl⟩ := List.getElem_of_mem member
  obtain ⟨remaining, -⟩ := stages.item index _ (List.getElem?_eq_getElem inside)
  have length := stages.length_eq
  omega

theorem stage_of_getElem?_stagesFrom {depth index : Nat} {stage : Stage} (small : depth < 64)
    (found : (stagesFrom depth 1)[index]? = some stage) :
    stage.remaining.toNat = depth - index ∧ stage.halfSpan.toNat = 2 ^ (depth - 1 - index) ∧
      stage.branches.toNat = 2 ^ index ∧ stage.frameSize = .ok (2 ^ depth) := by
  have inside : index < depth := by
    rw [← length_stagesFrom depth 1]
    exact (List.getElem?_eq_some_iff.mp found).1
  have fits : 2 ^ depth < sizeLimit := Stage.two_pow_lt_sizeLimit small
  have spans : stage.Spans (2 ^ depth) := by
    have whole := spans_of_mem_stagesFrom ((Nat.one_mul _).symm ▸ fits) Nat.one_pos stage
      (List.mem_of_getElem? found)
    rwa [Nat.one_mul] at whole
  rw [getElem?_stagesFrom inside, Nat.mul_one] at found
  obtain rfl := Option.some.inj found
  have shallow : depth - 1 - index < 64 := by omega
  refine ⟨?_, Stage.toNat_halfSpan_level shallow _, ?_, spans.frameSize_eq fits⟩
  · rw [Stage.toNat_remaining_level shallow]
    omega
  · exact Stage.toNat_branches_level _ (Stage.two_pow_lt_sizeLimit (Nat.lt_trans inside small))

theorem stagesOfFrame_stagesFrom {depth : Nat} (small : depth < 64) :
    StagesOfFrame depth (stagesFrom depth 1) := by
  constructor
  case length_eq => exact length_stagesFrom depth 1
  case item =>
    intro index stage found
    exact stage_of_getElem?_stagesFrom small found
  case finest =>
    intro stage last
    rw [List.getLast?_eq_getElem?, length_stagesFrom] at last
    obtain ⟨-, half, -⟩ := stage_of_getElem?_stagesFrom small last
    apply UInt64.toNat_inj.mp
    rw [half, Nat.sub_self]
    rfl

theorem exists_start {frameSize : UInt32} {depth : Nat} (shape : frameSize.toNat = 2 ^ depth) :
    ∃ start, StageCursor.ofFrameSize frameSize = .ok start ∧
      start.toList = stagesFrom depth 1 := by
  have stages := stagesOf_of_two_pow shape
  rw [stagesOf] at stages
  cases begun : StageCursor.ofFrameSize frameSize with
  | error fault =>
      rw [begun] at stages
      cases stages
  | ok start =>
      rw [begun] at stages
      exact ⟨start, rfl, Except.ok.inj stages⟩

/-- A frame of `2 ^ depth` symbols has a cursor over its `depth` stages, from one branch that is the
whole frame to branches of two symbols, each of them a stage of the same frame size. In any sequence
of moves, questions, copies and returns to a copy, the cursor answers as a position in the written
out list of stages does. At every point its length, its bounds and its count are the number of items
that further calls yield before they yield nothing, the last item is the finest stage unless nothing
is left, skipping items leads to the item behind them, and a cursor that has yielded nothing stays
as it is. -/
theorem cursor_is_exact {frameSize : UInt32} {depth : Nat} (shape : frameSize.toNat = 2 ^ depth) :
    StagesOfFrame depth (stagesFrom depth 1) ∧
      ∃ start, StageCursor.ofFrameSize frameSize = .ok start ∧
        ∀ uses : List CursorUse,
          ((CursorSession.begin start).run .stages uses).1 =
              ((CursorSession.begin 0).run (.positions (stagesFrom depth 1)) uses).1 ∧
            StageCursor.Exact (stagesFrom depth 1)
              ((CursorSession.begin start).run .stages uses).2.current
              ((CursorSession.begin 0).run (.positions (stagesFrom depth 1)) uses).2.current := by
  have small : depth < 64 := Nat.lt_trans (depth_lt_of_toNat_eq shape) (by decide)
  have stages := stagesOfFrame_stagesFrom small
  obtain ⟨start, begun, ahead⟩ := exists_start shape
  have stands : StageCursor.Stands (stagesFrom depth 1) start 0 := ⟨Nat.zero_le _, ahead⟩
  refine ⟨stages, start, begun, ?_⟩
  intro uses
  obtain ⟨answers, same⟩ :=
    (StageCursor.simulates stages.counted).run (CursorSession.matches_begin stands) uses
  exact ⟨answers, same.current.exact stages.counted⟩

/-- A frame of eight symbols: past the end, and back to a copy of the second position. -/
theorem cursor_is_exact_eight :
    (8 : UInt32).toNat = 2 ^ 3 ∧
      ∃ start, StageCursor.ofFrameSize 8 = .ok start ∧
        ((CursorSession.begin start).run .stages
            [.next, .save 4, .nth 1, .next, .length, .restore 4, .sizeHint, .last, .count, .nth 0,
              .length, .nth 1, .count, .restore 0, .count]).1 =
          [.item (some ⟨3, 4, 1⟩), .done, .item (some ⟨1, 1, 4⟩), .item none, .number 0, .done,
            .bounds (2, some 2), .item (some ⟨1, 1, 4⟩), .number 2, .item (some ⟨2, 2, 2⟩),
            .number 1, .item none, .number 0, .done, .number 3] := by
  obtain ⟨-, start, begun, walks⟩ := cursor_is_exact (by rfl : (8 : UInt32).toNat = 2 ^ 3)
  refine ⟨rfl, start, begun, ?_⟩
  rw [(walks _).1]
  rfl

end PolarCoding
