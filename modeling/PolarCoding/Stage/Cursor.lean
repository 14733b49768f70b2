import PolarCoding.Stage.Basic

/-!
# Walking through the stages of a frame

A cursor holds the stage that it yields next, or nothing once all stages are used. Skipping,
counting and looking at the last item are all described by the list of items still to come.
-/

namespace PolarCoding

structure StageCursor where
  /-- The stage to yield next. -/
  pending : Option Stage
  deriving DecidableEq

namespace StageCursor

/-- A cursor before the first stage. A frame of one symbol has no stages. -/
def ofFrameSize (frameSize : UInt32) : Except Fault StageCursor := do
  let first ← Stage.first frameSize
  pure ⟨if 0 < first.remaining then some first else none⟩

def next (cursor : StageCursor) : Option Stage × StageCursor :=
  match cursor.pending with
  | none => (none, cursor)
  | some stage => (some stage, ⟨stage.next⟩)

/-- Drop `skipped` items and yield the one after them. An exhausted cursor ends the walk. -/
def nth : (skipped : Nat) → StageCursor → Option Stage × StageCursor
  | 0, cursor => cursor.next
  | skipped + 1, cursor =>
      match cursor.next with
      | (none, rest) => (none, rest)
      | (some _, rest) => nth skipped rest

def toList (cursor : StageCursor) : List Stage :=
  match cursor.pending with
  | none => []
  | some stage => stage.chain

def count (cursor : StageCursor) : Nat := cursor.toList.length

def last (cursor : StageCursor) : Option Stage := cursor.toList.getLast?

/-- The number of items still to come, read from the pending stage. -/
def length (cursor : StageCursor) : Nat :=
  match cursor.pending with
  | none => 0
  | some stage => stage.remaining.toNat

def sizeHint (cursor : StageCursor) : Nat × Option Nat := (cursor.length, some cursor.length)

/-- The items to come are the next one and those behind it. -/
theorem toList_eq (cursor : StageCursor) :
    cursor.toList =
      match cursor.next with
      | (none, _) => []
      | (some stage, rest) => stage :: rest.toList := by
  obtain ⟨pending⟩ := cursor
  cases pending with
  | none => rfl
  | some stage =>
      simp only [toList, next]
      exact Stage.chain_eq stage

end StageCursor

def stagesOf (frameSize : UInt32) : Except Fault (List Stage) := do
  let cursor ← StageCursor.ofFrameSize frameSize
  pure cursor.toList

end PolarCoding
