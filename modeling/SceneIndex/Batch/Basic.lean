import SceneIndex.Item.Id
import SceneIndex.Item.Payload

/-!
# Batches of changes

Changes to items are recorded in batches and applied later. A batch keeps
three lists, each in the order of recording: resets, with the payload or
without, removals and moves. The order between the lists is not kept.
Nothing is checked when a change is recorded.

## Main definitions

* `Change`: A change to the item of an id.
* `Batch`: The recorded changes, by kind.
* `Batch.record`: The batch with one more change.
* `Batch.merge`: The changes of one batch and then those of another.
* `Batch.append`: The same, where an empty batch is replaced as a whole.
-/

namespace SceneIndex

/-- A change to the item of an id: another payload, no payload, removal, or a
    move. -/
inductive Change where
  | reset (id : ItemId) (payload : Payload)
  | clear (id : ItemId)
  | remove (id : ItemId)
  | move (id : ItemId)
  deriving DecidableEq, Repr

/-- Recorded changes, in the order of recording within each kind. A reset
    without payload clears the item. -/
structure Batch where
  resets : List (ItemId × Option Payload) := []
  removals : List ItemId := []
  moves : List ItemId := []
  deriving DecidableEq, Repr

namespace Batch

/-- The batch without changes. -/
def empty : Batch := {}

instance : Inhabited Batch := ⟨empty⟩

/-- The number of recorded changes. -/
def size (b : Batch) : Nat := b.resets.length + b.removals.length + b.moves.length

/-- Whether nothing is recorded. -/
def isEmpty (b : Batch) : Bool := b.size == 0

/-- The batch with one more change, after all others of its kind. -/
def record (b : Batch) : Change → Batch
  | .reset id payload => { b with resets := b.resets ++ [(id, some payload)] }
  | .clear id => { b with resets := b.resets ++ [(id, none)] }
  | .remove id => { b with removals := b.removals ++ [id] }
  | .move id => { b with moves := b.moves ++ [id] }

/-- The batch with more changes, in their order. -/
def recordAll (b : Batch) (changes : List Change) : Batch :=
  changes.foldl record b

/-- The changes of one batch and then those of another. -/
def merge (a b : Batch) : Batch where
  resets := a.resets ++ b.resets
  removals := a.removals ++ b.removals
  moves := a.moves ++ b.moves

/-- The changes of one batch and then those of another, which is used up; an
    empty batch just becomes the other. -/
def append (a b : Batch) : Batch :=
  if a.isEmpty then b else a.merge b

/-- The changes of a batch and then those of the listed ones in turn. -/
def extend (a : Batch) (others : List Batch) : Batch :=
  others.foldl append a

/-- The debug text of a batch: the ids, but not the payloads. -/
def outline (b : Batch) : Text.Outline :=
  .record "PendingChanges"
    [("reset_items", .list (b.resets.map fun entry => entry.1.outline)),
     ("removed_items", .list (b.removals.map ItemId.outline)),
     ("moved_items", .list (b.moves.map ItemId.outline))]
    true

end Batch

end SceneIndex
