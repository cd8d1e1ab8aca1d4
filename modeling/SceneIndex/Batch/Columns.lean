import SceneIndex.Batch.Basic

/-!
# Batches in columns

How a batch is laid out while it is filled. The resets take two columns, one
for their ids and one for their payloads, and are paired when they are read.
So each operation has to treat both columns alike, and the proof that goes with
a batch says that it did: the columns are equally long.

Whether a batch is empty is decided without a look at the payloads.

## Main definitions

* `Columns`: The recorded changes, with the resets in two columns.
* `Columns.record`, `Columns.merge`, `Columns.append`, `Columns.extend`,
  `Columns.clear`: How batches are filled, joined and emptied.
* `Columns.resets`: The resets, paired.
* `Columns.toBatch`: The batch that is handed over in the end.
-/

namespace SceneIndex

/-- Recorded changes, with the ids and the payloads of the resets apart. -/
structure Columns where
  resetIds : List ItemId
  resetPayloads : List (Option Payload)
  removals : List ItemId
  moves : List ItemId
  paired : resetIds.length = resetPayloads.length
  deriving DecidableEq

namespace Columns

/-- The batch without changes. -/
def empty : Columns where
  resetIds := []
  resetPayloads := []
  removals := []
  moves := []
  paired := rfl

instance : Inhabited Columns := ⟨empty⟩

/-- The batch with one more reset, which puts in a payload or clears. -/
def pushReset (c : Columns) (id : ItemId) (payload : Option Payload) : Columns where
  resetIds := c.resetIds ++ [id]
  resetPayloads := c.resetPayloads ++ [payload]
  removals := c.removals
  moves := c.moves
  paired := by rw [List.length_append, List.length_append, c.paired]; rfl

/-- The batch with one more change, after all others of its kind. -/
def record (c : Columns) : Change → Columns
  | .reset id payload => c.pushReset id (some payload)
  | .clear id => c.pushReset id none
  | .remove id => { c with removals := c.removals ++ [id] }
  | .move id => { c with moves := c.moves ++ [id] }

/-- The changes of one batch and then those of another. -/
def merge (a b : Columns) : Columns where
  resetIds := a.resetIds ++ b.resetIds
  resetPayloads := a.resetPayloads ++ b.resetPayloads
  removals := a.removals ++ b.removals
  moves := a.moves ++ b.moves
  paired := by rw [List.length_append, List.length_append, a.paired, b.paired]

/-- The number of recorded changes. -/
def size (c : Columns) : Nat := c.resetIds.length + c.removals.length + c.moves.length

/-- Whether nothing is recorded. -/
def isEmpty (c : Columns) : Bool := c.size == 0

/-- The changes of one batch and then those of another, which is used up; an
    empty batch just becomes the other. -/
def append (a b : Columns) : Columns :=
  if a.isEmpty then b else a.merge b

/-- The changes of a batch and then those of the listed ones in turn. -/
def extend (a : Columns) (others : List Columns) : Columns :=
  others.foldl append a

/-- Drops all changes. -/
def clear (_ : Columns) : Columns := empty

/-- The resets, each id with the payload in the same place. -/
def resets (c : Columns) : List (ItemId × Option Payload) := c.resetIds.zip c.resetPayloads

/-- The batch that is handed over for application. -/
def toBatch (c : Columns) : Batch where
  resets := c.resets
  removals := c.removals
  moves := c.moves

/-- The debug text of a batch: the ids, but not the payloads. -/
def outline (c : Columns) : Text.Outline :=
  .record "PendingChanges"
    [("reset_items", .list (c.resetIds.map ItemId.outline)),
     ("removed_items", .list (c.removals.map ItemId.outline)),
     ("moved_items", .list (c.moves.map ItemId.outline))]
    true

end Columns

end SceneIndex
