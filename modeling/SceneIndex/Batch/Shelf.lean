import SceneIndex.Batch.Columns
import SceneIndex.Shelf

/-!
# Batches at work

Several batches under construction, each under a name, and the operations by
which they are filled and joined. A batch that is appended to another is
taken away and is empty afterwards.

What the batches are kept as does not matter for any of this. So the
operations are stated for everything that can record and join.

## Main definitions

* `Recording`: What a kind of batch has to offer.
* `Batch.Step`: An operation on named batches.
* `Batch.Step.run`: The batches after an operation.
* `Batch.Step.runAll`: The batches after operations in turn.
-/

namespace SceneIndex

/-- What a kind of batch has to offer. -/
class Recording (β : Type) where
  empty : β
  record : β → Change → β
  merge : β → β → β
  append : β → β → β
  extend : β → List β → β
  clear : β → β

instance : Recording Columns where
  empty := Columns.empty
  record := Columns.record
  merge := Columns.merge
  append := Columns.append
  extend := Columns.extend
  clear := Columns.clear

instance : Recording Batch where
  empty := Batch.empty
  record := Batch.record
  merge := Batch.merge
  append := Batch.append
  extend := Batch.extend
  clear _ := Batch.empty

namespace Batch

/-- An operation on named batches. The first name is always that of the batch
    worked on. -/
inductive Step where
  /-- Records changes. -/
  | record (name : String) (changes : List Change)
  /-- Adds a copy of the changes of another batch, or of the batch itself. -/
  | merge (name other : String)
  /-- Takes another batch away and appends it. -/
  | append (name other : String)
  /-- Takes other batches away in turn and appends each. -/
  | extend (name : String) (others : List String)
  /-- Drops all changes. -/
  | clear (name : String)
  /-- Makes a copy under another name. -/
  | copy (name target : String)
  deriving Repr

variable {β : Type} [Recording β]

/-- Takes the batch `other` away for the batch `name`: what was taken, and the
    batches that are left. From the batch itself there is nothing to take. -/
def take (shelf : Shelf String β) (name other : String) : β × Shelf String β :=
  if other = name then (Recording.empty, shelf)
  else (shelf.get other, shelf.put other Recording.empty)

/-- Takes batches away in turn. -/
def takeAll (shelf : Shelf String β) (name : String) : List String → List β × Shelf String β
  | [] => ([], shelf)
  | other :: rest =>
    let (first, left) := take shelf name other
    let (others, left) := takeAll left name rest
    (first :: others, left)

namespace Step

/-- The batches after an operation. -/
def run (shelf : Shelf String β) : Step → Shelf String β
  | record name changes =>
    shelf.put name (changes.foldl Recording.record (shelf.get name))
  | merge name other => shelf.put name (Recording.merge (shelf.get name) (shelf.get other))
  | append name other =>
    let (taken, left) := take shelf name other
    left.put name (Recording.append (left.get name) taken)
  | extend name others =>
    let (taken, left) := takeAll shelf name others
    left.put name (Recording.extend (left.get name) taken)
  | clear name => shelf.put name (Recording.clear (shelf.get name))
  | copy name target => shelf.put target (shelf.get name)

/-- The batches after operations in turn. -/
def runAll (shelf : Shelf String β) (steps : List Step) : Shelf String β :=
  steps.foldl run shelf

end Step

end Batch

end SceneIndex
