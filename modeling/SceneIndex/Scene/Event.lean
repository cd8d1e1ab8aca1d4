import SceneIndex.Filter
import SceneIndex.Item.Id

/-!
# Events worth a log line

What happens in a scene and is told to the log. Every event has a level and
one line of text.

## Main definitions

* `Event`: What is told to the log.
* `Event.line`: Its level and its text.
-/

namespace SceneIndex

/-- How much attention a log line asks for. -/
inductive Level where
  | trace
  | debug
  | info
  | warn
  deriving DecidableEq, Repr

/-- The level as it stands in front of a log line. -/
def Level.label : Level → String
  | trace => "TRACE"
  | debug => "DEBUG"
  | info => "INFO"
  | warn => "WARN"

/-- What is told to the log. -/
inductive Event where
  /-- A scene was created. -/
  | created (slots buckets : Nat)
  /-- The storage of items grew. -/
  | grown (slots : Nat) (next : UInt32)
  /-- An item without payload was cleared. -/
  | idleReset (id : ItemId)
  /-- An item without payload was removed. -/
  | idleRemoval (id : ItemId)
  /-- Changes were applied. -/
  | applied (batches resets removals moves : Nat)
  /-- A bucket was added and filled. -/
  | bucketAllocated (filter : Filter) (filled : Nat)
  /-- An observer could not be attached. -/
  | attachRejected
  /-- An observer was attached. -/
  | attached (total : Nat)
  /-- An observer was detached. -/
  | detached (remaining : Nat)
  deriving DecidableEq

namespace Event

open Text

/-- The level of an event. -/
def level : Event → Level
  | created .. | grown .. | applied .. | bucketAllocated .. => .debug
  | idleReset .. | idleRemoval .. => .trace
  | attachRejected => .warn
  | attached .. | detached .. => .info

/-- The text of an event. -/
def message : Event → String
  | created slots buckets =>
    "Scene created with " ++ Numeral.decimal slots ++ " item slots and "
      ++ Numeral.decimal buckets ++ " buckets"
  | grown slots next =>
    "Item storage grown to " ++ Numeral.decimal slots ++ " slots (next id "
      ++ Numeral.decimal next.toNat ++ ")"
  | idleReset id => "Reset of item " ++ id.text ++ " to an empty payload while not live"
  | idleRemoval id => "Removal of item " ++ id.text ++ " which is not live"
  | applied batches resets removals moves =>
    "Applied " ++ Numeral.decimal batches ++ " batches: " ++ Numeral.decimal resets
      ++ " resets, " ++ Numeral.decimal removals ++ " removals, " ++ Numeral.decimal moves
      ++ " moves"
  | bucketAllocated filter filled =>
    "Bucket " ++ filter.outline.inline ++ " allocated with " ++ Numeral.decimal filled
      ++ " items"
  | attachRejected => "Observer registration rejected: already attached to a scene"
  | attached total => "Observer attached (" ++ Numeral.decimal total ++ " total)"
  | detached remaining => "Observer detached (" ++ Numeral.decimal remaining ++ " remaining)"

/-- The log line of an event. -/
def line (e : Event) : String := e.level.label ++ " " ++ e.message

end Event

end SceneIndex
