import SceneIndex.Item.Payload

/-!
# Items

An item holds a payload or not, the key its payload had when it was put in,
and whether the item was killed since. The key is a copy: when the payload
later has another key, the item keeps the old one until it is reset.

## Main definitions

* `Item`: A slot of the index.
* `Item.reset`: The item with another payload, or killed for want of one.
* `Item.kill`: The item without payload.
* `Item.Change`: The three changes that an item goes through.
* `Lifecycle`: How far an item has come.
-/

namespace SceneIndex

/-- A slot of the index: a payload, the key it had when it was put in, and
    whether the item was killed since. -/
structure Item where
  payload : Option Payload := none
  key : Key := Key.empty
  killed : Bool := false
  deriving DecidableEq, Repr

/-- How far an item has come: its id was never given out, it was given out
    but nothing was ever put in, it shows a payload, or it lost its payload. -/
inductive Lifecycle where
  | unallocated
  | allocated
  | live
  | killed
  deriving DecidableEq, Repr

namespace Item

/-- An item in which nothing was ever put. -/
def pristine : Item := {}

instance : Inhabited Item := ⟨pristine⟩

/-- Whether the item holds a payload. -/
def isLive (item : Item) : Bool := item.payload.isSome

/-- The item without payload. -/
def kill (_ : Item) : Item := { payload := none, key := Key.empty, killed := true }

/-- The item with a payload, whose key is asked for now; resetting to no
    payload kills the item. -/
def reset (keys : PayloadKeys) (item : Item) : Option Payload → Item
  | some payload => { payload := some payload, key := payload.key keys, killed := false }
  | none => item.kill

/-- A change to one item. Moving an item changes nothing that the index
    knows. -/
inductive Change where
  | reset (payload : Option Payload)
  | kill
  | move
  deriving DecidableEq, Repr

/-- The item after a change. -/
def apply (keys : PayloadKeys) (item : Item) : Change → Item
  | .reset payload => item.reset keys payload
  | .kill => item.kill
  | .move => item

/-- The debug text of an item, which does not show the payload. -/
def outline (item : Item) : Text.Outline :=
  .record "Item"
    [("live", .ofBool item.isLive), ("key", item.key.outline), ("killed", .ofBool item.killed)]
    false

end Item

end SceneIndex
