import SceneIndex.Item.Basic
import SceneIndex.Buckets.Basic
import SceneIndex.Batch.Basic
import SceneIndex.Scene.Event

/-!
# Storage: items and their buckets

The storage of a scene has a slot for every item and the buckets in which the
ids of live items are filed. A change touches the slot of one item and, where
the item becomes or ceases to be live or its key changes, the buckets.

Changes are applied one after the other and stop at the first that names an
id never given out. What was applied before it stays applied, and the rest is
lost.

## Main definitions

* `Storage`: The slots and the buckets.
* `Storage.apply`: The storage after a change to an item.
* `Storage.applyAll`: The storage after changes in turn, up to the first bad
  id.
* `Batch.changes`: The changes of a batch in the order of application.
-/

namespace SceneIndex

namespace Change

/-- The id that a change names. -/
def id : Change → ItemId
  | reset id _ => id
  | clear id => id
  | remove id => id
  | move id => id

/-- A recorded reset as a change. -/
def ofReset : ItemId × Option Payload → Change
  | (id, some payload) => reset id payload
  | (id, none) => clear id

end Change

/-- The changes of a batch in the order of application: resets, then removals,
    then moves. -/
def Batch.changes (b : Batch) : List Change :=
  b.resets.map Change.ofReset ++ b.removals.map Change.remove ++ b.moves.map Change.move

/-- The slots of the items and the buckets of the live ones. -/
structure Storage where
  slots : Array Item
  buckets : Buckets
  deriving DecidableEq

/-- An id was named that the scene never gave out. -/
structure UnissuedId where
  id : ItemId
  /-- The next number to be given out at the time. -/
  next : UInt32
  /-- The number of slots at the time. -/
  slots : Nat
  deriving DecidableEq, Repr

namespace UnissuedId

/-- The message for an id that was never given out. -/
def message (e : UnissuedId) : String :=
  "item id " ++ e.id.text ++ " was never issued by this scene (next id "
    ++ Text.Numeral.decimal e.next.toNat ++ ", storage " ++ Text.Numeral.decimal e.slots ++ ")"

end UnissuedId

namespace Storage

/-- The number of slots. -/
def capacity (st : Storage) : Nat := st.slots.size

/-- The item in the slot of an id; beyond the last slot nothing was ever put. -/
def item (st : Storage) (id : ItemId) : Item := st.slots.getD id.index Item.pristine

/-- The storage with another item in the slot of an id. -/
def setItem (st : Storage) (id : ItemId) (item : Item) : Storage :=
  { st with slots := st.slots.setIfInBounds id.index item }

/-- Resets an item, to a payload or to none, and files its id by the keys
    before and after. An item that has no payload before or after is not in
    any bucket, and the log is told. -/
def resetItem (keys : PayloadKeys) (st : Storage) (id : ItemId) (payload : Option Payload) :
    Storage × List Event :=
  let old := st.item id
  let new := old.reset keys payload
  let st := st.setItem id new
  match old.isLive, new.isLive with
  | true, true => ({ st with buckets := st.buckets.rekey id old.key new.key }, [])
  | true, false => ({ st with buckets := st.buckets.erase id old.key }, [])
  | false, true => ({ st with buckets := st.buckets.insert id new.key }, [])
  | false, false => (st, [.idleReset id])

/-- Removes an item and takes its id out of the buckets. An item without
    payload is not in any bucket, and the log is told. -/
def removeItem (st : Storage) (id : ItemId) : Storage × List Event :=
  let old := st.item id
  let st := st.setItem id old.kill
  if old.isLive then ({ st with buckets := st.buckets.erase id old.key }, [])
  else (st, [.idleRemoval id])

/-- The storage after a change, and what the log is told. A move changes
    nothing that is stored. -/
def apply (keys : PayloadKeys) (st : Storage) : Change → Storage × List Event
  | .reset id payload => st.resetItem keys id (some payload)
  | .clear id => st.resetItem keys id none
  | .remove id => st.removeItem id
  | .move _ => (st, [])

/-- Whether an id was given out and has a slot. -/
def holds (st : Storage) (next : UInt32) (id : ItemId) : Bool :=
  id.isValid && decide (id.number < next) && decide (id.index < st.capacity)

/-- The storage after changes in turn, what the log is told, and the bad id at
    which the application stopped, if there was one. -/
def applyAll (keys : PayloadKeys) (next : UInt32) :
    Storage → List Change → Storage × List Event × Option UnissuedId
  | st, [] => (st, [], none)
  | st, change :: rest =>
    if st.holds next change.id then
      let (st, events) := st.apply keys change
      let (st, later, stopped) := applyAll keys next st rest
      (st, events ++ later, stopped)
    else (st, [], some ⟨change.id, next, st.capacity⟩)

/-- The storage with pristine slots added up to a number of slots. -/
def growTo (st : Storage) (capacity : Nat) : Storage :=
  { st with slots := st.slots ++ Array.replicate (capacity - st.capacity) Item.pristine }

/-- The storage with just a number of slots: pristine ones are added, or the last
    ones are let go, with what they hold. The buckets are not told. -/
def resize (st : Storage) (capacity : Nat) : Storage :=
  if capacity < st.capacity then { st with slots := st.slots.take capacity }
  else st.growTo capacity

/-- The ids of the slots after the reserved one whose items satisfy a
    condition, in ascending order. -/
def idsWhere (st : Storage) (p : Item → Bool) : List ItemId :=
  ((List.range st.capacity).drop 1).filterMap fun index =>
    let id : ItemId := ⟨UInt32.ofNat index⟩
    if p (st.slots.getD index Item.pristine) then some id else none

/-- Adds an empty bucket and files every live item that its filter accepts. -/
def fillBucket (st : Storage) (f : Filter) : Storage × Nat :=
  let ids := st.idsWhere fun item => item.isLive && f.accepts item.key
  let buckets := ids.foldl (fun b id => b.insert id (st.item id).key) (st.buckets.allocate f)
  ({ st with buckets := buckets }, ids.length)

end Storage

end SceneIndex
