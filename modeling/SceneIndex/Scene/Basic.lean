import SceneIndex.Config.Basic
import SceneIndex.Machine
import SceneIndex.Scene.Storage

/-!
# Scenes

A scene gives out item ids, takes batches of changes into a queue, and applies
the whole queue at once when it is told to. Storage and buckets change at no
other time, except that a bucket may be added. Ids are given out in ascending
order and never again.

## Main definitions

* `Scene`: The configuration, the next id, the queue, the storage and the
  attached observers.
* `Scene.create`: A scene for a configuration.
* `Scene.allocate`: Gives out an id.
* `Scene.enqueue`, `Scene.process`: Takes a batch, applies all that wait.
* `Scene.allocateBucket`: Adds a bucket and fills it.
* `Scene.keyOf`, `Scene.lifecycle`, `Scene.members`: What may be asked.
-/

namespace SceneIndex

/-- A retained index of items. Observers are known by their numbers. -/
structure Scene where
  /-- The machine that the scene is on. -/
  machine : Machine
  config : Config
  /-- The number of the next id to be given out. -/
  next : UInt32
  /-- The batches not yet applied, oldest first. -/
  queue : List Batch
  storage : Storage
  /-- The attached observers, in the order of attachment. -/
  observers : List Nat
  deriving DecidableEq

/-- What one apply phase did. -/
structure Applied where
  batches : Nat := 0
  resets : Nat := 0
  removals : Nat := 0
  moves : Nat := 0
  /-- The new number of slots, if the storage grew. -/
  grownTo : Option Nat := none
  deriving DecidableEq, Repr

namespace Applied

/-- Whether there was nothing to apply. -/
def isEmpty (a : Applied) : Bool := a.resets == 0 && a.removals == 0 && a.moves == 0

/-- The debug text of the summary. -/
def outline (a : Applied) : Text.Outline :=
  .record "AppliedChanges"
    [("batches", .leaf (Text.Numeral.decimal a.batches)),
     ("resets", .leaf (Text.Numeral.decimal a.resets)),
     ("removals", .leaf (Text.Numeral.decimal a.removals)),
     ("moves", .leaf (Text.Numeral.decimal a.moves)),
     ("grown_to", .ofOption (a.grownTo.map Text.Numeral.decimal))]
    false

end Applied

/-- Why a scene gave up on what it was told to do. -/
inductive Fault where
  /-- A change named an id that was never given out. -/
  | unissued (cause : UnissuedId)
  /-- All ids were given out. -/
  | exhausted (next : UInt32)
  /-- The machine gave up on a sum. -/
  | overflow
  /-- More slots were asked for than there can be. -/
  | capacity
  deriving DecidableEq, Repr

namespace Fault

/-- The message for a fault. -/
def message : Fault → String
  | unissued cause => cause.message
  | exhausted next =>
    "item id space exhausted (next id " ++ Text.Numeral.decimal next.toNat ++ ")"
  | overflow => "attempt to add with overflow"
  | capacity => "capacity overflow"

end Fault

/-- Why there is no scene for a configuration. -/
inductive Refusal where
  /-- The configuration is not valid. -/
  | invalid (cause : Config.Error)
  /-- The machine gave up. -/
  | failed (fault : Fault)
  deriving DecidableEq

namespace Scene

/-- The scene of a configuration: all slots pristine, all buckets empty, and
    at least the reserved slot. -/
def build (machine : Machine) (config : Config) : Scene where
  machine := machine
  config := config
  next := 1
  queue := []
  storage :=
    { slots := Array.replicate (max config.initialCapacity.toNat 1) Item.pristine
      buckets := Buckets.standard.allocateAll config.extraBuckets }
  observers := []

/-- What the log is told about a new scene. -/
def creation (s : Scene) : Event := .created s.storage.capacity s.storage.buckets.size

/-- The scene of a configuration, provided that the configuration is valid and
    the machine has the slots. -/
def create (machine : Machine) (config : Config) : Except Refusal Scene :=
  match config.validate with
  | .ok () =>
    if machine.maxSlots < config.initialCapacity.toNat then .error (.failed .capacity)
    else .ok (build machine config)
  | .error e => .error (.invalid e)

/-- The number of slots, the reserved one included. -/
def capacity (s : Scene) : Nat := s.storage.capacity

/-- The number of ids given out. -/
def allocatedCount (s : Scene) : Nat := s.next.toNat - 1

/-- Gives out the next id. The last number is never given out, so that the
    next number never returns to the reserved one. -/
def allocate (s : Scene) : Except Fault (ItemId × Scene) :=
  if s.next = 0xffffffff then .error (.exhausted s.next)
  else .ok (⟨s.next⟩, { s with next := s.next + 1 })

/-- Gives out several ids; those given out before a fault stay given out. -/
def allocateMany : Nat → Scene → Except Fault (List ItemId) × Scene
  | 0, s => (.ok [], s)
  | n + 1, s =>
    match s.allocate with
    | .error fault => (.error fault, s)
    | .ok (id, s) =>
      match allocateMany n s with
      | (.ok ids, s) => (.ok (id :: ids), s)
      | (.error fault, s) => (.error fault, s)

/-- Takes a batch into the queue. -/
def enqueue (s : Scene) (b : Batch) : Scene := { s with queue := s.queue ++ [b] }

/-- The number of batches not yet applied. -/
def pendingCount (s : Scene) : Nat := s.queue.length

/-- The number of slots that there are to be before changes are applied, if the
    next id lies beyond the last slot: one for every number up to the next id,
    and the spare ones. The sum is the machine's, and so is the limit. -/
def growth (s : Scene) : Except Fault (Option Nat) :=
  if s.capacity < s.next.toNat then
    match s.machine.add? s.next.toUInt64 s.config.growthSlack with
    | none => .error .overflow
    | some slots =>
      if s.machine.maxSlots < slots.toNat then .error .capacity else .ok (some slots.toNat)
  else .ok none

/-- The storage with the slots that there are to be. -/
def grownStorage (s : Scene) : Storage :=
  match s.growth with
  | .ok (some capacity) => s.storage.resize capacity
  | _ => s.storage

/-- Applies all batches of the queue as one: all resets, then all removals,
    then all moves. The queue is empty afterwards, whether the phase completed,
    a bad id stopped it, or the slots could not be had and it applied nothing. -/
def process (keys : PayloadKeys) (s : Scene) :
    Scene × List Event × Except Fault Applied :=
  let batch := Batch.empty.extend s.queue
  match s.growth with
  | .error fault => ({ s with queue := [] }, [], .error fault)
  | .ok grownTo =>
    let summary : Applied :=
      { batches := s.queue.length
        resets := batch.resets.length
        removals := batch.removals.length
        moves := batch.moves.length
        grownTo := grownTo }
    let growth := match grownTo with
      | some capacity => [Event.grown capacity s.next]
      | none => []
    let (storage, events, stopped) := s.grownStorage.applyAll keys s.next batch.changes
    let s := { s with queue := [], storage := storage }
    match stopped with
    | some cause => (s, growth ++ events, .error (.unissued cause))
    | none =>
      let closing :=
        if summary.isEmpty then []
        else [Event.applied summary.batches summary.resets summary.removals summary.moves]
      (s, growth ++ events ++ closing, .ok summary)

/-- The key that the slot of an id holds, if the id has a slot. -/
def keyOf (s : Scene) (id : ItemId) : Option Key :=
  if id.isValid then s.storage.slots[id.index]?.map Item.key else none

/-- How far the item of an id has come. -/
def lifecycle (s : Scene) (id : ItemId) : Lifecycle :=
  if !id.isValid || decide (s.next ≤ id.number) then .unallocated
  else if (s.storage.item id).isLive then .live
  else if (s.storage.item id).killed then .killed
  else .allocated

/-- The ids in the bucket of a filter, if it has one. -/
def members (s : Scene) (f : Filter) : Option IdSet := s.storage.buckets.get? f

/-- Adds a bucket and files the live items in it; nothing happens if the
    filter has a bucket. -/
def allocateBucket (s : Scene) (f : Filter) : Bool × List Event × Scene :=
  if s.storage.buckets.has f then (false, [], s)
  else
    let (storage, filled) := s.storage.fillBucket f
    (true, [.bucketAllocated f filled], { s with storage := storage })

end Scene

end SceneIndex
