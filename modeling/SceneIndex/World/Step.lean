import SceneIndex.World.Basic

/-!
# Steps of a world

What can be done to a world, one step at a time, and what each step answers.
A step on a scene that is not there only says so; dropping such a scene
answers that there was none to drop.

## Main definitions

* `World.Step`: Something done to a world.
* `World.Answer`: What a step answers.
* `World.Reply`: The answer, the events for the log and the world afterwards.
* `World.step`: Does a step.
* `World.run`: Does steps in turn.
-/

namespace SceneIndex

namespace World

/-- Where a new scene takes its configuration from. -/
inductive Source where
  | defaults
  | given (config : Config)
  | file (name : String) (entry : Config.Entry)

/-- Something done to one scene. -/
inductive SceneStep where
  /-- Lets go of the scene. -/
  | drop
  /-- Gives out ids. -/
  | allocate (count : Nat)
  /-- Takes a batch of changes into the queue. -/
  | enqueue (changes : List Change)
  /-- Applies all batches that wait. -/
  | process
  /-- Asks for the key in the slot of an id. -/
  | key (id : ItemId)
  /-- Asks how far an item has come. -/
  | lifecycle (id : ItemId)
  /-- Asks for the ids in a bucket. -/
  | members (filter : Filter)
  /-- Asks whether a bucket holds an id. -/
  | contains (filter : Filter) (id : ItemId)
  /-- Adds a bucket. -/
  | allocateBucket (filter : Filter)
  /-- Asks for all there is to see. -/
  | survey
  /-- Attaches an observer. -/
  | register (observer : String)
  /-- Detaches an observer. -/
  | unregister (observer : String)
  /-- Tells an observer to follow the scene, past the scene itself. -/
  | bind (observer : String)
  /-- Tells an observer to leave the scene, past the scene itself. -/
  | unbind (observer : String)

/-- Something done to a world. -/
inductive Step where
  /-- Creates a scene. -/
  | create (source : Source)
  /-- Gives a shared payload a key. -/
  | definePayload (name : String) (key : Key)
  /-- Creates an observer. -/
  | addObserver (name : String) (kind : Observer.Kind)
  /-- Asks what an observer follows and noted. -/
  | observed (name : String)
  /-- Does something to the scene of a number. -/
  | onScene (scene : Nat) (step : SceneStep)

/-- What a step answers. -/
inductive Answer where
  | done
  | noScene
  | noObserver
  | created (scene : Scene)
  | refused (error : Config.Error)
  | truth (value : Bool)
  | count (value : Nat)
  | ids (ids : List ItemId)
  | applied (summary : Applied)
  | failed (fault : Fault)
  | key (key : Option Key)
  | lifecycle (state : Lifecycle)
  | members (ids : Option IdSet)
  | survey (scene : Scene)
  | observed (scene : Option Nat) (observer : Observer)

/-- The answer to a step, the events for the log and the world afterwards. -/
structure Reply where
  answer : Answer
  events : List Event := []
  world : World

/-- The configuration that a source gives. -/
def Source.config (lib : Config.Library) : Source → Except Config.Error Config
  | defaults => .ok {}
  | given config => .ok config
  | file name entry => Config.load lib name entry

/-- Creates a scene, provided that there is a configuration, it is valid and the
    machine has the slots. -/
def create (w : World) (source : Source) : Reply :=
  match source.config w.library with
  | .error e => { answer := .refused e, world := w }
  | .ok config =>
    match Scene.create w.machine config with
    | .error (.invalid e) => { answer := .refused e, world := w }
    | .error (.failed fault) => { answer := .failed fault, world := w }
    | .ok s => { answer := .created s, events := [s.creation], world := w.addScene s }

/-- Does something with the number of the observer that holds a name. -/
def withObserver (w : World) (name : String) (act : Nat → Reply) : Reply :=
  match w.observerOf? name with
  | some h => act h
  | none => { answer := .noObserver, world := w }

/-- Does something to the scene `s`, which has the number `n`. -/
def onScene (w : World) (n : Nat) (s : Scene) : SceneStep → Reply
  | .drop => { answer := .truth true, world := w.dropScene n }
  | .allocate count =>
    match s.allocateMany count with
    | (.ok ids, s) => { answer := .ids ids, world := w.setScene n s }
    | (.error fault, s) => { answer := .failed fault, world := w.setScene n s }
  | .enqueue changes =>
    let s := s.enqueue (Batch.empty.recordAll changes)
    { answer := .count s.pendingCount, world := w.setScene n s }
  | .process =>
    match s.process w.keys with
    | (s, events, .ok summary) =>
      { answer := .applied summary, events := events, world := w.setScene n s }
    | (s, events, .error fault) =>
      { answer := .failed fault, events := events, world := w.setScene n s }
  | .key id => { answer := .key (s.keyOf id), world := w }
  | .lifecycle id => { answer := .lifecycle (s.lifecycle id), world := w }
  | .members f => { answer := .members (s.members f), world := w }
  | .contains f id => { answer := .truth (s.storage.buckets.contains f id), world := w }
  | .allocateBucket f =>
    let (added, events, s) := s.allocateBucket f
    { answer := .truth added, events := events, world := w.setScene n s }
  | .survey => { answer := .survey s, world := w }
  | .register name => w.withObserver name fun h =>
    let (accepted, events, w) := w.register h n
    { answer := .truth accepted, events := events, world := w }
  | .unregister name => w.withObserver name fun h =>
    let (accepted, events, w) := w.unregister h n
    { answer := .truth accepted, events := events, world := w }
  | .bind name => w.withObserver name fun h =>
    let (accepted, w) := w.bind h n
    { answer := .truth accepted, world := w }
  | .unbind name => w.withObserver name fun h =>
    let (accepted, w) := w.unbind h n
    { answer := .truth accepted, world := w }

/-- Does a step. -/
def step (w : World) : Step → Reply
  | .create source => w.create source
  | .definePayload name key =>
    { answer := .done, world := { w with keys := w.keys.define name key } }
  | .addObserver name kind => { answer := .done, world := w.addObserver name kind }
  | .observed name => w.withObserver name fun h =>
    match w.observers[h]? with
    | some o => { answer := .observed (w.observed o) o, world := w }
    | none => { answer := .noObserver, world := w }
  | .onScene n sceneStep =>
    match w.scene? n, sceneStep with
    | some s, _ => w.onScene n s sceneStep
    | none, .drop => { answer := .truth false, world := w }
    | none, _ => { answer := .noScene, world := w }

/-- Does steps in turn. -/
def run (w : World) : List Step → List (Answer × List Event)
  | [] => []
  | first :: rest =>
    let reply := w.step first
    (reply.answer, reply.events) :: run reply.world rest

end World

end SceneIndex
