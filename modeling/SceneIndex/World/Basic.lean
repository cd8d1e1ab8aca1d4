import SceneIndex.Config.File
import SceneIndex.Scene.Basic
import SceneIndex.World.Observer

/-!
# Worlds: scenes, observers and payloads

Several scenes live side by side, with the observers that follow them and the
shared payloads that their items hold. Scenes are numbered in the order of
their creation, and the number of a scene that was dropped is not used again.
Observers have numbers too, and names, of which the latest observer with the
name holds it: the one before lives on where it is attached.

## Main definitions

* `World`: The scenes, the observers and the keys of the payloads.
* `World.fresh`: The world in which there is nothing yet.
* `World.register`, `World.unregister`: Attaches an observer to a scene and
  detaches it.
* `World.bind`, `World.unbind`: Tells an observer past the scene.
-/

namespace SceneIndex

/-- Scenes, observers and payloads. -/
structure World where
  /-- The machine that all scenes are on. -/
  machine : Machine
  /-- The library that configuration files are read with. -/
  library : Config.Library
  /-- The keys of the shared payloads. -/
  keys : PayloadKeys := PayloadKeys.initial
  /-- The scenes by number; nothing is left of one that was dropped. -/
  scenes : List (Option Scene) := []
  /-- The observers by number. -/
  observers : List Observer := []
  /-- The names of observers with their numbers, the latest first. -/
  names : List (String × Nat) := []

namespace World

/-- The world in which there is nothing yet. -/
def fresh (machine : Machine) (library : Config.Library) : World where
  machine := machine
  library := library

/-- The scene of a number, unless there is none or it was dropped. -/
def scene? (w : World) (n : Nat) : Option Scene := w.scenes.getD n none

/-- Whether the scene of a number is there. -/
def isAlive (w : World) (n : Nat) : Bool := (w.scene? n).isSome

/-- The world with another scene under a number. -/
def setScene (w : World) (n : Nat) (s : Scene) : World :=
  { w with scenes := w.scenes.set n (some s) }

/-- The world with one more scene. -/
def addScene (w : World) (s : Scene) : World :=
  { w with scenes := w.scenes ++ [some s] }

/-- The world without the scene of a number. -/
def dropScene (w : World) (n : Nat) : World :=
  { w with scenes := w.scenes.set n none }

/-- The number of the observer that holds a name. -/
def observerOf? (w : World) (name : String) : Option Nat :=
  (w.names.find? fun entry => entry.1 == name).map (·.2)

/-- The world with a new observer, which takes over the name. -/
def addObserver (w : World) (name : String) (kind : Observer.Kind) : World :=
  { w with
    observers := w.observers ++ [{ kind := kind }]
    names := (name, w.observers.length) :: w.names }

/-- The world with another observer under a number. -/
def setObserver (w : World) (h : Nat) (o : Observer) : World :=
  { w with observers := w.observers.set h o }

/-- The scene that an observer follows. -/
def observed (w : World) (o : Observer) : Option Nat := o.scene w.isAlive

/-- Tells an observer to follow a scene. -/
def bind (w : World) (h n : Nat) : Bool × World :=
  match w.observers[h]?, w.scene? n with
  | some o, some s =>
    let (accepted, o) := o.onRegister w.isAlive n s.storage.buckets
    (accepted, w.setObserver h o)
  | _, _ => (false, w)

/-- Tells an observer to leave a scene. -/
def unbind (w : World) (h n : Nat) : Bool × World :=
  match w.observers[h]? with
  | some o =>
    let (accepted, o) := o.onUnregister w.isAlive n
    (accepted, w.setObserver h o)
  | none => (false, w)

/-- Attaches an observer to a scene. An observer that is attached already is
    not asked again; any other is attached if it accepts. -/
def register (w : World) (h n : Nat) : Bool × List Event × World :=
  match w.scene? n with
  | none => (false, [], w)
  | some s =>
    if s.observers.contains h then (false, [.attachRejected], w)
    else
      match w.bind h n with
      | (false, w) => (false, [.attachRejected], w)
      | (true, w) =>
        let observers := s.observers ++ [h]
        (true, [.attached observers.length], w.setScene n { s with observers := observers })

/-- Detaches an observer from a scene, if it agrees to leave. -/
def unregister (w : World) (h n : Nat) : Bool × List Event × World :=
  match w.scene? n with
  | none => (false, [], w)
  | some s =>
    match w.unbind h n with
    | (false, w) => (false, [], w)
    | (true, w) =>
      let observers := s.observers.filter (· ≠ h)
      (true, [.detached observers.length], w.setScene n { s with observers := observers })

end World

end SceneIndex
