import SceneIndex.Buckets.Basic

/-!
# Observers

An observer follows one scene at a time. It holds on to the number of the
scene it is bound to, but does not keep the scene alive: a binding to a scene
that is gone counts as none. Some observers do not behave. They refuse or
accept everything without binding themselves, or do not let go.

## Main definitions

* `Observer`: The binding of an observer, and what it counts and notes.
* `Observer.bind`, `Observer.unbind`: Binding to a scene and letting go.
* `Observer.onRegister`, `Observer.onUnregister`: What an observer answers
  when it is told to follow a scene or to leave it.
-/

namespace SceneIndex

/-- How an observer answers. -/
inductive Observer.Kind where
  /-- It binds itself and lets go. -/
  | binding
  /-- The same, and it counts how often it was told. -/
  | counting
  /-- The same, and it notes the buckets of the scene it follows. -/
  | noting
  /-- It refuses to follow any scene. -/
  | refusing
  /-- It does not leave a scene. -/
  | sticky
  /-- It accepts everything and does nothing. -/
  | accepting
  deriving DecidableEq, Repr

/-- An observer of scenes, which are known by their numbers. -/
structure Observer where
  kind : Observer.Kind
  /-- The scene it bound itself to last, unless it let go. -/
  bound : Option Nat := none
  /-- How often it was told to follow a scene. -/
  registers : Nat := 0
  /-- How often it was told to leave a scene. -/
  unregisters : Nat := 0
  /-- The buckets of the scene it last began to follow. -/
  seen : Option Buckets := none
  deriving DecidableEq

namespace Observer

/-- The scene that the observer follows, provided that it is still there. -/
def scene (alive : Nat → Bool) (o : Observer) : Option Nat := o.bound.filter alive

/-- Binds the observer to a scene, unless it is bound to one that is still
    there. -/
def bind (alive : Nat → Bool) (o : Observer) (n : Nat) : Bool × Observer :=
  match o.scene alive with
  | some _ => (false, o)
  | none => (true, { o with bound := some n })

/-- Makes the observer let go of a scene, if that is the one it follows. -/
def unbind (alive : Nat → Bool) (o : Observer) (n : Nat) : Bool × Observer :=
  if o.scene alive = some n then (true, { o with bound := none }) else (false, o)

/-- What the observer answers when told to follow a scene with given buckets,
    and what becomes of it. -/
def onRegister (alive : Nat → Bool) (o : Observer) (n : Nat) (buckets : Buckets) :
    Bool × Observer :=
  let o := { o with registers := o.registers + 1 }
  match o.kind with
  | .refusing => (false, o)
  | .accepting => (true, o)
  | .noting =>
    match o.bind alive n with
    | (true, o) => (true, { o with seen := some buckets })
    | refused => refused
  | .binding | .counting | .sticky => o.bind alive n

/-- What the observer answers when told to leave a scene, and what becomes of
    it. -/
def onUnregister (alive : Nat → Bool) (o : Observer) (n : Nat) : Bool × Observer :=
  let o := { o with unregisters := o.unregisters + 1 }
  match o.kind with
  | .sticky => (false, o)
  | .accepting => (true, o)
  | .binding | .counting | .noting | .refusing => o.unbind alive n

end Observer

end SceneIndex
