import SceneIndex.Key

/-!
# Payloads

What an item shows is its payload. To the index a payload is only something
that has a key. A shared payload has a name, and its key may change while
items hold it; a payload of its own has one key for good.

## Main definitions

* `Payload`: A shared payload, or one of its own.
* `PayloadKeys`: The key that each shared payload has at the moment.
* `Payload.key`: The key of a payload at the moment.
-/

namespace SceneIndex

/-- What an item shows, as far as the index knows it. -/
inductive Payload where
  | shared (name : String)
  | own (key : Key)
  deriving DecidableEq, Repr

/-- The key that each shared payload has at the moment, by name. -/
def PayloadKeys : Type := String → Key

namespace PayloadKeys

/-- All shared payloads have the empty key. -/
def initial : PayloadKeys := fun _ => Key.empty

instance : Inhabited PayloadKeys := ⟨initial⟩

/-- Gives the shared payload of a name another key. -/
def define (keys : PayloadKeys) (name : String) (key : Key) : PayloadKeys :=
  fun other => if other = name then key else keys other

end PayloadKeys

namespace Payload

/-- The key of the payload at the moment. -/
def key (keys : PayloadKeys) : Payload → Key
  | shared name => keys name
  | own k => k

end Payload

end SceneIndex
