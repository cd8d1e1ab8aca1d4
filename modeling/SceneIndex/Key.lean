import SceneIndex.Flags.Text

/-!
# Keys

The key of an item is the set of flags by which it is sorted into buckets.
The zero key belongs to an item that shows nothing.

## Main definitions

* `Key`: The flags of an item.
* `Key.Trait`: What a key may be given.
* `Key.ofTraits`: The key that is given the listed traits, one after the other.
* `Key.isShape` and so on: What a key says of its item.
-/

namespace SceneIndex

/-- The flags by which an item is sorted into buckets. -/
structure Key where
  flags : Flags
  deriving DecidableEq, Repr

namespace Key

/-- The key without any flag. -/
def empty : Key := ⟨Flags.empty⟩

instance : Inhabited Key := ⟨empty⟩

/-- What a key may be given when it is built. There is a word for each flag and
    none for its absence, so that nothing is ever taken back. -/
inductive Trait where
  | shape
  | light
  | background
  | seeThrough
  | viewSpace
  | dynamic
  | deformed
  | invisible
  | shadowCaster
  | pickable
  | layered
  deriving DecidableEq, Repr

/-- The flag that stands for a trait. -/
def Trait.flag : Trait → Flag
  | shape => .typeShape
  | light => .typeLight
  | background => .typeBackground
  | seeThrough => .translucent
  | viewSpace => .viewSpace
  | dynamic => .dynamic
  | deformed => .deformed
  | invisible => .invisible
  | shadowCaster => .shadowCaster
  | pickable => .pickable
  | layered => .layered

/-- The key with one more trait. -/
def give (k : Key) (t : Trait) : Key := ⟨k.flags.union (Flags.single t.flag)⟩

/-- The key that is given the listed traits, one after the other. -/
def ofTraits (traits : List Trait) : Key := traits.foldl give empty

/-- A shape through which nothing shows. -/
def opaqueShape : Key := ofTraits [.shape]

/-- A shape through which other items show. -/
def transparentShape : Key := ofTraits [.shape, .seeThrough]

/-- A light. -/
def light : Key := ofTraits [.light]

/-- A background. -/
def background : Key := ofTraits [.background]

/-- Whether the item is a shape. -/
def isShape (k : Key) : Bool := k.flags.has .typeShape

/-- Whether the item is a light. -/
def isLight (k : Key) : Bool := k.flags.has .typeLight

/-- Whether the item is a background. -/
def isBackground (k : Key) : Bool := k.flags.has .typeBackground

/-- Whether other items show through the item. -/
def isTransparent (k : Key) : Bool := k.flags.has .translucent

/-- Whether nothing shows through the item. -/
def isOpaque (k : Key) : Bool := !k.isTransparent

/-- Whether the item is placed in view space. -/
def isViewSpace (k : Key) : Bool := k.flags.has .viewSpace

/-- Whether the item is placed in world space. -/
def isWorldSpace (k : Key) : Bool := !k.isViewSpace

/-- Whether the item may move. -/
def isDynamic (k : Key) : Bool := k.flags.has .dynamic

/-- Whether the item stays where it is. -/
def isStatic (k : Key) : Bool := !k.isDynamic

/-- Whether the item changes its form. -/
def isDeformed (k : Key) : Bool := k.flags.has .deformed

/-- Whether the item is shown. -/
def isVisible (k : Key) : Bool := !k.flags.has .invisible

/-- Whether the item casts a shadow. -/
def isShadowCaster (k : Key) : Bool := k.flags.has .shadowCaster

/-- Whether the item can be picked. -/
def isPickable (k : Key) : Bool := k.flags.has .pickable

/-- Whether the item belongs to a layer. -/
def isLayered (k : Key) : Bool := k.flags.has .layered

/-- Whether the key has no flag, named or not. -/
def isEmpty (k : Key) : Bool := k.flags.isEmpty

/-- The debug text of a key. -/
def outline (k : Key) : Text.Outline :=
  .record "ItemKey" [("flags", k.flags.outline)] false

end Key

end SceneIndex
