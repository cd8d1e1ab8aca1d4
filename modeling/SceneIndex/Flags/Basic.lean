/-!
# Flags

What an item is to a renderer is told by flags: its type, how it is drawn and
what it takes part in. Eleven flags have names. A set of flags is a word of
32 bits, and the 21 bits without a name are carried along as they are, so
that a set written by a program with more flags survives.

## Main definitions

* `Flag`: The eleven flags with a name, in the order of their bits.
* `Flags`: A set of flags, named or not.
* `Flags.has`: Whether a named flag is in the set.
* `Flags.named`: The set of all named flags.
* `Flags.parts`: A set cut into its named flags and one rest.
-/

namespace SceneIndex

/-- The flags with a name, in the order of their bits. -/
inductive Flag where
  | typeShape
  | typeLight
  | typeBackground
  | translucent
  | viewSpace
  | dynamic
  | deformed
  | invisible
  | shadowCaster
  | pickable
  | layered
  deriving DecidableEq, Repr, Inhabited

namespace Flag

/-- All flags with a name, in the order of their bits. -/
def all : List Flag :=
  [typeShape, typeLight, typeBackground, translucent, viewSpace, dynamic, deformed,
   invisible, shadowCaster, pickable, layered]

/-- The position of the flag's bit. -/
def bit : Flag → Nat
  | typeShape => 0
  | typeLight => 1
  | typeBackground => 2
  | translucent => 3
  | viewSpace => 4
  | dynamic => 5
  | deformed => 6
  | invisible => 7
  | shadowCaster => 8
  | pickable => 9
  | layered => 10

/-- The name of the flag. -/
def name : Flag → String
  | typeShape => "TYPE_SHAPE"
  | typeLight => "TYPE_LIGHT"
  | typeBackground => "TYPE_BACKGROUND"
  | translucent => "TRANSLUCENT"
  | viewSpace => "VIEW_SPACE"
  | dynamic => "DYNAMIC"
  | deformed => "DEFORMED"
  | invisible => "INVISIBLE"
  | shadowCaster => "SHADOW_CASTER"
  | pickable => "PICKABLE"
  | layered => "LAYERED"

/-- The flag of exactly this name. -/
def ofName? (text : String) : Option Flag :=
  all.find? fun flag => flag.name == text

/-- Every flag is listed. -/
theorem mem_all (flag : Flag) : flag ∈ all := by
  cases flag <;> decide

/-- The bits of the named flags are the eleven lowest ones. -/
theorem bit_lt (flag : Flag) : flag.bit < 11 := by
  cases flag <;> decide

/-- Different flags have different bits. -/
theorem bit_injective {a b : Flag} (h : a.bit = b.bit) : a = b := by
  cases a <;> cases b <;> simp [bit] at h ⊢

end Flag

/-- A set of flags, as a word of 32 bits. -/
structure Flags where
  bits : BitVec 32
  deriving DecidableEq, Repr, Inhabited

namespace Flags

/-- The set with no flag. -/
def empty : Flags := ⟨0⟩

/-- The set with one named flag. -/
def single (flag : Flag) : Flags := ⟨BitVec.twoPow 32 flag.bit⟩

/-- The set of all flags with a name. -/
def named : Flags := ⟨0x7ff⟩

/-- The number whose binary digits are the flags. -/
def toNat (a : Flags) : Nat := a.bits.toNat

/-- Whether a named flag is in the set. -/
def has (a : Flags) (flag : Flag) : Bool := a.bits.getLsbD flag.bit

/-- The flags of either set. -/
def union (a b : Flags) : Flags := ⟨a.bits ||| b.bits⟩

/-- The flags of both sets. -/
def inter (a b : Flags) : Flags := ⟨a.bits &&& b.bits⟩

/-- The flags of the first set that are not in the second. -/
def diff (a b : Flags) : Flags := ⟨a.bits &&& ~~~b.bits⟩

/-- The flags of exactly one of the sets. -/
def symmDiff (a b : Flags) : Flags := ⟨a.bits ^^^ b.bits⟩

/-- The named flags that are not in the set. -/
def complement (a : Flags) : Flags := ⟨~~~a.bits &&& named.bits⟩

/-- The set with all flags of another switched on or off. -/
def set (a b : Flags) (on : Bool) : Flags := if on then a.union b else a.diff b

/-- The named flags of the set. -/
def truncate (a : Flags) : Flags := a.inter named

/-- The flags of the set that have no name. -/
def unnamed (a : Flags) : Flags := a.diff named

/-- Whether the set has no flag, named or not. -/
def isEmpty (a : Flags) : Bool := a == empty

/-- Whether the set has every flag with a name. -/
def isAll (a : Flags) : Bool := named.union a == a

/-- Whether the set has every flag of another. -/
def contains (a b : Flags) : Bool := a.inter b == b

/-- Whether the sets share a flag. -/
def intersects (a b : Flags) : Bool := !(a.inter b).isEmpty

/-- The set itself, provided that all of its flags have names. -/
def checked? (a : Flags) : Option Flags :=
  if a.unnamed.isEmpty then some a else none

/-- The named flags of the set, in the order of their bits. -/
def flags (a : Flags) : List Flag := Flag.all.filter a.has

/-- The set cut into parts: each named flag by itself, in the order of the
    bits, and then all flags without a name together, if there are any. -/
def parts (a : Flags) : List Flags :=
  a.flags.map single ++ (if a.unnamed.isEmpty then [] else [a.unnamed])

/-- The set of the listed flags. -/
def ofList (flags : List Flag) : Flags :=
  flags.foldl (fun a flag => a.union (single flag)) empty

end Flags

end SceneIndex
