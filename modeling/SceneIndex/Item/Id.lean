import SceneIndex.Text.Numeral
import SceneIndex.Text.Outline

/-!
# Item ids

Items are named by numbers of 32 bits. Number zero is reserved and names no
item.

## Main definitions

* `ItemId`: The number of an item.
* `ItemId.isValid`: Whether the number may name an item.

## Theorems

* `ItemId.index_injective`: Ids with the same position are the same.
-/

namespace SceneIndex

/-- The number of an item. -/
structure ItemId where
  number : UInt32
  deriving DecidableEq, Repr

namespace ItemId

/-- The reserved number, which names no item. -/
def invalid : ItemId := ⟨0⟩

instance : Inhabited ItemId := ⟨invalid⟩

/-- The number as a position among the slots. -/
def index (id : ItemId) : Nat := id.number.toNat

/-- Whether the number may name an item. -/
def isValid (id : ItemId) : Bool := id != invalid

/-- The id as it is written in messages. -/
def text (id : ItemId) : String := "#" ++ Text.Numeral.decimal id.index

/-- The debug text of an id. -/
def outline (id : ItemId) : Text.Outline :=
  .tuple "ItemID" [.leaf (Text.Numeral.decimal id.index)]

/-- Ids with the same position are the same. -/
theorem index_injective {a b : ItemId} (h : a.index = b.index) : a = b := by
  obtain ⟨n⟩ := a
  obtain ⟨m⟩ := b
  exact congrArg ItemId.mk (UInt32.toNat.inj h)

/-- Every position of 32 bits is that of an id. -/
theorem exists_index {n : Nat} (h : n < UInt32.size) : ∃ id : ItemId, id.index = n :=
  ⟨⟨UInt32.ofNat n⟩, UInt32.toNat_ofNat_of_lt' h⟩

end ItemId

end SceneIndex
