import SceneIndex.Key

/-!
# Filters

A filter accepts the keys that agree with its value on the bits of its mask.
Value bits outside the mask could never be met, so a filter keeps none: two
filters that accept the same keys are then the same filter.

A filter is also built flag by flag. Each pin demands that one flag is set or
that it is not set, and a later pin on the same flag replaces an earlier one.

## Main definitions

* `Filter`: A value and a mask, the value within the mask.
* `Filter.ofWords`: The filter with the loose bits of the value dropped.
* `Filter.accepts`: Whether a key passes the filter.
* `Filter.Pin`: A demand on one flag.
* `Filter.ofPins`: The filter of a list of demands.
* `Filter.rank`: The order in which filters are listed.

## Theorems

* `Filter.rank_injective`: Different filters have different ranks.
-/

namespace SceneIndex

/-- A demand that keys agree with a value on the bits of a mask. -/
structure Filter where
  value : Flags
  mask : Flags
  /-- No value bit lies outside the mask. -/
  within : value.inter mask = value
  deriving DecidableEq

namespace Filter

/-- The filter with a value and a mask; value bits outside the mask are
    dropped. -/
def ofWords (value mask : Flags) : Filter where
  value := value.inter mask
  mask := mask
  within := by simp only [Flags.inter, BitVec.and_assoc, BitVec.and_self]

/-- Whether a key passes the filter. -/
def accepts (f : Filter) (k : Key) : Bool := k.flags.inter f.mask == f.value

/-- The filter that every key passes. -/
def everything : Filter := ofWords Flags.empty Flags.empty

instance : Inhabited Filter := ⟨everything⟩

/-- A demand on one flag. Some flags have a word of their own for the case in
    which they are not set. -/
inductive Pin where
  | shape
  | light
  | background
  | seeThrough
  | solid
  | viewSpace
  | worldSpace
  | dynamic
  | static
  | deformed
  | rigid
  | invisible
  | visible
  | shadowCaster
  | pickable
  | layered
  | unlayered
  deriving DecidableEq, Repr

namespace Pin

/-- The flag that the demand is on. -/
def flag : Pin → Flag
  | shape => .typeShape
  | light => .typeLight
  | background => .typeBackground
  | seeThrough => .translucent
  | solid => .translucent
  | viewSpace => .viewSpace
  | worldSpace => .viewSpace
  | dynamic => .dynamic
  | static => .dynamic
  | deformed => .deformed
  | rigid => .deformed
  | invisible => .invisible
  | visible => .invisible
  | shadowCaster => .shadowCaster
  | pickable => .pickable
  | layered => .layered
  | unlayered => .layered

/-- Whether the flag is demanded to be set. -/
def wanted : Pin → Bool
  | solid => false
  | worldSpace => false
  | static => false
  | rigid => false
  | visible => false
  | unlayered => false
  | _ => true

end Pin

/-- The filter with one more demand, which replaces any on the same flag. -/
def pin (f : Filter) (p : Pin) : Filter :=
  let flag := Flags.single p.flag
  ofWords (f.value.set flag p.wanted) (f.mask.union flag)

/-- The filter of a list of demands, later ones winning. -/
def ofPins (pins : List Pin) : Filter :=
  pins.foldl pin everything

/-- The filter for shapes through which nothing shows. -/
def opaqueShape : Filter := ofPins [.shape, .solid, .worldSpace]

/-- The filter for shapes through which other items show. -/
def transparentShape : Filter := ofPins [.shape, .seeThrough, .worldSpace]

/-- The filter for lights. -/
def light : Filter := ofPins [.light]

/-- The filter for backgrounds. -/
def background : Filter := ofPins [.background]

/-- The place of a filter among all filters: by mask, then by value. -/
def rank (f : Filter) : Nat := f.mask.toNat * UInt32.size + f.value.toNat

/-- The debug text of a filter. -/
def outline (f : Filter) : Text.Outline :=
  .record "ItemFilter" [("value", f.value.outline), ("mask", f.mask.outline)] false

/-- Different filters have different ranks. -/
theorem rank_injective {f g : Filter} (h : f.rank = g.rank) : f = g := by
  have hf : f.value.toNat < UInt32.size := f.value.bits.isLt
  have hg : g.value.toNat < UInt32.size := g.value.bits.isLt
  simp only [rank] at h
  have hmask : f.mask.bits.toNat = g.mask.bits.toNat := by
    simp only [Flags.toNat, UInt32.size] at h hf hg
    omega
  have hvalue : f.value.bits.toNat = g.value.bits.toNat := by
    simp only [Flags.toNat, UInt32.size] at h hf hg
    omega
  obtain ⟨⟨value⟩, ⟨mask⟩, _⟩ := f
  obtain ⟨⟨value'⟩, ⟨mask'⟩, _⟩ := g
  obtain rfl := BitVec.eq_of_toNat_eq hmask
  obtain rfl := BitVec.eq_of_toNat_eq hvalue
  rfl

end Filter

end SceneIndex
