import SceneIndex.Config.Basic
import SceneIndex.Toml.Value

/-!
# Configurations in TOML documents

Every setting is optional and keeps its default when it is missing; entries
that are no settings are passed over. The extra buckets are an array whose
elements are tables with a value and a mask, or arrays that begin with the
two. The flags are texts.

## Main definitions

* `Config.ofToml`: The configuration that a table stands for.
-/

namespace SceneIndex

namespace Config

open Toml (Value Table)

/-- A number of 64 bits without sign. -/
def wordOfToml : Value → Option UInt64
  | .integer n => if 0 ≤ n ∧ n < UInt64.size then some (UInt64.ofNat n.toNat) else none
  | _ => none

/-- A set of flags. -/
def flagsOfToml : Value → Option Flags
  | .text content => (Flags.read content).toOption
  | _ => none

/-- The filter of a value and a mask. -/
def filterOfToml (value mask : Value) : Option Filter :=
  match flagsOfToml value, flagsOfToml mask with
  | some v, some m => some (Filter.ofWords v m)
  | _, _ => none

/-- The filter of a bucket. -/
def bucketOfToml : Value → Option Filter
  | .table _ entries =>
    match Table.get? entries "value", Table.get? entries "mask" with
    | some value, some mask => filterOfToml value mask
    | _, _ => none
  | .array _ (value :: mask :: _) => filterOfToml value mask
  | _ => none

/-- The filters of the extra buckets, in their order. -/
def bucketsOfToml : Value → Option (List Filter)
  | .array _ items => items.mapM bucketOfToml
  | _ => none

/-- A setting of a table, or its default where the table does not have it. -/
def settingOfToml {α : Type} (t : Table) (key : String) (default : α)
    (decode : Value → Option α) : Option α :=
  match t.get? key with
  | some value => decode value
  | none => some default

/-- The configuration that a table stands for. -/
def ofToml (t : Table) : Option Config :=
  let base : Config := {}
  match settingOfToml t "initial_capacity" base.initialCapacity wordOfToml,
    settingOfToml t "growth_slack" base.growthSlack wordOfToml,
    settingOfToml t "extra_buckets" base.extraBuckets bucketsOfToml with
  | some capacity, some slack, some buckets => some ⟨capacity, slack, buckets⟩
  | _, _, _ => none

end Config

end SceneIndex
