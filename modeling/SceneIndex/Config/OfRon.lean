import SceneIndex.Config.Basic
import SceneIndex.Ron.Value

/-!
# Configurations in RON documents

A configuration is a record whose fields are the settings. Every setting is
optional and keeps its default when it is missing; fields that are no settings
are passed over, and no setting may be given twice. The extra buckets are a
list of records with a value and a mask. The flags are texts in a wrapper of
their own, which an extension leaves out. Records and wrappers may be named,
and must then have the right name.

## Main definitions

* `Config.ofRon`: The configuration that a document stands for.
-/

namespace SceneIndex

namespace Config

open Ron (Value)

/-- A number of 64 bits without sign. -/
def wordOfRon : Value → Option UInt64
  | .whole n => if n < UInt64.size then some (UInt64.ofNat n) else none
  | _ => none

/-- Whether a record may have a name: none, or the expected one. -/
def fits (expected : String) (name : Option String) : Bool :=
  match name with
  | none => true
  | some given => given == expected

/-- The fields of a record whose name fits. Empty parentheses are a record
    without fields. -/
def fieldsOfRon (expected : String) : Value → Option (List (String × Value))
  | .record name fields => if fits expected name then some fields else none
  | .tuple name [] => if fits expected name then some [] else none
  | _ => none

/-- The value of a field, if there is one; a field may not be given twice. -/
def fieldOfRon? (fields : List (String × Value)) (name : String) : Option (Option Value) :=
  match fields.filter fun field => field.1 == name with
  | [] => some none
  | [field] => some (some field.2)
  | _ => none

/-- A set of flags, in its wrapper or without. -/
def flagsOfRon (unwrapped : Bool) : Value → Option Flags
  | .text content => if unwrapped then (Flags.read content).toOption else none
  | .tuple name [.text content] =>
    if !unwrapped && fits "ItemKeyFlags" name then (Flags.read content).toOption else none
  | _ => none

/-- The filter of a bucket. -/
def bucketOfRon (unwrapped : Bool) (bucket : Value) : Option Filter :=
  match fieldsOfRon "RawItemFilter" bucket with
  | none => none
  | some fields =>
    match fieldOfRon? fields "value", fieldOfRon? fields "mask" with
    | some (some value), some (some mask) =>
      match flagsOfRon unwrapped value, flagsOfRon unwrapped mask with
      | some v, some m => some (Filter.ofWords v m)
      | _, _ => none
    | _, _ => none

/-- The filters of the extra buckets, in their order. -/
def bucketsOfRon (unwrapped : Bool) : Value → Option (List Filter)
  | .list items => items.mapM (bucketOfRon unwrapped)
  | _ => none

/-- A setting among fields, or its default where it is missing. -/
def settingOfRon {α : Type} (fields : List (String × Value)) (name : String) (default : α)
    (decode : Value → Option α) : Option α :=
  match fieldOfRon? fields name with
  | some (some value) => decode value
  | some none => some default
  | none => none

/-- The configuration that a document stands for. -/
def ofRon (d : Ron.Document) : Option Config :=
  let base : Config := {}
  match fieldsOfRon "SceneConfig" d.value with
  | none => none
  | some fields =>
    match settingOfRon fields "initial_capacity" base.initialCapacity wordOfRon,
      settingOfRon fields "growth_slack" base.growthSlack wordOfRon,
      settingOfRon fields "extra_buckets" base.extraBuckets
        (bucketsOfRon d.extensions.unwrapNewtypes) with
    | some capacity, some slack, some buckets => some ⟨capacity, slack, buckets⟩
    | _, _, _ => none

end Config

end SceneIndex
