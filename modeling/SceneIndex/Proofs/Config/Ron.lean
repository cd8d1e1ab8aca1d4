import SceneIndex.Config.OfRon
import SceneIndex.Proofs.Config.Toml

/-!
# Configurations as RON records

What is written of a configuration stands for the configuration as a record too
(`ofRon_sheet`). Numbers of 64 bits are all in the range of the format, and flags
are in their wrappers, as they are if no extension leaves these out.

## Theorems

* `ofRon_sheet`: The record of a configuration stands for the configuration.
-/

namespace SceneIndex

namespace Config

open Text

open Ron (Value)

theorem wordOfRon_whole (n : UInt64) : wordOfRon (.whole n.toNat) = some n := by
  simp only [wordOfRon, if_pos n.toNat_lt, UInt64.ofNat_toNat]

theorem bucketOfRon_filterRow (f : Filter) :
    bucketOfRon false (Sheet.ronRow (filterRow f)) = some f := by
  have hflags : ∀ a : Flags, flagsOfRon false (.tuple none [.text a.text]) = some a := by
    intro a
    simp only [flagsOfRon, fits, Bool.not_false, Bool.and_self, if_true, Flags.read_text,
      Except.toOption]
  have hvalue : fieldOfRon? [("value", Value.tuple none [.text f.value.text]),
      ("mask", .tuple none [.text f.mask.text])] "value"
        = some (some (.tuple none [.text f.value.text])) := by
    simp [fieldOfRon?]
  have hmask : fieldOfRon? [("value", Value.tuple none [.text f.value.text]),
      ("mask", .tuple none [.text f.mask.text])] "mask"
        = some (some (.tuple none [.text f.mask.text])) := by
    simp [fieldOfRon?]
  simp only [bucketOfRon, Sheet.ronRow, filterRow, List.map_cons, List.map_nil, fieldsOfRon, fits,
    if_true, hvalue, hmask, hflags, ofWords_value_mask]

theorem mapM_filterRow_ron (filters : List Filter) :
    ((filters.map filterRow).map Sheet.ronRow).mapM (bucketOfRon false) = some filters := by
  induction filters with
  | nil => rfl
  | cons f rest ih =>
      rw [List.map_cons, List.map_cons, List.mapM_cons, bucketOfRon_filterRow, ih]
      rfl

theorem settingOfRon_of_some {α : Type} {fields : List (String × Value)} {name : String}
    {v : Value} (h : fieldOfRon? fields name = some (some v)) (default : α)
    (decode : Value → Option α) : settingOfRon fields name default decode = decode v := by
  unfold settingOfRon
  rw [h]

/-- The configuration that a record stands for has the settings of the record. -/
theorem ofRon_of_settings {d : Ron.Document} {fields : List (String × Value)} {c : Config}
    (hfields : fieldsOfRon "SceneConfig" d.value = some fields)
    (hcapacity : settingOfRon fields "initial_capacity" ({} : Config).initialCapacity wordOfRon
      = some c.initialCapacity)
    (hslack : settingOfRon fields "growth_slack" ({} : Config).growthSlack wordOfRon
      = some c.growthSlack)
    (hbuckets : settingOfRon fields "extra_buckets" ({} : Config).extraBuckets
      (bucketsOfRon d.extensions.unwrapNewtypes) = some c.extraBuckets) :
    ofRon d = some c := by
  unfold ofRon
  simp only [hfields, hcapacity, hslack, hbuckets]

/-- The record of a configuration stands for the configuration. -/
theorem ofRon_sheet (c : Config) : ofRon ⟨{}, .record none c.sheet.toRon⟩ = some c := by
  have hcapacity : fieldOfRon? c.sheet.toRon "initial_capacity"
      = some (some (.whole c.initialCapacity.toNat)) := by
    simp [sheet, Sheet.toRon, Sheet.ronNumbers, fieldOfRon?]
  have hslack : fieldOfRon? c.sheet.toRon "growth_slack"
      = some (some (.whole c.growthSlack.toNat)) := by
    simp [sheet, Sheet.toRon, Sheet.ronNumbers, fieldOfRon?]
  have hbuckets : fieldOfRon? c.sheet.toRon "extra_buckets"
      = some (some (.list (c.sheet.rows.map Sheet.ronRow))) := by
    simp [sheet, Sheet.toRon, Sheet.ronNumbers, fieldOfRon?]
  refine ofRon_of_settings (rfl : _ = some c.sheet.toRon) ?_ ?_ ?_
  · rw [settingOfRon_of_some hcapacity, wordOfRon_whole]
  · rw [settingOfRon_of_some hslack, wordOfRon_whole]
  · rw [settingOfRon_of_some hbuckets]
    exact mapM_filterRow_ron c.extraBuckets

end Config

end SceneIndex
