import SceneIndex.Config.OfToml
import SceneIndex.Config.Write
import SceneIndex.Proofs.Sheet
import SceneIndex.Proofs.Toml.Range

/-!
# Configurations as TOML tables

What is written of a configuration is a plain sheet (`plain_sheet`), since no
text of flags needs an escape. As a table it stands for the configuration
(`ofToml_sheet`). A filter is written as it is stored and read as any filter is,
with its loose value bits dropped. This gives the filter back because no filter
has loose bits.

Numbers are the limit of the format. They can be written up to the largest
number of 64 bits with a sign, and so can those of any table whose numbers are in
this range.

## Main definitions

* `FitsToml`: The numbers of a configuration are in the range of the format.

## Theorems

* `plain_sheet`: A configuration can be written as it stands.
* `ofToml_sheet`: Its table stands for the configuration.
* `fitsToml_of_inRange`: What a table in the range stands for fits.
-/

namespace SceneIndex

namespace Config

open Text

open Toml (Value Table)

/-- Both numbers are in the range of 64 bits with a sign. -/
def FitsToml (c : Config) : Prop :=
  c.initialCapacity.toNat ≤ Numeral.signedLimit ∧ c.growthSlack.toNat ≤ Numeral.signedLimit

instance (c : Config) : Decidable c.FitsToml := inferInstanceAs (Decidable (_ ∧ _))

section Sheets

theorem fitsToml_sheet (c : Config) : c.sheet.FitsToml ↔ c.FitsToml := by
  simp only [Sheet.FitsToml, sheet, List.forall_mem_cons, List.not_mem_nil, false_imp_iff,
    implies_true, and_true, FitsToml]

theorem plainRow_filterRow (f : Filter) : Sheet.PlainRow (filterRow f) where
  ne_nil := List.cons_ne_nil _ _
  name := by
    simp only [filterRow, List.forall_mem_cons, List.not_mem_nil, false_imp_iff, implies_true,
      and_true]
    decide
  nodup := by
    change ["value", "mask"].Nodup
    decide
  text := by
    have hflags : ∀ a : Flags, ∀ c ∈ a.text.toList, Flags.isQuotable c = true := by
      intro a
      rw [Flags.text, String.toList_ofList]
      exact a.isQuotable_of_mem_write
    simp only [filterRow, List.forall_mem_cons, List.not_mem_nil, false_imp_iff, implies_true,
      and_true]
    exact ⟨hflags f.value, hflags f.mask⟩

/-- What is written of a configuration can be written as it stands. -/
theorem plain_sheet (c : Config) : c.sheet.Plain where
  name := by
    simp only [sheet, List.forall_mem_cons, List.not_mem_nil, false_imp_iff, implies_true,
      and_true]
    decide
  list := by
    change Ron.IsPlainName "extra_buckets".toList
    decide
  nodup := by
    change ["initial_capacity", "growth_slack", "extra_buckets"].Nodup
    decide
  row := by
    intro row hrow
    obtain ⟨f, _, rfl⟩ := List.mem_map.mp hrow
    exact plainRow_filterRow f

end Sheets

section Tables

theorem wordOfToml_integer (n : UInt64) : wordOfToml (.integer n.toNat) = some n := by
  have hrange : (0 : Int) ≤ n.toNat ∧ (n.toNat : Int) < UInt64.size :=
    ⟨Int.natCast_nonneg _, Int.ofNat_lt.mpr n.toNat_lt⟩
  simp only [wordOfToml, if_pos hrange, Int.toNat_natCast, UInt64.ofNat_toNat]

-- A filter has no loose bits, so there are none to drop.
theorem ofWords_value_mask (f : Filter) : Filter.ofWords f.value f.mask = f := by
  rcases f with ⟨value, mask, within⟩
  unfold Filter.ofWords
  simp only [within]

theorem bucketOfToml_filterRow (f : Filter) :
    bucketOfToml (Sheet.tomlRow (filterRow f)) = some f := by
  have hflags : ∀ a : Flags, flagsOfToml (.text a.text) = some a := by
    intro a
    simp only [flagsOfToml, Flags.read_text, Except.toOption]
  have hfilter : filterOfToml (.text f.value.text) (.text f.mask.text) = some f := by
    unfold filterOfToml
    rw [hflags, hflags]
    simp only [ofWords_value_mask]
  exact hfilter

theorem mapM_filterRow_toml (filters : List Filter) :
    ((filters.map filterRow).map Sheet.tomlRow).mapM bucketOfToml = some filters := by
  induction filters with
  | nil => rfl
  | cons f rest ih =>
      rw [List.map_cons, List.map_cons, List.mapM_cons, bucketOfToml_filterRow, ih]
      rfl

theorem settingOfToml_of_some {α : Type} {t : Table} {key : String} {v : Value}
    (h : t.get? key = some v) (default : α) (decode : Value → Option α) :
    settingOfToml t key default decode = decode v := by
  unfold settingOfToml
  rw [h]

/-- The configuration that a table stands for has the settings of the table. -/
theorem ofToml_of_settings {t : Table} {c : Config}
    (hcapacity : settingOfToml t "initial_capacity" ({} : Config).initialCapacity wordOfToml
      = some c.initialCapacity)
    (hslack : settingOfToml t "growth_slack" ({} : Config).growthSlack wordOfToml
      = some c.growthSlack)
    (hbuckets : settingOfToml t "extra_buckets" ({} : Config).extraBuckets bucketsOfToml
      = some c.extraBuckets) : ofToml t = some c := by
  unfold ofToml
  simp only [hcapacity, hslack, hbuckets]

/-- The table of a configuration stands for the configuration. -/
theorem ofToml_sheet (c : Config) : ofToml c.sheet.toToml = some c := by
  have hcapacity : c.sheet.toToml.get? "initial_capacity"
      = some (.integer c.initialCapacity.toNat) := by
    simp [sheet, Sheet.toToml, Sheet.tomlNumbers, Table.get?]
  have hslack : c.sheet.toToml.get? "growth_slack" = some (.integer c.growthSlack.toNat) := by
    simp [sheet, Sheet.toToml, Sheet.tomlNumbers, Table.get?]
  have hbuckets : c.sheet.toToml.get? "extra_buckets"
      = some (.array (!c.sheet.rows.isEmpty) (c.sheet.rows.map Sheet.tomlRow)) := by
    simp [sheet, Sheet.toToml, Sheet.tomlNumbers, Table.get?]
  apply ofToml_of_settings
  · rw [settingOfToml_of_some hcapacity, wordOfToml_integer]
  · rw [settingOfToml_of_some hslack, wordOfToml_integer]
  · rw [settingOfToml_of_some hbuckets]
    exact mapM_filterRow_toml c.extraBuckets

end Tables

section Range

theorem toNat_le_of_wordOfToml {v : Value} (hv : v.InRange) {n : UInt64}
    (h : wordOfToml v = some n) : n.toNat ≤ Numeral.signedLimit := by
  unfold wordOfToml at h
  split at h
  · rename_i k
    split at h
    · rename_i hrange
      have hk := hv k rfl
      have hless : k.toNat < UInt64.size := by omega
      rw [← Option.some.inj h, UInt64.toNat_ofNat_of_lt' hless]
      omega
    · cases h
  · cases h

/-- A number among the settings of a table is in range, if the numbers of the
    table and the default are. -/
theorem toNat_le_of_settingOfToml {t : Table} (ht : t.InRange) {key : String}
    {default n : UInt64} (hdefault : default.toNat ≤ Numeral.signedLimit)
    (h : settingOfToml t key default wordOfToml = some n) :
    n.toNat ≤ Numeral.signedLimit := by
  unfold settingOfToml at h
  split at h
  · rename_i v hget
    unfold Table.get? at hget
    obtain ⟨entry, hfind, rfl⟩ := Option.map_eq_some_iff.mp hget
    exact toNat_le_of_wordOfToml (ht entry (List.mem_of_find?_eq_some hfind)) h
  · rw [← Option.some.inj h]
    exact hdefault

/-- What a table in the range stands for fits. -/
theorem fitsToml_of_inRange {t : Table} (ht : t.InRange) {c : Config} (h : ofToml t = some c) :
    c.FitsToml := by
  unfold ofToml at h
  simp only at h
  split at h
  · rename_i capacity slack buckets hcapacity hslack _
    rw [← Option.some.inj h]
    exact ⟨toNat_le_of_settingOfToml ht (by decide) hcapacity,
      toNat_le_of_settingOfToml ht (by decide) hslack⟩
  · cases h

end Range

end Config

end SceneIndex
