import SceneIndex.Config.Library
import SceneIndex.Proofs.Ron.Write
import SceneIndex.Proofs.Toml.Given
import SceneIndex.Proofs.Toml.Root
import SceneIndex.Proofs.Toml.Write

/-!
# What is asked of a library

Theorems about files hold for every library that keeps a few rules. The rules are
those of the formats, not of configurations: a configuration is not mentioned in
them.

Writing is asked about plain sheets only (`Library.Writes`). What is written is
read as what was handed over. In TOML not everything can be written, for a whole
number is one of 64 bits with a sign there.

Reading is asked about in TOML only (`Library.Reads`), where a document has a
table, and a table has a key once and no larger numbers. That a text with a key in
it twice is no document cannot be said of its table, since there is none. So what
a text gives is told by a function of its own, and it is asked of a library that
its tables have just that in them (`Library.Follows`).

The readers and writers of this development keep all of these rules.

## Main definitions

* `Library.Writes`: What is written is read.
* `Library.Reads`: What a table may be.
* `Library.Follows`: A table is what the text gives.

## Theorems

* `writes_standard`, `reads_standard`, `follows_standard`: The library of this
  development.
-/

namespace SceneIndex

namespace Config

namespace Library

/-- Plain sheets are written so that they are read back. -/
structure Writes (lib : Library) : Prop where
  /-- In TOML a sheet is written just if its numbers are in the range. -/
  toml_iff : ∀ s : Sheet, s.Plain → ((∃ text, lib.writeToml s = .ok text) ↔ s.FitsToml)
  /-- What is written in TOML is read as it was. -/
  toml_read : ∀ (s : Sheet) (text : String), s.Plain → lib.writeToml s = .ok text →
    lib.readToml text = some s.toToml
  /-- In RON every sheet is written. -/
  ron_ok : ∀ s : Sheet, s.Plain → ∃ text, lib.writeRon s = .ok text
  /-- What is written in RON is read as it was. -/
  ron_read : ∀ (s : Sheet) (text : String), s.Plain → lib.writeRon s = .ok text →
    lib.readRon text = some ⟨{}, .record none s.toRon⟩

/-- The root table of a TOML document has a key once, and no whole number above
    64 bits with a sign. -/
structure Reads (lib : Library) : Prop where
  /-- No key is in a table twice. -/
  nodup : ∀ text t, lib.readToml text = some t → (t.map Prod.fst).Nodup
  /-- No whole number in a table is too large. -/
  inRange : ∀ text t, lib.readToml text = some t → Toml.Table.InRange t

/-- The root table of a TOML document has the entries that the text gives. A text
    may give a key twice, and numbers of any size; then it is no document. -/
def Follows (lib : Library) (given : String → Option Toml.Table) : Prop :=
  ∀ text t, lib.readToml text = some t → given text = some t

theorem writes_standard : standard.Writes where
  toml_iff s _ := by
    change (∃ text, Toml.write s = .ok text) ↔ s.FitsToml
    rw [Toml.write_eq]
    by_cases h : s.FitsToml
    · rw [if_pos h]
      exact ⟨fun _ => h, fun _ => ⟨_, rfl⟩⟩
    · rw [if_neg h]
      refine ⟨fun hok => ?_, fun hfits => absurd hfits h⟩
      obtain ⟨text, heq⟩ := hok
      cases heq
  toml_read s text hs h := by
    change Toml.write s = .ok text at h
    change Toml.read? text = some s.toToml
    rw [Toml.write_eq] at h
    split at h
    · rename_i hfits
      rw [← Except.ok.inj h]
      exact Toml.read?_sheetText hs hfits
    · cases h
  ron_ok s _ := ⟨Ron.write s, rfl⟩
  ron_read s text hs h := by
    rw [← Except.ok.inj h]
    exact Ron.read?_write hs

theorem reads_standard : standard.Reads where
  nodup _ _ := Toml.nodup_of_read?
  inRange _ _ := Toml.read?_inRange

theorem follows_standard : standard.Follows Toml.given? := fun _ _ => Toml.given?_of_read?

end Library

end Config

end SceneIndex
