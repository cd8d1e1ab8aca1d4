import SceneIndex.Config.File
import SceneIndex.Proofs.Config.Library
import SceneIndex.Proofs.Config.Ron
import SceneIndex.Proofs.Config.Toml

/-!
# Saved configurations load back

What is saved under a name is loaded from it again, in the format that the name
tells. A RON name takes every configuration. A TOML name takes those whose
numbers fit, and nothing is written for the others, nor under any other name.
What was loaded from a TOML file fits, so it can be saved in both formats.

Texts are made and read by a library, of which it is known that it reads the
sheets that it writes (`Library.Writes`). What a configuration has to do with its
sheet is dealt with in `ofToml_sheet` and `ofRon_sheet`. Here they are put
together with the files. Any disk will do, as long as it raises no error at the
name and gives back what was written there (`Disk.Keeps`). The working folder is
such a disk for a name of its own, unless a folder stands there (`keeps_folder`).

## Main definitions

* `Disk.Keeps`: A text written under a name is read from it.
* `LoadsBack`: A configuration saved under a name is loaded from it.

## Theorems

* `keeps_folder`: Names of the working folder.
* `not_toml_of_ron`: No name tells two formats.
* `saved_loads_back`: All names and configurations.
-/

namespace SceneIndex

namespace Config

open Text

/-- Writing a text under the name raises no error, and neither does reading,
    which gives the text. -/
def Disk.Keeps (disk : Disk) (files : disk.State) (name : String) : Prop :=
  ∀ text, (disk.write files name text).1 = .ok () ∧
    disk.read (disk.write files name text).2 name = .ok text

/-- Saving the configuration under the name raises no error, and neither does
    loading, which gives the configuration. -/
def LoadsBack (lib : Library) (disk : Disk) (files : disk.State) (name : String) (c : Config) :
    Prop :=
  (saveTo lib disk files name c).1 = .ok () ∧
    loadFrom lib disk (saveTo lib disk files name c).2 name = .ok c

section Folder

-- A name that can be written has nothing wrong with it and names one entry.
theorem path_of_checkWritable {name : String} (h : checkWritable name = .ok ()) :
    nameError? name = none ∧ ∃ part, path name = [part] := by
  unfold checkWritable at h
  split at h
  · cases h
  · rename_i hname
    split at h
    · cases h
    · rename_i part hpath
      exact ⟨hname, part, hpath⟩
    · cases h

theorem fromUTF8?_toUTF8 (text : String) : String.fromUTF8? text.toUTF8 = some text := by
  unfold String.fromUTF8?
  exact dif_pos text.isValidUTF8

/-- The working folder keeps what is written under a name of its own. -/
theorem keeps_folder {name : String} (hname : checkWritable name = .ok ()) {entry : Entry}
    (hentry : entry ≠ .directory) : Disk.folder.Keeps entry name := by
  intro text
  have hwrite : writeFile name text entry = (.ok (), .ofText text) := by
    unfold writeFile
    rw [hname]
    cases entry with
    | nothing => rfl
    | directory => exact absurd rfl hentry
    | file contents => rfl
  have hread : readFile name (.ofText text) = .ok text := by
    obtain ⟨hnone, part, hpath⟩ := path_of_checkWritable hname
    unfold readFile Entry.ofText
    simp only [hnone, hpath, List.isEmpty_cons, Bool.false_eq_true, if_false, fromUTF8?_toUTF8]
  change (writeFile name text entry).1 = .ok () ∧
    readFile name (writeFile name text entry).2 = .ok text
  rw [hwrite]
  exact ⟨rfl, hread⟩

end Folder

section Names

/-- The extensions end in different letters, so no name has both. -/
theorem not_toml_of_ron {name : String} (h : Format.ron.matchesName name = true) :
    Format.toml.matchesName name = false := by
  rw [← Bool.not_eq_true]
  intro htoml
  unfold Format.matchesName at h htoml
  obtain ⟨front, hron⟩ := List.isSuffixOf_iff_suffix.mp h
  obtain ⟨front', htoml⟩ := List.isSuffixOf_iff_suffix.mp htoml
  have hn : name.toList.getLast? = some 'n' := by
    rw [← hron, List.getLast?_append]
    rfl
  have hl : name.toList.getLast? = some 'l' := by
    rw [← htoml, List.getLast?_append]
    rfl
  rw [hn] at hl
  cases hl

theorem ofName?_of_toml {name : String} (h : Format.toml.matchesName name = true) :
    Format.ofName? name = some .toml := by
  unfold Format.ofName?
  rw [if_pos h]

theorem ofName?_of_ron {name : String} (h : Format.ron.matchesName name = true) :
    Format.ofName? name = some .ron := by
  unfold Format.ofName?
  rw [not_toml_of_ron h, if_neg Bool.false_ne_true, if_pos h]

end Names

section Texts

variable {lib : Library} (hlib : lib.Writes) {name text : String} {c : Config}

section Writes

include hlib

/-- The text of a configuration in a format, if there is one, stands for the
    configuration. -/
theorem read?_of_write {format : Format} (h : write lib format c = .ok text) :
    read? lib format text = some c := by
  cases format with
  | toml =>
      cases hwritten : lib.writeToml c.sheet with
      | error cause =>
          simp only [write, hwritten, Except.mapError, reduceCtorEq] at h
      | ok written =>
          simp only [write, hwritten, Except.mapError, Except.ok.injEq] at h
          rw [h] at hwritten
          rw [read?, hlib.toml_read _ _ c.plain_sheet hwritten, Option.bind_some, ofToml_sheet]
  | ron =>
      cases hwritten : lib.writeRon c.sheet with
      | error cause =>
          simp only [write, hwritten, Except.mapError, reduceCtorEq] at h
      | ok written =>
          simp only [write, hwritten, Except.mapError, Except.ok.injEq] at h
          rw [h] at hwritten
          rw [read?, hlib.ron_read _ _ c.plain_sheet hwritten, Option.bind_some, ofRon_sheet]

theorem decode_of_encode (h : encode lib name c = .ok text) : decode lib name text = .ok c := by
  unfold encode at h
  unfold decode
  split at h
  · cases h
  · simp only [read?_of_write hlib h]

theorem exists_encode_of_ron (h : Format.ron.matchesName name = true) (c : Config) :
    ∃ text, encode lib name c = .ok text := by
  obtain ⟨text, htext⟩ := hlib.ron_ok c.sheet c.plain_sheet
  refine ⟨text, ?_⟩
  unfold encode
  rw [ofName?_of_ron h]
  simp only [write, htext, Except.mapError]

theorem exists_encode_of_toml (h : Format.toml.matchesName name = true) (hfits : c.FitsToml) :
    ∃ text, encode lib name c = .ok text := by
  obtain ⟨text, htext⟩ := (hlib.toml_iff c.sheet c.plain_sheet).mpr (c.fitsToml_sheet.mpr hfits)
  refine ⟨text, ?_⟩
  unfold encode
  rw [ofName?_of_toml h]
  simp only [write, htext, Except.mapError]

theorem exists_error_of_toml (h : Format.toml.matchesName name = true) (hlarge : ¬ c.FitsToml) :
    ∃ cause, encode lib name c = .error (.unwritable cause) := by
  have hnone : ¬ ∃ text, lib.writeToml c.sheet = .ok text := fun hok =>
    hlarge (c.fitsToml_sheet.mp ((hlib.toml_iff c.sheet c.plain_sheet).mp hok))
  unfold encode
  rw [ofName?_of_toml h]
  cases hwritten : lib.writeToml c.sheet with
  | error cause => exact ⟨cause, by simp only [write, hwritten, Except.mapError]⟩
  | ok text => exact absurd ⟨text, hwritten⟩ hnone

end Writes

theorem fitsToml_of_decode (hread : lib.Reads) (hname : Format.toml.matchesName name = true)
    (h : decode lib name text = .ok c) : c.FitsToml := by
  unfold decode at h
  rw [ofName?_of_toml hname] at h
  simp only at h
  split at h
  · rename_i loaded hloaded
    obtain ⟨t, ht, hc⟩ := Option.bind_eq_some_iff.mp hloaded
    rw [← Except.ok.inj h]
    exact fitsToml_of_inRange (hread.inRange text t ht) hc
  · cases h

end Texts

section Files

variable {lib : Library} {disk : Disk} {files : disk.State} {name : String} {c : Config}

theorem saveTo_of_error {e : Error} (h : encode lib name c = .error e) :
    saveTo lib disk files name c = (.error e, files) := by
  unfold saveTo
  rw [h]

/-- Where a text can be made and is kept, the configuration loads back. -/
theorem loadsBack_of_encode (hlib : lib.Writes) (hkeeps : disk.Keeps files name)
    (h : ∃ text, encode lib name c = .ok text) : LoadsBack lib disk files name c := by
  obtain ⟨text, h⟩ := h
  obtain ⟨hok, hread⟩ := hkeeps text
  have hsave : saveTo lib disk files name c = (.ok (), (disk.write files name text).2) := by
    unfold saveTo
    rw [h]
    simp only
    split
    · rename_i heq
      rw [heq] at hok
      cases hok
    · rename_i heq
      rw [heq]
  unfold LoadsBack loadFrom
  rw [hsave]
  simp only [hread, decode_of_encode hlib h, and_self]

/-- Under a name at which the disk raises no error, every configuration loads
    back from a RON file, and from a TOML file if its numbers fit. Otherwise
    saving fails, and nothing is written. In particular, what was loaded from a
    TOML file anywhere loads back from both. -/
theorem saved_loads_back (hlib : lib.Writes) (hread : lib.Reads) (hkeeps : disk.Keeps files name)
    (c : Config) :
    (Format.ron.matchesName name = true → LoadsBack lib disk files name c) ∧
    (Format.toml.matchesName name = true →
      ((saveTo lib disk files name c).1 = .ok () ↔
        c.initialCapacity.toNat ≤ Numeral.signedLimit ∧
          c.growthSlack.toNat ≤ Numeral.signedLimit) ∧
      ((saveTo lib disk files name c).1 = .ok () → LoadsBack lib disk files name c) ∧
      ((saveTo lib disk files name c).1 ≠ .ok () →
        ∃ cause, saveTo lib disk files name c = (.error (.unwritable cause), files))) ∧
    (Format.toml.matchesName name = false → Format.ron.matchesName name = false →
      saveTo lib disk files name c = (.error (.unsupportedFormat name), files)) ∧
    ∀ (other : Disk) (earlier : other.State) (source : String),
      Format.toml.matchesName source = true → loadFrom lib other earlier source = .ok c →
      Format.toml.matchesName name = true ∨ Format.ron.matchesName name = true →
      LoadsBack lib disk files name c := by
  have hron : Format.ron.matchesName name = true → LoadsBack lib disk files name c :=
    fun hname => loadsBack_of_encode hlib hkeeps (exists_encode_of_ron hlib hname c)
  have hfits : Format.toml.matchesName name = true → c.FitsToml →
      LoadsBack lib disk files name c := fun hname hfits =>
    loadsBack_of_encode hlib hkeeps (exists_encode_of_toml hlib hname hfits)
  have hlarge : Format.toml.matchesName name = true → ¬ c.FitsToml →
      ∃ cause, saveTo lib disk files name c = (.error (.unwritable cause), files) := by
    intro hname hlarge
    obtain ⟨cause, hcause⟩ := exists_error_of_toml hlib hname hlarge
    exact ⟨cause, saveTo_of_error hcause⟩
  refine ⟨hron, fun hname => ?_, fun htoml hron => ?_,
    fun other earlier source hsource hload hname => ?_⟩
  · have hsaves : (saveTo lib disk files name c).1 = .ok () ↔ c.FitsToml := by
      by_cases h : c.FitsToml
      · exact ⟨fun _ => h, fun _ => (hfits hname h).1⟩
      · obtain ⟨cause, hcause⟩ := hlarge hname h
        rw [hcause]
        refine ⟨fun hok => ?_, fun hfits => absurd hfits h⟩
        cases hok
    exact ⟨hsaves, fun hok => hfits hname (hsaves.mp hok),
      fun hfails => hlarge hname fun h => hfails (hsaves.mpr h)⟩
  · apply saveTo_of_error
    unfold encode Format.ofName?
    rw [htoml, hron]
    rfl
  · -- The text that was loaded fits, whatever disk it came from.
    have hloaded : c.FitsToml := by
      unfold loadFrom at hload
      split at hload
      · cases hload
      · exact fitsToml_of_decode hread hsource hload
    exact hname.elim (fun hname => hfits hname hloaded) hron

/-- Two filters with flags that have no name, one of them twice. -/
def unnamedBuckets : List Filter :=
  [Filter.ofWords ⟨0x80000001⟩ ⟨0xc0000009⟩, Filter.everything,
   Filter.ofWords ⟨0x80000001⟩ ⟨0xc0000009⟩]

/-- A configuration that fits no TOML file. -/
def largestConfig : Config := ⟨0xffffffffffffffff, 0, unnamedBuckets⟩

/-- A configuration that just fits. -/
def largeConfig : Config := ⟨0x7fffffffffffffff, 0, unnamedBuckets⟩

theorem saved_loads_back_large :
    Disk.folder.Keeps .nothing "scene.ron" ∧ Disk.folder.Keeps .nothing "scene.toml" ∧
      Disk.folder.Keeps .nothing "scene" ∧
      LoadsBack .standard .folder .nothing "scene.ron" largestConfig ∧
      (∃ cause, saveTo .standard .folder .nothing "scene.toml" largestConfig
        = (.error (.unwritable cause), .nothing)) ∧
      saveTo .standard .folder .nothing "scene" largestConfig
        = (.error (.unsupportedFormat "scene"), .nothing) ∧
      LoadsBack .standard .folder .nothing "scene.toml" largeConfig ∧
      LoadsBack .standard .folder .nothing "scene.ron" largeConfig := by
  have hlib := Library.writes_standard
  have hread := Library.reads_standard
  have hnothing : Entry.nothing ≠ .directory := fun heq => by cases heq
  have hron : Disk.folder.Keeps .nothing "scene.ron" := keeps_folder (by decide) hnothing
  have htoml : Disk.folder.Keeps .nothing "scene.toml" := keeps_folder (by decide) hnothing
  have hplain : Disk.folder.Keeps .nothing "scene" := keeps_folder (by decide) hnothing
  have hname : Format.toml.matchesName "scene.toml" = true := by decide
  obtain ⟨hlargestRon, -⟩ := saved_loads_back hlib hread hron largestConfig
  obtain ⟨-, hlargestToml, -⟩ := saved_loads_back hlib hread htoml largestConfig
  obtain ⟨-, -, hlargestPlain, -⟩ := saved_loads_back hlib hread hplain largestConfig
  obtain ⟨-, hlargeToml, -⟩ := saved_loads_back hlib hread htoml largeConfig
  obtain ⟨-, -, -, hlargeLoaded⟩ := saved_loads_back hlib hread hron largeConfig
  have hlarge : LoadsBack .standard .folder .nothing "scene.toml" largeConfig :=
    (hlargeToml hname).2.1 ((hlargeToml hname).1.mpr (by decide))
  have hlargest : ¬ (largestConfig.initialCapacity.toNat ≤ Numeral.signedLimit ∧
      largestConfig.growthSlack.toNat ≤ Numeral.signedLimit) := by decide
  exact ⟨hron, htoml, hplain, hlargestRon (by decide),
    (hlargestToml hname).2.2 fun hok => hlargest ((hlargestToml hname).1.mp hok),
    hlargestPlain (by decide) (by decide), hlarge,
    hlargeLoaded .folder _ "scene.toml" hname hlarge.2 (Or.inr (by decide))⟩

end Files

end Config

end SceneIndex
