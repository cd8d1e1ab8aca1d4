import Mathlib
import SceneIndex.Proofs.Config.Library
import SceneIndex.Proofs.Config.Readings
import SceneIndex.Proofs.Config.Saved
import SceneIndex.Proofs.Filter.Algebra

/-!
# What is loaded from a file

A configuration file may leave settings out, put them in any order and have
fields of its own in between. What is loaded is the default with the settings
that are there put in, and it is loaded exactly if every setting is there once at
most and has a value of its sort.

A document is read by a library, and what is read is taken for what its fields
say (`Tells`). The two formats are the same from there on. So a file may be
rewritten in the other format, with its settings in another order, other fields
left out or added, and bits of values that the masks do not cover changed: the
configuration that is loaded stays the same.

Where a file is refused, this is because of the text. A TOML text with a key in it
twice, or with a number that is too large, has no table that could be looked at.
So what is wrong with it is told by what the text gives, of which no more is known
than that every table that is read has just that in it (`Library.Follows`). A RON
record may have any fields, and what is wrong with it is seen there.

## Main definitions

* `Holds`: A file has this text, and its name tells this format.
* `Tells`: The settings that the fields of a document give.
* `Fault`: Something is wrong with a setting.

## Theorems

* `read?_eq_some_iff`: What is read is what the settings make of the default.
* `read?_of_fault`: No configuration is read from a text with a fault.
* `loaded_as_told`: All files.
-/

namespace SceneIndex

namespace Config

open Text

/-- A file with this text is under the name, which tells the format. -/
structure Holds (disk : Disk) (files : disk.State) (name : String) (format : Format)
    (text : String) : Prop where
  read : disk.read files name = .ok text
  format : Format.ofName? name = some format

/-- What the fields of a well-formed document say, one setting for each. -/
inductive Tells (lib : Library) : Format → String → List Setting → Prop
  | toml {text : String} {t : Toml.Table} {settings : List Setting}
      (hread : lib.readToml text = some t)
      (hmeans : List.Forall₂ (Says tomlReading) t settings) : Tells lib .toml text settings
  | ron {text : String} {d : Ron.Document} {fields : List (String × Ron.Value)}
      {settings : List Setting} (hread : lib.readRon text = some d)
      (hrecord : RonRecord "SceneConfig" d.value fields)
      (hmeans : List.Forall₂ (Says (ronReading d.extensions.unwrapNewtypes)) fields settings) :
      Tells lib .ron text settings

/-- Something is wrong with a setting: it is there twice, it is a number that is
    out of range, or a bucket is spoilt. -/
inductive Fault (lib : Library) (given : String → Option Toml.Table) : Format → String → Prop
  | toml {text : String} {t : Toml.Table} (hgives : given text = some t)
      (hfaulty : Faulty OutsideToml SpoiltToml t) : Fault lib given .toml text
  | ron {text : String} {d : Ron.Document} {fields : List (String × Ron.Value)}
      (hread : lib.readRon text = some d) (hrecord : RonRecord "SceneConfig" d.value fields)
      (hfaulty : Faulty OutsideRon SpoiltRon fields) : Fault lib given .ron text

section Texts

variable {lib : Library} {given : String → Option Toml.Table} {format : Format} {text : String}
  {settings : List Setting} {c : Config}

theorem fields_of_read?_ron (h : read? lib .ron text = some c) : ∃ d fields,
    lib.readRon text = some d ∧ RonRecord "SceneConfig" d.value fields ∧
      ofFields wordOfRon (bucketsOfRon d.extensions.unwrapNewtypes) fields = some c := by
  obtain ⟨d, hd, hc⟩ := Option.bind_eq_some_iff.mp h
  rw [ofRon_eq_ofFields] at hc
  obtain ⟨fields, hfields, hc⟩ := Option.bind_eq_some_iff.mp hc
  exact ⟨d, fields, hd, fieldsOfRon_eq_some_iff.mp hfields, hc⟩

section Reads

variable (hlib : lib.Reads)

include hlib

theorem fields_of_read?_toml (h : read? lib .toml text = some c) :
    ∃ t, lib.readToml text = some t ∧ ofFields wordOfToml bucketsOfToml t = some c := by
  obtain ⟨t, ht, hc⟩ := Option.bind_eq_some_iff.mp h
  rw [ofToml_eq_ofFields (hlib.nodup text t ht)] at hc
  exact ⟨t, ht, hc⟩

/-- Settings that are told, none of them twice, are put into the default. -/
theorem read?_of_tells (h : Tells lib format text settings) (honce : Once settings) :
    read? lib format text = some (settings.foldl override {}) := by
  cases h with
  | toml hread hmeans =>
      unfold read?
      rw [hread, Option.bind_some, ofToml_eq_ofFields (hlib.nodup _ _ hread)]
      exact ofFields_of_settings decodes_tomlReading hmeans honce
  | ron hread hrecord hmeans =>
      unfold read?
      rw [hread, Option.bind_some, ofRon_eq_ofFields, fieldsOfRon_eq_some_iff.mpr hrecord,
        Option.bind_some]
      exact ofFields_of_settings (decodes_ronReading _) hmeans honce

/-- A configuration is read from a text exactly if the text tells settings, none
    of them twice, and they make it of the default. -/
theorem read?_eq_some_iff : read? lib format text = some c ↔
    ∃ settings, Tells lib format text settings ∧ Once settings ∧
      settings.foldl override {} = c := by
  constructor
  · intro h
    cases format with
    | toml =>
        obtain ⟨t, ht, hc⟩ := fields_of_read?_toml hlib h
        obtain ⟨settings, hmeans, hrest⟩ := (ofFields_eq_some_iff decodes_tomlReading c).mp hc
        exact ⟨settings, .toml ht hmeans, hrest⟩
    | ron =>
        obtain ⟨d, fields, hd, hrecord, hc⟩ := fields_of_read?_ron h
        obtain ⟨settings, hmeans, hrest⟩ := (ofFields_eq_some_iff (decodes_ronReading _) c).mp hc
        exact ⟨settings, .ron hd hrecord hmeans, hrest⟩
  · rintro ⟨settings, htells, honce, rfl⟩
    exact read?_of_tells hlib htells honce

/-- A TOML document tells no setting twice. -/
theorem once_of_tells_toml (h : Tells lib .toml text settings) : Once settings := by
  cases h with
  | toml hread hmeans =>
      exact (once_iff hmeans).mpr fun name _ =>
        List.nodup_iff_count_le_one.mp (hlib.nodup _ _ hread) name

/-- No configuration is read from a text with a fault. -/
theorem read?_of_fault (hgiven : lib.Follows given) (h : Fault lib given format text) :
    read? lib format text = none := by
  rw [Option.eq_none_iff_forall_ne_some]
  intro c hc
  cases h with
  | toml hgives hfaulty =>
      obtain ⟨t, ht, hc⟩ := fields_of_read?_toml hlib hc
      obtain rfl := Option.some.inj (hgives.symm.trans (hgiven text t ht))
      have hnumber := fun field hfield => wordOfToml_of_outside (hlib.inRange text _ ht field hfield)
      rw [ofFields_of_faulty hnumber (fun _ => bucketsOfToml_of_spoilt) hfaulty] at hc
      cases hc
  | ron hread hrecord hfaulty =>
      obtain ⟨d, fields, hd, hrecord', hc⟩ := fields_of_read?_ron hc
      obtain rfl := Option.some.inj (hread.symm.trans hd)
      obtain rfl := hrecord.fields_eq hrecord'
      rw [ofFields_of_faulty (fun _ _ => wordOfRon_of_outside) (fun _ => bucketsOfRon_of_spoilt)
        hfaulty] at hc
      cases hc

end Reads

end Texts

section Files

variable {lib : Library} {given : String → Option Toml.Table} {disk : Disk} {files : disk.State}
  {name text : String} {format : Format}

/-- What is loaded from a file is what is read from its text. -/
theorem Holds.loadFrom_eq (hfile : Holds disk files name format text) :
    loadFrom lib disk files name = (read? lib format text).elim (.error .malformed) .ok := by
  have hdecode : decode lib name text
      = (read? lib format text).elim (.error .malformed) .ok := by
    unfold decode
    simp only [hfile.format]
    cases read? lib format text with
    | none => rfl
    | some c => rfl
  unfold loadFrom
  simp only [hfile.read, hdecode]

theorem Holds.loadFrom_of_some (hfile : Holds disk files name format text) {c : Config}
    (h : read? lib format text = some c) : loadFrom lib disk files name = .ok c := by
  rw [hfile.loadFrom_eq, h]
  rfl

theorem Holds.loadFrom_of_none (hfile : Holds disk files name format text)
    (h : read? lib format text = none) : loadFrom lib disk files name = .error .malformed := by
  rw [hfile.loadFrom_eq, h]
  rfl

/-- From a file with well-formed fields the default is loaded with the settings
    put in that the fields tell, if none is told twice. TOML fields never tell one
    twice. All other files are refused, those with a fault among them. Files that
    tell the same, in either format, are loaded alike. A bucket loses the bits of
    its value that its mask does not cover, which changes no key that it accepts. -/
theorem loaded_as_told (hlib : lib.Reads) (hgiven : lib.Follows given)
    (hfile : Holds disk files name format text) :
    (∀ settings, Tells lib format text settings → Once settings →
      loadFrom lib disk files name = .ok (settings.foldl override {})) ∧
    (∀ settings, Tells lib format text settings → format = .toml → Once settings) ∧
    ((∀ settings, Tells lib format text settings → ¬ Once settings) →
      loadFrom lib disk files name = .error .malformed) ∧
    (Fault lib given format text → loadFrom lib disk files name = .error .malformed) ∧
    (∀ (other : Disk) (files' : other.State) (name' text' : String) (format' : Format),
      Holds other files' name' format' text' →
      ∀ settings settings', Tells lib format text settings → Once settings →
        Tells lib format' text' settings' → SameSettings settings settings' →
        loadFrom lib other files' name' = loadFrom lib disk files name) ∧
    ∀ value mask, Filter.ofWords value mask = Filter.ofWords (value.inter mask) mask ∧
      (Filter.ofWords value mask).value = value.inter mask ∧
      (Filter.ofWords value mask).mask = mask ∧
      ∀ k, (Filter.ofWords value mask).accepts k = true ↔
        ∀ i < 32, mask.bitAt i = true → k.flags.bitAt i = value.bitAt i := by
  refine ⟨fun settings htells honce => hfile.loadFrom_of_some (read?_of_tells hlib htells honce),
    fun settings htells hformat => ?_, fun hnone => hfile.loadFrom_of_none ?_,
    fun hfault => hfile.loadFrom_of_none (read?_of_fault hlib hgiven hfault),
    fun other files' name' text' format' hother settings settings' htells honce htells' hsame => ?_,
    fun value mask => ⟨(ofWords_tidy value mask).symm, rfl, rfl,
      Filter.accepts_ofWords_iff value mask⟩⟩
  · subst hformat
    exact once_of_tells_toml hlib htells
  · rw [Option.eq_none_iff_forall_ne_some]
    intro c hc
    obtain ⟨settings, htells, honce, _⟩ := (read?_eq_some_iff hlib).mp hc
    exact hnone settings htells honce
  · have hread := read?_of_tells hlib htells honce
    have hread' := read?_of_tells hlib htells' (once_of_same honce hsame)
    rw [← foldl_override_eq honce hsame {}] at hread'
    rw [hfile.loadFrom_of_some hread, hother.loadFrom_of_some hread']

/-- A file of the working folder. -/
theorem holds_folder (hname : checkWritable name = .ok ())
    (hformat : Format.ofName? name = some format) (text : String) :
    Holds .folder (.ofText text) name format text := by
  have hnothing : Entry.nothing ≠ .directory := fun heq => by cases heq
  have hkeeps := (keeps_folder hname hnothing text).2
  have hwrite : writeFile name text .nothing = (.ok (), .ofText text) := by
    unfold writeFile
    rw [hname]
  change readFile name (writeFile name text .nothing).2 = .ok text at hkeeps
  rw [hwrite] at hkeeps
  exact ⟨hkeeps, hformat⟩

/-- A document with a loose bit in a bucket, without the first setting, and with
    other fields. -/
def looseToml : String :=
  "growth_slack = 4 # half\nother = \x7ba = [1, true]\x7d\n\n[[extra_buckets]]\n"
    ++ "mask = \"TYPE_SHAPE\"\nextra = 1\nvalue = \"TYPE_SHAPE | DYNAMIC\"\n"
    ++ "[unknown]\nx = 1979-05-27\n"

/-- Its root table. -/
def looseTable : Toml.Table :=
  [("growth_slack", .integer 4),
   ("other", .table .braces [("a", .array false [.integer 1, .boolean true])]),
   ("extra_buckets", .array true [.table .header [("mask", .text "TYPE_SHAPE"),
     ("extra", .integer 1), ("value", .text "TYPE_SHAPE | DYNAMIC")]]),
   ("unknown", .table .header [("x", .moment "1979-05-27")])]

/-- A document of the other format that says the same, without the loose bit. -/
def looseRon : String :=
  "(extra_buckets: [(mask: (\"TYPE_SHAPE\"), other: [1, 2.5], value: (\"TYPE_SHAPE\"))], "
    ++ "/* unknown */ unknown: Some((1, \"x\")), growth_slack: 0x4)"

/-- The fields of its record. -/
def looseFields : List (String × Ron.Value) :=
  [("extra_buckets", .list [.record none [("mask", .tuple none [.text "TYPE_SHAPE"]),
     ("other", .list [.whole 1, .number "2.5"]), ("value", .tuple none [.text "TYPE_SHAPE"])]]),
   ("unknown", .present (.tuple none [.whole 1, .text "x"])), ("growth_slack", .whole 4)]

theorem read_shape : Flags.read "TYPE_SHAPE" = .ok ⟨1⟩ := by decide

set_option maxRecDepth 20000 in
theorem tells_looseToml :
    Tells .standard .toml looseToml [.slack 4, .foreign, .buckets [(⟨33⟩, ⟨1⟩)], .foreign] := by
  have hread : Library.standard.readToml looseToml = some looseTable := by cbv
  have hloose : Flags.read "TYPE_SHAPE | DYNAMIC" = .ok ⟨33⟩ := by decide
  refine .toml hread (.cons ⟨by decide, rfl⟩ (.cons ⟨by decide, trivial⟩
    (.cons ⟨by decide, true, _, rfl, .cons (.table rfl rfl ?_ ?_) .nil⟩
      (.cons ⟨by decide, trivial⟩ .nil))))
  · exact ⟨_, rfl, hloose⟩
  · exact ⟨_, rfl, read_shape⟩

set_option maxRecDepth 20000 in
theorem tells_looseRon :
    Tells .standard .ron looseRon [.buckets [(⟨1⟩, ⟨1⟩)], .foreign, .slack 4] := by
  have hread : Library.standard.readRon looseRon = some ⟨{}, .record none looseFields⟩ := by cbv
  refine .ron hread (.record (Or.inl rfl)) (.cons ⟨by decide, _, rfl, .cons ?_ .nil⟩
    (.cons ⟨by decide, trivial⟩ (.cons ⟨by decide, rfl⟩ .nil)))
  exact ⟨_, _, _, .record (Or.inl rfl), rfl, rfl, .wrapped (Or.inl rfl) read_shape,
    .wrapped (Or.inl rfl) read_shape⟩

theorem fault_repeated :
    Fault .standard Toml.given? .toml "growth_slack = 1\ngrowth_slack = 2\n" := by
  have hgives : Toml.given? "growth_slack = 1\ngrowth_slack = 2\n"
      = some [("growth_slack", .integer 1), ("growth_slack", .integer 2)] := by cbv
  exact .toml hgives (.repeated (by decide : "growth_slack" ∈ settingNames) (by decide))

theorem fault_large :
    Fault .standard Toml.given? .toml "growth_slack = 0x8000_0000_0000_0000\n" := by
  have hgives : Toml.given? "growth_slack = 0x8000_0000_0000_0000\n"
      = some [("growth_slack", .integer 0x8000000000000000)] := by cbv
  have houtside : OutsideToml (.integer 0x8000000000000000) := ⟨_, rfl, Or.inr (by decide)⟩
  exact .toml hgives (.range (Or.inr rfl) (.head _) houtside)

set_option maxRecDepth 20000 in
theorem fault_negative : Fault .standard Toml.given? .ron "(growth_slack: -1)" := by
  have hread : Library.standard.readRon "(growth_slack: -1)"
      = some ⟨{}, .record none [("growth_slack", .number "-1")]⟩ := by cbv
  have houtside : OutsideRon (.number "-1") := Or.inr ⟨_, rfl⟩
  exact .ron hread (.record (Or.inl rfl)) (.range (Or.inr rfl) (.head _) houtside)

set_option maxRecDepth 20000 in
theorem fault_partial :
    Fault .standard Toml.given? .ron "(extra_buckets: [(value: (\"TYPE_SHAPE\"))])" := by
  have hread : Library.standard.readRon "(extra_buckets: [(value: (\"TYPE_SHAPE\"))])"
      = some ⟨{}, .record none [("extra_buckets",
          .list [.record none [("value", .tuple none [.text "TYPE_SHAPE"])]])]⟩ := by cbv
  have hbroken : BrokenRon (.record none [("value", .tuple none [.text "TYPE_SHAPE"])]) :=
    .parts (.record (Or.inl rfl)) (by decide : "mask" ∈ partNames) (by decide)
  exact .ron hread (.record (Or.inl rfl)) (.bucket (.head _) ⟨_, rfl, _, .head _, hbroken⟩)

theorem loaded_as_told_loose :
    loadFrom .standard .folder (.ofText looseToml) "scene.toml"
        = .ok ⟨101, 4, [Filter.ofWords ⟨1⟩ ⟨1⟩]⟩ ∧
      loadFrom .standard .folder (.ofText looseRon) "scene.ron"
        = .ok ⟨101, 4, [Filter.ofWords ⟨1⟩ ⟨1⟩]⟩ ∧
      loadFrom .standard .folder (.ofText "growth_slack = 1\ngrowth_slack = 2\n") "scene.toml"
        = .error .malformed ∧
      loadFrom .standard .folder (.ofText "growth_slack = 0x8000_0000_0000_0000\n") "scene.toml"
        = .error .malformed ∧
      loadFrom .standard .folder (.ofText "(growth_slack: -1)") "scene.ron"
        = .error .malformed ∧
      loadFrom .standard .folder (.ofText "(extra_buckets: [(value: (\"TYPE_SHAPE\"))])")
        "scene.ron" = .error .malformed := by
  have hlib := Library.reads_standard
  have hgiven := Library.follows_standard
  have htoml : ∀ text, Holds .folder (.ofText text) "scene.toml" .toml text :=
    holds_folder (by decide) (by decide)
  have hron : ∀ text, Holds .folder (.ofText text) "scene.ron" .ron text :=
    holds_folder (by decide) (by decide)
  obtain ⟨hloads, honce, -, -, hsame, -⟩ := loaded_as_told hlib hgiven (htoml looseToml)
  have hloose := honce _ tells_looseToml rfl
  have hload := hloads _ tells_looseToml hloose
  have hother := hsame _ _ _ _ _ (hron looseRon) _ _ tells_looseToml hloose tells_looseRon
    (by decide)
  obtain ⟨-, -, -, hrepeated, -⟩ := loaded_as_told hlib hgiven (htoml _)
  obtain ⟨-, -, -, hlarge, -⟩ := loaded_as_told hlib hgiven (htoml _)
  obtain ⟨-, -, -, hnegative, -⟩ := loaded_as_told hlib hgiven (hron _)
  obtain ⟨-, -, -, hpartial, -⟩ := loaded_as_told hlib hgiven (hron _)
  refine ⟨?_, ?_, hrepeated fault_repeated, hlarge fault_large, hnegative fault_negative,
    hpartial fault_partial⟩
  · rw [hload]
    exact congrArg Except.ok (by decide)
  · rw [hother, hload]
    exact congrArg Except.ok (by decide)

end Files

end Config

end SceneIndex
