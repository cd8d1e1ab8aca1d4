import SceneIndex.Proofs.Config.Ron
import SceneIndex.Proofs.Config.Settings

/-!
# What the values of the two formats say

Both formats have numbers and lists of buckets, and in both a bucket has two
parts with flags. Here it is said which values these are, and that the decoders
take them and no others (`decodes_tomlReading`, `decodes_ronReading`). The
decoders of documents are then those of `Settings`: a table of a TOML document
has no key twice, so looking for the first entry of a key is looking for the
only one.

Values that are no buckets deserve their own list, since there is more than one
way to spoil a bucket: a part that is missing or there twice, or flags that
cannot be read (`BrokenToml`, `BrokenRon`).

## Main definitions

* `TomlBucket`, `RonBucket`: A value is a bucket, with this value and mask.
* `tomlReading`, `ronReading`: What values say.
* `BrokenToml`, `BrokenRon`: A bucket is spoilt.
* `OutsideToml`, `OutsideRon`: A number is no setting.
* `SpoiltToml`, `SpoiltRon`: One of the buckets is spoilt.

## Theorems

* `decodes_tomlReading`, `decodes_ronReading`: The decoders go by it.
* `ofToml_eq_ofFields`, `ofRon_eq_ofFields`: A document is decoded by its fields.
* `bucketOfToml_of_broken`, `bucketOfRon_of_broken`: Spoilt buckets are refused.
* `wordOfToml_of_outside`, `wordOfRon_of_outside`: Numbers outside are refused.
-/

namespace SceneIndex

namespace Config

/-- The parts of a bucket. -/
def partNames : List String := ["value", "mask"]

theorem mem_partNames {part : String} : part ∈ partNames ↔ part = "value" ∨ part = "mask" := by
  unfold partNames
  rw [List.mem_cons, List.mem_singleton]

theorem toOption_eq_some_iff {content : String} {a : Flags} :
    (Flags.read content).toOption = some a ↔ Flags.read content = .ok a := by
  cases Flags.read content with
  | ok b => exact ⟨fun h => congrArg _ (Option.some.inj h), fun h => congrArg _ (Except.ok.inj h)⟩
  | error e =>
      constructor
      · intro h
        cases h
      · intro h
        cases h

section Lists

variable {V : Type} {decode : V → Option Filter} {means : V → Flags × Flags → Prop}

/-- A list is decoded item by item. -/
theorem mapM_buckets_iff
    (hdecode : ∀ v f, decode v = some f ↔ ∃ w, means v w ∧ Filter.ofWords w.1 w.2 = f)
    (items : List V) (filters : List Filter) :
    items.mapM decode = some filters ↔ ∃ written, List.Forall₂ means items written ∧
      (written.map fun w => Filter.ofWords w.1 w.2) = filters := by
  induction items generalizing filters with
  | nil =>
      constructor
      · intro h
        exact ⟨[], .nil, Option.some.inj h⟩
      · rintro ⟨written, hwritten, rfl⟩
        cases hwritten
        rfl
  | cons v rest ih =>
      rw [List.mapM_cons]
      constructor
      · intro h
        obtain ⟨f, hf, h⟩ := Option.bind_eq_some_iff.mp h
        obtain ⟨others, hothers, h⟩ := Option.bind_eq_some_iff.mp h
        obtain ⟨w, hw, rfl⟩ := (hdecode v f).mp hf
        obtain ⟨written, hwritten, rfl⟩ := (ih others).mp hothers
        exact ⟨w :: written, .cons hw hwritten, Option.some.inj h⟩
      · rintro ⟨written, hwritten, rfl⟩
        cases hwritten with
        | @cons _ w _ written hw hwritten =>
            have hf := (hdecode v _).mpr ⟨w, hw, rfl⟩
            have hothers := (ih _).mpr ⟨written, hwritten, rfl⟩
            rw [hf, hothers]
            rfl

/-- A list with an item that cannot be decoded is refused. -/
theorem mapM_eq_none {items : List V} {item : V} (hitem : item ∈ items)
    (hnone : decode item = none) : items.mapM decode = none := by
  induction items with
  | nil => exact absurd hitem List.not_mem_nil
  | cons v rest ih =>
      rw [List.mapM_cons]
      rcases List.mem_cons.mp hitem with rfl | hrest
      · rw [hnone]
        rfl
      · rw [ih hrest]
        cases decode v with
        | none => rfl
        | some f => rfl

end Lists

section Toml

open Toml (Table)

variable {v value mask : Toml.Value} {a : Flags} {f : Filter}

/-- A text of flags. -/
def TomlFlags (v : Toml.Value) (a : Flags) : Prop :=
  ∃ content, v = .text content ∧ Flags.read content = .ok a

/-- A bucket: a table with a value and a mask, or an array that begins with the
    two. -/
inductive TomlBucket : Toml.Value → Flags × Flags → Prop
  | table {origin : Toml.Origin} {entries : Table} {value mask : Toml.Value} {w : Flags × Flags}
      (hvalue : Table.get? entries "value" = some value)
      (hmask : Table.get? entries "mask" = some mask)
      (hv : TomlFlags value w.1) (hm : TomlFlags mask w.2) : TomlBucket (.table origin entries) w
  | array {grown : Bool} {value mask : Toml.Value} {rest : List Toml.Value} {w : Flags × Flags}
      (hv : TomlFlags value w.1) (hm : TomlFlags mask w.2) :
      TomlBucket (.array grown (value :: mask :: rest)) w

/-- Numbers are whole ones, and buckets are in arrays. -/
def tomlReading : Reading Toml.Value where
  number v n := v = .integer n.toNat
  buckets v written := ∃ grown items, v = .array grown items ∧
    List.Forall₂ TomlBucket items written

theorem flagsOfToml_eq_some_iff : flagsOfToml v = some a ↔ TomlFlags v a := by
  constructor
  · intro h
    cases v with
    | text content => exact ⟨content, rfl, toOption_eq_some_iff.mp h⟩
    | _ => cases h
  · rintro ⟨content, rfl, h⟩
    exact toOption_eq_some_iff.mpr h

theorem filterOfToml_eq_some_iff : filterOfToml value mask = some f ↔
    ∃ w : Flags × Flags, TomlFlags value w.1 ∧ TomlFlags mask w.2 ∧
      Filter.ofWords w.1 w.2 = f := by
  unfold filterOfToml
  constructor
  · intro h
    split at h
    · rename_i v m hv hm
      exact ⟨(v, m), flagsOfToml_eq_some_iff.mp hv, flagsOfToml_eq_some_iff.mp hm,
        Option.some.inj h⟩
    · cases h
  · rintro ⟨w, hv, hm, rfl⟩
    rw [flagsOfToml_eq_some_iff.mpr hv, flagsOfToml_eq_some_iff.mpr hm]

theorem bucketOfToml_eq_some_iff (v : Toml.Value) (f : Filter) :
    bucketOfToml v = some f ↔ ∃ w, TomlBucket v w ∧ Filter.ofWords w.1 w.2 = f := by
  constructor
  · intro h
    unfold bucketOfToml at h
    split at h
    · split at h
      · rename_i hvalue hmask
        obtain ⟨w, hv, hm, hf⟩ := filterOfToml_eq_some_iff.mp h
        exact ⟨w, .table hvalue hmask hv hm, hf⟩
      · cases h
    · obtain ⟨w, hv, hm, hf⟩ := filterOfToml_eq_some_iff.mp h
      exact ⟨w, .array hv hm, hf⟩
    · cases h
  · rintro ⟨w, hbucket, hf⟩
    cases hbucket with
    | table hvalue hmask hv hm =>
        simp only [bucketOfToml, hvalue, hmask]
        exact filterOfToml_eq_some_iff.mpr ⟨w, hv, hm, hf⟩
    | array hv hm => exact filterOfToml_eq_some_iff.mpr ⟨w, hv, hm, hf⟩

theorem wordOfToml_eq_some_iff (v : Toml.Value) (n : UInt64) :
    wordOfToml v = some n ↔ v = .integer n.toNat := by
  constructor
  · intro h
    unfold wordOfToml at h
    split at h
    · rename_i k
      split at h
      · rename_i hrange
        have hless : k.toNat < UInt64.size := by omega
        rw [← Option.some.inj h, UInt64.toNat_ofNat_of_lt' hless, Int.toNat_of_nonneg hrange.1]
      · cases h
    · cases h
  · rintro rfl
    exact wordOfToml_integer n

/-- The decoders of TOML values go by what they say. -/
theorem decodes_tomlReading : Decodes tomlReading wordOfToml bucketsOfToml where
  number_iff := wordOfToml_eq_some_iff
  buckets_iff v filters := by
    constructor
    · intro h
      unfold bucketsOfToml at h
      split at h
      · rename_i grown items
        obtain ⟨written, hwritten, hfilters⟩ :=
          (mapM_buckets_iff bucketOfToml_eq_some_iff items filters).mp h
        exact ⟨written, ⟨grown, items, rfl, hwritten⟩, hfilters⟩
      · cases h
    · rintro ⟨written, ⟨grown, items, rfl, hwritten⟩, hfilters⟩
      exact (mapM_buckets_iff bucketOfToml_eq_some_iff items filters).mpr
        ⟨written, hwritten, hfilters⟩

-- Where no key is there twice, the first entry of a key is the only one.
theorem fieldOf?_eq_get? {t : Table} (ht : (t.map Prod.fst).Nodup) (key : String) :
    fieldOf? t key = some (t.get? key) := by
  have hlength : (t.filter fun entry => entry.1 == key).length ≤ 1 := by
    have hcount := List.nodup_iff_count_le_one.mp ht key
    rw [List.count_eq_countP, List.countP_map, List.countP_eq_length_filter] at hcount
    exact hcount
  unfold fieldOf? Table.get?
  rw [← List.head?_filter]
  generalize (t.filter fun entry => entry.1 == key) = named at hlength ⊢
  match named with
  | [] => rfl
  | [_] => rfl
  | _ :: _ :: _ => simp at hlength

/-- A table stands for what its entries stand for, if no key is there twice. -/
theorem ofToml_eq_ofFields {t : Table} (ht : (t.map Prod.fst).Nodup) :
    ofToml t = ofFields wordOfToml bucketsOfToml t := by
  have hsetting : ∀ {α : Type} (key : String) (default : α) (decode : Toml.Value → Option α),
      settingOfToml t key default decode = settingOf t key default decode := by
    intro α key default decode
    unfold settingOfToml settingOf
    rw [fieldOf?_eq_get? ht]
    cases t.get? key with
    | none => rfl
    | some v => rfl
  unfold ofToml
  simp only [hsetting]
  rfl

/-- A bucket is spoilt: a part is missing, or has flags that cannot be read. -/
inductive BrokenToml : Toml.Value → Prop
  | missing {origin : Toml.Origin} {entries : Table} {part : String} (hpart : part ∈ partNames)
      (hnone : Table.get? entries part = none) : BrokenToml (.table origin entries)
  | rejected {origin : Toml.Origin} {entries : Table} {part content : String}
      {e : Flags.ReadError} (hpart : part ∈ partNames)
      (hget : Table.get? entries part = some (.text content))
      (hread : Flags.read content = .error e) : BrokenToml (.table origin entries)
  | short {grown : Bool} {items : List Toml.Value} (h : items.length < 2) :
      BrokenToml (.array grown items)
  | rejectedAt {grown : Bool} {items : List Toml.Value} {i : Nat} {content : String}
      {e : Flags.ReadError} (hi : i < 2) (hget : items[i]? = some (.text content))
      (hread : Flags.read content = .error e) : BrokenToml (.array grown items)

/-- A whole number that is no setting: below zero, or above 64 bits with a sign. -/
def OutsideToml (v : Toml.Value) : Prop :=
  ∃ k : Int, v = .integer k ∧ (k < 0 ∨ (Text.Numeral.signedLimit : Int) < k)

/-- Buckets of which one is spoilt. -/
def SpoiltToml (v : Toml.Value) : Prop :=
  ∃ grown items, v = .array grown items ∧ ∃ item ∈ items, BrokenToml item

/-- Of the numbers outside, those above 64 bits with a sign are in no table. The
    others are refused. -/
theorem wordOfToml_of_outside (hv : v.InRange) (h : OutsideToml v) : wordOfToml v = none := by
  obtain ⟨k, rfl, hk⟩ := h
  have hlimit := hv k rfl
  have hbelow : ¬ (0 ≤ k ∧ k < UInt64.size) := by omega
  exact if_neg hbelow

theorem not_tomlFlags {content : String} {e : Flags.ReadError}
    (hread : Flags.read content = .error e) : ¬ TomlFlags (.text content) a := by
  rintro ⟨_, heq, h⟩
  cases heq
  rw [hread] at h
  cases h

/-- A spoilt bucket is refused. -/
theorem bucketOfToml_of_broken (h : BrokenToml v) : bucketOfToml v = none := by
  rw [Option.eq_none_iff_forall_ne_some]
  intro f hf
  obtain ⟨w, hbucket, _⟩ := (bucketOfToml_eq_some_iff v f).mp hf
  cases hbucket with
  | table hvalue hmask hv hm =>
      cases h with
      | missing hpart hnone =>
          rcases mem_partNames.mp hpart with rfl | rfl
          · rw [hvalue] at hnone
            cases hnone
          · rw [hmask] at hnone
            cases hnone
      | rejected hpart hget hread =>
          rcases mem_partNames.mp hpart with rfl | rfl
          · obtain rfl := Option.some.inj (hvalue.symm.trans hget)
            exact not_tomlFlags hread hv
          · obtain rfl := Option.some.inj (hmask.symm.trans hget)
            exact not_tomlFlags hread hm
  | array hv hm =>
      cases h with
      | short hshort =>
          rw [List.length_cons, List.length_cons] at hshort
          omega
      | @rejectedAt _ _ i content e hi hget hread =>
          match i with
          | 0 =>
              obtain rfl := Option.some.inj hget
              exact not_tomlFlags hread hv
          | 1 =>
              obtain rfl := Option.some.inj hget
              exact not_tomlFlags hread hm

theorem bucketsOfToml_of_spoilt (h : SpoiltToml v) : bucketsOfToml v = none := by
  obtain ⟨grown, items, rfl, item, hitem, hbroken⟩ := h
  exact mapM_eq_none hitem (bucketOfToml_of_broken hbroken)

end Toml

section Ron

variable {v : Ron.Value} {expected name : String} {fields : List (String × Ron.Value)}
  {unwrapped : Bool} {a : Flags} {f : Filter}

/-- A record with these fields, without a name or with the right one. Empty
    parentheses are a record without fields. -/
inductive RonRecord (expected : String) : Ron.Value → List (String × Ron.Value) → Prop
  | record {given : Option String} {fields : List (String × Ron.Value)}
      (hname : given = none ∨ given = some expected) : RonRecord expected (.record given fields) fields
  | unit {given : Option String} (hname : given = none ∨ given = some expected) :
      RonRecord expected (.tuple given []) []

/-- The only field of a name. -/
def OnlyField (fields : List (String × Ron.Value)) (name : String) (v : Ron.Value) : Prop :=
  (fields.filter fun field => field.1 == name) = [(name, v)]

/-- Flags: a text in a wrapper, unless an extension leaves wrappers out. -/
inductive RonFlags : Bool → Ron.Value → Flags → Prop
  | bare {content : String} {a : Flags} (h : Flags.read content = .ok a) :
      RonFlags true (.text content) a
  | wrapped {given : Option String} {content : String} {a : Flags}
      (hname : given = none ∨ given = some "ItemKeyFlags") (h : Flags.read content = .ok a) :
      RonFlags false (.tuple given [.text content]) a

/-- A bucket: a record with one value and one mask. -/
def RonBucket (unwrapped : Bool) (v : Ron.Value) (w : Flags × Flags) : Prop :=
  ∃ fields value mask, RonRecord "RawItemFilter" v fields ∧ OnlyField fields "value" value ∧
    OnlyField fields "mask" mask ∧ RonFlags unwrapped value w.1 ∧ RonFlags unwrapped mask w.2

/-- Numbers are whole ones, and buckets are in a list. -/
def ronReading (unwrapped : Bool) : Reading Ron.Value where
  number v n := v = .whole n.toNat
  buckets v written := ∃ items, v = .list items ∧
    List.Forall₂ (RonBucket unwrapped) items written

theorem fits_iff {given : Option String} :
    fits expected given = true ↔ given = none ∨ given = some expected := by
  cases given with
  | none => exact ⟨fun _ => Or.inl rfl, fun _ => rfl⟩
  | some name =>
      unfold fits
      rw [beq_iff_eq]
      exact ⟨fun h => Or.inr (congrArg some h), fun h => by simpa using h⟩

theorem fieldsOfRon_eq_some_iff :
    fieldsOfRon expected v = some fields ↔ RonRecord expected v fields := by
  constructor
  · intro h
    unfold fieldsOfRon at h
    split at h
    · split at h
      · rename_i hfits
        rw [← Option.some.inj h]
        exact .record (fits_iff.mp hfits)
      · cases h
    · split at h
      · rename_i hfits
        rw [← Option.some.inj h]
        exact .unit (fits_iff.mp hfits)
      · cases h
    · cases h
  · intro h
    cases h with
    | record hname => exact if_pos (fits_iff.mpr hname)
    | unit hname => exact if_pos (fits_iff.mpr hname)

theorem fieldOfRon?_eq_some_iff :
    fieldOfRon? fields name = some (some v) ↔ OnlyField fields name v := by
  unfold fieldOfRon? OnlyField
  constructor
  · intro h
    split at h
    · cases h
    · rename_i field hfound
      have hmem : field ∈ fields.filter fun field => field.1 == name := by
        rw [hfound]
        exact List.mem_singleton_self field
      have hname := beq_iff_eq.mp (List.mem_filter.mp hmem).2
      rw [hfound, ← hname, ← Option.some.inj (Option.some.inj h)]
    · cases h
  · intro h
    rw [h]

theorem flagsOfRon_eq_some_iff : flagsOfRon unwrapped v = some a ↔ RonFlags unwrapped v a := by
  constructor
  · intro h
    unfold flagsOfRon at h
    split at h
    · split at h
      · rename_i hunwrapped
        rw [hunwrapped]
        exact .bare (toOption_eq_some_iff.mp h)
      · cases h
    · split at h
      · rename_i hwrapped
        rw [Bool.and_eq_true, Bool.not_eq_true'] at hwrapped
        rw [hwrapped.1]
        exact .wrapped (fits_iff.mp hwrapped.2) (toOption_eq_some_iff.mp h)
      · cases h
    · cases h
  · intro h
    cases h with
    | bare h => exact toOption_eq_some_iff.mpr h
    | wrapped hname h =>
        simp only [flagsOfRon, fits_iff.mpr hname, Bool.not_false, Bool.and_self, if_true]
        exact toOption_eq_some_iff.mpr h

theorem bucketOfRon_eq_some_iff (v : Ron.Value) (f : Filter) :
    bucketOfRon unwrapped v = some f ↔
      ∃ w, RonBucket unwrapped v w ∧ Filter.ofWords w.1 w.2 = f := by
  constructor
  · intro h
    unfold bucketOfRon at h
    split at h
    · cases h
    · rename_i fields hfields
      split at h
      · rename_i value mask hvalue hmask
        split at h
        · rename_i v' m' hv hm
          exact ⟨(v', m'), ⟨fields, value, mask, fieldsOfRon_eq_some_iff.mp hfields,
            fieldOfRon?_eq_some_iff.mp hvalue, fieldOfRon?_eq_some_iff.mp hmask,
            flagsOfRon_eq_some_iff.mp hv, flagsOfRon_eq_some_iff.mp hm⟩, Option.some.inj h⟩
        · cases h
      · cases h
  · rintro ⟨w, ⟨fields, value, mask, hfields, hvalue, hmask, hv, hm⟩, rfl⟩
    simp only [bucketOfRon, fieldsOfRon_eq_some_iff.mpr hfields,
      fieldOfRon?_eq_some_iff.mpr hvalue, fieldOfRon?_eq_some_iff.mpr hmask,
      flagsOfRon_eq_some_iff.mpr hv, flagsOfRon_eq_some_iff.mpr hm]

theorem wordOfRon_eq_some_iff (v : Ron.Value) (n : UInt64) :
    wordOfRon v = some n ↔ v = .whole n.toNat := by
  constructor
  · intro h
    unfold wordOfRon at h
    split at h
    · split at h
      · rename_i hless
        rw [← Option.some.inj h, UInt64.toNat_ofNat_of_lt' hless]
      · cases h
    · cases h
  · rintro rfl
    exact wordOfRon_whole n

/-- The decoders of RON values go by what they say. -/
theorem decodes_ronReading (unwrapped : Bool) :
    Decodes (ronReading unwrapped) wordOfRon (bucketsOfRon unwrapped) where
  number_iff := wordOfRon_eq_some_iff
  buckets_iff v filters := by
    constructor
    · intro h
      unfold bucketsOfRon at h
      split at h
      · rename_i items
        obtain ⟨written, hwritten, hfilters⟩ :=
          (mapM_buckets_iff bucketOfRon_eq_some_iff items filters).mp h
        exact ⟨written, ⟨items, rfl, hwritten⟩, hfilters⟩
      · cases h
    · rintro ⟨written, ⟨items, rfl, hwritten⟩, hfilters⟩
      exact (mapM_buckets_iff bucketOfRon_eq_some_iff items filters).mpr
        ⟨written, hwritten, hfilters⟩

/-- A document stands for what the fields of its record stand for. -/
theorem ofRon_eq_ofFields (d : Ron.Document) :
    ofRon d = (fieldsOfRon "SceneConfig" d.value).bind
      (ofFields wordOfRon (bucketsOfRon d.extensions.unwrapNewtypes)) := by
  have hfield : ∀ (fields : List (String × Ron.Value)) (name : String),
      fieldOfRon? fields name = fieldOf? fields name := by
    intro fields name
    unfold fieldOfRon? fieldOf?
    generalize (fields.filter fun field => field.1 == name) = named
    match named with
    | [] => rfl
    | [_] => rfl
    | _ :: _ :: _ => rfl
  have hsetting : ∀ {α : Type} (fields : List (String × Ron.Value)) (name : String) (default : α)
      (decode : Ron.Value → Option α),
      settingOfRon fields name default decode = settingOf fields name default decode := by
    intro α fields name default decode
    unfold settingOfRon settingOf
    rw [hfield]
    generalize fieldOf? fields name = found
    match found with
    | none => rfl
    | some none => rfl
    | some (some _) => rfl
  unfold ofRon
  cases fieldsOfRon "SceneConfig" d.value with
  | none => rfl
  | some fields =>
      rw [Option.bind_some]
      simp only [hsetting]
      rfl

/-- A bucket is spoilt: a part is missing or there twice, or has flags that
    cannot be read. -/
inductive BrokenRon : Ron.Value → Prop
  | parts {v : Ron.Value} {fields : List (String × Ron.Value)} {part : String}
      (hrecord : RonRecord "RawItemFilter" v fields) (hpart : part ∈ partNames)
      (hcount : (fields.map Prod.fst).count part ≠ 1) : BrokenRon v
  | rejected {v flags : Ron.Value} {fields : List (String × Ron.Value)} {part content : String}
      {e : Flags.ReadError} (hrecord : RonRecord "RawItemFilter" v fields)
      (hpart : part ∈ partNames) (hfield : (part, flags) ∈ fields)
      (hflags : flags = .text content ∨ ∃ given, flags = .tuple given [.text content])
      (hread : Flags.read content = .error e) : BrokenRon v

/-- A number that is no setting: a whole one above 64 bits, or one with a sign, a
    fraction or an exponent. -/
def OutsideRon (v : Ron.Value) : Prop :=
  (∃ n, v = .whole n ∧ UInt64.size ≤ n) ∨ ∃ written, v = .number written

/-- Buckets of which one is spoilt. -/
def SpoiltRon (v : Ron.Value) : Prop :=
  ∃ items, v = .list items ∧ ∃ item ∈ items, BrokenRon item

theorem wordOfRon_of_outside (h : OutsideRon v) : wordOfRon v = none := by
  rcases h with ⟨n, rfl, hn⟩ | ⟨written, rfl⟩
  · exact if_neg (Nat.not_lt.mpr hn)
  · rfl

theorem not_ronFlags {content : String} {e : Flags.ReadError}
    (hflags : v = .text content ∨ ∃ given, v = .tuple given [.text content])
    (hread : Flags.read content = .error e) : ¬ RonFlags unwrapped v a := by
  intro h
  rcases hflags with rfl | ⟨given, rfl⟩
  · cases h with
    | bare h =>
        rw [hread] at h
        cases h
  · cases h with
    | wrapped _ h =>
        rw [hread] at h
        cases h

theorem RonRecord.fields_eq {others : List (String × Ron.Value)}
    (h : RonRecord expected v fields) (h' : RonRecord expected v others) : fields = others :=
  Option.some.inj ((fieldsOfRon_eq_some_iff.mpr h).symm.trans (fieldsOfRon_eq_some_iff.mpr h'))

theorem OnlyField.count_eq (h : OnlyField fields name v) :
    (fields.map Prod.fst).count name = 1 := by
  rw [List.count_eq_countP, List.countP_map, List.countP_eq_length_filter]
  exact congrArg List.length h

theorem OnlyField.eq_of_mem (h : OnlyField fields name v) {w : Ron.Value}
    (hw : (name, w) ∈ fields) : w = v := by
  have hmem : (name, w) ∈ fields.filter fun field => field.1 == name :=
    List.mem_filter.mpr ⟨hw, beq_self_eq_true name⟩
  rw [h, List.mem_singleton] at hmem
  exact (Prod.mk.inj hmem).2

/-- A spoilt bucket is refused. -/
theorem bucketOfRon_of_broken (h : BrokenRon v) : bucketOfRon unwrapped v = none := by
  rw [Option.eq_none_iff_forall_ne_some]
  intro f hf
  obtain ⟨w, ⟨fields, value, mask, hfields, hvalue, hmask, hv, hm⟩, _⟩ :=
    (bucketOfRon_eq_some_iff v f).mp hf
  cases h with
  | parts hrecord hpart hcount =>
      obtain rfl := hrecord.fields_eq hfields
      rcases mem_partNames.mp hpart with rfl | rfl
      · exact hcount hvalue.count_eq
      · exact hcount hmask.count_eq
  | rejected hrecord hpart hfield hflags hread =>
      obtain rfl := hrecord.fields_eq hfields
      rcases mem_partNames.mp hpart with rfl | rfl
      · rw [hvalue.eq_of_mem hfield] at hflags
        exact not_ronFlags hflags hread hv
      · rw [hmask.eq_of_mem hfield] at hflags
        exact not_ronFlags hflags hread hm

theorem bucketsOfRon_of_spoilt (h : SpoiltRon v) : bucketsOfRon unwrapped v = none := by
  obtain ⟨items, rfl, item, hitem, hbroken⟩ := h
  exact mapM_eq_none hitem (bucketOfRon_of_broken hbroken)

end Ron

end Config

end SceneIndex
