import Mathlib.Data.List.Forall2
import Mathlib.Data.List.Nodup
import SceneIndex.Config.Basic

/-!
# Settings in the fields of a document

A document in either format has fields, and what a configuration is made of is
the same in both: the value under each of three names, or a default where the
name is missing. Here it is said without a format. A format only has to say which
of its values are numbers and which are lists of buckets (`Reading`), and to have
decoders that agree (`Decodes`).

Every field of a well-typed document says one thing: what a setting is, or
nothing of interest (`Says`). The configuration is then the default with one
setting after the other put in. Since a name occurs once, the order makes no
difference, and fields of other names make none in any case.

The three settings are alike, so what is proved of them is proved once, for an
`Aspect`: a name, the part of a setting that is filed under it, and the entry of
the configuration that it goes to.

## Main definitions

* `Setting`: What a field says about a configuration.
* `override`: The configuration with one setting put in.
* `Setting.tidy`: The setting without the loose bits of values.
* `Once`: No setting is given twice.
* `Reading`, `Says`: What the values and the fields of a format say.
* `ofFields`: The configuration that fields stand for.
* `numbers`: The entries of a configuration that are numbers.
* `Faulty`: Something is wrong with a setting.

## Theorems

* `Aspect.get_foldl`: What one entry of a configuration is, after all settings.
* `foldl_override_eq`: The order of settings makes no difference.
* `fields_of_ofFields`: What the fields hold if they stand for a configuration.
* `ofFields_of_faulty`: Faulty fields stand for none.
* `ofFields_eq_some_iff`: What fields stand for is what they say.
-/

namespace SceneIndex

namespace Config

/-- What a field of a document says about a configuration. -/
inductive Setting where
  | capacity (n : UInt64)
  | slack (n : UInt64)
  /-- The extra buckets, each with its value and its mask as they are written. -/
  | buckets (written : List (Flags × Flags))
  /-- A field of another name. -/
  | foreign
  deriving DecidableEq

/-- The names of the settings. -/
def settingNames : List String := ["initial_capacity", "growth_slack", "extra_buckets"]

namespace Setting

/-- The name that a setting has in a document. -/
def name? : Setting → Option String
  | capacity _ => some "initial_capacity"
  | slack _ => some "growth_slack"
  | buckets _ => some "extra_buckets"
  | foreign => none

/-- The setting without the bits of values that lie outside their masks. -/
def tidy : Setting → Setting
  | buckets written => buckets (written.map fun w => (w.1.inter w.2, w.2))
  | s => s

end Setting

/-- The configuration with a setting put in. -/
def override (c : Config) : Setting → Config
  | .capacity n => { c with initialCapacity := n }
  | .slack n => { c with growthSlack := n }
  | .buckets written => { c with extraBuckets := written.map fun w => Filter.ofWords w.1 w.2 }
  | .foreign => c

/-- No setting is given twice. -/
def Once (settings : List Setting) : Prop := (settings.filterMap Setting.name?).Nodup

/-- The settings say the same of a configuration: but for order, for fields of
    other names and for loose bits of values they are the same. -/
def SameSettings (settings settings' : List Setting) : Prop :=
  ((settings.filter (· ≠ .foreign)).map Setting.tidy).Perm
    ((settings'.filter (· ≠ .foreign)).map Setting.tidy)

instance (settings settings' : List Setting) : Decidable (SameSettings settings settings') :=
  inferInstanceAs (Decidable (List.Perm _ _))

section Aspects

/-- One of the settings: its name, the part of a setting that is filed under
    this name, and the entry of a configuration that it goes to. -/
structure Aspect (α : Type) where
  name : String
  part : Setting → Option α
  get : Config → α
  isSome_part : ∀ s, (part s).isSome = true ↔ s.name? = some name
  get_override : ∀ c s, get (c.override s) = (part s).getD (get c)
  part_tidy : ∀ s, part s.tidy = part s

/-- The slots at the start. -/
def capacityAspect : Aspect UInt64 where
  name := "initial_capacity"
  part
    | .capacity n => some n
    | _ => none
  get := initialCapacity
  isSome_part s := by cases s <;> simp [Setting.name?]
  get_override c s := by cases s <;> rfl
  part_tidy s := by cases s <;> rfl

/-- The spare slots. -/
def slackAspect : Aspect UInt64 where
  name := "growth_slack"
  part
    | .slack n => some n
    | _ => none
  get := growthSlack
  isSome_part s := by cases s <;> simp [Setting.name?]
  get_override c s := by cases s <;> rfl
  part_tidy s := by cases s <;> rfl

theorem ofWords_tidy (v m : Flags) : Filter.ofWords (v.inter m) m = Filter.ofWords v m := by
  simp only [Filter.ofWords, Flags.inter, BitVec.and_assoc, BitVec.and_self]

/-- The extra buckets. -/
def bucketsAspect : Aspect (List Filter) where
  name := "extra_buckets"
  part
    | .buckets written => some (written.map fun w => Filter.ofWords w.1 w.2)
    | _ => none
  get := extraBuckets
  isSome_part s := by cases s <;> simp [Setting.name?]
  get_override c s := by cases s <;> rfl
  part_tidy s := by
    cases s with
    | buckets written =>
        simp only [Setting.tidy, List.map_map, Option.some.injEq]
        exact List.map_congr_left fun w _ => ofWords_tidy w.1 w.2
    | _ => rfl

namespace Aspect

variable {α : Type} (A : Aspect α)

theorem part_foreign : A.part .foreign = none := by
  rw [← Option.not_isSome_iff_eq_none, A.isSome_part]
  exact fun h => by cases h

/-- An entry of a configuration is what the last setting says of it. -/
theorem get_foldl (settings : List Setting) (c : Config) :
    A.get (settings.foldl override c)
      = ((settings.filterMap A.part).getLast?).getD (A.get c) := by
  induction settings generalizing c with
  | nil => rfl
  | cons s rest ih =>
      rw [List.foldl_cons, ih, A.get_override]
      cases hpart : A.part s with
      | none => rw [List.filterMap_cons_none hpart, Option.getD_none]
      | some a =>
          rw [List.filterMap_cons_some hpart, List.getLast?_cons, Option.getD_some,
            Option.getD_some]

/-- Where no setting is given twice, at most one speaks of the entry. -/
theorem length_filterMap_le {settings : List Setting} (h : Once settings) :
    (settings.filterMap A.part).length ≤ 1 := by
  have hname : ∀ s : Setting, (A.part s).isSome = (s.name? == some A.name) := by
    intro s
    rw [Bool.eq_iff_iff, A.isSome_part, beq_iff_eq]
  rw [List.length_filterMap_eq_countP]
  simp only [hname]
  rw [← List.count_filterMap]
  exact List.nodup_iff_count_le_one.mp h A.name

theorem filterMap_tidy (settings : List Setting) :
    ((settings.filter (· ≠ .foreign)).map Setting.tidy).filterMap A.part
      = settings.filterMap A.part := by
  rw [List.filterMap_map, List.filterMap_filter]
  apply List.filterMap_congr
  intro s _
  by_cases hs : s = .foreign
  · rw [hs, A.part_foreign]
    rfl
  · simp only [hs, ne_eq, not_false_eq_true, decide_true, if_true, Function.comp_apply,
      A.part_tidy]

/-- Settings that say the same lead to the same entry. -/
theorem get_foldl_eq {settings settings' : List Setting} (honce : Once settings)
    (hsame : SameSettings settings settings') (c : Config) :
    A.get (settings.foldl override c) = A.get (settings'.foldl override c) := by
  have hperm := hsame.filterMap A.part
  rw [A.filterMap_tidy, A.filterMap_tidy] at hperm
  -- A list with one element at most is its only permutation.
  have hlength := A.length_filterMap_le honce
  have heq : settings.filterMap A.part = settings'.filterMap A.part := by
    match hparts : settings.filterMap A.part with
    | [] =>
        rw [hparts] at hperm
        exact hperm.nil_eq
    | [a] =>
        rw [hparts] at hperm
        exact (List.singleton_perm.mp hperm)
    | _ :: _ :: _ =>
        rw [hparts] at hlength
        simp at hlength
  rw [A.get_foldl, A.get_foldl, heq]

end Aspect

theorem ext_entries {c c' : Config} (hcapacity : c.initialCapacity = c'.initialCapacity)
    (hslack : c.growthSlack = c'.growthSlack) (hbuckets : c.extraBuckets = c'.extraBuckets) :
    c = c' := by
  rcases c with ⟨capacity, slack, buckets⟩
  rcases c' with ⟨capacity', slack', buckets'⟩
  simp only at hcapacity hslack hbuckets
  rw [hcapacity, hslack, hbuckets]

/-- Settings that say the same lead to the same configuration. -/
theorem foldl_override_eq {settings settings' : List Setting} (honce : Once settings)
    (hsame : SameSettings settings settings') (c : Config) :
    settings.foldl override c = settings'.foldl override c := by
  have hcapacity := capacityAspect.get_foldl_eq honce hsame c
  have hslack := slackAspect.get_foldl_eq honce hsame c
  have hbuckets := bucketsAspect.get_foldl_eq honce hsame c
  exact ext_entries hcapacity hslack hbuckets

theorem name?_tidy (s : Setting) : s.tidy.name? = s.name? := by
  cases s <;> rfl

/-- Settings that say the same have the same names. -/
theorem once_of_same {settings settings' : List Setting} (honce : Once settings)
    (hsame : SameSettings settings settings') : Once settings' := by
  have hnames : ∀ settings : List Setting,
      ((settings.filter (· ≠ .foreign)).map Setting.tidy).filterMap Setting.name?
        = settings.filterMap Setting.name? := by
    intro settings
    rw [List.filterMap_map, List.filterMap_filter]
    apply List.filterMap_congr
    intro s _
    by_cases hs : s = .foreign
    · rw [hs]
      rfl
    · simp only [hs, ne_eq, not_false_eq_true, decide_true, if_true, Function.comp_apply,
        name?_tidy]
  have hperm := hsame.filterMap Setting.name?
  rw [hnames, hnames] at hperm
  exact hperm.nodup_iff.mp honce

end Aspects

section Fields

variable {V : Type}

/-- What the values of a format say: which are numbers of 64 bits without sign,
    and which are lists of buckets. -/
structure Reading (V : Type) where
  number : V → UInt64 → Prop
  buckets : V → List (Flags × Flags) → Prop

/-- What a value says, told by the setting that it is the value of. Under any
    other name it says nothing. -/
def Reading.Means (r : Reading V) (v : V) : Setting → Prop
  | .capacity n => r.number v n
  | .slack n => r.number v n
  | .buckets written => r.buckets v written
  | .foreign => True

/-- What a field says: the setting of its name, or nothing if its name is that
    of no setting. -/
structure Says (r : Reading V) (field : String × V) (s : Setting) : Prop where
  name : s.name? = if field.1 ∈ settingNames then some field.1 else none
  value : r.Means field.2 s

/-- The decoders of a format go by what its values say. -/
structure Decodes (r : Reading V) (number? : V → Option UInt64)
    (buckets? : V → Option (List Filter)) : Prop where
  number_iff : ∀ v n, number? v = some n ↔ r.number v n
  buckets_iff : ∀ v filters, buckets? v = some filters ↔
    ∃ written, r.buckets v written ∧ (written.map fun w => Filter.ofWords w.1 w.2) = filters

/-- The value of a field, if there is one. More than one is a fault. -/
def fieldOf? (fields : List (String × V)) (name : String) : Option (Option V) :=
  match fields.filter fun field => field.1 == name with
  | [] => some none
  | [field] => some (some field.2)
  | _ => none

/-- A setting among fields, or its default where it is missing. -/
def settingOf {α : Type} (fields : List (String × V)) (name : String) (default : α)
    (decode : V → Option α) : Option α :=
  match fieldOf? fields name with
  | some (some v) => decode v
  | some none => some default
  | none => none

/-- The numbers of a configuration, under their names. -/
def numbers (c : Config) : List (String × UInt64) :=
  [("initial_capacity", c.initialCapacity), ("growth_slack", c.growthSlack)]

/-- Something is wrong with a setting among fields: it is there twice, it is a
    number outside the range, or buckets of which one is spoilt. -/
inductive Faulty (outside spoilt : V → Prop) (fields : List (String × V)) : Prop
  | repeated {name : String} (hname : name ∈ settingNames)
      (hcount : 2 ≤ (fields.map Prod.fst).count name)
  | range {name : String} {v : V} (hname : name = "initial_capacity" ∨ name = "growth_slack")
      (hfield : (name, v) ∈ fields) (houtside : outside v)
  | bucket {v : V} (hfield : ("extra_buckets", v) ∈ fields) (hspoilt : spoilt v)

/-- The configuration that fields stand for. -/
def ofFields (number? : V → Option UInt64) (buckets? : V → Option (List Filter))
    (fields : List (String × V)) : Option Config :=
  let base : Config := {}
  match settingOf fields "initial_capacity" base.initialCapacity number?,
    settingOf fields "growth_slack" base.growthSlack number?,
    settingOf fields "extra_buckets" base.extraBuckets buckets? with
  | some capacity, some slack, some buckets => some ⟨capacity, slack, buckets⟩
  | _, _, _ => none

variable {r : Reading V} {fields : List (String × V)} {settings : List Setting}

/-- The names of the settings are those of the fields, without other names. -/
theorem filterMap_name? (h : List.Forall₂ (Says r) fields settings) :
    settings.filterMap Setting.name? = (fields.map Prod.fst).filter (· ∈ settingNames) := by
  induction h with
  | nil => rfl
  | @cons f s fields settings hmeans _ ih =>
      have hname := hmeans.name
      rw [List.map_cons, List.filter_cons]
      by_cases hmem : f.1 ∈ settingNames
      · rw [if_pos hmem] at hname
        rw [List.filterMap_cons_some hname, if_pos (decide_eq_true hmem), ih]
      · rw [if_neg hmem] at hname
        rw [List.filterMap_cons_none hname, if_neg (by rwa [decide_eq_true_eq]), ih]

theorem once_iff (h : List.Forall₂ (Says r) fields settings) :
    Once settings ↔ ∀ name ∈ settingNames, (fields.map Prod.fst).count name ≤ 1 := by
  have hfilter : ∀ name ∈ settingNames,
      ((fields.map Prod.fst).filter (· ∈ settingNames)).count name
        = (fields.map Prod.fst).count name :=
    fun name hname => List.count_filter (decide_eq_true hname)
  unfold Once
  rw [filterMap_name? h, List.nodup_iff_count_le_one]
  constructor
  · intro hcount name hname
    rw [← hfilter name hname]
    exact hcount name
  · intro hcount name
    by_cases hname : name ∈ settingNames
    · rw [hfilter name hname]
      exact hcount name hname
    · have hnone : name ∉ (fields.map Prod.fst).filter (· ∈ settingNames) := by
        rw [List.mem_filter, decide_eq_true_eq]
        exact fun hmem => hname hmem.2
      rw [List.count_eq_zero_of_not_mem hnone]
      exact Nat.zero_le 1

/-- The decoder of a setting goes by what values say of it. -/
structure Aspect.Decoded {α : Type} (A : Aspect α) (r : Reading V) (decode : V → Option α) :
    Prop where
  name : A.name ∈ settingNames
  value : ∀ v s, s.name? = some A.name → r.Means v s → decode v = A.part s

namespace Aspect

variable {α : Type} {A : Aspect α} {decode : V → Option α}

-- Fields of the name of a setting and settings that speak of it belong together.
theorem forall₂_filterMap (hdecode : A.Decoded r decode)
    (h : List.Forall₂ (Says r) fields settings) :
    List.Forall₂ (fun f a => decode f.2 = some a) (fields.filter fun f => f.1 == A.name)
      (settings.filterMap A.part) := by
  induction h with
  | nil => exact List.Forall₂.nil
  | @cons f s fields settings hmeans _ ih =>
      rw [List.filter_cons]
      by_cases hf : f.1 = A.name
      · have hname : s.name? = some A.name := by
          rw [hmeans.name, hf, if_pos hdecode.name]
        obtain ⟨a, ha⟩ := Option.isSome_iff_exists.mp ((A.isSome_part s).mpr hname)
        rw [if_pos (beq_iff_eq.mpr hf), List.filterMap_cons_some ha]
        exact List.Forall₂.cons ((hdecode.value f.2 s hname hmeans.value).trans ha) ih
      · have hnone : A.part s = none := by
          rw [← Option.not_isSome_iff_eq_none, A.isSome_part, hmeans.name]
          intro heq
          split at heq
          · exact hf (Option.some.inj heq)
          · cases heq
        rw [if_neg (fun heq => hf (beq_iff_eq.mp heq)), List.filterMap_cons_none hnone]
        exact ih

/-- A setting is read as what the fields say, put into the default. -/
theorem settingOf_eq (hdecode : A.Decoded r decode) (h : List.Forall₂ (Says r) fields settings)
    (honce : Once settings) (c : Config) :
    settingOf fields A.name (A.get c) decode = some (A.get (settings.foldl override c)) := by
  have hlength := A.length_filterMap_le honce
  have hboth := forall₂_filterMap hdecode h
  rw [A.get_foldl]
  unfold settingOf fieldOf?
  generalize (fields.filter fun f => f.1 == A.name) = named at hboth ⊢
  generalize settings.filterMap A.part = parts at hlength hboth ⊢
  cases hboth with
  | nil => rfl
  | cons hone hrest =>
      cases hrest with
      | nil => exact hone
      | cons =>
          simp at hlength

/-- A setting that is read is given once at most, by a value that is decoded as
    this setting. -/
theorem count_le_of_settingOf {name : String} {default a : α}
    (h : settingOf fields name default decode = some a) :
    (fields.map Prod.fst).count name ≤ 1 ∧
      ∀ f ∈ fields, f.1 = name → decode f.2 = some a := by
  have hcount : (fields.map Prod.fst).count name
      = (fields.filter fun f => f.1 == name).length := by
    rw [List.count_eq_countP, List.countP_map, List.countP_eq_length_filter]
    rfl
  have hmem : ∀ f ∈ fields, f.1 = name → f ∈ fields.filter fun f => f.1 == name :=
    fun f hf hname => List.mem_filter.mpr ⟨hf, beq_iff_eq.mpr hname⟩
  rw [hcount]
  unfold settingOf fieldOf? at h
  generalize (fields.filter fun f => f.1 == name) = named at h hmem ⊢
  match named with
  | [] => exact ⟨Nat.zero_le 1, fun f hf hname => absurd (hmem f hf hname) List.not_mem_nil⟩
  | [field] =>
      refine ⟨Nat.le_refl 1, fun f hf hname => ?_⟩
      rw [List.mem_singleton.mp (hmem f hf hname)]
      exact h
  | _ :: _ :: _ => cases h

end Aspect

variable {number? : V → Option UInt64} {buckets? : V → Option (List Filter)}

theorem Decodes.capacity (h : Decodes r number? buckets?) :
    capacityAspect.Decoded r number? where
  name := by decide
  value v s hname hmeans := by
    cases s with
    | capacity n => exact (h.number_iff v n).mpr hmeans
    | _ => exact absurd hname (by simp [Setting.name?, capacityAspect])

theorem Decodes.slack (h : Decodes r number? buckets?) : slackAspect.Decoded r number? where
  name := by decide
  value v s hname hmeans := by
    cases s with
    | slack n => exact (h.number_iff v n).mpr hmeans
    | _ => exact absurd hname (by simp [Setting.name?, slackAspect])

theorem Decodes.buckets (h : Decodes r number? buckets?) : bucketsAspect.Decoded r buckets? where
  name := by decide
  value v s hname hmeans := by
    cases s with
    | buckets written => exact (h.buckets_iff v _).mpr ⟨written, hmeans, rfl⟩
    | _ => exact absurd hname (by simp [Setting.name?, bucketsAspect])

-- If every field says something, there is a list of what they say.
theorem exists_settings (h : ∀ f ∈ fields, ∃ s, Says r f s) :
    ∃ settings, List.Forall₂ (Says r) fields settings := by
  induction fields with
  | nil => exact ⟨[], List.Forall₂.nil⟩
  | cons f rest ih =>
      obtain ⟨s, hs⟩ := h f List.mem_cons_self
      obtain ⟨settings, hrest⟩ := ih fun g hg => h g (List.mem_cons_of_mem f hg)
      exact ⟨s :: settings, List.Forall₂.cons hs hrest⟩

/-- Fields that say something, no setting twice, stand for the default with all
    settings put in. -/
theorem ofFields_of_settings (hdec : Decodes r number? buckets?)
    (h : List.Forall₂ (Says r) fields settings) (honce : Once settings) :
    ofFields number? buckets? fields = some (settings.foldl override {}) := by
  have hcapacity := Aspect.settingOf_eq hdec.capacity h honce {}
  have hslack := Aspect.settingOf_eq hdec.slack h honce {}
  have hbuckets := Aspect.settingOf_eq hdec.buckets h honce {}
  simp only [capacityAspect, slackAspect, bucketsAspect] at hcapacity hslack hbuckets
  unfold ofFields
  simp only [hcapacity, hslack, hbuckets]

/-- Where fields stand for a configuration, no setting is among them twice, and
    every setting is decoded as its entry of the configuration. -/
theorem fields_of_ofFields {c : Config} (h : ofFields number? buckets? fields = some c) :
    (∀ name ∈ settingNames, (fields.map Prod.fst).count name ≤ 1) ∧
      (∀ entry ∈ c.numbers, ∀ v, (entry.1, v) ∈ fields → number? v = some entry.2) ∧
      ∀ v, ("extra_buckets", v) ∈ fields → buckets? v = some c.extraBuckets := by
  unfold ofFields at h
  simp only at h
  split at h
  · rename_i capacity slack buckets hcapacity hslack hbuckets
    obtain ⟨hcount, hnumber⟩ := Aspect.count_le_of_settingOf hcapacity
    obtain ⟨hcount', hnumber'⟩ := Aspect.count_le_of_settingOf hslack
    obtain ⟨hcount'', hfilters⟩ := Aspect.count_le_of_settingOf hbuckets
    rw [← Option.some.inj h]
    refine ⟨fun name hname => ?_, fun entry hentry v hv => ?_, fun v hv => hfilters _ hv rfl⟩
    · simp only [settingNames, List.mem_cons, List.not_mem_nil, or_false] at hname
      rcases hname with rfl | rfl | rfl
      · exact hcount
      · exact hcount'
      · exact hcount''
    · simp only [numbers, List.mem_cons, List.not_mem_nil, or_false] at hentry
      rcases hentry with rfl | rfl
      · exact hnumber _ hv rfl
      · exact hnumber' _ hv rfl
  · cases h

/-- Faulty fields stand for no configuration. -/
theorem ofFields_of_faulty {outside spoilt : V → Prop}
    (hnumber : ∀ field ∈ fields, outside field.2 → number? field.2 = none)
    (hbuckets : ∀ v, spoilt v → buckets? v = none) (h : Faulty outside spoilt fields) :
    ofFields number? buckets? fields = none := by
  rw [Option.eq_none_iff_forall_ne_some]
  intro c hc
  obtain ⟨honce, hnumbers, hfilters⟩ := fields_of_ofFields hc
  cases h with
  | repeated hname hcount => exact absurd (honce _ hname) (Nat.not_le.mpr hcount)
  | @range name v hname hfield houtside =>
      obtain ⟨n, hn⟩ : ∃ n, (name, n) ∈ c.numbers := by
        rcases hname with rfl | rfl
        · exact ⟨c.initialCapacity, by simp [numbers]⟩
        · exact ⟨c.growthSlack, by simp [numbers]⟩
      have hword := hnumbers (name, n) hn v hfield
      rw [hnumber (name, v) hfield houtside] at hword
      cases hword
  | bucket hfield hspoilt =>
      have hlist := hfilters _ hfield
      rw [hbuckets _ hspoilt] at hlist
      cases hlist

/-- No other fields stand for a configuration. -/
theorem settings_of_ofFields (hdec : Decodes r number? buckets?) {c : Config}
    (h : ofFields number? buckets? fields = some c) :
    ∃ settings, List.Forall₂ (Says r) fields settings ∧ Once settings := by
  obtain ⟨hcount, hnumber, hfilters⟩ := fields_of_ofFields h
  have hmeans : ∀ f ∈ fields, ∃ s, Says r f s := by
    rintro ⟨name, v⟩ hf
    by_cases hname : name ∈ settingNames
    · have hcases := hname
      simp only [settingNames, List.mem_cons, List.not_mem_nil, or_false] at hcases
      rcases hcases with rfl | rfl | rfl
      · have hv := hnumber ("initial_capacity", c.initialCapacity) (by simp [numbers]) v hf
        exact ⟨.capacity c.initialCapacity, (if_pos hname).symm, (hdec.number_iff v _).mp hv⟩
      · have hv := hnumber ("growth_slack", c.growthSlack) (by simp [numbers]) v hf
        exact ⟨.slack c.growthSlack, (if_pos hname).symm, (hdec.number_iff v _).mp hv⟩
      · obtain ⟨written, hwritten, _⟩ := (hdec.buckets_iff v _).mp (hfilters v hf)
        exact ⟨.buckets written, (if_pos hname).symm, hwritten⟩
    · exact ⟨.foreign, (if_neg hname).symm, trivial⟩
  obtain ⟨settings, hsettings⟩ := exists_settings hmeans
  exact ⟨settings, hsettings, (once_iff hsettings).mpr hcount⟩

/-- Fields stand for a configuration if each of them says something, no setting
    twice, and it is then the default with all settings put in. -/
theorem ofFields_eq_some_iff (hdec : Decodes r number? buckets?) (c : Config) :
    ofFields number? buckets? fields = some c ↔
      ∃ settings, List.Forall₂ (Says r) fields settings ∧ Once settings ∧
        settings.foldl override {} = c := by
  constructor
  · intro h
    obtain ⟨settings, hsettings, honce⟩ := settings_of_ofFields hdec h
    refine ⟨settings, hsettings, honce, ?_⟩
    rw [ofFields_of_settings hdec hsettings honce] at h
    exact Option.some.inj h
  · rintro ⟨settings, hsettings, honce, rfl⟩
    exact ofFields_of_settings hdec hsettings honce

end Fields

end Config

end SceneIndex
