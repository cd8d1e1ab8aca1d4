import Mathlib.Data.List.Induction
import SceneIndex.Proofs.Filter.Algebra

/-!
# What demands come to

A filter is built from demands on flags, one after the other. Each of them puts
a flag under the mask and writes the bit that it wants into the value, whatever
stood there. So only the last demand on a flag counts, and flags without any are
not looked at.

What is demanded has a word for it, and keys have words for what they tell of
their items. The two are said separately, the demand as a flag and a polarity
and the question as a test of a flag, so it could be that a demand in one word
lets through what the key denies in the same word. `met` puts word beside word,
and `met_eq` says that they agree for all of them. Keys are built from words too,
which are said a third time, and `told` puts these beside the questions.

## Main definitions

* `Key.Trait.told`: Whether a key tells of its item what a trait stands for.
* `Filter.Pin.met`: Whether a key tells of its item what is demanded.
* `Filter.lastPin?`: The last demand on a flag.
* `Filter.gathered`: The value and the mask that demands add up to.

## Theorems

* `bitAt_ofList`, `has_ofList`: The set of listed flags.
* `flags_ofTraits`, `told_ofTraits_iff`: The flags of a key that was built, and
  what it tells.
* `met_eq`: A demand is a flag and a polarity.
* `lastPin?_concat`: One more demand.
* `gathered_within`: No value bit lies outside the mask.
* `ofPins_eq_ofWords`: The filter of what was gathered.
* `has_mask_gathered`, `has_value_gathered`: The last demands decide.
* `accepts_ofPins_iff`: The accepted keys, flag by flag.
* `built_means_queried`: All of it.
-/

namespace SceneIndex

namespace Flags

theorem bitAt_set (a b : Flags) (on : Bool) {i : Nat} (hi : i < 32) :
    (a.set b on).bitAt i = if b.bitAt i = true then on else a.bitAt i := by
  unfold set
  cases on with
  | true =>
      rw [if_pos rfl, bitAt_union]
      cases a.bitAt i <;> cases b.bitAt i <;> rfl
  | false =>
      rw [if_neg Bool.false_ne_true, bitAt_diff a b hi]
      cases a.bitAt i <;> cases b.bitAt i <;> rfl

theorem bitAt_ofList (flags : List Flag) (i : Nat) :
    (ofList flags).bitAt i = true ↔ ∃ flag ∈ flags, flag.bit = i := by
  have hunite : ofList flags = (flags.map single).foldl union empty := by
    rw [ofList, List.foldl_map]
  rw [hunite, bitAt_unite, bitAt_empty, Bool.false_or, List.any_map, List.any_eq_true]
  simp only [Function.comp_apply, bitAt_single, decide_eq_true_eq]
  exact exists_congr fun flag => and_congr_right fun _ => eq_comm

theorem has_ofList (flags : List Flag) (flag : Flag) :
    (ofList flags).has flag = true ↔ flag ∈ flags := by
  rw [has_eq_bitAt, bitAt_ofList]
  constructor
  · rintro ⟨other, hmem, hbit⟩
    rw [← Flag.bit_injective hbit]
    exact hmem
  · intro hmem
    exact ⟨flag, hmem, rfl⟩

end Flags

namespace Key

namespace Trait

/-- Whether a key tells of its item what the trait stands for. -/
def told (t : Trait) (k : Key) : Bool :=
  match t with
  | shape => k.isShape
  | light => k.isLight
  | background => k.isBackground
  | seeThrough => k.isTransparent
  | viewSpace => k.isViewSpace
  | dynamic => k.isDynamic
  | deformed => k.isDeformed
  | invisible => !k.isVisible
  | shadowCaster => k.isShadowCaster
  | pickable => k.isPickable
  | layered => k.isLayered

theorem told_eq (t : Trait) (k : Key) : t.told k = k.flags.has t.flag := by
  cases t <;>
    simp only [told, flag, isShape, isLight, isBackground, isTransparent, isViewSpace, isDynamic,
      isDeformed, isVisible, isShadowCaster, isPickable, isLayered, Bool.not_not]

theorem flag_injective {t u : Trait} (h : t.flag = u.flag) : t = u := by
  cases t <;> cases u <;> first | rfl | exact Flag.noConfusion h

end Trait

theorem flags_ofTraits (traits : List Trait) :
    (ofTraits traits).flags = Flags.ofList (traits.map Trait.flag) := by
  have hgive : ∀ k : Key, (traits.foldl give k).flags
      = (traits.map Trait.flag).foldl (fun a flag => a.union (Flags.single flag)) k.flags := by
    induction traits with
    | nil => exact fun _ => rfl
    | cons t rest ih => exact fun k => ih (k.give t)
  exact hgive empty

/-- A key that was built tells just what it was given. -/
theorem told_ofTraits_iff (traits : List Trait) (t : Trait) :
    t.told (ofTraits traits) = true ↔ t ∈ traits := by
  rw [Trait.told_eq, flags_ofTraits, Flags.has_ofList, List.mem_map]
  constructor
  · rintro ⟨u, hu, hflag⟩
    rw [← Trait.flag_injective hflag]
    exact hu
  · exact fun ht => ⟨t, ht, rfl⟩

end Key

namespace Filter

namespace Pin

/-- Whether a key tells of its item what is demanded. -/
def met (p : Pin) (k : Key) : Bool :=
  match p with
  | shape => k.isShape
  | light => k.isLight
  | background => k.isBackground
  | seeThrough => k.isTransparent
  | solid => k.isOpaque
  | viewSpace => k.isViewSpace
  | worldSpace => k.isWorldSpace
  | dynamic => k.isDynamic
  | static => k.isStatic
  | deformed => k.isDeformed
  | rigid => !k.isDeformed
  | invisible => !k.isVisible
  | visible => k.isVisible
  | shadowCaster => k.isShadowCaster
  | pickable => k.isPickable
  | layered => k.isLayered
  | unlayered => !k.isLayered

-- Whatever the word for it, a demand is met if the flag is as wanted.
theorem met_eq (p : Pin) (k : Key) : p.met k = (k.flags.has p.flag == p.wanted) := by
  cases p <;>
    simp only [met, flag, wanted, Key.isShape, Key.isLight, Key.isBackground, Key.isTransparent,
      Key.isOpaque, Key.isViewSpace, Key.isWorldSpace, Key.isDynamic, Key.isStatic, Key.isDeformed,
      Key.isVisible, Key.isShadowCaster, Key.isPickable, Key.isLayered, Bool.not_not,
      beq_true, beq_false]

end Pin

/-- The last demand on a flag. -/
def lastPin? (flag : Flag) (pins : List Pin) : Option Pin :=
  (pins.filter fun p => decide (p.flag = flag)).getLast?

theorem lastPin?_concat (flag : Flag) (pins : List Pin) (p : Pin) :
    lastPin? flag (pins ++ [p]) = if p.flag = flag then some p else lastPin? flag pins := by
  simp only [lastPin?, List.filter_append, List.getLast?_append]
  by_cases hp : p.flag = flag
  · simp only [List.filter_cons, hp, decide_true, if_true, List.filter_nil,
      List.getLast?_singleton, Option.some_or]
  · simp only [List.filter_cons, hp, decide_false, Bool.false_eq_true, if_false, List.filter_nil,
      List.getLast?_nil, Option.none_or]

theorem flag_of_lastPin? (flag : Flag) (pins : List Pin) (p : Pin)
    (h : lastPin? flag pins = some p) : p.flag = flag :=
  of_decide_eq_true (List.mem_filter.mp (List.mem_of_getLast? h)).2

/-- The value and the mask that demands add up to, one after the other. -/
def gathered (pins : List Pin) : Flags × Flags :=
  pins.foldl
    (fun words p => (words.1.set (Flags.single p.flag) p.wanted,
      words.2.union (Flags.single p.flag)))
    (Flags.empty, Flags.empty)

theorem gathered_concat (pins : List Pin) (p : Pin) :
    gathered (pins ++ [p]) = ((gathered pins).1.set (Flags.single p.flag) p.wanted,
      (gathered pins).2.union (Flags.single p.flag)) :=
  List.foldl_append

theorem bitAt_value_concat (pins : List Pin) (p : Pin) {i : Nat} (hi : i < 32) :
    (gathered (pins ++ [p])).1.bitAt i
      = if i = p.flag.bit then p.wanted else (gathered pins).1.bitAt i := by
  rw [gathered_concat, Flags.bitAt_set _ _ _ hi]
  simp only [Flags.bitAt_single, decide_eq_true_eq]

theorem bitAt_mask_concat (pins : List Pin) (p : Pin) (i : Nat) :
    (gathered (pins ++ [p])).2.bitAt i
      = ((gathered pins).2.bitAt i || decide (i = p.flag.bit)) := by
  rw [gathered_concat, Flags.bitAt_union, Flags.bitAt_single]

/-- A demand writes to the value only where it also writes to the mask, so there
    is nothing to drop in the end. -/
theorem gathered_within (pins : List Pin) :
    (gathered pins).2.contains (gathered pins).1 = true := by
  rw [Flags.contains_iff]
  induction pins using List.reverseRecOn with
  | nil =>
      intro i _ hvalue
      exact hvalue
  | append_singleton front p ih =>
      intro i hi hvalue
      rw [bitAt_value_concat front p hi] at hvalue
      rw [bitAt_mask_concat]
      by_cases hbit : i = p.flag.bit
      · rw [decide_eq_true hbit, Bool.or_true]
      · rw [if_neg hbit] at hvalue
        rw [ih i hi hvalue, Bool.true_or]

-- Dropping bits at every demand, as the filter does, comes to dropping them at
-- the end, as there are none.
theorem ofPins_eq_ofWords (pins : List Pin) :
    ofPins pins = ofWords (gathered pins).1 (gathered pins).2 := by
  induction pins using List.reverseRecOn with
  | nil => rfl
  | append_singleton front p ih =>
      have hpin : ofPins (front ++ [p]) = (ofPins front).pin p := List.foldl_append
      have hvalue : (gathered front).1.inter (gathered front).2 = (gathered front).1 := by
        have hwithin := (Flags.contains_iff _ _).mp (gathered_within front)
        apply Flags.ext_bitAt
        intro i hi
        rw [Flags.bitAt_inter]
        by_cases hset : (gathered front).1.bitAt i = true
        · rw [hset, hwithin i hi hset, Bool.true_and]
        · rw [Bool.eq_false_iff.mpr hset, Bool.false_and]
      rw [hpin, ih, gathered_concat]
      simp only [pin, ofWords, hvalue]

-- A flag is under the mask if there is a last demand on it.
theorem has_mask_gathered (pins : List Pin) (flag : Flag) :
    (gathered pins).2.has flag = (lastPin? flag pins).isSome := by
  induction pins using List.reverseRecOn with
  | nil => exact Flags.bitAt_empty flag.bit
  | append_singleton front p ih =>
      rw [Flags.has_eq_bitAt, bitAt_mask_concat, lastPin?_concat]
      by_cases hp : p.flag = flag
      · rw [if_pos hp, Option.isSome_some, hp, decide_eq_true rfl, Bool.or_true]
      · have hbit : ¬ flag.bit = p.flag.bit := fun heq => hp (Flag.bit_injective heq.symm)
        rw [if_neg hp, decide_eq_false hbit, Bool.or_false, ← ih, Flags.has_eq_bitAt]

-- It is in the value if that demand wants it set.
theorem has_value_gathered (pins : List Pin) (flag : Flag) :
    (gathered pins).1.has flag = (lastPin? flag pins).any Pin.wanted := by
  induction pins using List.reverseRecOn with
  | nil => exact Flags.bitAt_empty flag.bit
  | append_singleton front p ih =>
      have hlt := flag.bit_lt
      rw [Flags.has_eq_bitAt, bitAt_value_concat front p (by omega), lastPin?_concat]
      by_cases hp : p.flag = flag
      · rw [if_pos hp, if_pos (by rw [hp]), Option.any_some]
      · have hbit : ¬ flag.bit = p.flag.bit := fun heq => hp (Flag.bit_injective heq.symm)
        rw [if_neg hp, if_neg hbit, ← ih, Flags.has_eq_bitAt]

-- Only bits of flags get under the mask.
theorem mask_gathered (pins : List Pin) :
    (gathered pins).2 = Flags.ofList (pins.map Pin.flag) := by
  apply Flags.ext_bitAt
  intro i _
  rw [Bool.eq_iff_iff, Flags.bitAt_ofList]
  induction pins using List.reverseRecOn with
  | nil =>
      have hempty : ¬ (gathered []).2.bitAt i = true := by
        rw [Bool.not_eq_true]
        exact Flags.bitAt_empty i
      exact ⟨fun h => absurd h hempty, fun ⟨_, hmem, _⟩ => absurd hmem List.not_mem_nil⟩
  | append_singleton front p ih =>
      rw [bitAt_mask_concat, Bool.or_eq_true, ih, decide_eq_true_eq, List.map_append]
      simp only [List.mem_append, List.map_cons, List.map_nil, List.mem_singleton, or_and_right,
        exists_or, exists_eq_left, eq_comm]

/-- A key passes a list of demands just if every flag on which there is one is
    as the last of them wants it. -/
theorem accepts_ofPins_iff (pins : List Pin) (k : Key) :
    (ofPins pins).accepts k = true ↔
      ∀ flag p, lastPin? flag pins = some p → k.flags.has flag = p.wanted := by
  rw [ofPins_eq_ofWords, accepts_ofWords_iff]
  constructor
  · intro h flag p hlast
    have hlt := flag.bit_lt
    have hmask := has_mask_gathered pins flag
    have hvalue := has_value_gathered pins flag
    rw [hlast] at hmask hvalue
    rw [Flags.has_eq_bitAt, h flag.bit (by omega) hmask]
    exact hvalue
  · intro h i _ hmask
    -- The bit is that of a flag on which there is a demand.
    have hnamed := hmask
    rw [mask_gathered, Flags.bitAt_ofList] at hnamed
    rcases hnamed with ⟨flag, _, rfl⟩
    rw [← Flags.has_eq_bitAt, has_mask_gathered, Option.isSome_iff_exists] at hmask
    rcases hmask with ⟨p, hlast⟩
    have hvalue := has_value_gathered pins flag
    rw [hlast, Option.any_some, Flags.has_eq_bitAt] at hvalue
    rw [hvalue, ← h flag p hlast, Flags.has_eq_bitAt]

/-- What is built from any demands and any traits. The filter is that of the
    words that the demands add up to. The mask is the set of the flags with a
    demand, the value lies within it and has the flags that the last demand
    wants set. A key passes just if it tells of its item what the last demand on
    each flag demands. A key has just the flags of the traits that it was given
    and tells of no others, and it passes a filter that was built just if, for
    each flag with a demand, the last one wants it set if and only if the key was
    given a trait with that flag. -/
theorem built_means_queried (pins : List Pin) (traits : List Key.Trait) :
    ofPins pins = ofWords (gathered pins).1 (gathered pins).2 ∧
    (gathered pins).2.contains (gathered pins).1 = true ∧
    (ofPins pins).mask = Flags.ofList (pins.map Pin.flag) ∧
    (∀ flag, (ofPins pins).value.has flag = true ↔
      ∃ p, lastPin? flag pins = some p ∧ p.wanted = true) ∧
    (∀ k, (ofPins pins).accepts k = true ↔
      ∀ flag p, lastPin? flag pins = some p → p.met k = true) ∧
    (∀ i < 32, (Key.ofTraits traits).flags.bitAt i = true ↔ ∃ t ∈ traits, t.flag.bit = i) ∧
    (∀ t : Key.Trait, t.told (Key.ofTraits traits) = true ↔ t ∈ traits) ∧
    ((ofPins pins).accepts (Key.ofTraits traits) = true ↔
      ∀ flag p, lastPin? flag pins = some p →
        (p.wanted = true ↔ ∃ t ∈ traits, t.flag = flag)) := by
  have hgiven : ∀ flag, (Key.ofTraits traits).flags.has flag = true ↔
      ∃ t ∈ traits, t.flag = flag := by
    intro flag
    rw [Key.flags_ofTraits, Flags.has_ofList, List.mem_map]
  refine ⟨ofPins_eq_ofWords pins, gathered_within pins, ?_, fun flag => ?_, fun k => ?_,
    fun i _ => ?_, Key.told_ofTraits_iff traits, ?_⟩
  · rw [ofPins_eq_ofWords]
    exact mask_gathered pins
  · have hvalue := has_value_gathered pins flag
    have hmask := has_mask_gathered pins flag
    rw [ofPins_eq_ofWords]
    change ((gathered pins).1.inter (gathered pins).2).has flag = true ↔ _
    rw [Flags.has_eq_bitAt, Flags.bitAt_inter, ← Flags.has_eq_bitAt, ← Flags.has_eq_bitAt, hvalue,
      hmask]
    cases lastPin? flag pins with
    | none => simp only [Option.any_none, Bool.false_and, Bool.false_eq_true, reduceCtorEq,
        false_and, exists_false]
    | some p => simp only [Option.any_some, Option.isSome_some, Bool.and_true, Option.some.injEq,
        exists_eq_left']
  · rw [accepts_ofPins_iff]
    constructor
    · intro h flag p hlast
      rw [Pin.met_eq, flag_of_lastPin? flag pins p hlast, h flag p hlast, beq_self_eq_true]
    · intro h flag p hlast
      have hmet := h flag p hlast
      rw [Pin.met_eq, flag_of_lastPin? flag pins p hlast, beq_iff_eq] at hmet
      exact hmet
  · rw [Key.flags_ofTraits, Flags.bitAt_ofList]
    simp only [List.mem_map, exists_exists_and_eq_and]
  · rw [accepts_ofPins_iff]
    constructor
    · intro h flag p hlast
      rw [← h flag p hlast]
      exact hgiven flag
    · intro h flag p hlast
      rw [Bool.eq_iff_iff, h flag p hlast]
      exact hgiven flag

end Filter

end SceneIndex
