import Mathlib.Tactic.ByContra
import Mathlib.Tactic.Push
import SceneIndex.Proofs.Buckets.Contents
import SceneIndex.Proofs.Flags.Parts

/-!
# Filters as sets of keys

What two filters have to do with each other, told by the keys that they accept
and told by their words.

A filter looks at the bits of its mask and at no others. For any question about
two filters there are then a few keys that decide it. The least key of a filter
has the bits that the filter demands and no more, and the greatest has all bits
but those that it forbids. Both are accepted, and on a bit outside the mask they
differ. A filter that accepts both therefore does not look at such a bit, which
is why one filter is contained in another only if it looks at all that the other
looks at. And the least keys of two filters put together are accepted by both,
unless one demands a bit that the other forbids.

Two filters with the same keys contain each other, so they have the same mask,
and then the same value, since no value has a bit outside its mask. This is why
filters can be keys of buckets: different ones are different as predicates too.

## Main definitions

* `Filter.least`, `Filter.greatest`: The accepted keys with the fewest and with
  the most flags.

## Theorems

* `contains_iff`: One set of flags in another, bit by bit.
* `mask_of_value`: No value bit lies outside the mask.
* `accepts_iff`, `accepts_ofWords_iff`: The accepted keys, bit by bit.
* `accepts_imp_iff`: When one filter accepts all that another does.
* `exists_both_iff`: When some key is accepted by both.
* `eq_iff_accepts`: When two filters are the same.
* `pairwise_filters`, `has_iff_accepts`: The filters of buckets, as predicates.
* `filters_as_predicates`: All of it.
-/

namespace SceneIndex

namespace Flags

theorem contains_iff (a b : Flags) :
    a.contains b = true ↔ ∀ i < 32, b.bitAt i = true → a.bitAt i = true := by
  rw [contains, beq_iff_eq]
  constructor
  · intro heq i _ hb
    rw [← heq, bitAt_inter, Bool.and_eq_true] at hb
    exact hb.1
  · intro h
    apply ext_bitAt
    intro i hi
    rw [bitAt_inter]
    by_cases hb : b.bitAt i = true
    · rw [h i hi hb, Bool.true_and]
    · rw [Bool.eq_false_iff.mpr hb, Bool.and_false]

end Flags

namespace Filter

theorem mask_of_value (f : Filter) {i : Nat} (h : f.value.bitAt i = true) :
    f.mask.bitAt i = true := by
  rw [← f.within, Flags.bitAt_inter, Bool.and_eq_true] at h
  exact h.2

-- A bit outside the mask is not set in the value.
theorem value_of_not_mask (f : Filter) {i : Nat} (h : ¬ f.mask.bitAt i = true) :
    f.value.bitAt i = false :=
  Bool.eq_false_iff.mpr fun hvalue => h (f.mask_of_value hvalue)

/-- A filter accepts the keys that have the bits of its value where its mask
    has one. -/
theorem accepts_iff (f : Filter) (k : Key) :
    f.accepts k = true ↔ ∀ i < 32, f.mask.bitAt i = true → k.flags.bitAt i = f.value.bitAt i := by
  rw [accepts, beq_iff_eq]
  constructor
  · intro heq i _ hmask
    rw [← heq, Flags.bitAt_inter, hmask, Bool.and_true]
  · intro h
    apply Flags.ext_bitAt
    intro i hi
    rw [Flags.bitAt_inter]
    by_cases hmask : f.mask.bitAt i = true
    · rw [h i hi hmask, hmask, Bool.and_true]
    · rw [f.value_of_not_mask hmask, Bool.eq_false_iff.mpr hmask, Bool.and_false]

-- The bits of a value that were dropped for lying outside the mask were never
-- looked at.
theorem accepts_ofWords_iff (value mask : Flags) (k : Key) :
    (ofWords value mask).accepts k = true ↔
      ∀ i < 32, mask.bitAt i = true → k.flags.bitAt i = value.bitAt i := by
  rw [accepts_iff]
  have hvalue : ∀ i, mask.bitAt i = true → (ofWords value mask).value.bitAt i = value.bitAt i := by
    intro i hmask
    simp only [ofWords, Flags.bitAt_inter, hmask, Bool.and_true]
  constructor
  · intro h i hi hmask
    rw [h i hi hmask, hvalue i hmask]
  · intro h i hi hmask
    rw [h i hi hmask, hvalue i hmask]

/-- The accepted key with the fewest flags. -/
def least (f : Filter) : Key := ⟨f.value⟩

/-- The accepted key with the most flags. -/
def greatest (f : Filter) : Key := ⟨⟨f.value.bits ||| ~~~f.mask.bits⟩⟩

theorem bitAt_greatest (f : Filter) {i : Nat} (hi : i < 32) :
    f.greatest.flags.bitAt i = (f.value.bitAt i || !f.mask.bitAt i) := by
  simp only [greatest, Flags.bitAt, BitVec.getLsbD_or, BitVec.getLsbD_not, hi, decide_true,
    Bool.true_and]

theorem accepts_least (f : Filter) : f.accepts f.least = true :=
  (f.accepts_iff f.least).mpr fun _ _ _ => rfl

theorem accepts_greatest (f : Filter) : f.accepts f.greatest = true := by
  rw [accepts_iff]
  intro i hi hmask
  rw [bitAt_greatest f hi, hmask, Bool.not_true, Bool.or_false]

/-- One filter accepts all that another does just if it looks only at what the
    other looks at, and demands the same there. -/
theorem accepts_imp_iff (f g : Filter) :
    (∀ k, f.accepts k = true → g.accepts k = true) ↔
      f.mask.contains g.mask = true ∧ f.value.inter g.mask = g.value := by
  rw [Flags.contains_iff]
  constructor
  · intro h
    -- Both extreme keys of the first filter have the bits that the second wants.
    have hleast := (g.accepts_iff f.least).mp (h _ f.accepts_least)
    have hgreatest := (g.accepts_iff f.greatest).mp (h _ f.accepts_greatest)
    constructor
    · intro i hi hmask
      by_contra hout
      have hlow : f.value.bitAt i = g.value.bitAt i := hleast i hi hmask
      have hhigh := hgreatest i hi hmask
      rw [bitAt_greatest f hi, Bool.eq_false_iff.mpr hout, Bool.not_false, Bool.or_true, ← hlow,
        f.value_of_not_mask hout] at hhigh
      exact Bool.false_ne_true hhigh.symm
    · apply Flags.ext_bitAt
      intro i hi
      rw [Flags.bitAt_inter]
      by_cases hmask : g.mask.bitAt i = true
      · rw [hmask, Bool.and_true]
        exact hleast i hi hmask
      · rw [Bool.eq_false_iff.mpr hmask, Bool.and_false, g.value_of_not_mask hmask]
  · rintro ⟨hmask, hvalue⟩ k hk
    rw [accepts_iff] at hk ⊢
    intro i hi hg
    rw [hk i hi (hmask i hi hg), ← hvalue, Flags.bitAt_inter, hg, Bool.and_true]

/-- Some key is accepted by both filters just if they demand the same wherever
    both look. -/
theorem exists_both_iff (f g : Filter) :
    (∃ k, f.accepts k = true ∧ g.accepts k = true) ↔
      ∀ i < 32, f.mask.bitAt i = true → g.mask.bitAt i = true →
        f.value.bitAt i = g.value.bitAt i := by
  constructor
  · rintro ⟨k, hf, hg⟩ i hi hfm hgm
    rw [accepts_iff] at hf hg
    rw [← hf i hi hfm, hg i hi hgm]
  · intro h
    -- The flags that one of the two demands, and no others.
    refine ⟨⟨f.value.union g.value⟩, (f.accepts_iff _).mpr ?_, (g.accepts_iff _).mpr ?_⟩
    · intro i hi hfm
      rw [Flags.bitAt_union]
      by_cases hgm : g.mask.bitAt i = true
      · rw [← h i hi hfm hgm, Bool.or_self]
      · rw [g.value_of_not_mask hgm, Bool.or_false]
    · intro i hi hgm
      rw [Flags.bitAt_union]
      by_cases hfm : f.mask.bitAt i = true
      · rw [h i hi hfm hgm, Bool.or_self]
      · rw [f.value_of_not_mask hfm, Bool.false_or]

/-- Filters are the same just if they accept the same keys. -/
theorem eq_iff_accepts (f g : Filter) : f = g ↔ ∀ k, f.accepts k = g.accepts k := by
  constructor
  · intro heq k
    rw [heq]
  · intro h
    have hfg := (accepts_imp_iff f g).mp fun k hk => (h k).symm.trans hk
    have hgf := (accepts_imp_iff g f).mp fun k hk => (h k).trans hk
    rw [Flags.contains_iff] at hfg hgf
    -- Each looks at all that the other looks at.
    have hmask : f.mask = g.mask := by
      apply Flags.ext_bitAt
      intro i hi
      rw [Bool.eq_iff_iff]
      exact ⟨hgf.1 i hi, hfg.1 i hi⟩
    have hvalue : f.value = g.value := by
      rw [← hfg.2, ← hmask, f.within]
    rcases f with ⟨value, mask, within⟩
    rcases g with ⟨value', mask', within'⟩
    cases hmask
    cases hvalue
    rfl

end Filter

namespace Buckets

-- No two buckets are for the same predicate.
theorem pairwise_filters (b : Buckets) :
    b.filters.Pairwise fun f g => ∃ k, f.accepts k ≠ g.accepts k := by
  rw [filters, List.pairwise_map]
  refine b.ascending.imp fun {x y} hlt => ?_
  by_contra hnone
  push Not at hnone
  rw [(Filter.eq_iff_accepts x.1 y.1).mpr hnone] at hlt
  exact Nat.lt_irrefl _ hlt

-- A filter has a bucket if there is one for the predicate.
theorem has_iff_accepts (b : Buckets) (g : Filter) :
    b.has g = true ↔ ∃ f ∈ b.filters, ∀ k, f.accepts k = g.accepts k := by
  rw [← mem_filters_iff_has]
  constructor
  · intro hg
    exact ⟨g, hg, fun _ => rfl⟩
  · rintro ⟨f, hf, hsame⟩
    rw [← (Filter.eq_iff_accepts f g).mpr hsame]
    exact hf

end Buckets

namespace Filter

/-- Filters and the predicates that they stand for. A filter made of any two
    words keeps the mask and the part of the value within it, and accepts the
    keys that agree with the value on the mask. One filter accepts all that
    another does just if the mask of the other is part of its own and the values
    agree on it. No key is accepted by both just if the values differ on a bit
    of both masks, as those of the two standard filters do. Filters are the same
    just if they accept the same keys, so no two buckets are for the same
    predicate, and a filter has a bucket just if its predicate has one. -/
theorem filters_as_predicates :
    (∀ value mask, (ofWords value mask).value = value.inter mask ∧
      (ofWords value mask).mask = mask ∧
      ∀ k, (ofWords value mask).accepts k = true ↔
        ∀ i < 32, mask.bitAt i = true → k.flags.bitAt i = value.bitAt i) ∧
    (∀ f g : Filter,
      ((∀ k, f.accepts k = true → g.accepts k = true) ↔
        f.mask.contains g.mask = true ∧ f.value.inter g.mask = g.value) ∧
      ((∀ k, ¬ (f.accepts k = true ∧ g.accepts k = true)) ↔
        ∃ i < 32, f.mask.bitAt i = true ∧ g.mask.bitAt i = true ∧
          f.value.bitAt i ≠ g.value.bitAt i) ∧
      (f = g ↔ ∀ k, f.accepts k = g.accepts k)) ∧
    (∀ k, ¬ (opaqueShape.accepts k = true ∧ transparentShape.accepts k = true)) ∧
    ∀ b : Buckets,
      (b.filters.Pairwise fun f g => ∃ k, f.accepts k ≠ g.accepts k) ∧
      ∀ g, b.has g = true ↔ ∃ f ∈ b.filters, ∀ k, f.accepts k = g.accepts k := by
  have hapart : ∀ f g : Filter, (∀ k, ¬ (f.accepts k = true ∧ g.accepts k = true)) ↔
      ∃ i < 32, f.mask.bitAt i = true ∧ g.mask.bitAt i = true ∧
        f.value.bitAt i ≠ g.value.bitAt i := by
    intro f g
    rw [← not_exists, exists_both_iff]
    push Not
    exact Iff.rfl
  refine ⟨fun value mask => ⟨rfl, rfl, accepts_ofWords_iff value mask⟩, fun f g =>
    ⟨accepts_imp_iff f g, hapart f g, eq_iff_accepts f g⟩, (hapart _ _).mpr ?_,
    fun b => ⟨b.pairwise_filters, b.has_iff_accepts⟩⟩
  -- The two standard filters differ on translucency.
  exact ⟨Flag.translucent.bit, by decide⟩

end Filter

end SceneIndex
