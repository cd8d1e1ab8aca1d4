import SceneIndex.Proofs.Scene.Process

/-!
# How far an item has come

The lifecycle of an item is put together from three things that are kept
apart: whether the id was given out, whether the slot holds a payload, and
whether the item was killed since it last did. The first is known to the scene
and the others to the slot, which may not be there yet.

This module separates the two parts. Whether the id was given out decides
whether the item is unallocated, and nothing else does
(`lifecycle_eq_unallocated_iff`). For an id that was given out the item alone
decides (`lifecycle_of_issued`), where a slot that is missing counts as one in
which nothing was ever put.

## Main definitions

* `Item.stage`: How far an item has come whose id was given out.

## Theorems

* `lifecycle_eq_unallocated_iff`: When an item is unallocated.
* `lifecycle_of_issued`: How far the others have come.
-/

namespace SceneIndex

namespace Item

/-- How far an item has come, given that its id was given out. -/
def stage (item : Item) : Lifecycle :=
  if item.isLive then .live else if item.killed then .killed else .allocated

theorem stage_ne_unallocated (item : Item) : item.stage ≠ .unallocated := by
  unfold stage
  split
  · simp only [ne_eq, reduceCtorEq, not_false_eq_true]
  · split <;> simp only [ne_eq, reduceCtorEq, not_false_eq_true]

end Item

namespace Scene

-- The test on an id, in terms of what was given out.
theorem unallocated_test_iff (s : Scene) (id : ItemId) (hnext : 1 ≤ s.next.toNat) :
    (!id.isValid || decide (s.next ≤ id.number)) = true ↔ ¬ s.Issued id := by
  have hzero : id = ItemId.invalid ↔ id.index = 0 :=
    ⟨fun e => by rw [e]; rfl, fun e => ItemId.index_injective e⟩
  have hindex : id.number.toNat = id.index := rfl
  simp only [Bool.or_eq_true, Bool.not_eq_true', decide_eq_true_eq, ItemId.isValid,
    bne_eq_false_iff_eq, hzero, UInt32.le_iff_toNat_le, hindex, Issued, allocatedCount]
  omega

/-- For an id that was given out it is the item that has come some way. -/
theorem lifecycle_of_issued (s : Scene) (id : ItemId) (hnext : 1 ≤ s.next.toNat)
    (h : s.Issued id) : s.lifecycle id = (s.storage.item id).stage := by
  have htest : ¬ (!id.isValid || decide (s.next ≤ id.number)) = true := by
    rw [unallocated_test_iff s id hnext]
    exact not_not.mpr h
  rw [lifecycle, if_neg htest, Item.stage]

/-- An item is unallocated just if its id was not given out. -/
theorem lifecycle_eq_unallocated_iff (s : Scene) (id : ItemId) (hnext : 1 ≤ s.next.toNat) :
    s.lifecycle id = .unallocated ↔ ¬ s.Issued id := by
  by_cases h : s.Issued id
  · rw [lifecycle_of_issued s id hnext h]
    exact ⟨fun heq => absurd heq (Item.stage_ne_unallocated _), fun hnot => absurd h hnot⟩
  · rw [lifecycle, if_pos ((unallocated_test_iff s id hnext).mpr h)]
    exact ⟨fun _ => h, fun _ => rfl⟩

end Scene

end SceneIndex
