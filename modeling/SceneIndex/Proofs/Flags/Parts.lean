import SceneIndex.Flags.Basic

/-!
# Sets of flags, bit by bit

A set of flags is a word, and two words are equal if all of their bits are.
`bitAt` reads a bit, and each operation on sets is a line about what it does to
one.

The parts of a set are its named flags, one by one, and one rest that holds all
the others. Each bit of the set is in just one of them, so the parts united are
the set again, and the named ones united are the set without the rest.

## Main definitions

* `Flags.bitAt`: Whether the bit at a position is set.

## Theorems

* `ext_bitAt`: Sets with the same bits are equal.
* `bitAt_union`, `bitAt_inter`, `bitAt_diff`, `bitAt_single`: The operations.
* `bitAt_truncate`, `bitAt_unnamed`: The two halves of a set.
* `unite_singles`: The named flags of a set, united.
* `unite_parts`: All parts of a set, united.
* `flags_truncate`, `unnamed_truncate`: What the named half consists of.
-/

namespace SceneIndex

namespace Flag

-- The lowest eleven positions are those of the flags.
theorem exists_bit_eq {i : Nat} (h : i < 11) : ∃ flag : Flag, flag.bit = i := by
  have table : ∀ i < 11, ∃ flag ∈ all, flag.bit = i := by decide
  rcases table i h with ⟨flag, _, hbit⟩
  exact ⟨flag, hbit⟩

end Flag

namespace Flags

/-- Whether the bit at a position is set. -/
def bitAt (a : Flags) (i : Nat) : Bool := a.bits.getLsbD i

/-- Sets with the same bits are equal. -/
theorem ext_bitAt {a b : Flags} (h : ∀ i < 32, a.bitAt i = b.bitAt i) : a = b := by
  rcases a with ⟨word⟩
  rcases b with ⟨word'⟩
  exact congrArg Flags.mk (BitVec.eq_of_getLsbD_eq h)

theorem has_eq_bitAt (a : Flags) (flag : Flag) : a.has flag = a.bitAt flag.bit := rfl

theorem bitAt_empty (i : Nat) : empty.bitAt i = false := BitVec.getLsbD_zero

theorem bitAt_union (a b : Flags) (i : Nat) : (a.union b).bitAt i = (a.bitAt i || b.bitAt i) :=
  BitVec.getLsbD_or

theorem bitAt_inter (a b : Flags) (i : Nat) : (a.inter b).bitAt i = (a.bitAt i && b.bitAt i) :=
  BitVec.getLsbD_and

theorem bitAt_diff (a b : Flags) {i : Nat} (hi : i < 32) :
    (a.diff b).bitAt i = (a.bitAt i && !b.bitAt i) := by
  simp only [bitAt, diff, BitVec.getLsbD_and, BitVec.getLsbD_not, hi, decide_true, Bool.true_and]

theorem bitAt_single (flag : Flag) (i : Nat) : (single flag).bitAt i = decide (i = flag.bit) := by
  have hlt := flag.bit_lt
  simp only [bitAt, single, BitVec.getLsbD_twoPow]
  rw [Bool.eq_iff_iff, Bool.and_eq_true, decide_eq_true_eq, decide_eq_true_eq, decide_eq_true_eq]
  omega

theorem bitAt_named {i : Nat} (hi : i < 32) : named.bitAt i = decide (i < 11) := by
  have table : ∀ i < 32, named.bitAt i = decide (i < 11) := by decide
  exact table i hi

theorem bitAt_truncate (a : Flags) {i : Nat} (hi : i < 32) :
    a.truncate.bitAt i = (a.bitAt i && decide (i < 11)) := by
  unfold truncate
  rw [bitAt_inter, bitAt_named hi]

theorem bitAt_unnamed (a : Flags) {i : Nat} (hi : i < 32) :
    a.unnamed.bitAt i = (a.bitAt i && !decide (i < 11)) := by
  unfold unnamed
  rw [bitAt_diff a named hi, bitAt_named hi]

theorem bitAt_unite (a : Flags) (parts : List Flags) (i : Nat) :
    (parts.foldl union a).bitAt i = (a.bitAt i || parts.any fun b => b.bitAt i) := by
  induction parts generalizing a with
  | nil => simp only [List.foldl_nil, List.any_nil, Bool.or_false]
  | cons b rest ih =>
      rw [List.foldl_cons, ih, bitAt_union, List.any_cons, Bool.or_assoc]

-- Among the named flags of a set one has the bit, if the set has it and it is
-- that of a name.
theorem any_singles (a : Flags) {i : Nat} (hi : i < 32) :
    ((a.flags.map single).any fun b => b.bitAt i) = a.truncate.bitAt i := by
  rw [bitAt_truncate a hi, Bool.eq_iff_iff]
  simp only [List.any_map, List.any_eq_true, flags, List.mem_filter, Function.comp_apply,
    bitAt_single, decide_eq_true_eq, Bool.and_eq_true, has_eq_bitAt]
  constructor
  · rintro ⟨flag, ⟨_, hhas⟩, rfl⟩
    exact ⟨hhas, flag.bit_lt⟩
  · rintro ⟨hset, hlt⟩
    rcases Flag.exists_bit_eq hlt with ⟨flag, rfl⟩
    exact ⟨flag, ⟨flag.mem_all, hset⟩, rfl⟩

/-- The named flags of a set united are its named half. -/
theorem unite_singles (a : Flags) : (a.flags.map single).foldl union empty = a.truncate := by
  apply ext_bitAt
  intro i hi
  rw [bitAt_unite, bitAt_empty, Bool.false_or, any_singles a hi]

theorem truncate_union_unnamed (a : Flags) : a.truncate.union a.unnamed = a := by
  apply ext_bitAt
  intro i hi
  rw [bitAt_union, bitAt_truncate a hi, bitAt_unnamed a hi]
  cases a.bitAt i <;> cases decide (i < 11) <;> rfl

theorem union_empty (a : Flags) : a.union empty = a := by
  apply ext_bitAt
  intro i _
  rw [bitAt_union, bitAt_empty, Bool.or_false]

/-- The parts of a set united are the set. -/
theorem unite_parts (a : Flags) : a.parts.foldl union empty = a := by
  unfold parts
  rw [List.foldl_append, unite_singles]
  by_cases hrest : a.unnamed = empty
  · -- Without a rest the named flags are all there is.
    have hnone : a.unnamed.isEmpty = true := by
      rw [hrest]
      rfl
    have hall := truncate_union_unnamed a
    rw [hrest, union_empty] at hall
    rw [if_pos hnone, List.foldl_nil, hall]
  · have hsome : ¬ a.unnamed.isEmpty = true := by
      intro h
      exact hrest (beq_iff_eq.mp h)
    rw [if_neg hsome, List.foldl_cons, List.foldl_nil, truncate_union_unnamed]

theorem flags_truncate (a : Flags) : a.truncate.flags = a.flags := by
  unfold flags
  apply List.filter_congr
  intro flag _
  have hlt := flag.bit_lt
  rw [has_eq_bitAt, has_eq_bitAt, bitAt_truncate a (by omega), decide_eq_true hlt, Bool.and_true]

theorem unnamed_truncate (a : Flags) : a.truncate.unnamed = empty := by
  apply ext_bitAt
  intro i hi
  rw [bitAt_unnamed _ hi, bitAt_truncate a hi, bitAt_empty]
  cases a.bitAt i <;> cases decide (i < 11) <;> rfl

theorem truncate_truncate (a : Flags) : a.truncate.truncate = a.truncate := by
  apply ext_bitAt
  intro i hi
  rw [bitAt_truncate _ hi, bitAt_truncate a hi, Bool.and_assoc, Bool.and_self]

end Flags

end SceneIndex
