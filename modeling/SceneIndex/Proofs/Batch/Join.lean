import SceneIndex.Scene.Storage

/-!
# Batches joined

The queue of a scene is a list of batches, and the apply phase makes one batch
of it before it touches an item. `join` says what that batch is: list by list,
the entries of the first batch, then those of the second, and so on.

The program gets there by appending, and appending to an empty batch replaces
it instead of copying. That shortcut is sound because a batch is empty only
when all three of its lists are, so `append_eq_merge` holds of every pair and
`extend_empty` follows.

An application that stops early has used a front part of the entries. A front
part of the entries of a batch is again the entries of a batch, namely of the
one that `cut` gives, and recording entry by entry builds that batch. This is
what lets a stopped application be compared with a completed one.

## Main definitions

* `Batch.join`: The batch with all entries of the listed batches.
* `Batch.cut`: The batch with the first entries in the order of application.

## Theorems

* `append_eq_merge`: The shortcut for an empty batch makes no difference.
* `extend_empty`: Extending the empty batch joins.
* `mem_changes_join`: The entries of a joined batch.
* `recordAll_changes`: Recording the entries of a batch gives the batch back.
* `changes_cut`: The entries of a batch that was cut.
* `changes_recordAll`: Recording a front part of the entries of a batch.
-/

namespace SceneIndex

namespace Batch

/-- The batch with all entries of the listed batches, in their order. -/
def join (batches : List Batch) : Batch where
  resets := batches.flatMap (·.resets)
  removals := batches.flatMap (·.removals)
  moves := batches.flatMap (·.moves)

theorem join_cons (b : Batch) (batches : List Batch) :
    join (b :: batches) = b.merge (join batches) := by
  simp only [join, merge, List.flatMap_cons]

theorem join_append (xs ys : List Batch) : join (xs ++ ys) = (join xs).merge (join ys) := by
  simp only [join, merge, List.flatMap_append]

theorem join_singleton (b : Batch) : join [b] = b := by
  simp only [join, List.flatMap_cons, List.flatMap_nil, List.append_nil]

theorem merge_assoc (a b c : Batch) : (a.merge b).merge c = a.merge (b.merge c) := by
  simp only [merge, List.append_assoc]

theorem empty_merge (b : Batch) : empty.merge b = b := by
  simp only [merge, empty, List.nil_append]

theorem merge_empty (b : Batch) : b.merge empty = b := by
  simp only [merge, empty, List.append_nil]

-- A batch in which nothing is recorded has three empty lists.
theorem eq_empty_of_isEmpty (b : Batch) (h : b.isEmpty = true) : b = empty := by
  rcases b with ⟨resets, removals, moves⟩
  simp only [isEmpty, size, beq_iff_eq, Nat.add_eq_zero_iff, List.length_eq_zero_iff] at h
  rw [h.1.1, h.1.2, h.2]
  rfl

/-- Replacing an empty batch is the same as adding to it, so appending is
    merging for every pair of batches. -/
theorem append_eq_merge (a b : Batch) : a.append b = a.merge b := by
  unfold append
  by_cases h : a.isEmpty = true
  · rw [if_pos h, eq_empty_of_isEmpty a h, empty_merge]
  · rw [if_neg h]

theorem extend_eq_merge_join (a : Batch) (batches : List Batch) :
    a.extend batches = a.merge (join batches) := by
  induction batches generalizing a with
  | nil => exact (merge_empty a).symm
  | cons b rest ih =>
      -- Appending first and extending then, both of which merge.
      change (a.append b).extend rest = _
      rw [ih, append_eq_merge, join_cons, merge_assoc]

theorem extend_empty (batches : List Batch) : empty.extend batches = join batches := by
  rw [extend_eq_merge_join, empty_merge]

theorem mem_changes (b : Batch) (c : Change) :
    c ∈ b.changes ↔ (∃ entry ∈ b.resets, Change.ofReset entry = c) ∨
      (∃ id ∈ b.removals, Change.remove id = c) ∨ ∃ id ∈ b.moves, Change.move id = c := by
  simp only [changes, List.mem_append, List.mem_map, or_assoc]

-- The entries of a joined batch are those of its batches.
theorem mem_changes_join (batches : List Batch) (c : Change) :
    c ∈ (join batches).changes ↔ ∃ b ∈ batches, c ∈ b.changes := by
  simp only [mem_changes, join, List.mem_flatMap]
  constructor
  · rintro (⟨entry, ⟨b, hb, he⟩, hc⟩ | ⟨id, ⟨b, hb, hi⟩, hc⟩ | ⟨id, ⟨b, hb, hi⟩, hc⟩)
    · exact ⟨b, hb, Or.inl ⟨entry, he, hc⟩⟩
    · exact ⟨b, hb, Or.inr (Or.inl ⟨id, hi, hc⟩)⟩
    · exact ⟨b, hb, Or.inr (Or.inr ⟨id, hi, hc⟩)⟩
  · rintro ⟨b, hb, ⟨entry, he, hc⟩ | ⟨id, hi, hc⟩ | ⟨id, hi, hc⟩⟩
    · exact Or.inl ⟨entry, ⟨b, hb, he⟩, hc⟩
    · exact Or.inr (Or.inl ⟨id, ⟨b, hb, hi⟩, hc⟩)
    · exact Or.inr (Or.inr ⟨id, ⟨b, hb, hi⟩, hc⟩)

-- A reset entry names its id, whether it has a payload or not.
theorem id_ofReset (entry : ItemId × Option Payload) : (Change.ofReset entry).id = entry.1 := by
  rcases entry with ⟨id, _ | payload⟩ <;> rfl

theorem recordAll_append (b : Batch) (xs ys : List Change) :
    b.recordAll (xs ++ ys) = (b.recordAll xs).recordAll ys :=
  List.foldl_append

theorem recordAll_resets (b : Batch) (entries : List (ItemId × Option Payload)) :
    b.recordAll (entries.map Change.ofReset) = { b with resets := b.resets ++ entries } := by
  induction entries generalizing b with
  | nil => simp only [recordAll, List.map_nil, List.foldl_nil, List.append_nil]
  | cons entry rest ih =>
      have hfirst : b.record (Change.ofReset entry) = { b with resets := b.resets ++ [entry] } := by
        rcases entry with ⟨id, _ | payload⟩ <;> rfl
      change (b.record (Change.ofReset entry)).recordAll (rest.map Change.ofReset) = _
      rw [hfirst, ih]
      simp only [List.append_assoc, List.singleton_append]

theorem recordAll_removals (b : Batch) (ids : List ItemId) :
    b.recordAll (ids.map Change.remove) = { b with removals := b.removals ++ ids } := by
  induction ids generalizing b with
  | nil => simp only [recordAll, List.map_nil, List.foldl_nil, List.append_nil]
  | cons id rest ih =>
      change (b.record (Change.remove id)).recordAll (rest.map Change.remove) = _
      rw [ih]
      simp only [record, List.append_assoc, List.singleton_append]

theorem recordAll_moves (b : Batch) (ids : List ItemId) :
    b.recordAll (ids.map Change.move) = { b with moves := b.moves ++ ids } := by
  induction ids generalizing b with
  | nil => simp only [recordAll, List.map_nil, List.foldl_nil, List.append_nil]
  | cons id rest ih =>
      change (b.record (Change.move id)).recordAll (rest.map Change.move) = _
      rw [ih]
      simp only [record, List.append_assoc, List.singleton_append]

/-- Recording the entries of a batch, in the order of application, gives the
    batch back. -/
theorem recordAll_changes (b : Batch) : empty.recordAll b.changes = b := by
  rw [changes, recordAll_append, recordAll_append, recordAll_resets, recordAll_removals,
    recordAll_moves]
  simp only [empty, List.nil_append]

/-- The batch with the first `k` entries, in the order of application. -/
def cut (b : Batch) (k : Nat) : Batch where
  resets := b.resets.take k
  removals := b.removals.take (k - b.resets.length)
  moves := b.moves.take (k - (b.resets.length + b.removals.length))

theorem changes_cut (b : Batch) (k : Nat) : (b.cut k).changes = b.changes.take k := by
  simp only [changes, cut, List.take_append, List.map_take, List.length_append, List.length_map]

/-- A front part of the entries of a batch, recorded entry by entry, gives a
    batch with just these entries. -/
theorem changes_recordAll (b : Batch) (front back : List Change) (h : b.changes = front ++ back) :
    (empty.recordAll front).changes = front := by
  -- The front part is what a cut batch holds, and that batch can be recorded.
  have hfront : front = (b.cut front.length).changes := by
    rw [changes_cut, h, List.take_left]
  rw [hfront, recordAll_changes, ← hfront]

end Batch

end SceneIndex
