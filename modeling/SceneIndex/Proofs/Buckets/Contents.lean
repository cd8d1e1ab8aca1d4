import SceneIndex.Buckets.Basic

/-!
# Which filters have a bucket, and what many insertions do

Every operation on buckets either allocates or changes ids. An operation that
changes ids is a `mapIds`, whatever it does to the ids, and so keeps the list
of filters as it is. An operation that allocates adds its filter to the set of
filters and leaves the ids of all others alone.

Filling a new bucket inserts one id after the other, and an insertion reaches
every bucket that accepts the key. `get?_insertAll` says what has become of
one bucket at the end, and `mem_insertWhere` who is in it.

## Main definitions

* `Buckets.insertAll`: The buckets after several items came in.
* `IdSet.insertWhere`: What several items that come in do to one set.

## Theorems

* `mem_filters_iff_has`: The listed filters are those with a bucket.
* `filters_mapIds`: Changing ids keeps the filters.
* `mem_filters_allocate`: Allocating adds one filter.
* `mem_filters_allocateAll`: Allocating for a list adds the list.
* `get?_insertAll`: One bucket after several items came in.
* `mem_insertWhere`: The members of that bucket.
-/

namespace SceneIndex

namespace Buckets

-- The listed filters are those with a bucket.
theorem mem_filters_iff_has (b : Buckets) (f : Filter) : f ∈ b.filters ↔ b.has f = true := by
  simp only [filters, has, get?, Option.isSome_map, List.find?_isSome, List.mem_map,
    decide_eq_true_eq]

theorem get?_eq_none_iff (b : Buckets) (f : Filter) : b.get? f = none ↔ f ∉ b.filters := by
  rw [mem_filters_iff_has, has, Bool.not_eq_true, Option.isSome_eq_false_iff,
    Option.isNone_iff_eq_none]

theorem exists_get?_of_mem_filters (b : Buckets) (f : Filter) (h : f ∈ b.filters) :
    ∃ ids, b.get? f = some ids := by
  rw [mem_filters_iff_has] at h
  exact Option.isSome_iff_exists.mp h

theorem filters_mapIds (g : Filter → IdSet → IdSet) (b : Buckets) :
    (b.mapIds g).filters = b.filters := by
  simp only [filters, mapIds, List.map_map, Function.comp_def]

-- Allocating adds one filter, unless it is there.
theorem mem_filters_allocate (b : Buckets) (f g : Filter) :
    g ∈ (b.allocate f).filters ↔ g ∈ b.filters ∨ g = f := by
  rw [mem_filters_iff_has, mem_filters_iff_has, has, has, get?_allocate]
  by_cases hg : g = f
  · rw [if_pos hg, Option.isSome_some]
    exact ⟨fun _ => Or.inr hg, fun _ => rfl⟩
  · rw [if_neg hg]
    exact ⟨Or.inl, fun h => h.resolve_right hg⟩

theorem mem_filters_allocateAll (b : Buckets) (filters : List Filter) (g : Filter) :
    g ∈ (b.allocateAll filters).filters ↔ g ∈ b.filters ∨ g ∈ filters := by
  induction filters generalizing b with
  | nil => simp only [allocateAll, List.foldl_nil, List.not_mem_nil, or_false]
  | cons f rest ih =>
      change g ∈ ((b.allocate f).allocateAll rest).filters ↔ _
      rw [ih, mem_filters_allocate, List.mem_cons, or_assoc]

-- A bucket of a list of new ones is empty if all buckets before are.
theorem get?_allocateAll_empty (b : Buckets) (filters : List Filter)
    (h : ∀ f ids, b.get? f = some ids → ids = IdSet.empty) :
    ∀ f ids, (b.allocateAll filters).get? f = some ids → ids = IdSet.empty := by
  induction filters generalizing b with
  | nil => exact h
  | cons g rest ih =>
      refine ih (b.allocate g) (fun f ids hf => ?_)
      rw [get?_allocate] at hf
      by_cases hfg : f = g
      · -- The bucket that was added: new, or one that was there and is empty.
        rw [if_pos hfg, Option.some.injEq] at hf
        cases hg : b.get? g with
        | none => rw [← hf, hg, Option.getD_none]
        | some old => rw [← hf, hg, Option.getD_some, h g old hg]
      · rw [if_neg hfg] at hf
        exact h f ids hf

/-- The buckets after the listed items came in, each with its key. -/
def insertAll (b : Buckets) (key : ItemId → Key) (ids : List ItemId) : Buckets :=
  ids.foldl (fun b id => b.insert id (key id)) b

end Buckets

namespace IdSet

/-- A set after the listed ids came in, those passed over whose key the filter
    does not accept. -/
def insertWhere (f : Filter) (key : ItemId → Key) (s : IdSet) (ids : List ItemId) : IdSet :=
  ids.foldl (fun s id => if f.accepts (key id) then s.insert id else s) s

theorem mem_insertWhere (f : Filter) (key : ItemId → Key) (s : IdSet) (ids : List ItemId)
    (x : ItemId) :
    x ∈ s.insertWhere f key ids ↔ x ∈ s ∨ x ∈ ids ∧ f.accepts (key x) = true := by
  induction ids generalizing s with
  | nil => simp only [insertWhere, List.foldl_nil, List.not_mem_nil, false_and, or_false]
  | cons id rest ih =>
      change x ∈ (if f.accepts (key id) then s.insert id else s).insertWhere f key rest ↔ _
      rw [ih, List.mem_cons]
      by_cases hid : f.accepts (key id) = true
      · -- Accepted: in, and it stays in.
        rw [if_pos hid, mem_insert]
        by_cases hx : x = id
        · subst hx
          simp only [hid, true_or, true_and, or_true]
        · simp only [hx, false_or]
      · -- Passed over: in only if it was before.
        rw [if_neg hid]
        by_cases hx : x = id
        · subst hx
          simp only [Bool.not_eq_true] at hid
          simp only [hid, Bool.false_eq_true, and_false]
        · simp only [hx, false_or]

end IdSet

namespace Buckets

-- One bucket after the listed items came in.
theorem get?_insertAll (b : Buckets) (key : ItemId → Key) (ids : List ItemId) (f : Filter) :
    (b.insertAll key ids).get? f = (b.get? f).map fun s => s.insertWhere f key ids := by
  induction ids generalizing b with
  | nil =>
      change b.get? f = (b.get? f).map fun s => s
      rw [Option.map_id']
  | cons id rest ih =>
      change ((b.insert id (key id)).insertAll key rest).get? f = _
      rw [ih, get?_insert, Option.map_map]
      rfl

theorem filters_insertAll (b : Buckets) (key : ItemId → Key) (ids : List ItemId) :
    (b.insertAll key ids).filters = b.filters := by
  induction ids generalizing b with
  | nil => rfl
  | cons id rest ih =>
      change ((b.insert id (key id)).insertAll key rest).filters = _
      rw [ih]
      exact filters_mapIds _ b

end Buckets

end SceneIndex
