import SceneIndex.Filter
import SceneIndex.Item.IdSet

/-!
# Buckets

A bucket is a filter together with the ids of the items whose key passes it.
No two buckets have the same filter, and an item may be in any number of
them. The buckets are kept in the order of their filters, so that the order
in which they were allocated leaves no trace.

The buckets know nothing of items. Who changes the key of an item tells them:
that an item with a key came in, that one went out, or that the key of one
became another. The last only touches the buckets on which the two keys
disagree.

## Main definitions

* `Buckets`: The filters with their ids, in the order of the filters.
* `Buckets.get?`: The ids in the bucket of a filter.
* `Buckets.allocate`: The buckets with one more, which starts empty.
* `Buckets.insert`, `Buckets.erase`, `Buckets.rekey`: An item comes in, goes
  out, or gets another key.
* `Buckets.standard`: The two buckets that every index has.

## Theorems

* `Buckets.get?_allocate`: A new bucket is empty and changes no other.
* `Buckets.get?_insert`, `Buckets.get?_erase`, `Buckets.get?_rekey`: Every
  bucket afterwards.
-/

namespace SceneIndex

/-- Filters with the ids in their buckets, in the order of the filters. -/
structure Buckets where
  entries : List (Filter × IdSet)
  /-- The filters ascend, so no filter has two buckets. -/
  ascending : entries.Pairwise (fun a b => a.1.rank < b.1.rank)
  deriving DecidableEq

namespace Buckets

/-- No bucket at all. -/
def empty : Buckets := ⟨[], List.Pairwise.nil⟩

instance : Inhabited Buckets := ⟨empty⟩

/-- The filters that have a bucket, in their order. -/
def filters (b : Buckets) : List Filter := b.entries.map (·.1)

/-- The number of buckets. -/
def size (b : Buckets) : Nat := b.entries.length

/-- The ids in the bucket of a filter, if it has one. -/
def get? (b : Buckets) (f : Filter) : Option IdSet :=
  (b.entries.find? fun entry => entry.1 = f).map (·.2)

/-- Whether the filter has a bucket. -/
def has (b : Buckets) (f : Filter) : Bool := (b.get? f).isSome

/-- Whether the bucket of a filter exists and holds an id. -/
def contains (b : Buckets) (f : Filter) (id : ItemId) : Bool :=
  match b.get? f with
  | some ids => decide (id ∈ ids)
  | none => false

/-- Puts an empty bucket at its place, unless the filter has one. -/
def place (f : Filter) : List (Filter × IdSet) → List (Filter × IdSet)
  | [] => [(f, IdSet.empty)]
  | head :: rest =>
    if f.rank < head.1.rank then (f, IdSet.empty) :: head :: rest
    else if f = head.1 then head :: rest
    else head :: place f rest

/-- Placing a bucket adds a filter and nothing else. -/
theorem mem_place {f : Filter} {x : Filter × IdSet} {entries : List (Filter × IdSet)}
    (h : x ∈ place f entries) : x = (f, IdSet.empty) ∨ x ∈ entries := by
  induction entries with
  | nil =>
    exact Or.inl (List.mem_singleton.mp h)
  | cons head rest ih =>
    simp only [place] at h
    split at h
    · exact List.mem_cons.mp h
    · split at h
      · exact Or.inr h
      · rcases List.mem_cons.mp h with h | h
        · exact Or.inr (h ▸ List.mem_cons_self ..)
        · exact (ih h).imp id (List.mem_cons_of_mem _)

/-- Placing a bucket keeps the filters ascending. -/
theorem place_ascending (f : Filter) (entries : List (Filter × IdSet))
    (h : entries.Pairwise (fun a b => a.1.rank < b.1.rank)) :
    (place f entries).Pairwise (fun a b => a.1.rank < b.1.rank) := by
  induction entries with
  | nil => simp [place]
  | cons head rest ih =>
    rw [List.pairwise_cons] at h
    simp only [place]
    split
    · rename_i hlt
      refine List.pairwise_cons.mpr ⟨fun x hx => ?_, List.pairwise_cons.mpr h⟩
      rcases List.mem_cons.mp hx with rfl | hx
      · exact hlt
      · exact Nat.lt_trans hlt (h.1 x hx)
    · split
      · exact List.pairwise_cons.mpr h
      · rename_i hge hne
        refine List.pairwise_cons.mpr ⟨fun x hx => ?_, ih h.2⟩
        rcases mem_place hx with rfl | hx
        · have : head.1.rank ≠ f.rank := fun e => hne (Filter.rank_injective e.symm)
          show head.1.rank < f.rank
          omega
        · exact h.1 x hx

/-- The buckets with one more for the filter, empty; nothing changes if the
    filter has a bucket. -/
def allocate (b : Buckets) (f : Filter) : Buckets :=
  ⟨place f b.entries, place_ascending f b.entries b.ascending⟩

/-- The buckets with one more for each listed filter that has none. -/
def allocateAll (b : Buckets) (filters : List Filter) : Buckets :=
  filters.foldl allocate b

/-- Changes the ids of every bucket, knowing its filter. -/
def mapIds (g : Filter → IdSet → IdSet) (b : Buckets) : Buckets where
  entries := b.entries.map fun entry => (entry.1, g entry.1 entry.2)
  ascending := by
    rw [List.pairwise_map]
    exact b.ascending

/-- An item with a key comes in: its id enters every bucket that accepts the
    key. -/
def insert (b : Buckets) (id : ItemId) (key : Key) : Buckets :=
  b.mapIds fun f ids => if f.accepts key then ids.insert id else ids

/-- An item with a key goes out: its id leaves every bucket that accepts the
    key. -/
def erase (b : Buckets) (id : ItemId) (key : Key) : Buckets :=
  b.mapIds fun f ids => if f.accepts key then ids.erase id else ids

/-- The key of an item becomes another: its id leaves the buckets that accept
    only the old key and enters those that accept only the new one. -/
def rekey (b : Buckets) (id : ItemId) (old new : Key) : Buckets :=
  b.mapIds fun f ids =>
    match f.accepts old, f.accepts new with
    | true, false => ids.erase id
    | false, true => ids.insert id
    | _, _ => ids

/-- Changing the ids of every bucket, seen from one filter. -/
theorem get?_mapIds (g : Filter → IdSet → IdSet) (b : Buckets) (f : Filter) :
    (b.mapIds g).get? f = (b.get? f).map (g f) := by
  simp only [get?, mapIds, List.find?_map, Option.map_map, Function.comp_def]
  cases h : b.entries.find? fun entry => decide (entry.1 = f) with
  | none => rfl
  | some entry =>
    have hf : entry.1 = f := by simpa using List.find?_some h
    simp only [Option.map_some, hf]

theorem get?_insert (b : Buckets) (id : ItemId) (key : Key) (f : Filter) :
    (b.insert id key).get? f =
      (b.get? f).map fun ids => if f.accepts key then ids.insert id else ids :=
  get?_mapIds _ b f

theorem get?_erase (b : Buckets) (id : ItemId) (key : Key) (f : Filter) :
    (b.erase id key).get? f =
      (b.get? f).map fun ids => if f.accepts key then ids.erase id else ids :=
  get?_mapIds _ b f

theorem get?_rekey (b : Buckets) (id : ItemId) (old new : Key) (f : Filter) :
    (b.rekey id old new).get? f = (b.get? f).map fun ids =>
      match f.accepts old, f.accepts new with
      | true, false => ids.erase id
      | false, true => ids.insert id
      | _, _ => ids :=
  get?_mapIds _ b f

/-- A filter that ranks below all others has no bucket among theirs. -/
theorem find?_eq_none_of_rank {f : Filter} {entries : List (Filter × IdSet)}
    (h : ∀ entry ∈ entries, f.rank < entry.1.rank) :
    (entries.find? fun entry => decide (entry.1 = f)) = none := by
  rw [List.find?_eq_none]
  intro entry hmem heq
  have := h entry hmem
  rw [of_decide_eq_true heq] at this
  exact Nat.lt_irrefl _ this

/-- Placing a bucket, seen from one filter. -/
theorem find?_place (f g : Filter) (entries : List (Filter × IdSet))
    (h : entries.Pairwise (fun a b => a.1.rank < b.1.rank)) :
    ((place f entries).find? fun entry => decide (entry.1 = g)) =
      if g = f then
        some ((entries.find? fun entry => decide (entry.1 = f)).getD (f, IdSet.empty))
      else entries.find? fun entry => decide (entry.1 = g) := by
  induction entries with
  | nil =>
    by_cases hg : g = f
    · simp [place, hg]
    · simp [place, hg, Ne.symm hg]
  | cons head rest ih =>
    rw [List.pairwise_cons] at h
    simp only [place]
    split
    · -- The filter ranks below all that have a bucket, so it has none.
      rename_i hlt
      have hnone : ((head :: rest).find? fun entry => decide (entry.1 = f)) = none := by
        apply find?_eq_none_of_rank
        intro entry hmem
        rcases List.mem_cons.mp hmem with rfl | hmem
        · exact hlt
        · exact Nat.lt_trans hlt (h.1 entry hmem)
      by_cases hg : g = f
      · simp [hnone, hg]
      · simp [hg, Ne.symm hg]
    · split
      · rename_i hf
        by_cases hg : g = f
        · simp [hg, ← hf]
        · rw [if_neg hg]
      · rename_i hf
        rw [List.find?_cons, ih h.2]
        by_cases hg : g = f
        · simp [hg, Ne.symm hf]
        · simp only [if_neg hg, List.find?_cons]

/-- A new bucket is empty, one that was there keeps its ids, and no other
    bucket changes. -/
theorem get?_allocate (b : Buckets) (f g : Filter) :
    (b.allocate f).get? g =
      if g = f then some ((b.get? f).getD IdSet.empty) else b.get? g := by
  simp only [get?, allocate, find?_place f g b.entries b.ascending]
  split
  · cases b.entries.find? fun entry => decide (entry.1 = f) <;> rfl
  · rfl

/-- The filters of the two buckets that every index has. -/
def standardFilters : List Filter := [Filter.opaqueShape, Filter.transparentShape]

/-- The two buckets that every index has. -/
def standard : Buckets := empty.allocateAll standardFilters

end Buckets

end SceneIndex
