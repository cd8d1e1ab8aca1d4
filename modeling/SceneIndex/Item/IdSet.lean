import SceneIndex.Item.Id

/-!
# Sets of item ids

A bucket holds a set of ids. The set is kept as its ids in ascending order,
each once, so that the order in which ids came in leaves no trace and two
sets with the same members are equal.

## Main definitions

* `IdSet`: Ids in ascending order.
* `IdSet.insert`, `IdSet.erase`: The set with one more or one less id.

## Theorems

* `IdSet.mem_insert`, `IdSet.mem_erase`: The members afterwards.
* `IdSet.ext`: Sets with the same members are equal.
-/

namespace SceneIndex

/-- A set of ids, as the list of its members in ascending order. -/
structure IdSet where
  toList : List ItemId
  /-- The list ascends, so no id stands in it twice. -/
  ascending : toList.Pairwise (·.index < ·.index)
  deriving DecidableEq

namespace IdSet

instance : Membership ItemId IdSet := ⟨fun s id => id ∈ s.toList⟩

instance (id : ItemId) (s : IdSet) : Decidable (id ∈ s) :=
  inferInstanceAs (Decidable (id ∈ s.toList))

/-- The set without members. -/
def empty : IdSet := ⟨[], List.Pairwise.nil⟩

instance : Inhabited IdSet := ⟨empty⟩

/-- Puts an id at its place in an ascending list, unless it stands there. -/
def place (id : ItemId) : List ItemId → List ItemId
  | [] => [id]
  | head :: rest =>
    if id.index < head.index then id :: head :: rest
    else if id = head then head :: rest
    else head :: place id rest

/-- Placing an id adds that id and nothing else. -/
theorem mem_place (id x : ItemId) (ids : List ItemId) :
    x ∈ place id ids ↔ x = id ∨ x ∈ ids := by
  induction ids with
  | nil => simp [place]
  | cons head rest ih =>
    simp only [place]
    split
    · simp
    · split
      · rename_i h
        simp [h]
      · simp [ih, or_left_comm]

/-- Placing an id keeps a list ascending. -/
theorem place_ascending (id : ItemId) (ids : List ItemId)
    (h : ids.Pairwise (·.index < ·.index)) : (place id ids).Pairwise (·.index < ·.index) := by
  induction ids with
  | nil => simp [place]
  | cons head rest ih =>
    rw [List.pairwise_cons] at h
    simp only [place]
    split
    · -- The id comes first, below the old head and so below all the rest.
      rename_i hlt
      refine List.pairwise_cons.mpr ⟨fun x hx => ?_, List.pairwise_cons.mpr h⟩
      rcases List.mem_cons.mp hx with rfl | hx
      · exact hlt
      · exact Nat.lt_trans hlt (h.1 x hx)
    · split
      · exact List.pairwise_cons.mpr h
      · rename_i hge hne
        refine List.pairwise_cons.mpr ⟨fun x hx => ?_, ih h.2⟩
        rcases (mem_place id x rest).mp hx with rfl | hx
        · have : head.index ≠ x.index := fun e => hne (ItemId.index_injective e.symm)
          omega
        · exact h.1 x hx

/-- The set with one more id. -/
def insert (id : ItemId) (s : IdSet) : IdSet :=
  ⟨place id s.toList, place_ascending id s.toList s.ascending⟩

/-- The set with one id less. -/
def erase (id : ItemId) (s : IdSet) : IdSet :=
  ⟨s.toList.filter (· ≠ id), s.ascending.filter _⟩

/-- The set of the listed ids. -/
def ofList (ids : List ItemId) : IdSet :=
  ids.foldl (fun s id => s.insert id) empty

/-- The greatest id of the set. -/
def max? (s : IdSet) : Option ItemId := s.toList.getLast?

theorem mem_insert {id x : ItemId} {s : IdSet} : x ∈ s.insert id ↔ x = id ∨ x ∈ s :=
  mem_place id x s.toList

theorem mem_erase {id x : ItemId} {s : IdSet} : x ∈ s.erase id ↔ x ≠ id ∧ x ∈ s := by
  show x ∈ s.toList.filter (· ≠ id) ↔ x ≠ id ∧ x ∈ s.toList
  rw [List.mem_filter, decide_eq_true_eq, And.comm]

/-- Ascending lists with the same members are equal. -/
theorem eq_of_ascending {a b : List ItemId} (ha : a.Pairwise (·.index < ·.index))
    (hb : b.Pairwise (·.index < ·.index)) (h : ∀ x, x ∈ a ↔ x ∈ b) : a = b := by
  induction a generalizing b with
  | nil =>
    cases b with
    | nil => rfl
    | cons y ys => exact absurd ((h y).mpr (List.mem_cons_self ..)) (by simp)
  | cons x xs ih =>
    cases b with
    | nil => exact absurd ((h x).mp (List.mem_cons_self ..)) (by simp)
    | cons y ys =>
      rw [List.pairwise_cons] at ha hb
      -- Each head is the least member of its list, so the heads agree.
      have hxy : x = y := by
        rcases List.mem_cons.mp ((h x).mp (List.mem_cons_self ..)) with e | hx
        · exact e
        · rcases List.mem_cons.mp ((h y).mpr (List.mem_cons_self ..)) with e | hy
          · exact e.symm
          · have := ha.1 y hy
            have := hb.1 x hx
            omega
      subst hxy
      refine congrArg (x :: ·) (ih ha.2 hb.2 fun z => ⟨fun hz => ?_, fun hz => ?_⟩)
      · rcases List.mem_cons.mp ((h z).mp (List.mem_cons_of_mem _ hz)) with rfl | hz'
        · exact absurd (ha.1 z hz) (Nat.lt_irrefl _)
        · exact hz'
      · rcases List.mem_cons.mp ((h z).mpr (List.mem_cons_of_mem _ hz)) with rfl | hz'
        · exact absurd (hb.1 z hz) (Nat.lt_irrefl _)
        · exact hz'

/-- Sets with the same members are equal. -/
theorem ext {s t : IdSet} (h : ∀ x, x ∈ s ↔ x ∈ t) : s = t := by
  obtain ⟨a, ha⟩ := s
  obtain ⟨b, hb⟩ := t
  obtain rfl := eq_of_ascending ha hb h
  rfl

end IdSet

end SceneIndex
