import SceneIndex.Scene.Storage

/-!
# Slots under changes

What a change does to the slots, and what a list of changes does when it is
applied in turn.

A slot is looked at by its number, and a number beyond the last slot counts as
a slot in which nothing was ever put. Seen this way growth of the storage is
invisible, and a change to an item is one equation: the slot of its id gets
the change and every other slot stays (`slot_apply`). What happens to the
buckets is left to other modules; none of the equations here mentions them.

Application in turn goes on while the ids are good. `applyAll_append` splits
it at any point that it gets past, `applyAll_held` says that it gets past
everything when all ids are good, and `applyAll_stop` says that it ends
exactly before the first bad one. Whether an id is good depends on the next
id and the number of slots only, and applying changes neither, so the
question may be asked before the application starts.

## Main definitions

* `Storage.slot`: The item in the slot of a number.
* `Change.onItem`: What a change means to the item that it names.
* `Item.through`: The item of an id after changes in turn.

## Theorems

* `slot_apply`: A change seen from one slot.
* `slot_growTo`: Growth seen from one slot.
* `applyAll_preserves`: What every good change keeps, an application keeps.
* `applyAll_append`: An application in two parts.
* `applyAll_held`: With good ids only, everything is applied.
* `applyAll_stop`: A bad id ends the application just before it.
* `item_applyAll`: The item of an id after an application.
-/

namespace SceneIndex

/-- What a change means to the item that it names. -/
def Change.onItem : Change → Item.Change
  | reset _ payload => .reset (some payload)
  | clear _ => .reset none
  | remove _ => .kill
  | move _ => .move

/-- The item of an id after changes in turn, those that name other ids being
    passed over. -/
def Item.through (keys : PayloadKeys) (id : ItemId) (item : Item)
    (changes : List SceneIndex.Change) : Item :=
  changes.foldl (fun item c => if c.id = id then item.apply keys c.onItem else item) item

theorem Item.through_append (keys : PayloadKeys) (id : ItemId) (item : Item)
    (xs ys : List SceneIndex.Change) :
    item.through keys id (xs ++ ys) = (item.through keys id xs).through keys id ys :=
  List.foldl_append

namespace Storage

/-- The item in the slot of a number; beyond the last slot nothing was ever
    put. -/
def slot (st : Storage) (n : Nat) : Item := st.slots.getD n Item.pristine

theorem item_eq_slot (st : Storage) (id : ItemId) : st.item id = st.slot id.index := rfl

theorem getElem?_slots (st : Storage) (n : Nat) (h : n < st.capacity) :
    st.slots[n]? = some (st.slot n) := by
  have hn : n < st.slots.size := h
  rw [slot, Array.getD_eq_getD_getElem?, Array.getElem?_eq_getElem hn, Option.getD_some]

theorem slot_of_getElem?_slots (st : Storage) (n : Nat) (item : Item)
    (h : st.slots[n]? = some item) : st.slot n = item := by
  rw [slot, Array.getD_eq_getD_getElem?, h, Option.getD_some]

theorem slot_of_capacity_le (st : Storage) (n : Nat) (h : st.capacity ≤ n) :
    st.slot n = Item.pristine := by
  have hn : st.slots.size ≤ n := h
  rw [slot, Array.getD_eq_getD_getElem?, Array.getElem?_eq_none hn, Option.getD_none]

theorem capacity_setItem (st : Storage) (id : ItemId) (item : Item) :
    (st.setItem id item).capacity = st.capacity := by
  simp only [capacity, setItem, Array.size_setIfInBounds]

theorem slot_setItem (st : Storage) (id : ItemId) (item : Item) (n : Nat)
    (h : id.index < st.capacity) :
    (st.setItem id item).slot n = if n = id.index then item else st.slot n := by
  have hid : id.index < st.slots.size := h
  simp only [slot, setItem, Array.getD_eq_getD_getElem?]
  by_cases hn : n = id.index
  · rw [hn, if_pos rfl, Array.getElem?_setIfInBounds_self_of_lt hid, Option.getD_some]
  · rw [if_neg hn, Array.getElem?_setIfInBounds_ne (Ne.symm hn)]

-- Putting back what a slot holds changes nothing.
theorem setItem_item (st : Storage) (id : ItemId) : st.setItem id (st.item id) = st := by
  rcases st with ⟨slots, buckets⟩
  have hslots : slots.setIfInBounds id.index (slots.getD id.index Item.pristine) = slots := by
    ext n hn hn'
    · rw [Array.size_setIfInBounds]
    · rw [Array.getElem_setIfInBounds]
      by_cases h : id.index = n
      · subst h
        rw [if_pos rfl, Array.getD_eq_getD_getElem?, Array.getElem?_eq_getElem hn',
          Option.getD_some]
      · rw [if_neg h]
  simp only [setItem, item, hslots]

-- Whichever way a reset files the id, it leaves the same slots.
theorem slots_resetItem (keys : PayloadKeys) (st : Storage) (id : ItemId)
    (payload : Option Payload) :
    (st.resetItem keys id payload).1.slots
      = (st.setItem id ((st.item id).reset keys payload)).slots := by
  simp only [resetItem]
  split <;> rfl

-- The slots after a change are those of one assignment.
theorem slots_apply (keys : PayloadKeys) (st : Storage) (c : Change) :
    (st.apply keys c).1.slots
      = (st.setItem c.id ((st.item c.id).apply keys c.onItem)).slots := by
  cases c with
  | reset id payload => exact slots_resetItem keys st id (some payload)
  | clear id => exact slots_resetItem keys st id none
  | remove id =>
      simp only [apply, removeItem]
      split <;> rfl
  | move id => exact congrArg Storage.slots (setItem_item st id).symm

theorem capacity_apply (keys : PayloadKeys) (st : Storage) (c : Change) :
    (st.apply keys c).1.capacity = st.capacity := by
  rw [capacity, slots_apply]
  exact capacity_setItem st c.id _

/-- A change seen from one slot: the slot of its id gets the change, and every
    other slot stays. -/
theorem slot_apply (keys : PayloadKeys) (st : Storage) (c : Change) (n : Nat)
    (h : c.id.index < st.capacity) :
    (st.apply keys c).1.slot n
      = if n = c.id.index then (st.slot n).apply keys c.onItem else st.slot n := by
  rw [slot, slots_apply]
  refine (slot_setItem st c.id _ n h).trans ?_
  by_cases hn : n = c.id.index
  · rw [if_pos hn, if_pos hn, hn, item_eq_slot]
  · rw [if_neg hn, if_neg hn]

theorem capacity_growTo (st : Storage) (n : Nat) :
    (st.growTo n).capacity = max st.capacity n := by
  simp only [capacity, growTo, Array.size_append, Array.size_replicate]
  omega

theorem growTo_capacity (st : Storage) : st.growTo st.capacity = st := by
  simp only [growTo, Nat.sub_self, Array.replicate_zero, Array.append_empty]

/-- Growth adds slots in which nothing was ever put, so no slot shows it. -/
theorem slot_growTo (st : Storage) (n m : Nat) : (st.growTo n).slot m = st.slot m := by
  by_cases hm : m < st.capacity
  · have hm' : m < st.slots.size := hm
    simp only [slot, growTo, Array.getD_eq_getD_getElem?]
    rw [Array.getElem?_append_left hm']
  · -- Beyond the old slots: a new one, or still none.
    rw [slot_of_capacity_le st m (Nat.le_of_not_lt hm)]
    have hm' : st.slots.size ≤ m := Nat.le_of_not_lt hm
    simp only [slot, growTo, Array.getD_eq_getD_getElem?]
    rw [Array.getElem?_append_right hm', Array.getElem?_replicate]
    split <;> rfl

section Application

variable (keys : PayloadKeys) (next : UInt32)

-- Whether an id is good depends on the next id and the number of slots, so a
-- change makes no id good or bad.
theorem holds_of_capacity_eq (a b : Storage) (h : a.capacity = b.capacity) (id : ItemId) :
    a.holds next id = b.holds next id := by
  simp only [holds, h]

theorem holds_apply (st : Storage) (c : Change) (id : ItemId) :
    (st.apply keys c).1.holds next id = st.holds next id :=
  holds_of_capacity_eq next _ _ (capacity_apply keys st c) id

-- The ids after the first are asked for when the first change is done, and
-- the answers are those from before it.
theorem holds_rest (st : Storage) (c : Change) (rest : List Change)
    (h : ∀ d ∈ c :: rest, st.holds next d.id = true) :
    ∀ d ∈ rest, (st.apply keys c).1.holds next d.id = true := by
  intro d hd
  rw [holds_apply]
  exact h d (List.mem_cons_of_mem c hd)

theorem index_lt_of_holds (st : Storage) (id : ItemId) (h : st.holds next id = true) :
    id.index < st.capacity := by
  simp only [holds, Bool.and_eq_true, decide_eq_true_eq] at h
  exact h.2

theorem applyAll_cons (st : Storage) (c : Change) (rest : List Change)
    (h : st.holds next c.id = true) :
    st.applyAll keys next (c :: rest)
      = (((st.apply keys c).1.applyAll keys next rest).1,
         (st.apply keys c).2 ++ ((st.apply keys c).1.applyAll keys next rest).2.1,
         ((st.apply keys c).1.applyAll keys next rest).2.2) := by
  simp only [applyAll, if_pos h]

/-- What every change with a good id keeps, an application keeps, wherever it
    ends. -/
theorem applyAll_preserves (P : Storage → Prop)
    (hstep : ∀ st c, st.holds next c.id = true → P st → P (st.apply keys c).1)
    (st : Storage) (changes : List Change) (h : P st) :
    P (st.applyAll keys next changes).1 := by
  induction changes generalizing st with
  | nil => exact h
  | cons c rest ih =>
      by_cases hc : st.holds next c.id = true
      · rw [applyAll_cons keys next st c rest hc]
        exact ih _ (hstep st c hc h)
      · rw [applyAll, if_neg hc]
        exact h

theorem capacity_applyAll (st : Storage) (changes : List Change) :
    (st.applyAll keys next changes).1.capacity = st.capacity :=
  applyAll_preserves keys next (fun st' => st'.capacity = st.capacity)
    (fun st' c _ h => (capacity_apply keys st' c).trans h) st changes rfl

/-- An application that gets past its first part goes on with the second. -/
theorem applyAll_append (st : Storage) (xs ys : List Change)
    (h : ∀ c ∈ xs, st.holds next c.id = true) :
    st.applyAll keys next (xs ++ ys)
      = (((st.applyAll keys next xs).1.applyAll keys next ys).1,
         (st.applyAll keys next xs).2.1
           ++ ((st.applyAll keys next xs).1.applyAll keys next ys).2.1,
         ((st.applyAll keys next xs).1.applyAll keys next ys).2.2) := by
  induction xs generalizing st with
  | nil => simp only [List.nil_append, applyAll]
  | cons c rest ih =>
      have hc := h c List.mem_cons_self
      have hrest := holds_rest keys next st c rest h
      rw [List.cons_append, applyAll_cons keys next st c _ hc, ih _ hrest,
        applyAll_cons keys next st c rest hc]
      simp only [List.append_assoc]

-- With good ids only, the application gets past everything.
theorem applyAll_held (st : Storage) (changes : List Change)
    (h : ∀ c ∈ changes, st.holds next c.id = true) :
    (st.applyAll keys next changes).2.2 = none := by
  induction changes generalizing st with
  | nil => rfl
  | cons c rest ih =>
      rw [applyAll_cons keys next st c rest (h c List.mem_cons_self)]
      exact ih _ (holds_rest keys next st c rest h)

/-- The first bad id ends the application just before it: what stands before
    was applied as if it were alone, and the id is named with the number of
    slots at the time. -/
theorem applyAll_stop (st : Storage) (front : List Change) (bad : Change) (back : List Change)
    (hfront : ∀ c ∈ front, st.holds next c.id = true) (hbad : ¬ st.holds next bad.id = true) :
    st.applyAll keys next (front ++ bad :: back)
      = ((st.applyAll keys next front).1, (st.applyAll keys next front).2.1,
         some ⟨bad.id, next, st.capacity⟩) := by
  have hcap := capacity_applyAll keys next st front
  -- The bad id was bad from the start, so the front part made no difference.
  have hbad' : ¬ (st.applyAll keys next front).1.holds next bad.id = true := by
    rw [holds_of_capacity_eq next _ _ hcap]
    exact hbad
  rw [applyAll_append keys next st front _ hfront]
  simp only [applyAll, if_neg hbad', List.append_nil, hcap]

-- The item of an id after an application that gets past everything.
theorem item_applyAll (st : Storage) (changes : List Change) (id : ItemId)
    (h : ∀ c ∈ changes, st.holds next c.id = true) :
    (st.applyAll keys next changes).1.item id = (st.item id).through keys id changes := by
  induction changes generalizing st with
  | nil => rfl
  | cons c rest ih =>
      have hc := h c List.mem_cons_self
      rw [applyAll_cons keys next st c rest hc]
      refine (ih _ (holds_rest keys next st c rest h)).trans ?_
      rw [item_eq_slot, slot_apply keys st c _ (index_lt_of_holds next st c.id hc)]
      -- What is known is about slots, what is to be shown about ids; they are
      -- equal together.
      by_cases hid : c.id = id
      · simp only [Item.through, List.foldl_cons, hid, if_true, item_eq_slot]
      · have hne : id.index ≠ c.id.index := fun e => hid (ItemId.index_injective e.symm)
        simp only [Item.through, List.foldl_cons, if_neg hid, if_neg hne, item_eq_slot]

-- A slot that no change names keeps what it holds.
theorem slot_applyAll_of_unnamed (st : Storage) (changes : List Change) (n : Nat)
    (h : ∀ c ∈ changes, c.id.index ≠ n) :
    (st.applyAll keys next changes).1.slot n = st.slot n := by
  induction changes generalizing st with
  | nil => rfl
  | cons c rest ih =>
      by_cases hc : st.holds next c.id = true
      · -- The change is to another slot.
        have hn : n ≠ c.id.index := fun e => h c List.mem_cons_self e.symm
        rw [applyAll_cons keys next st c rest hc]
        refine (ih _ (fun d hd => h d (List.mem_cons_of_mem c hd))).trans ?_
        rw [slot_apply keys st c n (index_lt_of_holds next st c.id hc), if_neg hn]
      · rw [applyAll, if_neg hc]

end Application

end Storage

end SceneIndex
