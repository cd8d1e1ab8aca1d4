import Mathlib.Data.List.Induction
import Mathlib.Tactic.ByContra
import SceneIndex.Proofs.Batch.Join
import SceneIndex.Proofs.Storage.Slots

/-!
# What a batch comes to for one item

A batch is applied entry by entry, and an item may be named by many entries.
`outcome` says what is left of it in the end, without going through the
entries: a removal wins over everything, and otherwise the last reset entry
decides, with a payload or without.

The reason is that no entry that touches an item looks at what the item was.
A reset puts in what it brings, a removal leaves nothing, and a move does not
touch the item. So only the last of the entries that touch the item counts,
and removals come after all resets.

Two batches in turn are not always the same as the two joined. Joining them
puts the resets of the second before the removals of the first, which shows
when the first removes an item and the second puts something into it that is
there in the end. `outcome_merge_of_not_showsAgain` says that this is the only
obstacle: without it, where one batch ends and the next begins makes no
difference. `outcome_merge` asks for a little more, that the second batch does
not reset the item at all, which is a condition on pairs of batches that can be
checked before they are joined with others.

## Main definitions

* `Batch.lastReset?`: The last reset entry for an id.
* `Batch.outcome`: What a batch comes to for one item.
* `Batch.touched`: The items about which a batch says something.
* `Batch.Revives`: A later batch resets what an earlier one removed.
* `Batch.ShowsAgain`: It does, and the item holds a payload in the end.

## Theorems

* `lastReset?_split`: The last reset entry, found by its place.
* `through_changes`: Application entry by entry comes to the outcome.
* `outcome_of_untouched`: An item that is not touched stays.
* `outcome_merge_of_not_showsAgain`, `outcome_merge`: Two batches in turn and
  the two joined.
* `mem_touched_join`: A joined batch touches what its parts touch.
-/

namespace SceneIndex

namespace Batch

/-- What the last reset entry for an id puts in, if there is one. -/
def lastReset? (b : Batch) (id : ItemId) : Option (Option Payload) :=
  ((b.resets.filter fun entry => entry.1 = id).getLast?).map (·.2)

/-- What a batch comes to for the item of an id. -/
def outcome (keys : PayloadKeys) (b : Batch) (id : ItemId) (item : Item) : Item :=
  if id ∈ b.removals then item.kill
  else match b.lastReset? id with
    | some payload => item.reset keys payload
    | none => item

/-- The ids of the items that the batch resets, clears or removes. -/
def touched (b : Batch) : List ItemId := b.resets.map Prod.fst ++ b.removals

/-- The second batch resets an item that the first one removed. -/
def Revives (first second : Batch) (id : ItemId) : Prop :=
  id ∈ first.removals ∧ id ∈ second.resets.map Prod.fst

/-- The second batch puts a payload into an item that the first one removed,
    and leaves it there. -/
def ShowsAgain (first second : Batch) (id : ItemId) : Prop :=
  id ∈ first.removals ∧ id ∉ second.removals ∧
    ∃ payload, second.lastReset? id = some (some payload)

-- A reset entry for the id that no other follows is the last one.
theorem lastReset?_split (b : Batch) (id : ItemId) (payload : Option Payload)
    (earlier later : List (ItemId × Option Payload))
    (hsplit : b.resets = earlier ++ (id, payload) :: later)
    (hlater : id ∉ later.map Prod.fst) : b.lastReset? id = some payload := by
  have hnone : (later.filter fun entry => decide (entry.1 = id)) = [] := by
    rw [List.filter_eq_nil_iff]
    intro entry hentry heq
    exact hlater (List.mem_map.mpr ⟨entry, hentry, of_decide_eq_true heq⟩)
  have hlast : (((id, payload) :: later).filter fun entry => decide (entry.1 = id))
      = [(id, payload)] := by
    simp only [List.filter_cons, decide_true, if_true, hnone]
  rw [lastReset?, hsplit, List.filter_append, hlast, List.getLast?_append]
  rfl

theorem lastReset?_eq_none (b : Batch) (id : ItemId) (h : id ∉ b.resets.map Prod.fst) :
    b.lastReset? id = none := by
  have hnone : (b.resets.filter fun entry => decide (entry.1 = id)) = [] := by
    rw [List.filter_eq_nil_iff]
    intro entry hentry heq
    exact h (List.mem_map.mpr ⟨entry, hentry, of_decide_eq_true heq⟩)
  rw [lastReset?, hnone]
  rfl

-- Of two batches in turn, the last reset entry is that of the second if it has
-- one.
theorem lastReset?_merge (a b : Batch) (id : ItemId) :
    (a.merge b).lastReset? id = (b.lastReset? id).or (a.lastReset? id) := by
  simp only [lastReset?, merge, List.filter_append, List.getLast?_append]
  cases (b.resets.filter fun entry => decide (entry.1 = id)).getLast? <;> rfl

-- What a batch comes to depends on the entries that name the id, and on the
-- order of the resets among them.
theorem outcome_congr (keys : PayloadKeys) (a b : Batch) (id : ItemId) (item : Item)
    (hresets : (a.resets.filter fun entry => decide (entry.1 = id))
      = b.resets.filter fun entry => decide (entry.1 = id))
    (hremovals : id ∈ a.removals ↔ id ∈ b.removals) :
    a.outcome keys id item = b.outcome keys id item := by
  simp only [outcome, lastReset?, hresets, hremovals]

end Batch

namespace Item

-- A reset does not look at what the item was.
theorem reset_eq_reset (keys : PayloadKeys) (a b : Item) (payload : Option Payload) :
    a.reset keys payload = b.reset keys payload := by
  cases payload <;> rfl

theorem through_moves (keys : PayloadKeys) (id : ItemId) (item : Item) (ids : List ItemId) :
    item.through keys id (ids.map SceneIndex.Change.move) = item := by
  induction ids with
  | nil => rfl
  | cons x rest ih =>
      simp only [through, List.map_cons, List.foldl_cons] at ih ⊢
      split
      · exact ih
      · exact ih

theorem through_removals (keys : PayloadKeys) (id : ItemId) (item : Item) (ids : List ItemId) :
    item.through keys id (ids.map SceneIndex.Change.remove)
      = if id ∈ ids then item.kill else item := by
  induction ids generalizing item with
  | nil => rfl
  | cons x rest ih =>
      change (if x = id then item.kill else item).through keys id
        (rest.map SceneIndex.Change.remove) = _
      rw [ih]
      by_cases hx : x = id
      · -- Killing an item once more changes nothing.
        rw [if_pos hx, if_pos (List.mem_cons.mpr (Or.inl hx.symm))]
        split <;> rfl
      · rw [if_neg hx]
        have hmem : id ∈ x :: rest ↔ id ∈ rest :=
          ⟨fun h => (List.mem_cons.mp h).resolve_left (Ne.symm hx), List.mem_cons_of_mem x⟩
        simp only [hmem]

-- Resets in turn come to the last one for the id. The induction takes entries
-- off the end, where the deciding one is.
theorem through_resets (keys : PayloadKeys) (id : ItemId) (item : Item)
    (entries : List (ItemId × Option Payload)) :
    item.through keys id (entries.map SceneIndex.Change.ofReset)
      = match ({ resets := entries } : Batch).lastReset? id with
        | some payload => item.reset keys payload
        | none => item := by
  induction entries using List.reverseRecOn with
  | nil => rfl
  | append_singleton front entry ih =>
      rcases entry with ⟨x, payload⟩
      have hlast : item.through keys id ((front ++ [(x, payload)]).map SceneIndex.Change.ofReset)
          = if x = id then (item.through keys id (front.map SceneIndex.Change.ofReset)).reset
              keys payload
            else item.through keys id (front.map SceneIndex.Change.ofReset) := by
        rw [List.map_append, through_append]
        cases payload <;> rfl
      have hmerge : ({ resets := front ++ [(x, payload)] } : Batch)
          = ({ resets := front } : Batch).merge { resets := [(x, payload)] } := rfl
      rw [hlast, hmerge, Batch.lastReset?_merge]
      by_cases hx : x = id
      · -- The last entry decides, and what came before does not matter.
        have hself := Batch.lastReset?_split { resets := [(x, payload)] } id payload [] []
          (by rw [hx]; rfl) List.not_mem_nil
        rw [if_pos hx, hself]
        exact reset_eq_reset keys _ _ payload
      · -- The last entry is for another id.
        have hnone := Batch.lastReset?_eq_none { resets := [(x, payload)] } id
          (fun h => hx (List.mem_singleton.mp h).symm)
        rw [if_neg hx, ih, hnone]
        rfl

/-- Application entry by entry comes to the outcome: the moves do nothing, a
    removal undoes what the resets did, and these come to the last one. -/
theorem through_changes (keys : PayloadKeys) (b : Batch) (id : ItemId) (item : Item) :
    item.through keys id b.changes = b.outcome keys id item := by
  rw [Batch.changes, through_append, through_append, through_moves, through_removals,
    through_resets]
  simp only [Batch.outcome, Batch.lastReset?]
  by_cases hid : id ∈ b.removals
  · -- A killed item does not show what it was.
    rw [if_pos hid, if_pos hid]
    rfl
  · rw [if_neg hid, if_neg hid]

end Item

namespace Batch

/-- An item that a batch does not touch stays as it is. -/
theorem outcome_of_untouched (keys : PayloadKeys) (b : Batch) (id : ItemId) (item : Item)
    (h : id ∉ b.touched) : b.outcome keys id item = item := by
  rw [touched, List.mem_append, not_or] at h
  rw [outcome, if_neg h.2, lastReset?_eq_none b id h.1]

-- An item that is shown again is reset.
theorem ShowsAgain.revives {a b : Batch} {id : ItemId} (h : ShowsAgain a b id) :
    Revives a b id := by
  rcases h with ⟨ha, _, payload, hlast⟩
  refine ⟨ha, ?_⟩
  by_contra hnot
  rw [lastReset?_eq_none b id hnot] at hlast
  simp only [reduceCtorEq] at hlast

theorem outcome_of_removal (keys : PayloadKeys) (b : Batch) (id : ItemId) (item : Item)
    (h : id ∈ b.removals) : b.outcome keys id item = item.kill := by
  rw [outcome, if_pos h]

theorem outcome_of_lastReset (keys : PayloadKeys) (b : Batch) (id : ItemId) (item : Item)
    (payload : Option Payload) (hnot : id ∉ b.removals) (hlast : b.lastReset? id = some payload) :
    b.outcome keys id item = item.reset keys payload := by
  rw [outcome, if_neg hnot, hlast]

/-- Two batches in turn come to the same as the two joined, unless the second
    shows an item again that the first one removed. -/
theorem outcome_merge_of_not_showsAgain (keys : PayloadKeys) (a b : Batch) (id : ItemId)
    (item : Item) (h : ¬ ShowsAgain a b id) :
    (a.merge b).outcome keys id item = b.outcome keys id (a.outcome keys id item) := by
  have hmem : id ∈ (a.merge b).removals ↔ id ∈ a.removals ∨ id ∈ b.removals := List.mem_append
  by_cases hb : id ∈ b.removals
  · -- Removed by the second batch: whatever came before is gone.
    rw [outcome_of_removal keys _ id _ (hmem.mpr (Or.inr hb)), outcome_of_removal keys b id _ hb]
    rfl
  · by_cases ha : id ∈ a.removals
    · -- Removed by the first batch only. What the second one says of it, if
      -- anything, is that it be cleared.
      rw [outcome_of_removal keys _ id _ (hmem.mpr (Or.inl ha)), outcome_of_removal keys a id _ ha]
      cases hlast : b.lastReset? id with
      | none => rw [outcome, if_neg hb, hlast]
      | some payload =>
          rw [outcome_of_lastReset keys b id _ payload hb hlast]
          cases payload with
          | none => rfl
          | some p => exact absurd ⟨ha, hb, p, hlast⟩ h
    · -- Removed by neither: the last reset entry of the two decides.
      have hnot : id ∉ (a.merge b).removals := fun hm => (hmem.mp hm).elim ha hb
      rw [outcome, if_neg hnot, lastReset?_merge, outcome, if_neg hb, outcome, if_neg ha]
      cases hlast : b.lastReset? id with
      | none => rfl
      | some payload => exact Item.reset_eq_reset keys _ _ payload

/-- Two batches in turn come to the same as the two joined, unless the second
    resets an item that the first one removed. -/
theorem outcome_merge (keys : PayloadKeys) (a b : Batch) (id : ItemId) (item : Item)
    (h : ¬ Revives a b id) :
    (a.merge b).outcome keys id item = b.outcome keys id (a.outcome keys id item) :=
  outcome_merge_of_not_showsAgain keys a b id item fun hshown => h hshown.revives

theorem outcome_join_nil (keys : PayloadKeys) (id : ItemId) (item : Item) :
    (join []).outcome keys id item = item :=
  outcome_of_untouched keys _ id item List.not_mem_nil

theorem mem_resets_join (batches : List Batch) (id : ItemId) :
    id ∈ (join batches).resets.map Prod.fst ↔ ∃ b ∈ batches, id ∈ b.resets.map Prod.fst := by
  simp only [join, List.map_flatMap, List.mem_flatMap]

theorem mem_removals_join (batches : List Batch) (id : ItemId) :
    id ∈ (join batches).removals ↔ ∃ b ∈ batches, id ∈ b.removals :=
  List.mem_flatMap

-- If a joined batch resets what the first removed, one of its parts does.
theorem revives_join_right (a : Batch) (batches : List Batch) (id : ItemId)
    (h : Revives a (join batches) id) : ∃ b ∈ batches, Revives a b id := by
  rcases (mem_resets_join batches id).mp h.2 with ⟨b, hb, hid⟩
  exact ⟨b, hb, h.1, hid⟩

theorem revives_join_left (batches : List Batch) (b : Batch) (id : ItemId)
    (h : Revives (join batches) b id) : ∃ a ∈ batches, Revives a b id := by
  rcases (mem_removals_join batches id).mp h.1 with ⟨a, ha, hid⟩
  exact ⟨a, ha, hid, h.2⟩

theorem mem_touched_join (batches : List Batch) (id : ItemId) :
    id ∈ (join batches).touched ↔ ∃ b ∈ batches, id ∈ b.touched := by
  simp only [touched, List.mem_append, mem_resets_join, mem_removals_join, and_or_left,
    exists_or]

end Batch

end SceneIndex
