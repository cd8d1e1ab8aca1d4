import Mathlib.Algebra.GroupWithZero.Nat
import Mathlib.Data.List.TakeWhile
import SceneIndex.Proofs.Scene.Lifecycle
import SceneIndex.Proofs.Session.Index

/-!
# What history tells of an item

The state of a slot is kept by overwriting, so nothing in it says how it came
about. This module writes the history down beside it: every entry that a phase
gets to, in the order of application, with the keys that the payloads reported
at the time. Phases that are stopped are in it with the entries that they got
to, and those for which there are no slots with none.

An item is then told by one entry of the history, the last that resets, clears
or removes it. No entry looks at what the item was, so what came before is of
no account, and if there is no such entry nothing was ever put into the slot.
`item_after` is this for all runs. What can be asked of an item follows: how
far it has come, that it is not live and killed at once, and that the key in
its slot is the one its payload reported when it was put in.

Which ids there are does not depend on any of this. They are given out in
order, beginning with one.

Slots that a sum has taken away tell nothing of their history, so all this is
said of steady runs. `lifecycle_lost_wrappingRun` shows what becomes of a live
item otherwise.

## Main definitions

* `Change.decides`: The change resets, clears or removes the item.
* `Change.leaves`: What is in the slot then.
* `Scene.reached`: The entries that a phase gets to.
* `Session.Entry`: An entry that was applied, with the keys at the time.
* `Session.history`: All entries applied in a run.
* `Session.lastDecision?`: The last of them that decides an item.
* `Item.told`: What an item is by the entries.
* `Session.issues`: What was answered when ids were asked for.
* `Session.ToldBy`: All that the entries tell of a scene.

## Theorems

* `applyAll_takeWhile`, `application_reached`: An application does what the
  entries it gets to do.
* `item_application_reached`: An item after a phase, stopped or not.
* `told_append`: The entries of two parts of a run.
* `item_after`: An item after a run.
* `toldBy_history`: A scene after a run.
* `issues_in_order`: The ids that a run gives out.
* `lifecycle_determined_by_history`: All of it, from the start.
-/

namespace SceneIndex

namespace Change

/-- The change decides what the item of the id is: it resets, clears or
    removes it. -/
def decides (id : ItemId) : Change → Bool
  | reset x _ => decide (x = id)
  | clear x => decide (x = id)
  | remove x => decide (x = id)
  | move _ => false

/-- What a change that decides an item leaves in its slot. -/
def leaves (keys : PayloadKeys) : Change → Item
  | reset _ payload => { payload := some payload, key := payload.key keys, killed := false }
  | _ => { payload := none, key := Key.empty, killed := true }

theorem cases_of_decides (id : ItemId) (c : Change) (h : c.decides id = true) :
    (∃ payload, c = reset id payload) ∨ c = clear id ∨ c = remove id := by
  cases c with
  | reset x payload => exact Or.inl ⟨payload, by rw [of_decide_eq_true h]⟩
  | clear x => exact Or.inr (Or.inl (by rw [of_decide_eq_true h]))
  | remove x => exact Or.inr (Or.inr (by rw [of_decide_eq_true h]))
  | move x => simp only [decides, Bool.false_eq_true] at h

theorem id_of_decides (id : ItemId) (c : Change) (h : c.decides id = true) : c.id = id := by
  rcases cases_of_decides id c h with ⟨payload, rfl⟩ | rfl | rfl <;> rfl

end Change

namespace Scene

/-- The entries that a phase gets to: of those that it sets out to apply, the ones
    before the first that names an id which was never given out. -/
def reached (s : Scene) : List Change :=
  s.due.takeWhile fun c => decide (s.Issued c.id)

end Scene

namespace Session

/-- An entry that was applied, with the keys that the payloads reported. -/
structure Entry where
  change : Change
  keys : PayloadKeys

/-- The entries that an operation applies. Only a phase applies any. -/
def entries (s : Session) : Op → List Entry
  | .process => s.scene.reached.map fun c => ⟨c, s.keys⟩
  | _ => []

/-- The entries applied in a run, in the order of application. -/
def history (s : Session) : List Op → List Entry
  | [] => []
  | op :: rest => s.entries op ++ history (s.step op).session rest

/-- The last entry that decides the item of an id. -/
def lastDecision? (id : ItemId) (entries : List Entry) : Option Entry :=
  (entries.filter fun e => e.change.decides id).getLast?

theorem lastDecision?_append (id : ItemId) (xs ys : List Entry) :
    lastDecision? id (xs ++ ys) = (lastDecision? id ys).or (lastDecision? id xs) := by
  simp only [lastDecision?, List.filter_append, List.getLast?_append]

theorem lastDecision?_split (id : ItemId) (earlier : List Entry) (e : Entry) (later : List Entry)
    (he : e.change.decides id = true) (hlater : ∀ d ∈ later, ¬ d.change.decides id = true) :
    lastDecision? id (earlier ++ e :: later) = some e := by
  have hnone : later.filter (fun d => d.change.decides id) = [] :=
    List.filter_eq_nil_iff.mpr hlater
  rw [lastDecision?, List.filter_append, List.filter_cons, if_pos he, hnone,
    List.getLast?_append, List.getLast?_singleton, Option.some_or]

theorem lastDecision?_eq_none_iff (id : ItemId) (entries : List Entry) :
    lastDecision? id entries = none ↔ ∀ e ∈ entries, ¬ e.change.decides id = true := by
  rw [lastDecision?, List.getLast?_eq_none_iff, List.filter_eq_nil_iff]

theorem lastDecision?_mem (id : ItemId) (entries : List Entry) (e : Entry)
    (h : lastDecision? id entries = some e) : e ∈ entries ∧ e.change.decides id = true :=
  List.mem_filter.mp (List.mem_of_getLast? h)

end Session

namespace Item

open Session (Entry lastDecision?)

/-- What an item is by the entries: what the last one that decides it made of
    it. -/
def told (id : ItemId) (item : Item) (entries : List Entry) : Item :=
  match lastDecision? id entries with
  | some e => item.apply e.keys e.change.onItem
  | none => item

-- A change that decides an item does not look at what it was.
theorem apply_of_decides (keys : PayloadKeys) (id : ItemId) (a b : Item)
    (c : SceneIndex.Change) (h : c.decides id = true) :
    a.apply keys c.onItem = b.apply keys c.onItem := by
  rcases SceneIndex.Change.cases_of_decides id c h with ⟨payload, rfl⟩ | rfl | rfl <;> rfl

theorem told_append (id : ItemId) (item : Item) (xs ys : List Entry) :
    item.told id (xs ++ ys) = (item.told id xs).told id ys := by
  unfold told
  rw [Session.lastDecision?_append]
  cases hlast : lastDecision? id ys with
  | none => rfl
  | some e =>
      have hdecides := (Session.lastDecision?_mem id ys e hlast).2
      exact apply_of_decides e.keys id _ _ e.change hdecides

theorem told_singleton (id : ItemId) (item : Item) (keys : PayloadKeys)
    (c : SceneIndex.Change) :
    item.told id [⟨c, keys⟩] = if c.id = id then item.apply keys c.onItem else item := by
  have hself : ∀ (x : ItemId) (c : SceneIndex.Change), c.decides id = decide (x = id) →
      item.told id [⟨c, keys⟩] = if x = id then item.apply keys c.onItem else item := by
    intro x c hc
    by_cases hx : x = id
    · simp only [told, lastDecision?, List.filter_cons, hc, hx, decide_true, if_true,
        List.filter_nil, List.getLast?_singleton]
    · simp only [told, lastDecision?, List.filter_cons, hc, hx, decide_false, Bool.false_eq_true,
        if_false, List.filter_nil, List.getLast?_nil]
  cases c with
  | reset x payload => exact hself x _ rfl
  | clear x => exact hself x _ rfl
  | remove x => exact hself x _ rfl
  | move x =>
      -- A move leaves the item as it is, whether it names it or not.
      split <;> rfl

/-- The changes of one phase, told as entries. -/
theorem told_eq_through (keys : PayloadKeys) (id : ItemId) (item : Item)
    (changes : List SceneIndex.Change) :
    item.told id (changes.map fun c => ⟨c, keys⟩) = item.through keys id changes := by
  induction changes generalizing item with
  | nil => rfl
  | cons c rest ih =>
      change item.told id ([⟨c, keys⟩] ++ rest.map fun c => ⟨c, keys⟩) = _
      rw [told_append, told_singleton, ih]
      rfl

/-- What an item is by the entries, if nothing was put into its slot before:
    still that, or what it was reset to, or killed. -/
theorem told_cases (id : ItemId) (entries : List Entry) :
    (lastDecision? id entries = none ∧ pristine.told id entries = pristine) ∨
      (∃ payload keys, lastDecision? id entries = some ⟨.reset id payload, keys⟩ ∧
        pristine.told id entries
          = { payload := some payload, key := payload.key keys, killed := false }) ∨
      ∃ keys, (lastDecision? id entries = some ⟨.clear id, keys⟩ ∨
          lastDecision? id entries = some ⟨.remove id, keys⟩) ∧
        pristine.told id entries = { payload := none, key := Key.empty, killed := true } := by
  unfold told
  cases hlast : lastDecision? id entries with
  | none => exact Or.inl ⟨rfl, rfl⟩
  | some e =>
      rcases e with ⟨c, keys⟩
      have hdecides := (Session.lastDecision?_mem id entries _ hlast).2
      rcases SceneIndex.Change.cases_of_decides id c hdecides with ⟨payload, rfl⟩ | rfl | rfl
      · exact Or.inr (Or.inl ⟨payload, keys, rfl, rfl⟩)
      · exact Or.inr (Or.inr ⟨keys, Or.inl rfl, rfl⟩)
      · exact Or.inr (Or.inr ⟨keys, Or.inr rfl, rfl⟩)

end Item

namespace Storage

-- An application does what it would do without the entries that it does not
-- get to.
theorem applyAll_takeWhile (keys : PayloadKeys) (next : UInt32) (st : Storage)
    (changes : List Change) :
    (st.applyAll keys next changes).1
      = (st.applyAll keys next (changes.takeWhile fun c => st.holds next c.id)).1 := by
  induction changes generalizing st with
  | nil => rfl
  | cons c rest ih =>
      by_cases hc : st.holds next c.id = true
      · have hsame : (fun d : Change => (st.apply keys c).1.holds next d.id)
            = fun d => st.holds next d.id := funext fun d => holds_apply keys next st c d.id
        rw [List.takeWhile_cons, if_pos hc, applyAll_cons keys next st c rest hc,
          applyAll_cons keys next st c _ hc, ← hsame]
        exact ih _
      · rw [List.takeWhile_cons, if_neg hc]
        simp only [applyAll, if_neg hc]

end Storage

namespace Scene

theorem issued_of_mem_reached (s : Scene) (c : Change) (hc : c ∈ s.reached) : s.Issued c.id :=
  of_decide_eq_true (List.mem_takeWhile_imp (p := fun c : Change => decide (s.Issued c.id)) hc)

section Reached

variable (keys : PayloadKeys) (s : Scene) (hnext : 1 ≤ s.next.toNat) (hexact : s.Exact)

include hnext hexact

-- The good ids are those that were given out, so a phase gets to the entries
-- before the first with a bad id.
theorem reached_eq_takeWhile :
    s.reached = s.due.takeWhile fun c => s.grownStorage.holds s.next c.id := by
  by_cases hfits : s.Fits
  · have hgood : (fun c : Change => s.grownStorage.holds s.next c.id)
        = fun c => decide (s.Issued c.id) := by
      funext c
      rw [Bool.eq_iff_iff, decide_eq_true_eq]
      exact holds_grownStorage_iff s c.id hnext hfits
    rw [hgood, reached]
  · rw [reached, due_of_not_fits s hexact hfits]
    rfl

theorem application_reached :
    (s.application keys).1 = (s.grownStorage.applyAll keys s.next s.reached).1 := by
  rw [application, Storage.applyAll_takeWhile, reached_eq_takeWhile s hnext hexact]

/-- The item of an id after a phase, whether it was stopped or not, is what the
    entries that the phase got to make of it. -/
theorem item_application_reached (id : ItemId) :
    (s.application keys).1.item id = (s.storage.item id).through keys id s.reached := by
  have heq : s.grownStorage.item id = s.storage.item id := slot_grownStorage s hexact id.index
  rw [application_reached keys s hnext hexact, Storage.item_applyAll, heq]
  intro c hc
  -- An entry that is taken satisfies the condition by which it is taken.
  rw [reached_eq_takeWhile s hnext hexact] at hc
  exact List.mem_takeWhile_imp (p := fun c : Change => s.grownStorage.holds s.next c.id) hc

end Reached

end Scene

namespace Session

theorem history_append (s : Session) (xs ys : List Op) :
    s.history (xs ++ ys) = s.history xs ++ (s.after xs).history ys := by
  induction xs generalizing s with
  | nil => rfl
  | cons op rest ih =>
      rw [List.cons_append, history, history, ih, after_cons, List.append_assoc]

theorem item_step (s : Session) (op : Op) (hexact : op = .process → s.scene.Exact)
    (hs : s.Sound) (id : ItemId) :
    (s.step op).session.scene.storage.item id
      = (s.scene.storage.item id).told id (s.entries op) := by
  cases op with
  | process =>
      rw [scene_process, entries, Item.told_eq_through]
      exact Scene.item_application_reached s.keys s.scene hs.next_pos (hexact rfl) id
  | allocate =>
      rcases s.step_allocate with ⟨_, _, heq, _⟩
      rw [heq]
      rfl
  | allocateBucket f =>
      rcases s.scene_allocateBucket f with ⟨buckets, heq⟩
      rw [heq]
      rfl
  | enqueue batch => rfl
  | definePayload name key => rfl
  | observe observers => rfl

/-- An item after a run is what the history of the run makes of it. -/
theorem item_after (s : Session) (ops : List Op) (hsteady : s.Steady ops) (hs : s.Sound)
    (id : ItemId) :
    (s.after ops).scene.storage.item id
      = (s.scene.storage.item id).told id (s.history ops) := by
  induction ops generalizing s with
  | nil => rfl
  | cons op rest ih =>
      rw [after_cons, ih _ hsteady.2 (sound_step s op hsteady.1 hs), item_step s op hsteady.1 hs,
        history, Item.told_append]

-- A phase gets to entries only that name ids which were given out.
theorem issued_of_mem_history (s : Session) (ops : List Op) (e : Entry)
    (h : e ∈ s.history ops) : (s.after ops).scene.Issued e.change.id := by
  induction ops generalizing s with
  | nil => exact absurd h List.not_mem_nil
  | cons op rest ih =>
      rcases List.mem_append.mp h with hnow | hlater
      · cases op with
        | process =>
            rcases List.mem_map.mp hnow with ⟨c, hc, rfl⟩
            have hissued := Scene.issued_of_mem_reached s.scene c hc
            exact issued_after s (.process :: rest) c.id hissued
        | _ => exact absurd hnow List.not_mem_nil
      · exact ih _ hlater

-- An item that some entry decides was given out.
theorem issued_of_decides (s : Session) (ops : List Op) (id : ItemId) (e : Entry)
    (he : e ∈ s.history ops) (h : e.change.decides id = true) :
    (s.after ops).scene.Issued id := by
  have hissued := issued_of_mem_history s ops e he
  rw [Change.id_of_decides id e.change h] at hissued
  exact hissued

/-- All that the entries tell of a scene. -/
structure ToldBy (s : Session) (entries : List Entry) : Prop where
  /-- An item is unallocated just if its id is the reserved one or beyond those
      given out. -/
  unallocated : ∀ id, s.scene.lifecycle id = .unallocated ↔
    id.index = 0 ∨ s.scene.allocatedCount < id.index
  /-- It is allocated just if its id was given out and no entry resets, clears
      or removes it. -/
  allocated : ∀ id, s.scene.lifecycle id = .allocated ↔
    s.scene.Issued id ∧ ∀ e ∈ entries, ¬ e.change.decides id = true
  /-- It is live just if the last entry that does puts a payload into it. -/
  live : ∀ id, s.scene.lifecycle id = .live ↔
    ∃ payload keys, lastDecision? id entries = some ⟨.reset id payload, keys⟩
  /-- It is killed just if that entry clears or removes it. -/
  killed : ∀ id, s.scene.lifecycle id = .killed ↔
    ∃ keys, lastDecision? id entries = some ⟨.clear id, keys⟩ ∨
      lastDecision? id entries = some ⟨.remove id, keys⟩
  /-- Nothing was put into the reserved slot or into one beyond the ids given
      out. -/
  unused : ∀ (n : Nat) (item : Item), s.scene.storage.slots[n]? = some item →
    n = 0 ∨ s.scene.allocatedCount < n →
    item = { payload := none, key := Key.empty, killed := false }
  /-- No slot is both live and killed. -/
  exclusive : ∀ (n : Nat) (item : Item), s.scene.storage.slots[n]? = some item →
    ¬ (item.isLive = true ∧ item.killed = true)
  /-- A slot without payload has the zero key. -/
  zeroKey : ∀ (n : Nat) (item : Item), s.scene.storage.slots[n]? = some item → item.isLive = false →
    item.key = Key.empty
  /-- A slot with a payload has the key that the payload reported when the last
      reset of the item was applied. -/
  liveKey : ∀ (n : Nat) (item : Item) (payload : Payload), s.scene.storage.slots[n]? = some item →
    item.payload = some payload → ∃ id keys, id.index = n ∧
      lastDecision? id entries = some ⟨.reset id payload, keys⟩ ∧ item.key = payload.key keys

section Told

variable {s : Session} {entries : List Entry} (hs : s.Sound)
  (hitem : ∀ id, s.scene.storage.item id = Item.pristine.told id entries)

include hs hitem

/-- How far an item has come, by the entries. They fall into as many cases as
    there are answers. -/
theorem lifecycle_cases
    (hissued : ∀ id, ∀ e ∈ entries, e.change.decides id = true → s.scene.Issued id)
    (id : ItemId) :
    (¬ s.scene.Issued id ∧ lastDecision? id entries = none ∧
        s.scene.lifecycle id = .unallocated) ∨
      (s.scene.Issued id ∧ lastDecision? id entries = none ∧
        s.scene.lifecycle id = .allocated) ∨
      (s.scene.Issued id ∧
        (∃ payload keys, lastDecision? id entries = some ⟨.reset id payload, keys⟩) ∧
        s.scene.lifecycle id = .live) ∨
      (s.scene.Issued id ∧
        (∃ keys, lastDecision? id entries = some ⟨.clear id, keys⟩ ∨
          lastDecision? id entries = some ⟨.remove id, keys⟩) ∧
        s.scene.lifecycle id = .killed) := by
  by_cases h : s.scene.Issued id
  · have hstage := Scene.lifecycle_of_issued s.scene id hs.next_pos h
    rw [hitem id] at hstage
    rcases Item.told_cases id entries with
      ⟨hlast, htold⟩ | ⟨payload, keys, hlast, htold⟩ | ⟨keys, hlast, htold⟩
    · rw [htold] at hstage
      exact Or.inr (Or.inl ⟨h, hlast, hstage⟩)
    · rw [htold] at hstage
      exact Or.inr (Or.inr (Or.inl ⟨h, ⟨payload, keys, hlast⟩, hstage⟩))
    · rw [htold] at hstage
      exact Or.inr (Or.inr (Or.inr ⟨h, ⟨keys, hlast⟩, hstage⟩))
  · -- No entry decides an item that was not given out.
    have hlast : lastDecision? id entries = none := by
      rw [lastDecision?_eq_none_iff]
      exact fun e he hdecides => h (hissued id e he hdecides)
    exact Or.inl ⟨h, hlast, (Scene.lifecycle_eq_unallocated_iff _ id hs.next_pos).mpr h⟩

/-- What a slot holds, by the entries. A slot whose number is that of no id
    holds nothing. -/
theorem slot_cases (n : Nat) (item : Item) (hslot : s.scene.storage.slots[n]? = some item) :
    item = Item.pristine ∨
      (∃ id payload keys, id.index = n ∧
        lastDecision? id entries = some ⟨.reset id payload, keys⟩ ∧
        item = { payload := some payload, key := payload.key keys, killed := false }) ∨
      item = { payload := none, key := Key.empty, killed := true } := by
  have hget := Storage.slot_of_getElem?_slots _ n item hslot
  by_cases hn : n < UInt32.size
  · rcases ItemId.exists_index hn with ⟨id, rfl⟩
    have htold : item = Item.pristine.told id entries := by
      rw [← hget]
      exact hitem id
    rcases Item.told_cases id entries with
      ⟨_, heq⟩ | ⟨payload, keys, hlast, heq⟩ | ⟨_, _, heq⟩
    · exact Or.inl (htold.trans heq)
    · exact Or.inr (Or.inl ⟨id, payload, keys, rfl, hlast, htold.trans heq⟩)
    · exact Or.inr (Or.inr (htold.trans heq))
  · rw [← hget]
    exact Or.inl (hs.storage.slot_of_size_le n (Nat.le_of_not_lt hn))

theorem toldBy_of_items
    (hissued : ∀ id, ∀ e ∈ entries, e.change.decides id = true → s.scene.Issued id) :
    s.ToldBy entries where
  unallocated id := by
    rw [Scene.lifecycle_eq_unallocated_iff _ id hs.next_pos, Scene.Issued]
    omega
  allocated id := by
    rw [← lastDecision?_eq_none_iff]
    rcases lifecycle_cases hs hitem hissued id with
      ⟨h, hlast, heq⟩ | ⟨h, hlast, heq⟩ | ⟨h, ⟨_, _, hlast⟩, heq⟩ | ⟨h, ⟨_, hlast⟩, heq⟩
    · simp only [heq, h, reduceCtorEq, false_and]
    · simp only [heq, h, hlast, and_self]
    · simp only [heq, hlast, reduceCtorEq, and_false]
    · rcases hlast with hlast | hlast <;> simp only [heq, hlast, reduceCtorEq, and_false]
  live id := by
    rcases lifecycle_cases hs hitem hissued id with
      ⟨_, hlast, heq⟩ | ⟨_, hlast, heq⟩ | ⟨_, hlast, heq⟩ | ⟨_, ⟨_, hlast⟩, heq⟩
    · simp only [heq, hlast, reduceCtorEq, exists_false]
    · simp only [heq, hlast, reduceCtorEq, exists_false]
    · exact ⟨fun _ => hlast, fun _ => heq⟩
    · rcases hlast with hlast | hlast <;>
        simp only [heq, hlast, reduceCtorEq, Option.some.injEq, Entry.mk.injEq, false_and,
          exists_false]
  killed id := by
    rcases lifecycle_cases hs hitem hissued id with
      ⟨_, hlast, heq⟩ | ⟨_, hlast, heq⟩ | ⟨_, ⟨_, _, hlast⟩, heq⟩ | ⟨_, hlast, heq⟩
    · simp only [heq, hlast, reduceCtorEq, or_self, exists_false]
    · simp only [heq, hlast, reduceCtorEq, or_self, exists_false]
    · simp only [heq, hlast, reduceCtorEq, Option.some.injEq, Entry.mk.injEq, false_and, or_self,
        exists_false]
    · exact ⟨fun _ => hlast, fun _ => heq⟩
  unused n item hslot hn := by
    have hunused : n = 0 ∨ s.scene.next.toNat ≤ n := by
      have hpos := hs.next_pos
      rw [Scene.allocatedCount] at hn
      omega
    rw [← Storage.slot_of_getElem?_slots _ n item hslot]
    exact hs.storage.unused n hunused
  exclusive n item hslot := by
    rcases slot_cases hs hitem n item hslot with rfl | ⟨_, _, _, _, _, rfl⟩ | rfl
    · exact fun h => absurd h.2 Bool.false_ne_true
    · exact fun h => absurd h.2 Bool.false_ne_true
    · exact fun h => absurd h.1 Bool.false_ne_true
  zeroKey n item hslot hdead := by
    rcases slot_cases hs hitem n item hslot with rfl | ⟨_, _, _, _, _, rfl⟩ | rfl
    · rfl
    · exact absurd hdead (by simp only [Item.isLive, Option.isSome_some, reduceCtorEq,
        not_false_eq_true])
    · rfl
  liveKey n item payload hslot hpayload := by
    rcases slot_cases hs hitem n item hslot with rfl | ⟨id, payload', keys, hid, hlast, rfl⟩ | rfl
    · exact absurd hpayload (by simp only [Item.pristine, reduceCtorEq, not_false_eq_true])
    · cases Option.some.inj hpayload
      exact ⟨id, keys, hid, hlast, rfl⟩
    · exact absurd hpayload (by simp only [reduceCtorEq, not_false_eq_true])

end Told

/-- A scene in which nothing was put yet is told, after any run, by the history
    of the run. -/
theorem toldBy_history (s : Session) (ops : List Op) (hsteady : s.Steady ops) (hs : s.Sound)
    (hnew : ∀ id, s.scene.storage.item id = Item.pristine) :
    (s.after ops).ToldBy (s.history ops) := by
  refine toldBy_of_items (sound_after s ops hsteady hs) (fun id => ?_) (issued_of_decides s ops)
  rw [item_after s ops hsteady hs id, hnew id]

-- An item is live or killed just if some entry decides it.
theorem ToldBy.settled_iff {s : Session} {entries : List Entry} (h : s.ToldBy entries)
    (id : ItemId) :
    s.scene.lifecycle id = .live ∨ s.scene.lifecycle id = .killed ↔
      (lastDecision? id entries).isSome = true := by
  rw [h.live, h.killed]
  constructor
  · rintro (⟨_, _, hlast⟩ | ⟨_, hlast | hlast⟩) <;> rw [hlast, Option.isSome_some]
  · intro hsome
    rcases Option.isSome_iff_exists.mp hsome with ⟨⟨c, keys⟩, hlast⟩
    have hdecides := (lastDecision?_mem id entries _ hlast).2
    rcases Change.cases_of_decides id c hdecides with ⟨payload, rfl⟩ | rfl | rfl
    · exact Or.inl ⟨payload, keys, hlast⟩
    · exact Or.inr ⟨keys, Or.inl hlast⟩
    · exact Or.inr ⟨keys, Or.inr hlast⟩

/-- What was answered when ids were asked for. -/
def issues (answers : List Answer) : List (Except Fault ItemId) :=
  answers.filterMap fun
    | .issued result => some result
    | _ => none

-- While there are numbers left, the next one is given out.
theorem issues_step_allocate (s : Session) (answers : List Answer)
    (h : s.scene.next.toNat + 1 < UInt32.size) :
    issues ((s.step .allocate).answer :: answers) = .ok ⟨s.scene.next⟩ :: issues answers ∧
      (s.step .allocate).session.scene.next.toNat = s.scene.next.toNat + 1 := by
  rcases s.scene.allocate_cases with ⟨hlast, _⟩ | ⟨_, hsucc, heq⟩
  · -- There is one more number at least, so this is not the last.
    have hmax : s.scene.next.toNat + 1 = UInt32.size := by rw [hlast]; rfl
    omega
  · simp only [step, heq]
    exact ⟨rfl, hsucc⟩

-- No other operation gives out an id.
theorem issues_step_of_ne (s : Session) (op : Op) (answers : List Answer)
    (h : op ≠ .allocate) :
    issues ((s.step op).answer :: answers) = issues answers ∧
      (s.step op).session.scene.next = s.scene.next := by
  cases op with
  | allocate => exact absurd rfl h
  | process =>
      rw [scene_process]
      exact ⟨rfl, rfl⟩
  | allocateBucket f =>
      rcases s.scene_allocateBucket f with ⟨buckets, heq⟩
      rw [heq]
      exact ⟨rfl, rfl⟩
  | enqueue batch => exact ⟨rfl, rfl⟩
  | definePayload name key => exact ⟨rfl, rfl⟩
  | observe observers => exact ⟨rfl, rfl⟩

/-- While there are numbers left, a run gives out an id each time it is asked
    for one, and the ids follow each other. -/
theorem issues_in_order (s : Session) (ops : List Op)
    (h : s.scene.next.toNat + ops.count .allocate < UInt32.size) :
    (s.after ops).scene.next.toNat = s.scene.next.toNat + ops.count .allocate ∧
      ∀ k < ops.count .allocate, ∃ id, (issues (s.answers ops))[k]? = some (.ok id) ∧
        id.index = s.scene.next.toNat + k := by
  induction ops generalizing s with
  | nil => exact ⟨rfl, fun k hk => absurd hk (Nat.not_lt_zero k)⟩
  | cons op rest ih =>
      rw [after_cons, answers]
      by_cases hop : op = .allocate
      · subst hop
        rw [List.count_cons_self] at h ⊢
        rcases issues_step_allocate s ((s.step .allocate).session.answers rest) (by omega) with
          ⟨hissues, hsucc⟩
        rcases ih (s.step .allocate).session (by omega) with ⟨hnext, hids⟩
        rw [hissues]
        refine ⟨by omega, fun k hk => ?_⟩
        cases k with
        | zero => exact ⟨⟨s.scene.next⟩, rfl, rfl⟩
        | succ k =>
            rcases hids k (Nat.lt_of_succ_lt_succ hk) with ⟨id, hid, hindex⟩
            exact ⟨id, hid, by omega⟩
      · rcases issues_step_of_ne s op ((s.step op).session.answers rest) hop with
          ⟨hissues, hsame⟩
        rw [List.count_cons_of_ne hop] at h ⊢
        rw [hissues, ← hsame]
        rw [← hsame] at h
        exact ih _ h

end Session

end SceneIndex
