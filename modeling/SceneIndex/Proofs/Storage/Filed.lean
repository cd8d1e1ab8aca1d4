import Mathlib.Tactic.ByContra
import SceneIndex.Proofs.Buckets.Contents
import SceneIndex.Proofs.Storage.Slots

/-!
# Buckets in step with the slots

Buckets are kept by bookkeeping: they are told what happened to one item and
never look at the slots. `Filed` says that the bookkeeping is right, that is,
that every bucket holds just the ids that a scan of all slots would put into
it.

The scan compares a filter with the key in the slot. The payload may report
another key by now, and neither the slot nor the buckets know, so the two stay
in step whatever payloads do.

A change leads to one of four updates of the buckets, depending on whether the
item is live before and after. Each of them is a change to the ids of every
bucket that concerns one id, and `Filed.update` says what is to be checked
then: that id only, in one bucket at a time.

Filling a late bucket goes the other way, from the slots to the buckets. It
inserts into all buckets that accept the key, not only into the new one, and
leaves the others as they are for no other reason than that they are in step
already. It also needs to know that no item beyond the numbers of ids is live,
which is why `Sound` keeps track of the slots that were never given out.

## Main definitions

* `Item.fits`: Whether a scan for a filter picks the item.
* `Storage.Filed`: Every bucket holds what a scan would put into it.
* `Storage.Sound`: The storage is in step, and nothing was put into a slot
  that was never given out.

## Theorems

* `Sound.index_of_fits`: A slot that a scan picks was given out.
* `Filed.get?_eq`, `Filed.get?_congr`: The items and the filters determine the
  buckets.
* `Sound.slots_congr`: The items and the size determine the slots.
* `Filed.update`: A change to the ids that concerns one id.
* `filed_apply`: A change keeps the buckets in step.
* `sound_applyAll`: So does an application, wherever it ends.
* `sound_growTo`: So does growth.
* `sound_fillBucket`: So does a late bucket, which is in step itself.
-/

namespace SceneIndex

/-- Whether a scan for a filter picks the item. -/
def Item.fits (item : Item) (f : Filter) : Bool := item.isLive && f.accepts item.key

namespace Storage

/-- Every bucket holds the ids that a scan of the slots would put into it. -/
def Filed (st : Storage) : Prop :=
  ∀ f ids, st.buckets.get? f = some ids → ∀ id, id ∈ ids ↔ (st.item id).fits f = true

/-- The buckets are in step with the slots, and nothing was put into the
    reserved slot or into one whose number was never given out. -/
structure Sound (st : Storage) (next : UInt32) : Prop where
  filed : st.Filed
  unused : ∀ n, n = 0 ∨ next.toNat ≤ n → st.slot n = Item.pristine

theorem not_fits_pristine (f : Filter) : ¬ Item.pristine.fits f = true := by
  simp only [Item.fits, Item.isLive, Item.pristine, Option.isSome_none, Bool.false_and,
    Bool.false_eq_true, not_false_eq_true]

-- A slot that a scan picks is there, and its number was given out.
theorem Sound.index_of_fits {st : Storage} {next : UInt32} (h : st.Sound next) (f : Filter)
    (n : Nat) (hfit : (st.slot n).fits f = true) :
    1 ≤ n ∧ n < st.capacity ∧ n < next.toNat := by
  -- Otherwise the slot would be pristine, and a scan passes over those.
  have hused : ¬ (n = 0 ∨ next.toNat ≤ n) := by
    intro hunused
    rw [h.unused n hunused] at hfit
    exact not_fits_pristine f hfit
  have hthere : ¬ st.capacity ≤ n := by
    intro hmissing
    rw [slot_of_capacity_le st n hmissing] at hfit
    exact not_fits_pristine f hfit
  omega

-- A number beyond those of 32 bits was never given out.
theorem Sound.slot_of_size_le {st : Storage} {next : UInt32} (h : st.Sound next) (n : Nat)
    (hn : UInt32.size ≤ n) : st.slot n = Item.pristine :=
  h.unused n (Or.inr (Nat.le_trans (Nat.le_of_lt next.toNat_lt_size) hn))

-- The bucket of a filter that has one in both is determined by the items.
theorem Filed.get?_eq {st st' : Storage} (h : st.Filed) (h' : st'.Filed) (f : Filter)
    (hf : f ∈ st.buckets.filters) (hf' : f ∈ st'.buckets.filters)
    (hitems : ∀ id, st.item id = st'.item id) : st.buckets.get? f = st'.buckets.get? f := by
  rcases Buckets.exists_get?_of_mem_filters _ f hf with ⟨ids, hids⟩
  rcases Buckets.exists_get?_of_mem_filters _ f hf' with ⟨ids', hids'⟩
  have heq : ids = ids' := by
    apply IdSet.ext
    intro id
    rw [h f ids hids id, h' f ids' hids' id, hitems id]
  rw [hids, hids', heq]

/-- With the same filters and the same items, storages in step have the same
    buckets. -/
theorem Filed.get?_congr {st st' : Storage} (h : st.Filed) (h' : st'.Filed)
    (hfilters : ∀ f, f ∈ st.buckets.filters ↔ f ∈ st'.buckets.filters)
    (hitems : ∀ id, st.item id = st'.item id) (f : Filter) :
    st.buckets.get? f = st'.buckets.get? f := by
  by_cases hf : f ∈ st.buckets.filters
  · exact h.get?_eq h' f hf ((hfilters f).mp hf) hitems
  · have hf' := hf
    rw [hfilters f] at hf'
    rw [(Buckets.get?_eq_none_iff _ f).mpr hf, (Buckets.get?_eq_none_iff _ f).mpr hf']

/-- Sound storages of the same size with the same items have the same slots.
    A slot whose number is that of no id holds nothing in either. -/
theorem Sound.slots_congr {st st' : Storage} {next : UInt32} (h : st.Sound next)
    (h' : st'.Sound next) (hcap : st.capacity = st'.capacity)
    (hitems : ∀ id, st.item id = st'.item id) : st.slots = st'.slots := by
  have hslot : ∀ n, st.slot n = st'.slot n := by
    intro n
    by_cases hn : n < UInt32.size
    · rcases ItemId.exists_index hn with ⟨id, rfl⟩
      exact hitems id
    · rw [h.slot_of_size_le n (Nat.le_of_not_lt hn), h'.slot_of_size_le n (Nat.le_of_not_lt hn)]
  refine Array.ext hcap fun n hn hn' => ?_
  have hget := getElem?_slots st n hn
  have hget' := getElem?_slots st' n hn'
  rw [Array.getElem?_eq_getElem hn, Option.some.injEq] at hget
  rw [Array.getElem?_eq_getElem hn', Option.some.injEq] at hget'
  rw [hget, hget', hslot n]

/-- The buckets stay in step if the slots differ in the slot of one id, the
    ids of every bucket differ in that id, and for that id it was checked. -/
theorem Filed.update {st st' : Storage} (h : st.Filed) (id : ItemId)
    (g : Filter → IdSet → IdSet)
    (hget : ∀ f, st'.buckets.get? f = (st.buckets.get? f).map (g f))
    (hother : ∀ x, x ≠ id → st'.item x = st.item x)
    (hg : ∀ f ids x, x ≠ id → (x ∈ g f ids ↔ x ∈ ids))
    (hid : ∀ f ids, (id ∈ ids ↔ (st.item id).fits f = true) →
      (id ∈ g f ids ↔ (st'.item id).fits f = true)) :
    st'.Filed := by
  intro f ids hf x
  rw [hget, Option.map_eq_some_iff] at hf
  rcases hf with ⟨old, hold, rfl⟩
  -- The id in question was checked; for all others nothing has changed.
  by_cases hx : x = id
  · rw [hx]
    exact hid f old (h f old hold id)
  · rw [hg f old x hx, hother x hx]
    exact h f old hold x

theorem item_setItem_self (st : Storage) (id : ItemId) (item : Item)
    (h : id.index < st.capacity) : (st.setItem id item).item id = item := by
  rw [item_eq_slot, slot_setItem st id item _ h, if_pos rfl]

theorem item_setItem_other (st : Storage) (id x : ItemId) (item : Item)
    (h : id.index < st.capacity) (hx : x ≠ id) : (st.setItem id item).item x = st.item x := by
  have hne : x.index ≠ id.index := fun e => hx (ItemId.index_injective e)
  rw [item_eq_slot, slot_setItem st id item _ h, if_neg hne, item_eq_slot]

theorem fits_of_live (item : Item) (f : Filter) (h : item.isLive = true) :
    item.fits f = f.accepts item.key := by
  rw [Item.fits, h, Bool.true_and]

theorem fits_of_not_live (item : Item) (f : Filter) (h : item.isLive = false) :
    item.fits f = false := by
  rw [Item.fits, h, Bool.false_and]

-- Erasing the id of an item that was live and is not any more.
theorem filed_erase (st : Storage) (id : ItemId) (new : Item) (h : st.Filed)
    (hc : id.index < st.capacity) (hold : (st.item id).isLive = true)
    (hnew : new.isLive = false) :
    Filed { st.setItem id new with buckets := st.buckets.erase id (st.item id).key } := by
  refine h.update id _ (fun f => Buckets.get?_erase st.buckets id (st.item id).key f)
    (fun x hx => item_setItem_other st id x new hc hx) (fun f ids x hx => ?_)
    (fun f ids hids => ?_)
  · by_cases ha : f.accepts (st.item id).key = true
    · rw [if_pos ha, IdSet.mem_erase]
      exact ⟨fun hm => hm.2, fun hm => ⟨hx, hm⟩⟩
    · rw [if_neg ha]
  · rw [fits_of_live _ f hold] at hids
    change _ ↔ ((st.setItem id new).item id).fits f = true
    rw [item_setItem_self st id new hc, fits_of_not_live new f hnew]
    by_cases ha : f.accepts (st.item id).key = true
    · rw [if_pos ha, IdSet.mem_erase]
      exact ⟨fun hm => absurd rfl hm.1, fun hm => absurd hm Bool.false_ne_true⟩
    · rw [if_neg ha]
      exact ⟨fun hm => absurd (hids.mp hm) ha, fun hm => absurd hm Bool.false_ne_true⟩

-- Inserting the id of an item that is live and was not before.
theorem filed_insert (st : Storage) (id : ItemId) (new : Item) (h : st.Filed)
    (hc : id.index < st.capacity) (hold : (st.item id).isLive = false)
    (hnew : new.isLive = true) :
    Filed { st.setItem id new with buckets := st.buckets.insert id new.key } := by
  refine h.update id _ (fun f => Buckets.get?_insert st.buckets id new.key f)
    (fun x hx => item_setItem_other st id x new hc hx) (fun f ids x hx => ?_)
    (fun f ids hids => ?_)
  · by_cases ha : f.accepts new.key = true
    · rw [if_pos ha, IdSet.mem_insert]
      exact ⟨fun hm => hm.resolve_left hx, Or.inr⟩
    · rw [if_neg ha]
  · rw [fits_of_not_live _ f hold] at hids
    change _ ↔ ((st.setItem id new).item id).fits f = true
    rw [item_setItem_self st id new hc, fits_of_live new f hnew]
    by_cases ha : f.accepts new.key = true
    · rw [if_pos ha, IdSet.mem_insert]
      exact ⟨fun _ => ha, fun _ => Or.inl rfl⟩
    · rw [if_neg ha]
      exact ⟨fun hm => absurd (hids.mp hm) Bool.false_ne_true, fun hm => absurd hm ha⟩

-- Moving the id of an item that is live before and after. Only the buckets on
-- which the two keys disagree are touched; in the others the id is where it
-- belongs already.
theorem filed_rekey (st : Storage) (id : ItemId) (new : Item) (h : st.Filed)
    (hc : id.index < st.capacity) (hold : (st.item id).isLive = true)
    (hnew : new.isLive = true) :
    Filed { st.setItem id new with
      buckets := st.buckets.rekey id (st.item id).key new.key } := by
  refine h.update id _ (fun f => Buckets.get?_rekey st.buckets id (st.item id).key new.key f)
    (fun x hx => item_setItem_other st id x new hc hx) (fun f ids x hx => ?_)
    (fun f ids hids => ?_)
  · cases f.accepts (st.item id).key <;> cases f.accepts new.key
    · exact Iff.rfl
    · -- The filter accepts the new key only.
      change x ∈ ids.insert id ↔ x ∈ ids
      rw [IdSet.mem_insert]
      exact ⟨fun hm => hm.resolve_left hx, Or.inr⟩
    · -- It accepts the old key only.
      change x ∈ ids.erase id ↔ x ∈ ids
      rw [IdSet.mem_erase]
      exact ⟨fun hm => hm.2, fun hm => ⟨hx, hm⟩⟩
    · exact Iff.rfl
  · rw [fits_of_live _ f hold] at hids
    change _ ↔ ((st.setItem id new).item id).fits f = true
    rw [item_setItem_self st id new hc, fits_of_live new f hnew]
    cases ho : f.accepts (st.item id).key <;> cases hn : f.accepts new.key <;> rw [ho] at hids
    · exact hids
    · change id ∈ ids.insert id ↔ _
      rw [IdSet.mem_insert]
      exact ⟨fun _ => rfl, fun _ => Or.inl rfl⟩
    · change id ∈ ids.erase id ↔ _
      rw [IdSet.mem_erase]
      exact ⟨fun hm => absurd rfl hm.1, fun hm => absurd hm Bool.false_ne_true⟩
    · exact hids

-- An item that is not live before and after is in no bucket, so that there is
-- nothing to do.
theorem filed_idle (st : Storage) (id : ItemId) (new : Item) (h : st.Filed)
    (hc : id.index < st.capacity) (hold : (st.item id).isLive = false)
    (hnew : new.isLive = false) : (st.setItem id new).Filed := by
  refine h.update id (fun _ ids => ids) (fun f => by rw [Option.map_id']; rfl)
    (fun x hx => item_setItem_other st id x new hc hx) (fun f ids x hx => Iff.rfl)
    (fun f ids hids => ?_)
  rw [item_setItem_self st id new hc, fits_of_not_live new f hnew]
  rw [fits_of_not_live _ f hold] at hids
  exact hids

theorem filed_resetItem (keys : PayloadKeys) (st : Storage) (id : ItemId)
    (payload : Option Payload) (h : st.Filed) (hc : id.index < st.capacity) :
    (st.resetItem keys id payload).1.Filed := by
  simp only [resetItem]
  cases hold : (st.item id).isLive <;> cases hnew : ((st.item id).reset keys payload).isLive
  · exact filed_idle st id _ h hc hold hnew
  · exact filed_insert st id _ h hc hold hnew
  · exact filed_erase st id _ h hc hold hnew
  · exact filed_rekey st id _ h hc hold hnew

theorem filed_removeItem (st : Storage) (id : ItemId) (h : st.Filed)
    (hc : id.index < st.capacity) : (st.removeItem id).1.Filed := by
  simp only [removeItem]
  by_cases hold : (st.item id).isLive = true
  · rw [if_pos hold]
    exact filed_erase st id _ h hc hold rfl
  · rw [if_neg hold]
    exact filed_idle st id _ h hc (Bool.eq_false_iff.mpr hold) rfl

/-- A change keeps the buckets in step. -/
theorem filed_apply (keys : PayloadKeys) (st : Storage) (c : Change) (h : st.Filed)
    (hc : c.id.index < st.capacity) : (st.apply keys c).1.Filed := by
  cases c with
  | reset id payload => exact filed_resetItem keys st id (some payload) h hc
  | clear id => exact filed_resetItem keys st id none h hc
  | remove id => exact filed_removeItem st id h hc
  | move id => exact h

-- A change with a good id keeps the storage sound. A good id is neither the
-- reserved one nor one that was never given out, so the slots that must stay
-- untouched do.
theorem sound_apply (keys : PayloadKeys) (next : UInt32) (st : Storage) (c : Change)
    (hc : st.holds next c.id = true) (h : st.Sound next) : (st.apply keys c).1.Sound next := by
  have hlt := index_lt_of_holds next st c.id hc
  simp only [holds, Bool.and_eq_true, decide_eq_true_eq, ItemId.isValid, bne_iff_ne] at hc
  refine ⟨filed_apply keys st c h.filed hlt, fun n hn => ?_⟩
  have hne : n ≠ c.id.index := by
    intro e
    -- The id would be the reserved one, or one that was never given out.
    rcases hn with h0 | hge
    · exact hc.1.1 (ItemId.index_injective (e.symm.trans h0))
    · have hnext : c.id.number.toNat < next.toNat := UInt32.lt_iff_toNat_lt.mp hc.1.2
      have hindex : n = c.id.number.toNat := e
      omega
  rw [slot_apply keys st c n hlt, if_neg hne]
  exact h.unused n hn

theorem sound_applyAll (keys : PayloadKeys) (next : UInt32) (st : Storage)
    (changes : List Change) (h : st.Sound next) : (st.applyAll keys next changes).1.Sound next :=
  applyAll_preserves keys next (fun st' => st'.Sound next)
    (fun st' c hc h' => sound_apply keys next st' c hc h') st changes h

theorem sound_growTo (st : Storage) (next : UInt32) (n : Nat) (h : st.Sound next) :
    (st.growTo n).Sound next := by
  refine ⟨fun f ids hf id => ?_, fun m hm => ?_⟩
  · rw [item_eq_slot, slot_growTo]
    exact h.filed f ids hf id
  · rw [slot_growTo]
    exact h.unused m hm

-- Giving out an id leaves fewer slots to be untouched.
theorem Sound.mono {st : Storage} {next later : UInt32} (h : st.Sound next)
    (hle : next.toNat ≤ later.toNat) : st.Sound later :=
  ⟨h.filed, fun n hn => h.unused n (hn.imp id (Nat.le_trans hle))⟩

-- The ids of a scan. Slots beyond the numbers of ids have no id of their own,
-- so the scan must not pick any of them.
theorem mem_idsWhere (st : Storage) (p : Item → Bool) (id : ItemId)
    (hp : ∀ n, UInt32.size ≤ n → ¬ p (st.slot n) = true) :
    id ∈ st.idsWhere p ↔ 1 ≤ id.index ∧ id.index < st.capacity ∧ p (st.item id) = true := by
  simp only [idsWhere, List.range_eq_range', List.drop_range', List.mem_filterMap,
    List.mem_range'_1, Nat.zero_add, Nat.one_mul]
  constructor
  · -- The scan picked slot `n`; the number is small enough to be that of an id.
    rintro ⟨n, ⟨hpos, hlt⟩, hn⟩
    by_cases hpn : p (st.slots.getD n Item.pristine) = true
    · rw [if_pos hpn, Option.some.injEq] at hn
      have hsize : n < UInt32.size := by
        by_contra hge
        exact hp n (Nat.le_of_not_lt hge) hpn
      have hindex : id.index = n := by
        rw [← hn]
        exact UInt32.toNat_ofNat_of_lt' hsize
      rw [item_eq_slot, hindex]
      exact ⟨hpos, by omega, hpn⟩
    · rw [if_neg hpn] at hn
      exact absurd hn (by simp only [reduceCtorEq, not_false_eq_true])
  · rintro ⟨hpos, hlt, hpid⟩
    have hpn : p (st.slots.getD id.index Item.pristine) = true := hpid
    refine ⟨id.index, ⟨hpos, by omega⟩, ?_⟩
    rw [if_pos hpn, Option.some.injEq]
    exact congrArg ItemId.mk UInt32.ofNat_toNat

theorem idsWhere_fits_iff (st : Storage) (next : UInt32) (f : Filter) (id : ItemId)
    (h : st.Sound next) :
    id ∈ st.idsWhere (fun item => item.isLive && f.accepts item.key)
      ↔ (st.item id).fits f = true := by
  rw [mem_idsWhere]
  · constructor
    · exact fun hid => hid.2.2
    · intro hfit
      rcases h.index_of_fits f id.index hfit with ⟨hpos, hlt, _⟩
      exact ⟨hpos, hlt, hfit⟩
  · -- A slot that fits was given out, and ids do not go beyond 32 bits.
    intro n hn hfit
    have hlt := (h.index_of_fits f n hfit).2.2
    have hsize := next.toNat_lt_size
    omega

/-- A late bucket is in step from the start, and filling it puts no id into
    another bucket that is not there already. -/
theorem sound_fillBucket (st : Storage) (next : UInt32) (f : Filter) (h : st.Sound next)
    (hnew : f ∉ st.buckets.filters) : (st.fillBucket f).1.Sound next := by
  refine ⟨fun g ids hg id => ?_, h.unused⟩
  change ((st.buckets.allocate f).insertAll (fun id => (st.item id).key) _).get? g = some ids at hg
  change id ∈ ids ↔ (st.item id).fits g = true
  rw [Buckets.get?_insertAll, Option.map_eq_some_iff] at hg
  rcases hg with ⟨old, hold, rfl⟩
  rw [IdSet.mem_insertWhere, idsWhere_fits_iff st next f id h]
  rw [Buckets.get?_allocate] at hold
  by_cases hgf : g = f
  · -- The new bucket: empty before, and the scan gives what belongs into it.
    subst hgf
    rw [if_pos rfl, (Buckets.get?_eq_none_iff st.buckets g).mpr hnew, Option.getD_none,
      Option.some.injEq] at hold
    rw [← hold]
    constructor
    · rintro (hempty | ⟨hfit, _⟩)
      · exact absurd hempty List.not_mem_nil
      · exact hfit
    · intro hfit
      have hacc : g.accepts (st.item id).key = true := by
        rw [Item.fits, Bool.and_eq_true] at hfit
        exact hfit.2
      exact Or.inr ⟨hfit, hacc⟩
  · -- Another bucket: whatever the scan inserts here is a member already.
    rw [if_neg hgf] at hold
    rw [h.filed g old hold id]
    constructor
    · rintro (hfit | ⟨hfit, hacc⟩)
      · exact hfit
      · rw [Item.fits, Bool.and_eq_true] at hfit ⊢
        exact ⟨hfit.1, hacc⟩
    · exact Or.inl

theorem mem_filters_fillBucket (st : Storage) (f g : Filter) :
    g ∈ (st.fillBucket f).1.buckets.filters ↔ g ∈ st.buckets.filters ∨ g = f := by
  change g ∈ ((st.buckets.allocate f).insertAll (fun id => (st.item id).key) _).filters ↔ _
  rw [Buckets.filters_insertAll, Buckets.mem_filters_allocate]

-- A change touches no filter.
theorem filters_apply (keys : PayloadKeys) (st : Storage) (c : Change) :
    (st.apply keys c).1.buckets.filters = st.buckets.filters := by
  -- Whatever is done to the ids in the buckets, it is done by `mapIds`.
  have hreset : ∀ id payload,
      (st.resetItem keys id payload).1.buckets.filters = st.buckets.filters := by
    intro id payload
    simp only [resetItem]
    split
    · exact Buckets.filters_mapIds _ st.buckets
    · exact Buckets.filters_mapIds _ st.buckets
    · exact Buckets.filters_mapIds _ st.buckets
    · rfl
  cases c with
  | reset id payload => exact hreset id (some payload)
  | clear id => exact hreset id none
  | remove id =>
      simp only [apply, removeItem]
      split
      · exact Buckets.filters_mapIds _ st.buckets
      · rfl
  | move id => rfl

theorem filters_applyAll (keys : PayloadKeys) (next : UInt32) (st : Storage)
    (changes : List Change) :
    (st.applyAll keys next changes).1.buckets.filters = st.buckets.filters :=
  applyAll_preserves keys next (fun st' => st'.buckets.filters = st.buckets.filters)
    (fun st' c _ h => (filters_apply keys st' c).trans h) st changes rfl

end Storage

end SceneIndex
