import SceneIndex.Proofs.Storage.Filed

/-!
# An application, entry by entry

What an application does at each entry that it gets to, what it tells the log
there, and what that adds up to.

An application returns the storage that it ends with and all lines for the log
in one list. Which line is about which entry, and what the entry found when its
turn came, is not in the result. `visits` writes it down: each entry that the
application gets to, together with the storage that the entries before it have
left. The storage at the end and the lines can be read off the visits, so nothing
is lost by looking at these alone.

The entries of interest are those that take payloads away. Such an entry finds
the item of its id live or not. If it does, the item is killed, its id is in no
bucket afterwards, and the log hears nothing. If it does not, the log gets one
line with the id, and the buckets and the live items stay. So each of these
entries makes for one live item fewer or for one line more, and the sums over
all visits are equal because they are at each.

## Main definitions

* `Visit`: An entry that an application gets to, and the storage that it finds.
* `Visit.findsLive`: Whether the item is live by then.
* `Visit.left`, `Visit.told`: What the entry leaves, and what the log is told.
* `Change.isKill`, `Change.isShow`: The entries that take a payload away and
  those that put one in.
* `Storage.visits`: The visits of an application.
* `Storage.liveCount`: The number of live items.

## Theorems

* `flatMap_told_visits`: The lines of an application are those of its visits.
* `map_entry_visits`: The entries that it gets to.
* `getElem?_visits`, `visit_of_split`: A visit finds what the entries before it
  have left.
* `sound_of_mem_visits`: That storage is sound.
* `told_of_isKill`, `told_of_not_isKill`: What the log is told of an entry.
* `message_notice`: The line for an entry names its id.
* `isLive_left`: Whether the item is live afterwards.
* `left_of_isKill`, `left_of_not_findsLive`: What a killing entry leaves.
* `liveCount_apply`, `liveCount_applyAll`: The live items after a change, and
  after an application.
-/

namespace SceneIndex

namespace Change

/-- The change takes a payload away, if the item holds one. -/
def isKill : Change → Bool
  | clear _ => true
  | remove _ => true
  | _ => false

/-- The change puts a payload in. -/
def isShow : Change → Bool
  | reset _ _ => true
  | _ => false

theorem isShow_of_isKill (c : Change) (h : c.isKill = true) : c.isShow = false := by
  cases c with
  | reset id payload => exact absurd h Bool.false_ne_true
  | clear id => rfl
  | remove id => rfl
  | move id => rfl

end Change

/-- An entry that an application gets to, and the storage that it finds. -/
structure Visit where
  found : Storage
  entry : Change
  deriving DecidableEq

namespace Visit

/-- Whether the item that the entry names is live when its turn comes. -/
def findsLive (v : Visit) : Bool := (v.found.item v.entry.id).isLive

/-- The storage that the entry leaves. -/
def left (keys : PayloadKeys) (v : Visit) : Storage := (v.found.apply keys v.entry).1

/-- What the log is told of the entry. -/
def told (keys : PayloadKeys) (v : Visit) : List Event := (v.found.apply keys v.entry).2

/-- The line for an entry that finds nothing to take away. -/
def notice (v : Visit) : Event :=
  match v.entry with
  | .remove id => .idleRemoval id
  | c => .idleReset c.id

-- An entry that takes a payload away tells the log just if there was none.
theorem told_of_isKill (keys : PayloadKeys) (v : Visit) (h : v.entry.isKill = true) :
    v.told keys = if v.findsLive = true then [] else [v.notice] := by
  rcases v with ⟨found, entry⟩
  cases entry with
  | clear id =>
      -- A cleared item is not live, so that only what it was before matters.
      have hnew : ((found.item id).reset keys none).isLive = false := rfl
      cases hlive : (found.item id).isLive with
      | true =>
          simp only [told, findsLive, Storage.apply, Storage.resetItem, Change.id, hlive, hnew,
            if_true]
      | false =>
          simp only [told, findsLive, notice, Storage.apply, Storage.resetItem, Change.id, hlive,
            hnew, Bool.false_eq_true, if_false]
  | remove id =>
      cases hlive : (found.item id).isLive with
      | true =>
          simp only [told, findsLive, Storage.apply, Storage.removeItem, Change.id, hlive, if_true]
      | false =>
          simp only [told, findsLive, notice, Storage.apply, Storage.removeItem, Change.id, hlive,
            Bool.false_eq_true, if_false]
  | reset id payload => exact absurd h Bool.false_ne_true
  | move id => exact absurd h Bool.false_ne_true

theorem told_eq_notice_iff (keys : PayloadKeys) (v : Visit) (h : v.entry.isKill = true) :
    v.told keys = [v.notice] ↔ v.findsLive = false := by
  rw [told_of_isKill keys v h]
  cases v.findsLive with
  | true => simp only [if_true, List.nil_eq, reduceCtorEq]
  | false => simp only [Bool.false_eq_true, if_false]

-- Whichever line it is, it names the id.
theorem message_notice (v : Visit) :
    ∃ front back, v.notice.message = front ++ v.entry.id.text ++ back := by
  rcases v with ⟨found, entry⟩
  cases entry with
  | remove id => exact ⟨_, _, rfl⟩
  | reset id payload => exact ⟨_, _, rfl⟩
  | clear id => exact ⟨_, _, rfl⟩
  | move id => exact ⟨_, _, rfl⟩

theorem told_of_not_isKill (keys : PayloadKeys) (v : Visit) (h : v.entry.isKill = false) :
    v.told keys = [] := by
  rcases v with ⟨found, entry⟩
  cases entry with
  | reset id payload =>
      have hnew : ((found.item id).reset keys (some payload)).isLive = true := rfl
      cases hlive : (found.item id).isLive with
      | true => simp only [told, Storage.apply, Storage.resetItem, hlive, hnew]
      | false => simp only [told, Storage.apply, Storage.resetItem, hlive, hnew]
  | move id => rfl
  | clear id => exact absurd h.symm Bool.false_ne_true
  | remove id => exact absurd h.symm Bool.false_ne_true

theorem length_told (keys : PayloadKeys) (v : Visit) :
    (v.told keys).length = if (v.entry.isKill && !v.findsLive) = true then 1 else 0 := by
  cases hkill : v.entry.isKill with
  | true =>
      rw [told_of_isKill keys v hkill]
      cases v.findsLive <;> rfl
  | false =>
      rw [told_of_not_isKill keys v hkill]
      rfl

-- Whatever the log is told of an entry is for those who trace.
theorem level_of_mem_told (keys : PayloadKeys) (v : Visit) (e : Event) (he : e ∈ v.told keys) :
    e.level = .trace := by
  have hnotice : v.notice.level = .trace := by
    unfold notice
    split <;> rfl
  by_cases hkill : v.entry.isKill = true
  · rw [told_of_isKill keys v hkill] at he
    by_cases hlive : v.findsLive = true
    · rw [if_pos hlive] at he
      exact absurd he List.not_mem_nil
    · rw [if_neg hlive] at he
      rw [List.mem_singleton.mp he]
      exact hnotice
  · rw [told_of_not_isKill keys v (Bool.eq_false_iff.mpr hkill)] at he
    exact absurd he List.not_mem_nil

section Left

variable (keys : PayloadKeys) (v : Visit) (hroom : v.entry.id.index < v.found.capacity)

include hroom

theorem item_left_self :
    (v.left keys).item v.entry.id = (v.found.item v.entry.id).apply keys v.entry.onItem := by
  rw [Storage.item_eq_slot, left, Storage.slot_apply keys v.found v.entry _ hroom, if_pos rfl,
    Storage.item_eq_slot]

theorem item_left_other (x : ItemId) (hx : x ≠ v.entry.id) :
    (v.left keys).item x = v.found.item x := by
  have hne : x.index ≠ v.entry.id.index := fun heq => hx (ItemId.index_injective heq)
  rw [Storage.item_eq_slot, left, Storage.slot_apply keys v.found v.entry _ hroom, if_neg hne,
    Storage.item_eq_slot]

-- An item from which the payload was taken away is killed.
theorem item_left_of_isKill (h : v.entry.isKill = true) :
    (v.left keys).item v.entry.id = { payload := none, key := Key.empty, killed := true } := by
  rw [item_left_self keys v hroom]
  cases hentry : v.entry with
  | clear id => rfl
  | remove id => rfl
  | reset id payload =>
      rw [hentry] at h
      exact absurd h Bool.false_ne_true
  | move id =>
      rw [hentry] at h
      exact absurd h Bool.false_ne_true

-- An item is live afterwards if a payload was put in, or if it was live and no
-- payload was taken away.
theorem isLive_left :
    ((v.left keys).item v.entry.id).isLive
      = (v.entry.isShow || v.findsLive && !v.entry.isKill) := by
  rw [item_left_self keys v hroom]
  rcases v with ⟨found, entry⟩
  cases entry with
  | reset id payload => rfl
  | clear id => exact (Bool.and_false _).symm
  | remove id => exact (Bool.and_false _).symm
  | move id => exact (Bool.and_true _).symm

/-- An entry that takes a payload away leaves its id in no bucket, and every
    other id where it was. -/
theorem left_of_isKill (hfiled : v.found.Filed) (h : v.entry.isKill = true) (f : Filter)
    (ids : IdSet) (hids : (v.left keys).buckets.get? f = some ids) :
    v.entry.id ∉ ids ∧ ∀ before, v.found.buckets.get? f = some before →
      ∀ x, x ≠ v.entry.id → (x ∈ ids ↔ x ∈ before) := by
  have hafter := Storage.filed_apply keys v.found v.entry hfiled hroom f ids hids
  constructor
  · rw [hafter]
    intro hfit
    have hkilled := item_left_of_isKill keys v hroom h
    rw [left] at hkilled
    rw [hkilled, Storage.fits_of_not_live _ f rfl] at hfit
    exact Bool.false_ne_true hfit
  · intro before hbefore x hx
    have hitem := item_left_other keys v hroom x hx
    rw [left] at hitem
    rw [hafter, hitem, hfiled f before hbefore]

/-- If it found none, it leaves the buckets and the live items as they are. -/
theorem left_of_not_findsLive (h : v.entry.isKill = true) (hlive : v.findsLive = false) :
    (v.left keys).buckets = v.found.buckets ∧
      ∀ x, ((v.left keys).item x).isLive = (v.found.item x).isLive := by
  constructor
  · rcases v with ⟨found, entry⟩
    cases entry with
    | clear id =>
        have hold : (found.item id).isLive = false := hlive
        simp only [left, Storage.apply, Storage.resetItem, Item.reset, hold]
        rfl
    | remove id =>
        have hold : (found.item id).isLive = false := hlive
        simp only [left, Storage.apply, Storage.removeItem, hold]
        rfl
    | reset id payload => exact absurd h Bool.false_ne_true
    | move id => exact absurd h Bool.false_ne_true
  · intro x
    by_cases hx : x = v.entry.id
    · rw [hx, item_left_of_isKill keys v hroom h]
      exact hlive.symm
    · rw [item_left_other keys v hroom x hx]

end Left

end Visit

namespace Storage

/-- The entries that an application gets to, each with the storage that it
    finds. -/
def visits (keys : PayloadKeys) (next : UInt32) : Storage → List Change → List Visit
  | _, [] => []
  | st, c :: rest =>
    if st.holds next c.id then ⟨st, c⟩ :: visits keys next (st.apply keys c).1 rest else []

/-- The number of live items. -/
def liveCount (st : Storage) : Nat := st.slots.countP Item.isLive

section Visits

variable (keys : PayloadKeys) (next : UInt32)

theorem visits_cons (st : Storage) (c : Change) (rest : List Change)
    (h : st.holds next c.id = true) :
    st.visits keys next (c :: rest) = ⟨st, c⟩ :: (st.apply keys c).1.visits keys next rest := by
  rw [visits, if_pos h]

-- The lines of an application are those of its visits, in their order.
theorem flatMap_told_visits (st : Storage) (changes : List Change) :
    (st.applyAll keys next changes).2.1
      = (st.visits keys next changes).flatMap (Visit.told keys) := by
  induction changes generalizing st with
  | nil => rfl
  | cons c rest ih =>
      by_cases hc : st.holds next c.id = true
      · rw [applyAll_cons keys next st c rest hc, visits_cons keys next st c rest hc,
          List.flatMap_cons, ← ih]
        rfl
      · rw [applyAll, if_neg hc, visits, if_neg hc]
        rfl

-- An application gets to the entries before the first with a bad id.
theorem map_entry_visits (st : Storage) (changes : List Change) :
    (st.visits keys next changes).map Visit.entry
      = changes.takeWhile fun c => st.holds next c.id := by
  induction changes generalizing st with
  | nil => rfl
  | cons c rest ih =>
      by_cases hc : st.holds next c.id = true
      · have hsame : (fun d : Change => (st.apply keys c).1.holds next d.id)
            = fun d => st.holds next d.id := funext fun d => holds_apply keys next st c d.id
        rw [visits_cons keys next st c rest hc, List.map_cons, ih, hsame, List.takeWhile_cons,
          if_pos hc]
      · rw [visits, if_neg hc, List.takeWhile_cons, if_neg hc, List.map_nil]

/-- A visit finds what the entries before it have left, and all of their ids
    were good. -/
theorem getElem?_visits (st : Storage) (changes : List Change) (n : Nat) (v : Visit)
    (h : (st.visits keys next changes)[n]? = some v) :
    changes[n]? = some v.entry ∧ v.found = (st.applyAll keys next (changes.take n)).1 ∧
      ∀ c ∈ changes.take n, st.holds next c.id = true := by
  induction changes generalizing st n with
  | nil => exact absurd h (by simp only [visits, List.getElem?_nil, reduceCtorEq, not_false_eq_true])
  | cons c rest ih =>
      by_cases hc : st.holds next c.id = true
      · rw [visits_cons keys next st c rest hc] at h
        cases n with
        | zero =>
            have hv : v = ⟨st, c⟩ := (Option.some.inj h).symm
            rw [hv]
            exact ⟨rfl, rfl, fun d hd => absurd hd List.not_mem_nil⟩
        | succ n =>
            rcases ih (st.apply keys c).1 n h with ⟨hentry, hfound, hgood⟩
            rw [List.take_succ_cons, applyAll_cons keys next st c _ hc]
            refine ⟨hentry, hfound, fun d hd => ?_⟩
            rcases List.mem_cons.mp hd with rfl | hd
            · exact hc
            · rw [← holds_apply keys next st c]
              exact hgood d hd
      · rw [visits, if_neg hc] at h
        exact absurd h (by simp only [List.getElem?_nil, reduceCtorEq, not_false_eq_true])

-- The entry behind a front part, if it is got to, finds what the front part
-- has left.
theorem visit_of_split (st : Storage) (front : List Change) (c : Change) (back : List Change)
    (v : Visit) (h : (st.visits keys next (front ++ c :: back))[front.length]? = some v) :
    v = ⟨(st.applyAll keys next front).1, c⟩ ∧ ∀ d ∈ front, st.holds next d.id = true := by
  rcases v with ⟨found, entry⟩
  rcases getElem?_visits keys next st _ _ _ h with ⟨hentry, hfound, hgood⟩
  have htake : (front ++ c :: back).take front.length = front := List.take_left
  rw [List.getElem?_append_right (Nat.le_refl _), Nat.sub_self, List.getElem?_cons_zero] at hentry
  rw [htake] at hfound hgood
  refine ⟨?_, hgood⟩
  rw [Option.some.inj hentry, ← hfound]

-- What a visit finds is sound, and its id is good.
theorem sound_of_mem_visits (st : Storage) (changes : List Change) (v : Visit)
    (hv : v ∈ st.visits keys next changes) (hst : st.Sound next) :
    v.found.Sound next ∧ v.entry.id.index < v.found.capacity := by
  induction changes generalizing st with
  | nil => exact absurd hv List.not_mem_nil
  | cons c rest ih =>
      by_cases hc : st.holds next c.id = true
      · rw [visits_cons keys next st c rest hc] at hv
        rcases List.mem_cons.mp hv with rfl | hlater
        · exact ⟨hst, index_lt_of_holds next st c.id hc⟩
        · exact ih _ hlater (sound_apply keys next st c hc hst)
      · rw [visits, if_neg hc] at hv
        exact absurd hv List.not_mem_nil

theorem liveCount_setItem (st : Storage) (id : ItemId) (new : Item)
    (h : id.index < st.capacity) :
    (st.setItem id new).liveCount + (if (st.item id).isLive = true then 1 else 0)
      = st.liveCount + if new.isLive = true then 1 else 0 := by
  have hid : id.index < st.slots.size := h
  have hold : st.item id = st.slots[id.index] := by
    rw [Storage.item, Array.getD_eq_getD_getElem?, Array.getElem?_eq_getElem hid, Option.getD_some]
  -- The item that is replaced was counted, if it was live.
  have hcounted : (if st.slots[id.index].isLive = true then 1 else 0)
      ≤ st.slots.countP Item.isLive := by
    by_cases hlive : st.slots[id.index].isLive = true
    · rw [if_pos hlive]
      exact Array.countP_pos_iff.mpr ⟨_, Array.getElem_mem hid, hlive⟩
    · rw [if_neg hlive]
      exact Nat.zero_le _
  simp only [liveCount, setItem, Array.setIfInBounds_def, dif_pos hid, Array.countP_set hid, hold]
  omega

theorem liveCount_growTo (st : Storage) (n : Nat) : (st.growTo n).liveCount = st.liveCount := by
  have hnone : ¬ Item.pristine.isLive = true := Bool.false_ne_true
  simp only [liveCount, growTo, Array.countP_append, Array.countP_replicate, if_neg hnone,
    Nat.add_zero]

-- A change replaces one item.
theorem liveCount_left (v : Visit) (h : v.entry.id.index < v.found.capacity) :
    (v.left keys).liveCount + (if v.findsLive = true then 1 else 0)
      = v.found.liveCount + if ((v.left keys).item v.entry.id).isLive = true then 1 else 0 := by
  rw [Visit.item_left_self keys v h, liveCount, Visit.left, slots_apply]
  exact liveCount_setItem v.found v.entry.id _ h

/-- The live items after a change. One that puts a payload in makes for one more
    unless there was one, and one that takes a payload away for one fewer unless
    the log is told of it. -/
theorem liveCount_apply (v : Visit) (h : v.entry.id.index < v.found.capacity) :
    (v.left keys).liveCount + (if v.entry.isKill = true then 1 else 0)
      = v.found.liveCount + (if (v.entry.isShow && !v.findsLive) = true then 1 else 0)
        + (v.told keys).length := by
  have hcount := liveCount_left keys v h
  rw [Visit.isLive_left keys v h] at hcount
  -- Whether the entry puts in or takes away and what it finds make up the rest.
  have hweights : ∀ kill puts live : Bool, (kill = true → puts = false) →
      (if (puts || live && !kill) = true then 1 else 0) + (if kill = true then 1 else 0)
        = (if live = true then 1 else 0) + (if (puts && !live) = true then 1 else 0)
          + (if (kill && !live) = true then 1 else 0) := by decide
  have hentry := hweights v.entry.isKill v.entry.isShow v.findsLive v.entry.isShow_of_isKill
  rw [Visit.length_told]
  omega

/-- The live items after an application, and all the entries that take payloads
    away, are the live items before, all the payloads that were put in where
    there was none, and all the lines for the log. -/
theorem liveCount_applyAll (st : Storage) (changes : List Change) :
    (st.applyAll keys next changes).1.liveCount
        + (st.visits keys next changes).countP (fun v => v.entry.isKill)
      = st.liveCount
        + (st.visits keys next changes).countP (fun v => v.entry.isShow && !v.findsLive)
        + (st.applyAll keys next changes).2.1.length := by
  induction changes generalizing st with
  | nil => rfl
  | cons c rest ih =>
      by_cases hc : st.holds next c.id = true
      · have hfirst := liveCount_apply keys ⟨st, c⟩ (index_lt_of_holds next st c.id hc)
        have hrest := ih (st.apply keys c).1
        rw [applyAll_cons keys next st c rest hc, visits_cons keys next st c rest hc,
          List.countP_cons, List.countP_cons, List.length_append]
        simp only [Visit.left, Visit.told] at hfirst ⊢
        omega
      · rw [applyAll, if_neg hc, visits, if_neg hc]
        rfl

end Visits

end Storage

end SceneIndex
