import SceneIndex.Proofs.Batch.Join
import SceneIndex.Proofs.Storage.Filed
import SceneIndex.Scene.Basic

/-!
# The apply phase in three parts

Applying the queue of a scene takes three decisions that the program makes in
one go: how many slots there must be, what becomes of the slots and buckets,
and whether a bad id ended it. This module takes them apart, so that nothing
after it has to open the apply phase again.

The slots come first, and two things may go wrong with them. There may be more
to ask for than there can be. Then the phase gives up before it has looked at
the first entry (`process_of_not_fits`), so the storage is as it was. And on a
machine that does not check sums, the sum that says how many slots are needed
may wrap around, and slots go away with what they hold. `Exact` says that this
is not so, and nothing is said of phases for which it does not hold. For the
others all that was in a slot before is there after growth (`slot_grownStorage`).

If the slots can be had, there is one for every id that was given out. This
makes the third condition on an id, that it has a slot, follow from the second,
that it was given out. `holds_grownStorage_iff` is the result: an id is good
exactly when the scene gave it out.

What becomes of slots and buckets is `application`, the application of the
joined queue to the grown storage. The scene afterwards has that storage and
an empty queue and is otherwise the one before (`process_scene`), whether the
application got through (`process_of_completed`) or not
(`process_of_stopped`).

## Main definitions

* `Scene.Issued`: The scene gave the id out.
* `Scene.Knows`: All ids in the batches were given out.
* `Scene.Exact`: No sum of the next phase wraps around.
* `Scene.Fits`: The slots for the next phase can be had.
* `Scene.growth?`: The number of slots that it grows to, if they can.
* `Scene.shortage`: How it fails, if they cannot.
* `Scene.pending`: The queue as one batch.
* `Scene.due`: The entries that a phase sets out to apply.
* `Scene.application`: What the apply phase does to the storage.
* `Scene.summary`: What a completed apply phase reports.

## Theorems

* `growth_of_fits`, `growth_of_not_fits`: The slots before changes are applied.
* `exists_growTo`: Without a sum that wraps around, slots are only added.
* `next_le_capacity_grownStorage`: Every id that was given out has a slot.
* `holds_grownStorage_iff`: The good ids are those given out.
* `process_scene`: The scene after an apply phase.
* `process_of_completed`, `process_of_stopped`, `process_of_not_fits`: How the
  phase ends.
-/

namespace SceneIndex

namespace Scene

/-- The scene gave the id out. -/
def Issued (s : Scene) (id : ItemId) : Prop := 1 ≤ id.index ∧ id.index ≤ s.allocatedCount

instance (s : Scene) (id : ItemId) : Decidable (s.Issued id) :=
  inferInstanceAs (Decidable (1 ≤ id.index ∧ id.index ≤ s.allocatedCount))

/-- All ids in the batches were given out. -/
def Knows (s : Scene) (batches : List Batch) : Prop :=
  ∀ b ∈ batches, ∀ c ∈ b.changes, s.Issued c.id

instance (s : Scene) (batches : List Batch) : Decidable (s.Knows batches) :=
  inferInstanceAs (Decidable (∀ b ∈ batches, ∀ c ∈ b.changes, s.Issued c.id))

/-- The queue as one batch. -/
def pending (s : Scene) : Batch := Batch.join s.queue

theorem Knows.pending {s : Scene} (h : s.Knows s.queue) :
    ∀ c ∈ s.pending.changes, s.Issued c.id := by
  intro c hc
  rcases (Batch.mem_changes_join _ c).mp hc with ⟨b, hb, hcb⟩
  exact h b hb c hcb

theorem Knows.append {s : Scene} {xs ys : List Batch} (hx : s.Knows xs) (hy : s.Knows ys) :
    s.Knows (xs ++ ys) := by
  intro b hb
  rcases List.mem_append.mp hb with hb | hb
  · exact hx b hb
  · exact hy b hb

/-- No sum of the next phase wraps around: the machine checks its sums, or no
    slots are needed, or the sum of the next id and the spare slots is a word. -/
def Exact (s : Scene) : Prop :=
  s.machine.checked = true ∨ s.next.toNat ≤ s.capacity ∨
    s.next.toNat + s.config.growthSlack.toNat < UInt64.size

instance (s : Scene) : Decidable s.Exact :=
  inferInstanceAs (Decidable (s.machine.checked = true ∨ s.next.toNat ≤ s.capacity ∨
    s.next.toNat + s.config.growthSlack.toNat < UInt64.size))

/-- The slots for the next phase can be had: there are enough, or there can be
    as many as it grows to. -/
def Fits (s : Scene) : Prop :=
  s.next.toNat ≤ s.capacity ∨
    s.next.toNat + s.config.growthSlack.toNat ≤ s.machine.maxSlots

instance (s : Scene) : Decidable s.Fits :=
  inferInstanceAs (Decidable (s.next.toNat ≤ s.capacity ∨
    s.next.toNat + s.config.growthSlack.toNat ≤ s.machine.maxSlots))

theorem Fits.exact {s : Scene} (h : s.Fits) : s.Exact :=
  h.elim (fun hroom => .inr (.inl hroom))
    fun hroom => .inr (.inr (Nat.lt_of_le_of_lt hroom s.machine.maxSlots_lt))

/-- The number of slots that the next phase grows to, if it has to grow and the
    slots can be had. -/
def growth? (s : Scene) : Option Nat :=
  if s.capacity < s.next.toNat then some (s.next.toNat + s.config.growthSlack.toNat) else none

-- The storage grows if some id is without a slot, and to what all ids and the
-- spare slots need.
theorem growth?_eq (s : Scene) (hnext : 1 ≤ s.next.toNat) :
    s.growth? = if s.capacity < s.allocatedCount + 1 then
        some (s.allocatedCount + 1 + s.config.growthSlack.toNat)
      else none := by
  have hsucc : s.next.toNat = s.allocatedCount + 1 := by
    unfold allocatedCount
    omega
  rw [growth?, hsucc]

/-- How a phase fails for which the slots cannot be had. -/
def shortage (s : Scene) : Fault :=
  if s.next.toNat + s.config.growthSlack.toNat < UInt64.size then .capacity else .overflow

/-- The entries that a phase sets out to apply. There are none if the slots
    cannot be had. -/
def due (s : Scene) : List Change :=
  match s.growth with
  | .ok _ => s.pending.changes
  | .error _ => []

/-- What the apply phase does to the storage, what it tells the log and where
    it was stopped. -/
def application (keys : PayloadKeys) (s : Scene) : Storage × List Event × Option UnissuedId :=
  s.grownStorage.applyAll keys s.next s.due

/-- What a completed apply phase reports. -/
def summary (s : Scene) : Applied where
  batches := s.queue.length
  resets := s.pending.resets.length
  removals := s.pending.removals.length
  moves := s.pending.moves.length
  grownTo := s.growth?

/-- What the log is told about growth, if the storage grows. -/
def growthEvents (s : Scene) : List Event :=
  match s.growth? with
  | some capacity => [.grown capacity s.next]
  | none => []

/-- What the log is told at the end, if there was something to apply. -/
def closingEvents (s : Scene) : List Event :=
  if s.summary.isEmpty then []
  else [.applied s.summary.batches s.summary.resets s.summary.removals s.summary.moves]

section Growth

variable (s : Scene)

theorem toNat_next_toUInt64 : s.next.toUInt64.toNat = s.next.toNat := UInt32.toNat_toUInt64 s.next

theorem growth_of_fits (h : s.Fits) : s.growth = .ok s.growth? := by
  unfold growth growth?
  by_cases hgrow : s.capacity < s.next.toNat
  · -- What there can be is less than the greatest word, so the sum is a word.
    have hroom : s.next.toNat + s.config.growthSlack.toNat ≤ s.machine.maxSlots :=
      h.resolve_left (Nat.not_le_of_lt hgrow)
    have hlt := Nat.lt_of_le_of_lt hroom s.machine.maxSlots_lt
    rw [← toNat_next_toUInt64] at hlt
    rcases s.machine.add?_of_lt _ _ hlt with ⟨hsum, hword⟩
    rw [toNat_next_toUInt64] at hword
    rw [if_pos hgrow, if_pos hgrow, hsum]
    dsimp only
    rw [hword, if_neg (Nat.not_lt_of_le hroom)]
  · rw [if_neg hgrow, if_neg hgrow]

theorem growth_of_not_fits (hexact : s.Exact) (h : ¬ s.Fits) : s.growth = .error s.shortage := by
  rcases not_or.mp h with ⟨hslots, hroom⟩
  have hgrow : s.capacity < s.next.toNat := Nat.lt_of_not_le hslots
  unfold growth shortage
  rw [if_pos hgrow]
  by_cases hlt : s.next.toNat + s.config.growthSlack.toNat < UInt64.size
  · have hlt' := hlt
    rw [← toNat_next_toUInt64] at hlt'
    rcases s.machine.add?_of_lt _ _ hlt' with ⟨hsum, hword⟩
    rw [toNat_next_toUInt64] at hword
    rw [hsum, if_pos hlt]
    dsimp only
    rw [hword, if_pos (Nat.lt_of_not_le hroom)]
  · -- The sum is no word, so it must be the machine that checks it.
    have hchecked : s.machine.checked = true :=
      hexact.resolve_right fun hor => hor.elim hslots hlt
    rw [if_neg hlt, s.machine.add?_of_checked _ _ hchecked]
    rw [toNat_next_toUInt64]
    exact Nat.le_of_not_lt hlt

theorem due_of_fits (h : s.Fits) : s.due = s.pending.changes := by
  rw [due, growth_of_fits s h]

-- Whether the slots can be had does not depend on the queue.
theorem due_of_queue (queue : List Batch) (h : s.Fits) :
    ({ s with queue := queue } : Scene).due = (Batch.join queue).changes :=
  due_of_fits { s with queue := queue } h

theorem due_of_not_fits (hexact : s.Exact) (h : ¬ s.Fits) : s.due = [] := by
  rw [due, growth_of_not_fits s hexact h]

theorem grownStorage_of_fits (h : s.Fits) :
    s.grownStorage = s.storage.growTo (s.growth?.getD s.capacity) := by
  unfold grownStorage
  rw [growth_of_fits s h]
  by_cases hgrow : s.capacity < s.next.toNat
  · have hmore : ¬ s.next.toNat + s.config.growthSlack.toNat < s.storage.capacity := by
      have hcap : s.storage.capacity < s.next.toNat := hgrow
      omega
    rw [growth?, if_pos hgrow, Option.getD_some]
    exact if_neg hmore
  · rw [growth?, if_neg hgrow, Option.getD_none]
    exact (Storage.growTo_capacity s.storage).symm

theorem grownStorage_of_not_fits (hexact : s.Exact) (h : ¬ s.Fits) :
    s.grownStorage = s.storage := by
  rw [grownStorage, growth_of_not_fits s hexact h]

/-- Unless a sum wraps around, what there is before changes are applied is what
    there was, and slots in which nothing was ever put. -/
theorem exists_growTo (hexact : s.Exact) : ∃ n, s.grownStorage = s.storage.growTo n := by
  by_cases h : s.Fits
  · exact ⟨_, grownStorage_of_fits s h⟩
  · refine ⟨s.storage.capacity, ?_⟩
    rw [grownStorage_of_not_fits s hexact h, Storage.growTo_capacity]

theorem capacity_grownStorage (h : s.Fits) :
    s.grownStorage.capacity = s.growth?.getD s.capacity := by
  rw [grownStorage_of_fits s h, Storage.capacity_growTo, growth?]
  by_cases hgrow : s.capacity < s.next.toNat
  · have hcap : s.storage.capacity < s.next.toNat := hgrow
    rw [if_pos hgrow, Option.getD_some]
    omega
  · rw [if_neg hgrow, Option.getD_none]
    exact Nat.max_self _

-- Every id that was given out has a slot, even the next one.
theorem next_le_capacity_grownStorage (h : s.Fits) :
    s.next.toNat ≤ s.grownStorage.capacity := by
  rw [capacity_grownStorage s h, growth?]
  by_cases hgrow : s.capacity < s.next.toNat
  · rw [if_pos hgrow, Option.getD_some]
    omega
  · rw [if_neg hgrow, Option.getD_none]
    omega

theorem capacity_le_grownStorage (hexact : s.Exact) : s.capacity ≤ s.grownStorage.capacity := by
  rcases s.exists_growTo hexact with ⟨n, heq⟩
  rw [heq, Storage.capacity_growTo]
  exact Nat.le_max_left _ _

theorem slot_grownStorage (hexact : s.Exact) (n : Nat) :
    s.grownStorage.slot n = s.storage.slot n := by
  rcases s.exists_growTo hexact with ⟨m, heq⟩
  rw [heq]
  exact Storage.slot_growTo s.storage m n

theorem buckets_grownStorage : s.grownStorage.buckets = s.storage.buckets := by
  unfold grownStorage
  split
  · unfold Storage.resize
    split <;> rfl
  · rfl

theorem sound_grownStorage (hexact : s.Exact) (h : s.storage.Sound s.next) :
    s.grownStorage.Sound s.next := by
  rcases s.exists_growTo hexact with ⟨n, heq⟩
  rw [heq]
  exact Storage.sound_growTo s.storage s.next n h

end Growth

/-- The good ids are those that were given out. The slots have grown by the
    time the question is asked, so their number never decides it. -/
theorem holds_grownStorage_iff (s : Scene) (id : ItemId) (hnext : 1 ≤ s.next.toNat)
    (hfits : s.Fits) : s.grownStorage.holds s.next id = true ↔ s.Issued id := by
  have hcap := next_le_capacity_grownStorage s hfits
  -- The reserved id is the only one with index zero.
  have hzero : id = ItemId.invalid ↔ id.index = 0 :=
    ⟨fun e => by rw [e]; rfl, fun e => ItemId.index_injective e⟩
  have hindex : id.number.toNat = id.index := rfl
  simp only [Storage.holds, Bool.and_eq_true, decide_eq_true_eq, ItemId.isValid, bne_iff_ne,
    ne_eq, hzero, UInt32.lt_iff_toNat_lt, hindex, Issued, allocatedCount]
  omega

theorem process_scene (keys : PayloadKeys) (s : Scene) :
    (s.process keys).1 = { s with queue := [], storage := (s.application keys).1 } := by
  unfold process application due grownStorage
  cases s.growth with
  | error fault => rfl
  | ok grownTo =>
      simp only [Batch.extend_empty, pending]
      split <;> rfl

-- The slots can be had and the application got through: the phase reports what
-- it found.
theorem process_of_completed (keys : PayloadKeys) (s : Scene) (hfits : s.Fits)
    (h : (s.application keys).2.2 = none) :
    s.process keys
      = ({ s with queue := [], storage := (s.application keys).1 },
         s.growthEvents ++ (s.application keys).2.1 ++ s.closingEvents, .ok s.summary) := by
  simp only [application, due_of_fits s hfits, pending] at h
  simp only [process, growth_of_fits s hfits, Batch.extend_empty, application,
    due_of_fits s hfits, pending, h]
  rfl

-- The slots can be had and the application was stopped: the phase fails and
-- names the cause.
theorem process_of_stopped (keys : PayloadKeys) (s : Scene) (cause : UnissuedId)
    (hfits : s.Fits) (h : (s.application keys).2.2 = some cause) :
    s.process keys
      = ({ s with queue := [], storage := (s.application keys).1 },
         s.growthEvents ++ (s.application keys).2.1, .error (.unissued cause)) := by
  simp only [application, due_of_fits s hfits, pending] at h
  simp only [process, growth_of_fits s hfits, Batch.extend_empty, application,
    due_of_fits s hfits, pending, h]
  rfl

-- The slots cannot be had: the phase fails before the first entry, and the
-- queue is lost.
theorem process_of_not_fits (keys : PayloadKeys) (s : Scene) (hexact : s.Exact) (h : ¬ s.Fits) :
    s.process keys = ({ s with queue := [] }, [], .error s.shortage) := by
  rw [process, growth_of_not_fits s hexact h]

-- A phase that completes had the slots and reports what it found.
theorem summary_of_completed (keys : PayloadKeys) (s : Scene) (applied : Applied)
    (hexact : s.Exact) (h : (s.process keys).2.2 = .ok applied) :
    s.Fits ∧ applied = s.summary := by
  by_cases hfits : s.Fits
  · refine ⟨hfits, ?_⟩
    cases hstopped : (s.application keys).2.2 with
    | none =>
        rw [process_of_completed keys s hfits hstopped] at h
        exact (Except.ok.inj h).symm
    | some cause =>
        rw [process_of_stopped keys s cause hfits hstopped] at h
        simp only [reduceCtorEq] at h
  · rw [process_of_not_fits keys s hexact hfits] at h
    simp only [reduceCtorEq] at h

theorem capacity_application (keys : PayloadKeys) (s : Scene) :
    (s.application keys).1.capacity = s.grownStorage.capacity :=
  Storage.capacity_applyAll keys s.next s.grownStorage s.due

-- If the slots can be had, every id that was given out has one afterwards.
theorem index_lt_capacity_application (keys : PayloadKeys) (s : Scene) (hfits : s.Fits)
    (id : ItemId) (hid : s.Issued id) : id.index < (s.application keys).1.capacity := by
  have hcap := next_le_capacity_grownStorage s hfits
  have hpos := hid.1
  have hle := hid.2
  rw [capacity_application]
  simp only [allocatedCount] at hle
  omega

theorem capacity_process (keys : PayloadKeys) (s : Scene) :
    (s.process keys).1.capacity = s.grownStorage.capacity := by
  rw [process_scene]
  exact capacity_application keys s

theorem sound_application (keys : PayloadKeys) (s : Scene) (hexact : s.Exact)
    (h : s.storage.Sound s.next) : (s.application keys).1.Sound s.next :=
  Storage.sound_applyAll keys s.next _ _ (sound_grownStorage s hexact h)

theorem filters_application (keys : PayloadKeys) (s : Scene) :
    (s.application keys).1.buckets.filters = s.storage.buckets.filters := by
  rw [application, Storage.filters_applyAll, buckets_grownStorage]

section Completed

variable (keys : PayloadKeys) (s : Scene) (hnext : 1 ≤ s.next.toNat) (hfits : s.Fits)
  (h : ∀ c ∈ s.pending.changes, s.Issued c.id)

include hnext hfits h

-- With ids that were given out only, the application gets through.
theorem application_completed : (s.application keys).2.2 = none := by
  rw [application, due_of_fits s hfits]
  exact Storage.applyAll_held keys s.next _ _
    (fun c hc => (holds_grownStorage_iff s c.id hnext hfits).mpr (h c hc))

-- The item of an id after an application that got through.
theorem item_application (id : ItemId) :
    (s.application keys).1.item id
      = (s.storage.item id).through keys id s.pending.changes := by
  have heq : s.grownStorage.item id = s.storage.item id :=
    slot_grownStorage s hfits.exact id.index
  rw [application, due_of_fits s hfits, Storage.item_applyAll keys s.next _ _ id
    (fun c hc => (holds_grownStorage_iff s c.id hnext hfits).mpr (h c hc)), heq]

end Completed

end Scene

end SceneIndex
