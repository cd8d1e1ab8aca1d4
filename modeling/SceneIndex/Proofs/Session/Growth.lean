import Mathlib.Algebra.GroupWithZero.Nat
import SceneIndex.Proofs.Session.Index

/-!
# How the storage grows

How many slots a scene has, after any run.

An id is only a number, and giving one out does not touch the storage. It is
the next apply phase that looks whether there is a slot for every id that is
out, the reserved one included, and if there is not, makes room for all of them
and for some spare ones. The phase does so before it reads the first change, so
a phase that is stopped has grown the storage as well.

The spare slots are there to keep growth rare, and two inequalities say how far
that goes. Slots are never more than what the ids that are out needed at the
last growth, so there are not many to spare. And a growth adds more slots than
the spare ones, so that so many ids have to be given out before the next.
`Sized` keeps both along a run, the second as a sum that grows by the same
amount with every growth. What is asked about growths and ids together is the
two of them put together: the slots that all growths added are there, and ids
have used up all of them but the spare ones of the last.

The machine adds the spare slots in a word of 64 bits, so the law is about runs in
which that sum is what it should be. It need not be a number of slots that there
can be. A phase that asks for more fails and leaves the slots as they were, so it
is the one kind of phase after which an id may be without a slot
(`unhoused_vastSession`).

## Main definitions

* `Session.growths`: How often the storage grows in a run.
* `Session.Sized`: How many slots there are after a number of growths.
* `Session.Roomy`: What each operation does to the number of slots.

## Theorems

* `getElem?_grownStorage_old`, `getElem?_grownStorage_new`: The slots after
  growth.
* `capacity_step_process`: The number of slots after a phase.
* `capacity_le_step`, `capacity_le_after`: Slots do not go away.
* `sized_step`, `sized_after`: How slots, growths and ids stand to each other.
* `roomy`: Operations on a sound scene.
* `storage_growth_law`: All of it, for every run.
-/

namespace SceneIndex

namespace Scene

theorem getElem?_grownStorage_old (s : Scene) (hexact : s.Exact) (n : Nat) (h : n < s.capacity) :
    s.grownStorage.slots[n]? = s.storage.slots[n]? := by
  have hle := capacity_le_grownStorage s hexact
  rw [Storage.getElem?_slots _ n (Nat.lt_of_lt_of_le h hle), slot_grownStorage s hexact,
    Storage.getElem?_slots _ n h]

theorem getElem?_grownStorage_new (s : Scene) (hexact : s.Exact) (n : Nat) (hold : s.capacity ≤ n)
    (hnew : n < s.grownStorage.capacity) :
    s.grownStorage.slots[n]? = some Item.pristine := by
  rw [Storage.getElem?_slots _ n hnew, slot_grownStorage s hexact,
    Storage.slot_of_capacity_le s.storage n hold]

end Scene

namespace Session

/-- How often the storage grows in a run. -/
def growths (s : Session) : List Op → Nat
  | [] => 0
  | op :: rest =>
    (if s.scene.capacity < (s.step op).session.scene.capacity then 1 else 0)
      + growths (s.step op).session rest

theorem capacity_step_process (s : Session) (hnext : 1 ≤ s.scene.next.toNat)
    (hexact : s.scene.Exact) :
    (s.step .process).session.scene.capacity
      = if s.scene.Fits ∧ s.scene.capacity < s.scene.allocatedCount + 1 then
          s.scene.allocatedCount + 1 + s.scene.config.growthSlack.toNat
        else s.scene.capacity := by
  refine (Scene.capacity_process s.keys s.scene).trans ?_
  by_cases hfits : s.scene.Fits
  · rw [Scene.capacity_grownStorage s.scene hfits, Scene.growth?_eq s.scene hnext]
    by_cases hgrow : s.scene.capacity < s.scene.allocatedCount + 1
    · rw [if_pos hgrow, if_pos ⟨hfits, hgrow⟩, Option.getD_some]
    · rw [if_neg hgrow, if_neg fun hboth => hgrow hboth.2, Option.getD_none]
  · rw [Scene.grownStorage_of_not_fits s.scene hexact hfits, if_neg fun hboth => hfits hboth.1]
    rfl

theorem capacity_le_step (s : Session) (op : Op) (hexact : op = .process → s.scene.Exact) :
    s.scene.capacity ≤ (s.step op).session.scene.capacity := by
  by_cases hop : op = .process
  · subst hop
    have hle := Scene.capacity_le_grownStorage s.scene (hexact rfl)
    rw [← Scene.capacity_process s.keys s.scene] at hle
    exact hle
  · exact Nat.le_of_eq ((s.scene_step op).2.2.2 hop).symm

theorem capacity_le_after (s : Session) (ops : List Op) (hsteady : s.Steady ops) :
    s.scene.capacity ≤ (s.after ops).scene.capacity := by
  induction ops generalizing s with
  | nil => exact Nat.le_refl _
  | cons op rest ih => exact Nat.le_trans (capacity_le_step s op hsteady.1) (ih _ hsteady.2)

/-- How many slots there are after a number of growths: no fewer than were
    there at first and were added, and no more than there were at first or
    growing now would lead to. -/
structure Sized (config : Config) (grown : Nat) (s : Session) : Prop where
  config_eq : s.scene.config = config
  next_pos : 1 ≤ s.scene.next.toNat
  ample : config.initialCapacity.toNat + grown * (config.growthSlack.toNat + 1)
    ≤ s.scene.capacity
  bounded : s.scene.capacity
    ≤ max config.initialCapacity.toNat (s.scene.allocatedCount + 1 + config.growthSlack.toNat)

theorem sized_build (machine : Machine) (config : Config) (keys : PayloadKeys)
    (hconfig : config.initialCapacity ≠ 0) :
    Sized config 0 ⟨Scene.build machine config, keys⟩ := by
  have hpos : config.initialCapacity.toNat ≠ 0 := fun h => hconfig (UInt64.toNat.inj h)
  have hcap : (Scene.build machine config).capacity = config.initialCapacity.toNat := by
    simp only [Scene.capacity, Storage.capacity, Scene.build, Array.size_replicate]
    omega
  refine ⟨rfl, Nat.le_refl 1, ?_, ?_⟩
  · dsimp only
    omega
  · dsimp only
    omega

/-- An operation keeps the two inequalities, where a growth adds at least the
    spare slots and one more. -/
theorem sized_step (config : Config) (grown : Nat) (s : Session) (op : Op)
    (hexact : op = .process → s.scene.Exact) (h : Sized config grown s) :
    Sized config
      (grown + if s.scene.capacity < (s.step op).session.scene.capacity then 1 else 0)
      (s.step op).session := by
  rcases s.scene_step op with ⟨_, hconfig, hnext, hother⟩
  have hpos := h.next_pos
  have hample := h.ample
  have hbounded := h.bounded
  have hids : s.scene.allocatedCount ≤ (s.step op).session.scene.allocatedCount :=
    Nat.sub_le_sub_right hnext 1
  by_cases hop : op = .process
  · subst hop
    have hcap := capacity_step_process s hpos (hexact rfl)
    rw [h.config_eq] at hcap
    by_cases hgrow : s.scene.Fits ∧ s.scene.capacity < s.scene.allocatedCount + 1
    · -- Some id had no slot, so the slots after growth are more by one than
      -- those before and the spare ones.
      rw [if_pos hgrow] at hcap
      have hmore : s.scene.capacity < (s.step .process).session.scene.capacity := by omega
      rw [if_pos hmore]
      refine ⟨hconfig.trans h.config_eq, by omega, ?_, by omega⟩
      rw [Nat.add_mul, Nat.one_mul]
      omega
    · rw [if_neg hgrow] at hcap
      rw [hcap, if_neg (Nat.lt_irrefl _), Nat.add_zero]
      exact ⟨hconfig.trans h.config_eq, by omega, by omega, by omega⟩
  · have hcap := hother hop
    rw [hcap, if_neg (Nat.lt_irrefl _), Nat.add_zero]
    exact ⟨hconfig.trans h.config_eq, by omega, by omega, by omega⟩

theorem sized_after (config : Config) (grown : Nat) (s : Session) (ops : List Op)
    (hsteady : s.Steady ops) (h : Sized config grown s) :
    Sized config (grown + s.growths ops) (s.after ops) := by
  induction ops generalizing s grown with
  | nil => exact h
  | cons op rest ih =>
      rw [after_cons, growths, ← Nat.add_assoc]
      exact ih _ _ hsteady.2 (sized_step config grown s op hsteady.1 h)

/-- What each operation does to the number of slots of a scene to which spare
    slots are added in the given number. -/
structure Roomy (slack : UInt64) (s : Session) : Prop where
  /-- Only a phase changes the number of slots. -/
  others : ∀ op, op ≠ .process → (s.step op).session.scene.capacity = s.scene.capacity
  /-- A phase, stopped or not, changes it just if an id or the reserved slot is
      not provided for, and then provides for all of them and for spare ones, if
      there can be so many. -/
  phase : (s.step .process).session.scene.capacity
    = if s.scene.Fits ∧ s.scene.capacity < s.scene.allocatedCount + 1 then
        s.scene.allocatedCount + 1 + slack.toNat
      else s.scene.capacity
  /-- The sum is the one that a machine word holds. -/
  word : (s.scene.next.toUInt64 + slack).toNat = s.scene.allocatedCount + 1 + slack.toNat
  /-- There can be so many just if there are enough or the sum is no more than the
      machine's greatest number of slots. -/
  fits : s.scene.Fits ↔ s.scene.allocatedCount + 1 ≤ s.scene.capacity ∨
    s.scene.allocatedCount + 1 + slack.toNat ≤ s.scene.machine.maxSlots
  /-- After a phase for which there can every id that was given out has a slot. -/
  housed : s.scene.Fits →
    (s.step .process).session.scene.allocatedCount + 1
        ≤ (s.step .process).session.scene.capacity ∧
      ∀ id, (s.step .process).session.scene.Issued id →
        ∃ item, (s.step .process).session.scene.storage.slots[id.index]? = some item
  /-- Any other fails for want of slots, and leaves them and the buckets as they
      were. -/
  short : ¬ s.scene.Fits → (s.step .process).answer = .applied (.error .capacity) ∧
    (s.step .process).session.scene.storage = s.scene.storage
  /-- A completed phase reports the new number of slots just if it grew the
      storage. -/
  reported : ∀ applied, (s.step .process).answer = .applied (.ok applied) →
    ∀ n, applied.grownTo = some n ↔
      s.scene.capacity < s.scene.allocatedCount + 1 ∧
        n = s.scene.allocatedCount + 1 + slack.toNat ∧
        n = (s.step .process).session.scene.capacity
  /-- Growth leaves the slots that are there as they are. -/
  kept : ∀ n < s.scene.capacity, s.scene.grownStorage.slots[n]? = s.scene.storage.slots[n]?
  /-- What it adds are slots in which nothing was ever put. -/
  added : ∀ n, s.scene.capacity ≤ n → n < (s.step .process).session.scene.capacity →
    s.scene.grownStorage.slots[n]?
      = some { payload := none, key := Key.empty, killed := false }
  /-- The changes are applied to the slots after growth. -/
  first : s.scene.Fits → (s.step .process).session.scene.storage
    = (s.scene.grownStorage.applyAll s.keys s.scene.next s.scene.pending.changes).1

theorem roomy (config : Config) (s : Session) (hconfig : s.scene.config = config)
    (hnext : 1 ≤ s.scene.next.toNat)
    (hword : s.scene.next.toNat + config.growthSlack.toNat < 2 ^ 64) :
    Roomy config.growthSlack s := by
  subst hconfig
  have hexact : s.scene.Exact := .inr (.inr hword)
  have hids : s.scene.next.toNat = s.scene.allocatedCount + 1 := by
    unfold Scene.allocatedCount
    omega
  have hphase := capacity_step_process s hnext hexact
  constructor
  case others => exact fun op => (s.scene_step op).2.2.2
  case phase => exact hphase
  case word =>
    rw [UInt64.toNat_add, UInt32.toNat_toUInt64, hids]
    omega
  case fits =>
    rw [Scene.Fits, hids]
  case housed =>
    intro hfits
    have hsame : (s.step .process).session.scene.allocatedCount = s.scene.allocatedCount := by
      rw [scene_process]
      rfl
    have hroom : s.scene.allocatedCount + 1 ≤ (s.step .process).session.scene.capacity := by
      rw [hphase]
      simp only [hfits, true_and]
      split <;> omega
    refine ⟨by omega, fun id hid => ⟨_, Storage.getElem?_slots _ id.index ?_⟩⟩
    have hlast := hid.2
    exact show id.index < (s.step .process).session.scene.capacity by omega
  case short =>
    intro hfits
    have hnone := Scene.process_of_not_fits s.keys s.scene hexact hfits
    have hshort : s.scene.shortage = .capacity := if_pos hword
    simp only [step, hnone, hshort, true_and]
  case reported =>
    intro applied hanswer n
    rcases Scene.summary_of_completed s.keys s.scene applied hexact (Answer.applied.inj hanswer)
      with ⟨hfits, hsummary⟩
    have hgrown : applied.grownTo = s.scene.growth? := by rw [hsummary, Scene.summary]
    rw [hgrown, Scene.growth?_eq s.scene hnext, hphase]
    by_cases hgrow : s.scene.capacity < s.scene.allocatedCount + 1
    · rw [if_pos hgrow, if_pos ⟨hfits, hgrow⟩, Option.some.injEq]
      exact ⟨fun heq => ⟨hgrow, heq.symm, heq.symm⟩, fun heq => heq.2.1.symm⟩
    · rw [if_neg hgrow]
      exact ⟨fun heq => absurd heq.symm (Option.some_ne_none n), fun heq => absurd heq.1 hgrow⟩
  case kept => exact Scene.getElem?_grownStorage_old s.scene hexact
  case added =>
    intro n hold hnew
    refine Scene.getElem?_grownStorage_new s.scene hexact n hold ?_
    rw [← Scene.capacity_process s.keys s.scene]
    exact hnew
  case first =>
    intro hfits
    rw [scene_process, Scene.application, Scene.due_of_fits s.scene hfits]

/-- How the storage of a scene grows, for every configuration that is valid and
    every run in which the next id and the spare slots add up to less than a
    machine word holds. There is a scene for the configuration if the machine has
    the slots. Slots never go away. What each operation does to their number is
    what `Roomy` says. There are never more than there were at first or growing
    now would lead to. And all growths but the last have used up their spare
    slots and one more, so that a run with several of them has given out as many
    ids. -/
theorem storage_growth_law (machine : Machine) (config : Config)
    (hconfig : config.initialCapacity ≠ 0) :
    ((∃ scene, Scene.create machine config = .ok scene) ↔
      config.initialCapacity.toNat ≤ machine.maxSlots) ∧
    ∀ scene, Scene.create machine config = .ok scene →
      ∀ (keys : PayloadKeys) (ops : List Op),
        (after ⟨scene, keys⟩ ops).scene.next.toNat + config.growthSlack.toNat < 2 ^ 64 →
        (∀ front back, ops = front ++ back →
          (after ⟨scene, keys⟩ front).scene.capacity ≤ (after ⟨scene, keys⟩ ops).scene.capacity) ∧
        Roomy config.growthSlack (after ⟨scene, keys⟩ ops) ∧
        (after ⟨scene, keys⟩ ops).scene.capacity
          ≤ max config.initialCapacity.toNat
            ((after ⟨scene, keys⟩ ops).scene.allocatedCount + 1 + config.growthSlack.toNat) ∧
        (1 ≤ growths ⟨scene, keys⟩ ops →
          config.initialCapacity.toNat
              + (growths ⟨scene, keys⟩ ops - 1) * (config.growthSlack.toNat + 1)
            ≤ (after ⟨scene, keys⟩ ops).scene.allocatedCount) := by
  refine ⟨Scene.exists_create_iff machine config hconfig,
    fun scene hcreate keys ops hword => ?_⟩
  rcases (Scene.create_eq_ok_iff _ _ _).mp hcreate with ⟨_, _, rfl⟩
  have hsteady : Steady ⟨Scene.build machine config, keys⟩ ops := steady_of_lt _ ops hword
  have hrun : Sized config (growths ⟨Scene.build machine config, keys⟩ ops)
      (after ⟨Scene.build machine config, keys⟩ ops) := by
    have h := sized_after config 0 _ ops hsteady (sized_build machine config keys hconfig)
    rw [Nat.zero_add] at h
    exact h
  refine ⟨fun front back hsplit => ?_, ?_, hrun.bounded, fun hgrown => ?_⟩
  · rw [hsplit] at hsteady ⊢
    rw [after_append]
    exact capacity_le_after _ back ((phases_append _ front back).mp hsteady).2
  · exact roomy config _ hrun.config_eq hrun.next_pos hword
  · have hample := hrun.ample
    have hbounded := hrun.bounded
    -- The last growth is taken out of the sum.
    rcases Nat.exists_eq_add_of_le' hgrown with ⟨earlier, heq⟩
    rw [heq, Nat.add_mul, Nat.one_mul] at hample
    rw [heq, Nat.add_sub_cancel]
    -- There are more slots than at first, so the bound is the one by ids.
    omega

/-- Two growths. The second is in a phase that stops at an id which was never
    given out. -/
def growingRun : List Op :=
  [.allocate, .allocate, .process, .allocate, .allocate, .allocate,
    .enqueue { resets := [(⟨5⟩, some (.own Key.light))], removals := [⟨9⟩] }, .process]

/-- One slot becomes five and then eight, with five ids given out. -/
theorem growth_law_growingRun :
    crampedConfig.initialCapacity ≠ 0 ∧
      Scene.create (.standard false) crampedConfig = .ok crampedSession.scene ∧
      (crampedSession.after growingRun).scene.next.toNat
        + crampedConfig.growthSlack.toNat < 2 ^ 64 ∧
      crampedSession.growths growingRun = 2 ∧
      (crampedSession.after growingRun).scene.capacity = 8 ∧
      8 ≤ max crampedConfig.initialCapacity.toNat
        ((crampedSession.after growingRun).scene.allocatedCount + 1
          + crampedConfig.growthSlack.toNat) ∧
      crampedConfig.initialCapacity.toNat + (2 - 1) * (crampedConfig.growthSlack.toNat + 1)
        ≤ (crampedSession.after growingRun).scene.allocatedCount ∧
      (crampedSession.after (growingRun.take 3)).scene.capacity ≤ 8 ∧
      (crampedSession.after growingRun).scene.Fits ∧
      Roomy crampedConfig.growthSlack (crampedSession.after growingRun) := by
  have hconfig : crampedConfig.initialCapacity ≠ 0 := by decide
  have hword : (crampedSession.after growingRun).scene.next.toNat
      + crampedConfig.growthSlack.toNat < 2 ^ 64 := by decide +kernel
  have hgrowths : crampedSession.growths growingRun = 2 := by decide +kernel
  have hcap : (crampedSession.after growingRun).scene.capacity = 8 := by decide +kernel
  have hfits : (crampedSession.after growingRun).scene.Fits := by decide +kernel
  have hrun : ∀ front back, growingRun = front ++ back → _ :=
    ((storage_growth_law (.standard false) crampedConfig hconfig).2 _ create_crampedConfig
      PayloadKeys.initial growingRun hword).1
  rcases ((storage_growth_law (.standard false) crampedConfig hconfig).2 _ create_crampedConfig
    PayloadKeys.initial growingRun hword).2 with ⟨hroomy, hbounded, hpaid⟩
  have hpaid' := hpaid (show 1 ≤ crampedSession.growths growingRun by rw [hgrowths]; decide)
  have hearlier := hrun (growingRun.take 3) (growingRun.drop 3)
    (List.take_append_drop 3 growingRun).symm
  change crampedConfig.initialCapacity.toNat + (crampedSession.growths growingRun - 1) * _ ≤ _
    at hpaid'
  change (crampedSession.after growingRun).scene.capacity ≤ _ at hbounded
  change _ ≤ (crampedSession.after growingRun).scene.capacity at hearlier
  rw [hgrowths] at hpaid'
  rw [hcap] at hbounded hearlier
  exact ⟨hconfig, create_crampedConfig, hword, hgrowths, hcap, hbounded, hpaid', hearlier, hfits,
    hroomy⟩

/-- The sum is a word, but there cannot be so many slots, and the id that was given
    out has none after the phase. -/
theorem unhoused_vastSession :
    Scene.create (.standard false) vastConfig = .ok (Scene.build (.standard false) vastConfig) ∧
      (vastSession []).scene.next.toNat + vastConfig.growthSlack.toNat < 2 ^ 64 ∧
      ¬ ((vastSession []).step .process).session.scene.allocatedCount + 1
        ≤ ((vastSession []).step .process).session.scene.capacity :=
  ⟨Scene.create_build _ vastConfig (by decide) (by decide), by decide +kernel⟩

end Session

end SceneIndex
