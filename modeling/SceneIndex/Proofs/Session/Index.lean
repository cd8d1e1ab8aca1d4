import SceneIndex.Proofs.Session.Basic

/-!
# The index agrees with a scan

What can be read from the buckets of a scene in use, for every configuration
and every run.

The program never scans. It files an id when an item becomes live, moves it
when the key changes, takes it out when the item is cleared or removed, and
fills a bucket that is added late. `index_agrees_with_scan` says that none of
this can be told from scanning all slots at the time of the question: whatever
was done before, and wherever an apply phase was stopped by a bad id, a bucket
lists in ascending order the numbers of the live slots whose key its filter
accepts, and there is a bucket for each filter that was asked for and for no
other.

The key is the one in the slot. That a payload may report another key since
is part of the statement: the run may change the keys of payloads anywhere,
and the answer does not depend on them.

## Main definitions

* `Wanted`: A bucket for the filter was asked for.

## Theorems

* `mem_filters_build`: The buckets of a new scene.
* `mem_filters_step`, `mem_filters_after`: The buckets of a scene in use.
* `answer_allocateBucket`: What adding a bucket answers.
* `members_of_mem_filters`: What a bucket lists.
* `index_agrees_with_scan`: All of it, for every run.
-/

namespace SceneIndex

namespace Session

/-- A bucket for the filter was asked for: it is one of the two that every
    scene has, the configuration lists it, or it was added during the run. -/
def Wanted (config : Config) (ops : List Op) (f : Filter) : Prop :=
  f = Filter.opaqueShape ∨ f = Filter.transparentShape ∨ f ∈ config.extraBuckets ∨
    Op.allocateBucket f ∈ ops

instance (config : Config) (ops : List Op) (f : Filter) : Decidable (Wanted config ops f) :=
  inferInstanceAs (Decidable (f = Filter.opaqueShape ∨ f = Filter.transparentShape ∨
    f ∈ config.extraBuckets ∨ Op.allocateBucket f ∈ ops))

theorem mem_filters_build (machine : Machine) (config : Config) (f : Filter) :
    f ∈ (Scene.build machine config).storage.buckets.filters ↔
      f = Filter.opaqueShape ∨ f = Filter.transparentShape ∨ f ∈ config.extraBuckets := by
  change f ∈ (Buckets.standard.allocateAll config.extraBuckets).filters ↔ _
  have hempty : f ∉ Buckets.empty.filters := List.not_mem_nil
  rw [Buckets.mem_filters_allocateAll, Buckets.standard, Buckets.mem_filters_allocateAll,
    Buckets.standardFilters]
  simp only [hempty, false_or, List.mem_cons, List.not_mem_nil, or_false, or_assoc]

theorem mem_filters_allocateBucket (s : Scene) (f g : Filter) :
    g ∈ (s.allocateBucket f).2.2.storage.buckets.filters ↔
      g ∈ s.storage.buckets.filters ∨ g = f := by
  rcases s.allocateBucket_cases f with ⟨hf, heq⟩ | ⟨_, heq⟩
  · -- There is one already, and nothing happens.
    rw [heq]
    exact ⟨Or.inl, fun h => h.elim id fun e => e ▸ hf⟩
  · rw [heq]
    exact Storage.mem_filters_fillBucket s.storage f g

-- Only adding a bucket changes for which filters there is one.
theorem mem_filters_step (s : Session) (op : Op) (f : Filter) :
    f ∈ (s.step op).session.scene.storage.buckets.filters ↔
      f ∈ s.scene.storage.buckets.filters ∨ op = Op.allocateBucket f := by
  cases op with
  | allocate =>
      rcases s.step_allocate with ⟨_, _, heq, _⟩
      simp only [heq, reduceCtorEq, or_false]
  | process =>
      rw [scene_process, Scene.filters_application]
      simp only [reduceCtorEq, or_false]
  | allocateBucket g =>
      refine (mem_filters_allocateBucket s.scene g f).trans ?_
      rw [Op.allocateBucket.injEq, eq_comm]
  | enqueue batch => simp only [step, Scene.enqueue, reduceCtorEq, or_false]
  | definePayload name key => simp only [step, reduceCtorEq, or_false]
  | observe observers => simp only [step, reduceCtorEq, or_false]

theorem mem_filters_after (s : Session) (ops : List Op) (f : Filter) :
    f ∈ (s.after ops).scene.storage.buckets.filters ↔
      f ∈ s.scene.storage.buckets.filters ∨ Op.allocateBucket f ∈ ops := by
  induction ops generalizing s with
  | nil => simp only [after, List.foldl_nil, List.not_mem_nil, or_false]
  | cons op rest ih =>
      rw [after_cons, ih, mem_filters_step, List.mem_cons, or_assoc, eq_comm]

-- Adding a bucket answers whether the filter had none.
theorem answer_allocateBucket (s : Session) (f : Filter) :
    ∃ fresh, (s.step (.allocateBucket f)).answer = .added fresh ∧
      (fresh = true ↔ f ∉ s.scene.storage.buckets.filters) := by
  refine ⟨(s.scene.allocateBucket f).1, rfl, ?_⟩
  rcases s.scene.allocateBucket_cases f with ⟨hf, heq⟩ | ⟨hf, heq⟩
  · rw [heq]
    exact ⟨fun h => absurd h Bool.false_ne_true, fun h => absurd hf h⟩
  · rw [heq]
    exact ⟨fun _ => hf, fun _ => rfl⟩

/-- What a bucket of a sound scene lists: the numbers of the live slots whose
    key the filter accepts. -/
theorem members_of_mem_filters {s : Session} (h : s.Sound) (f : Filter)
    (hf : f ∈ s.scene.storage.buckets.filters) :
    ∃ ids, s.scene.members f = some ids ∧
      ids.toList.Pairwise (fun a b => a.index < b.index) ∧
      ∀ n, (∃ id ∈ ids.toList, id.index = n) ↔
        1 ≤ n ∧ ∃ item, s.scene.storage.slots[n]? = some item ∧ item.payload.isSome = true ∧
          f.accepts item.key = true := by
  rcases Buckets.exists_get?_of_mem_filters _ f hf with ⟨ids, hids⟩
  have hfiled := h.storage.filed f ids hids
  refine ⟨ids, hids, ids.ascending, fun n => ⟨?_, ?_⟩⟩
  · -- An id in the bucket fits, so its slot is neither the reserved one nor missing.
    rintro ⟨id, hid, rfl⟩
    have hfit := (hfiled id).mp hid
    rcases h.storage.index_of_fits f id.index hfit with ⟨hpos, hlt, _⟩
    rw [Item.fits, Bool.and_eq_true] at hfit
    exact ⟨hpos, _, Storage.getElem?_slots _ _ hlt, hfit.1, hfit.2⟩
  · -- A live slot was given out, so its number is that of an id.
    rintro ⟨_, item, hslot, hlive, hacc⟩
    have hitem := Storage.slot_of_getElem?_slots _ n item hslot
    have hfit : (s.scene.storage.slot n).fits f = true := by
      rw [hitem, Item.fits, Bool.and_eq_true]
      exact ⟨hlive, hacc⟩
    have hissued := (h.storage.index_of_fits f n hfit).2.2
    rcases ItemId.exists_index (Nat.lt_trans hissued s.scene.next.toNat_lt_size) with ⟨id, rfl⟩
    exact ⟨id, (hfiled id).mpr hfit, rfl⟩

/-- The index agrees with a scan of the slots, for every configuration that is
    valid and whatever is done to the scene and the payloads, unless the sum that
    growth takes wraps around. There is a scene for the configuration if the
    machine has the slots. There is a bucket for the filters that were asked for
    and for no other, adding one says whether it is new, and each lists, in
    ascending order, the numbers of the live slots whose cached key its filter
    accepts. -/
theorem index_agrees_with_scan (machine : Machine) (config : Config)
    (hconfig : config.initialCapacity ≠ 0) :
    ((∃ scene, Scene.create machine config = .ok scene) ↔
      config.initialCapacity.toNat ≤ machine.maxSlots) ∧
    ∀ scene, Scene.create machine config = .ok scene →
      ∀ (keys : PayloadKeys) (ops : List Op), Steady ⟨scene, keys⟩ ops →
        (∀ f, f ∈ (after ⟨scene, keys⟩ ops).scene.storage.buckets.filters ↔
          Wanted config ops f) ∧
        (∀ f, ∃ fresh,
          ((after ⟨scene, keys⟩ ops).step (.allocateBucket f)).answer = .added fresh ∧
            (fresh = true ↔ ¬ Wanted config ops f)) ∧
        (∀ f, ¬ Wanted config ops f → (after ⟨scene, keys⟩ ops).scene.members f = none) ∧
        (∀ f, Wanted config ops f → ∃ ids,
          (after ⟨scene, keys⟩ ops).scene.members f = some ids ∧
            ids.toList.Pairwise (fun a b => a.index < b.index) ∧
            ∀ n, (∃ id ∈ ids.toList, id.index = n) ↔
              1 ≤ n ∧ ∃ item, (after ⟨scene, keys⟩ ops).scene.storage.slots[n]? = some item ∧
                item.payload.isSome = true ∧ f.accepts item.key = true) := by
  refine ⟨Scene.exists_create_iff machine config hconfig,
    fun scene hcreate keys ops hsteady => ?_⟩
  have hsound := ((Reachable.start keys hcreate).after ops hsteady).sound
  rcases (Scene.create_eq_ok_iff _ _ _).mp hcreate with ⟨_, _, rfl⟩
  have hfilters : ∀ f,
      f ∈ (after ⟨Scene.build machine config, keys⟩ ops).scene.storage.buckets.filters
        ↔ Wanted config ops f := by
    intro f
    rw [mem_filters_after, mem_filters_build, Wanted, or_assoc, or_assoc]
  refine ⟨hfilters, fun f => ?_, fun f hf => ?_, fun f hf => ?_⟩
  · -- Adding a bucket once more, at the end of the run.
    rw [← hfilters f]
    exact answer_allocateBucket _ f
  · rw [← hfilters f] at hf
    exact (Buckets.get?_eq_none_iff _ f).mpr hf
  · exact members_of_mem_filters hsound f ((hfilters f).mpr hf)

/-- One slot to begin with, and a bucket listed twice. -/
def crampedConfig : Config where
  initialCapacity := 1
  growthSlack := 2
  extraBuckets := [Filter.light, Filter.light]

/-- The scene of the cramped configuration, and no payload has a key yet. -/
def crampedSession : Session :=
  ⟨Scene.build (.standard false) crampedConfig, PayloadKeys.initial⟩

/-- A phase that stops at an id which was never given out, a payload that
    changes its key afterwards, and a late bucket. -/
def roughRun : List Op :=
  [.allocate, .allocate, .definePayload "lamp" Key.light,
    .enqueue
      { resets := [(⟨1⟩, some (.shared "lamp")), (⟨2⟩, some (.own Key.opaqueShape))] },
    .enqueue { removals := [⟨2⟩, ⟨9⟩, ⟨1⟩] },
    .process, .definePayload "lamp" Key.empty, .allocateBucket Filter.everything]

theorem create_crampedConfig :
    Scene.create (.standard false) crampedConfig = .ok crampedSession.scene :=
  Scene.create_build _ crampedConfig (by decide) (by decide)

theorem reachable_crampedSession : crampedSession.Reachable :=
  .start _ create_crampedConfig

/-- After the rough run the lamp, which is live still, is in the late bucket,
    and a scan would find it there and nothing else. -/
theorem index_agrees_after_roughRun :
    crampedConfig.initialCapacity ≠ 0 ∧
      Scene.create (.standard false) crampedConfig = .ok crampedSession.scene ∧
      crampedSession.Steady roughRun ∧
      ((crampedSession.after roughRun).scene.members Filter.everything).map IdSet.toList
        = some [⟨1⟩] ∧
      ∀ n, n = 1 ↔ 1 ≤ n ∧ ∃ item,
        (crampedSession.after roughRun).scene.storage.slots[n]? = some item ∧
          item.payload.isSome = true ∧ Filter.everything.accepts item.key = true := by
  have hconfig : crampedConfig.initialCapacity ≠ 0 := by decide
  have hsteady : crampedSession.Steady roughRun := by decide +kernel
  have hrun := (index_agrees_with_scan (.standard false) crampedConfig hconfig).2 _
    create_crampedConfig PayloadKeys.initial roughRun hsteady
  have hwanted : Wanted crampedConfig roughRun Filter.everything := by decide
  rcases hrun.2.2.2 Filter.everything hwanted with ⟨ids, hids, _, hscan⟩
  have hmembers : ((crampedSession.after roughRun).scene.members
      Filter.everything).map IdSet.toList = some [⟨1⟩] := by decide +kernel
  refine ⟨hconfig, create_crampedConfig, hsteady, hmembers, fun n => ?_⟩
  have hlist := hmembers
  rw [show (crampedSession.after roughRun).scene.members Filter.everything = some ids from hids,
    Option.map_some, Option.some.injEq] at hlist
  refine Iff.trans ?_ (hscan n)
  rw [hlist]
  simp only [List.mem_singleton, exists_eq_left]
  exact eq_comm

end Session

end SceneIndex
