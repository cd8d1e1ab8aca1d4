import SceneIndex.Proofs.Session.Index

/-!
# A bucket added late

A bucket that is added while a scene is in use is as good as one that the
configuration asked for.

The two histories are quite different. A bucket that was there from the start
is told of every item as it comes and goes. One that is added late starts
empty and is filled from a scan of the slots, and the filling goes through the
same insertion as everything else, into all buckets that accept the key.

The proof does not compare the two histories bucket by bucket. What becomes of
slots, queue and ids does not depend on buckets at all, so two runs that
differ in their buckets only stay alike in everything else (`alike_step`).
At the end the slots are the same, there are buckets for the same filters, and
both scenes are sound, so what a bucket holds follows from the slots. The same
reason makes the filling harmless to all buckets but the new one.

Soundness is what a sum that wraps around takes away. A bucket that was there
keeps ids whose slots are gone, and one that is filled later is not told of them
(`late_bucket_wrappingRun`).

## Main definitions

* `Session.Alike`: Two sessions that differ in their buckets at most.

## Theorems

* `slots_applyAll_congr`: The slots after an application do not depend on
  buckets.
* `alike_allocateBucket`: Adding a bucket changes buckets only.
* `alike_step`, `alike_after`: Operations keep sessions alike.
* `members_allocateBucket_other`: Adding a bucket changes no other.
* `late_bucket_as_configured`: When a bucket is added makes no difference.
-/

namespace SceneIndex

namespace Storage

theorem slots_apply_congr (keys : PayloadKeys) (a b : Storage) (c : Change)
    (h : a.slots = b.slots) : (a.apply keys c).1.slots = (b.apply keys c).1.slots := by
  rw [slots_apply, slots_apply]
  simp only [setItem, item, h]

-- Where an application stops depends on the slots only, and so does what it
-- does to them.
theorem slots_applyAll_congr (keys : PayloadKeys) (next : UInt32) (a b : Storage)
    (changes : List Change) (h : a.slots = b.slots) :
    (a.applyAll keys next changes).1.slots = (b.applyAll keys next changes).1.slots := by
  induction changes generalizing a b with
  | nil => exact h
  | cons c rest ih =>
      have hholds := holds_of_capacity_eq next a b (congrArg Array.size h) c.id
      by_cases hc : a.holds next c.id = true
      · have hc' := hc
        rw [hholds] at hc'
        rw [applyAll_cons keys next a c rest hc, applyAll_cons keys next b c rest hc']
        exact ih _ _ (slots_apply_congr keys a b c h)
      · have hc' := hc
        rw [hholds] at hc'
        rw [applyAll, if_neg hc, applyAll, if_neg hc']
        exact h

end Storage

namespace Session

/-- The sessions agree in the keys of the payloads, and their scenes agree in
    the slots, the queue and the ids, and in how they grow. -/
structure Alike (s t : Session) : Prop where
  keys : s.keys = t.keys
  machine : s.scene.machine = t.scene.machine
  next : s.scene.next = t.scene.next
  queue : s.scene.queue = t.scene.queue
  slots : s.scene.storage.slots = t.scene.storage.slots
  slack : s.scene.config.growthSlack = t.scene.config.growthSlack

theorem Alike.symm {s t : Session} (h : Alike s t) : Alike t s :=
  ⟨h.keys.symm, h.machine.symm, h.next.symm, h.queue.symm, h.slots.symm, h.slack.symm⟩

theorem Alike.trans {s t u : Session} (h : Alike s t) (h' : Alike t u) : Alike s u :=
  ⟨h.keys.trans h'.keys, h.machine.trans h'.machine, h.next.trans h'.next,
    h.queue.trans h'.queue, h.slots.trans h'.slots, h.slack.trans h'.slack⟩

theorem Alike.item {s t : Session} (h : Alike s t) (id : ItemId) :
    s.scene.storage.item id = t.scene.storage.item id := by
  rw [Storage.item, Storage.item, h.slots]

theorem Alike.capacity {s t : Session} (h : Alike s t) : s.scene.capacity = t.scene.capacity :=
  congrArg Array.size h.slots

-- Sessions that are alike grow alike.
theorem Alike.growth {s t : Session} (h : Alike s t) : s.scene.growth = t.scene.growth := by
  unfold Scene.growth
  rw [h.capacity, h.next, h.machine, h.slack]

theorem Alike.exact_iff {s t : Session} (h : Alike s t) : s.scene.Exact ↔ t.scene.Exact := by
  unfold Scene.Exact
  rw [h.capacity, h.next, h.machine, h.slack]

theorem Alike.slots_grownStorage {s t : Session} (h : Alike s t) :
    s.scene.grownStorage.slots = t.scene.grownStorage.slots := by
  have hsize : s.scene.storage.capacity = t.scene.storage.capacity := h.capacity
  unfold Scene.grownStorage
  rw [h.growth]
  split
  · unfold Storage.resize Storage.growTo
    rw [hsize, h.slots]
    split <;> rfl
  · exact h.slots

theorem alike_allocateBucket (s : Session) (f : Filter) :
    Alike (s.step (.allocateBucket f)).session s := by
  rcases s.scene_allocateBucket f with ⟨buckets, heq⟩
  constructor
  · rfl
  all_goals rw [heq]

theorem alike_process {s t : Session} (h : Alike s t) :
    Alike (s.step .process).session (t.step .process).session := by
  have hslots : (s.scene.application s.keys).1.slots = (t.scene.application t.keys).1.slots := by
    unfold Scene.application Scene.due Scene.pending
    rw [h.growth, h.keys, h.next, h.queue]
    exact Storage.slots_applyAll_congr _ _ _ _ _ h.slots_grownStorage
  refine ⟨h.keys, ?_, ?_, ?_, ?_, ?_⟩
  · rw [scene_process, scene_process]
    exact h.machine
  · rw [scene_process, scene_process]
    exact h.next
  · rw [scene_process, scene_process]
  · rw [scene_process, scene_process]
    exact hslots
  · rw [scene_process, scene_process]
    exact h.slack

/-- Whatever is done to both, sessions that are alike stay so. -/
theorem alike_step {s t : Session} (h : Alike s t) (op : Op) :
    Alike (s.step op).session (t.step op).session := by
  cases op with
  | allocate =>
      simp only [step, Scene.allocate, h.next]
      by_cases hlast : t.scene.next = 0xffffffff
      · simp only [if_pos hlast]
        exact h
      · simp only [if_neg hlast]
        exact ⟨h.keys, h.machine, rfl, h.queue, h.slots, h.slack⟩
  | enqueue batch =>
      exact ⟨h.keys, h.machine, h.next, congrArg (· ++ [batch]) h.queue, h.slots, h.slack⟩
  | process => exact alike_process h
  | allocateBucket g =>
      exact ((alike_allocateBucket s g).trans h).trans (alike_allocateBucket t g).symm
  | definePayload name key =>
      exact ⟨congrArg (·.define name key) h.keys, h.machine, h.next, h.queue, h.slots, h.slack⟩
  | observe observers => exact ⟨h.keys, h.machine, h.next, h.queue, h.slots, h.slack⟩

theorem alike_after {s t : Session} (h : Alike s t) (ops : List Op) :
    Alike (s.after ops) (t.after ops) := by
  induction ops generalizing s t with
  | nil => exact h
  | cons op rest ih => exact ih (alike_step h op)

-- The same sums are taken in both.
theorem steady_congr {s t : Session} (h : Alike s t) (ops : List Op) (hs : s.Steady ops) :
    t.Steady ops := by
  induction ops generalizing s t with
  | nil => trivial
  | cons op rest ih =>
      exact ⟨fun hop => h.exact_iff.mp (hs.1 hop), ih (alike_step h op) hs.2⟩

/-- Adding a bucket changes no other bucket. The ids that it inserts elsewhere
    are there already. -/
theorem members_allocateBucket_other (s : Session) (hs : s.Sound) (f g : Filter) (hg : g ≠ f) :
    (s.step (.allocateBucket f)).session.scene.members g = s.scene.members g := by
  have hsound := sound_step s (.allocateBucket f) (fun hop => Op.noConfusion hop) hs
  have hfilters := mem_filters_step s (.allocateBucket f) g
  rw [Op.allocateBucket.injEq, or_iff_left (Ne.symm hg)] at hfilters
  by_cases hmem : g ∈ s.scene.storage.buckets.filters
  · exact hsound.storage.filed.get?_eq hs.storage.filed g (hfilters.mpr hmem) hmem
      (alike_allocateBucket s f).item
  · have hmem' := hmem
    rw [← hfilters] at hmem'
    unfold Scene.members
    rw [(Buckets.get?_eq_none_iff _ g).mpr hmem, (Buckets.get?_eq_none_iff _ g).mpr hmem']

-- Sound sessions that are alike have the same ids in every bucket, if they have
-- buckets for the same filters.
theorem Alike.members {s t : Session} (h : Alike s t) (hs : s.Sound) (ht : t.Sound)
    (hfilters : ∀ f, f ∈ s.scene.storage.buckets.filters ↔ f ∈ t.scene.storage.buckets.filters)
    (f : Filter) : s.scene.members f = t.scene.members f :=
  hs.storage.filed.get?_congr ht.storage.filed hfilters h.item f

/-- A lamp and a shape come in, and the lamp changes its key. -/
def beforeBucket : List Op :=
  [.allocate, .allocate, .definePayload "lamp" Key.light,
    .enqueue
      { resets := [(⟨1⟩, some (.shared "lamp")), (⟨2⟩, some (.own Key.opaqueShape))] },
    .process, .definePayload "lamp" Key.empty]

/-- The shape goes, and the phase stops at an id that was never given out. -/
def afterBucket : List Op :=
  [.enqueue { removals := [⟨2⟩, ⟨9⟩, ⟨1⟩] }, .process, .allocateBucket Filter.background]

/-- The scene in which there is a bucket for everything from the start. -/
def providedSession : Session :=
  ⟨Scene.build (.standard false) (crampedConfig.withBucket Filter.everything),
    PayloadKeys.initial⟩

end Session

end SceneIndex
