import SceneIndex.Proofs.Scene.Process

/-!
# Sessions: a scene in use

All that may happen to one scene, as one step function.

A scene is used by producers, by a renderer, by those who add buckets and by
observers that come and go, and the payloads that it holds belong to others,
who may give them other keys at any time. A session is the scene together with
the keys that the shared payloads report. Every operation is one step. It
answers, tells the log, and leaves a session; an operation that fails does so
too, and the session it leaves stays in use.

Observers play no part in what a scene does with items, so an operation may
put any list in the place of the attached ones.

A fact about every state of a scene is proved in two parts. `Reachable` is
closed under steps, so it is enough that a new scene has the property and that
each operation keeps it. The invariant on which the other modules rest is
`Reachable.sound`.

There is one kind of step that keeps nothing. On a machine that does not check
its sums, a phase for which the next id and the spare slots come to more than a
word lets go of slots that are in use. A run without such a phase is steady, and
`Reachable` takes no such step. Every run is steady on a machine that checks
(`steady_of_checked`), and so is every run in which the sum stays a word
(`steady_of_lt`).

Other modules need two scenes in which the sum is out of the ordinary. It wraps
around in `wrappingSession`, and in `vastSession` it is a word, but one that is
no number of slots.

## Main definitions

* `Session`: A scene and the keys of the shared payloads.
* `Session.Op`: Something done to a scene or to a payload.
* `Session.step`: Does an operation.
* `Session.after`: The session after operations in turn.
* `Session.answers`: What operations in turn answer.
* `Session.Phases`: Every phase among the operations starts from a scene of a kind.
* `Session.Steady`: No phase among them has a sum that wraps around.
* `Session.Fitting`: For every one of them the slots can be had.
* `Session.Reachable`: The sessions that a new scene may come to.

## Theorems

* `after_append`, `answers_append`: Operations in two parts.
* `Scene.sound_build`: A new scene is sound.
* `step_allocate`, `scene_process`, `scene_allocateBucket`: What giving out an
  id, applying the queue and adding a bucket do to a session.
* `scene_step`: What no operation changes, and which one takes slots away.
* `steady_of_checked`, `steady_of_lt`: Runs that are steady.
* `issued_after`: Ids that were given out stay so.
* `sound_step`, `sound_after`: Operations keep the scene sound.
* `Reachable.sound`: A scene in use is sound.
-/

namespace SceneIndex

/-- Something done to a scene or to a payload that it may hold. -/
inductive Session.Op where
  /-- Gives out an id. -/
  | allocate
  /-- Takes a batch into the queue. -/
  | enqueue (batch : Batch)
  /-- Applies all batches that wait. -/
  | process
  /-- Adds a bucket. -/
  | allocateBucket (filter : Filter)
  /-- Gives a shared payload another key. -/
  | definePayload (name : String) (key : Key)
  /-- Observers come and go. -/
  | observe (observers : List Nat)
  deriving DecidableEq

/-- What an operation answers. -/
inductive Session.Answer where
  | done
  | issued (result : Except Fault ItemId)
  | applied (result : Except Fault Applied)
  | added (fresh : Bool)

/-- A scene in use and the keys that the shared payloads report. -/
structure Session where
  scene : Scene
  keys : PayloadKeys

namespace Session

/-- The answer to an operation, the events for the log and the session
    afterwards. -/
structure Reply where
  answer : Answer
  events : List Event := []
  session : Session

/-- Does an operation. An id that cannot be given out leaves the scene as it
    is; an apply phase that fails leaves the scene it got to. -/
def step (s : Session) : Op → Reply
  | .allocate =>
    match s.scene.allocate with
    | .ok (id, scene) => { answer := .issued (.ok id), session := { s with scene := scene } }
    | .error fault => { answer := .issued (.error fault), session := s }
  | .enqueue batch => { answer := .done, session := { s with scene := s.scene.enqueue batch } }
  | .process =>
    let (scene, events, result) := s.scene.process s.keys
    { answer := .applied result, events := events, session := { s with scene := scene } }
  | .allocateBucket filter =>
    let (fresh, events, scene) := s.scene.allocateBucket filter
    { answer := .added fresh, events := events, session := { s with scene := scene } }
  | .definePayload name key =>
    { answer := .done, session := { s with keys := s.keys.define name key } }
  | .observe observers =>
    { answer := .done, session := { s with scene := { s.scene with observers := observers } } }

/-- The session after operations in turn. -/
def after (s : Session) (ops : List Op) : Session :=
  ops.foldl (fun s op => (s.step op).session) s

/-- What operations in turn answer. -/
def answers (s : Session) : List Op → List Answer
  | [] => []
  | op :: rest => (s.step op).answer :: answers (s.step op).session rest

theorem after_cons (s : Session) (op : Op) (rest : List Op) :
    s.after (op :: rest) = (s.step op).session.after rest := rfl

theorem after_append (s : Session) (xs ys : List Op) :
    s.after (xs ++ ys) = (s.after xs).after ys :=
  List.foldl_append

theorem answers_append (s : Session) (xs ys : List Op) :
    s.answers (xs ++ ys) = s.answers xs ++ (s.after xs).answers ys := by
  induction xs generalizing s with
  | nil => rfl
  | cons op rest ih => exact congrArg ((s.step op).answer :: ·) (ih (s.step op).session)

/-- Every phase among the operations starts from a scene of the kind. -/
def Phases (s : Session) (kind : Scene → Prop) : List Op → Prop
  | [] => True
  | op :: rest => (op = .process → kind s.scene) ∧ (s.step op).session.Phases kind rest

instance decidablePhases (kind : Scene → Prop) [DecidablePred kind] :
    (s : Session) → (ops : List Op) → Decidable (s.Phases kind ops)
  | _, [] => inferInstanceAs (Decidable True)
  | s, op :: rest =>
    have := decidablePhases kind (s.step op).session rest
    inferInstanceAs (Decidable ((op = .process → kind s.scene) ∧
      (s.step op).session.Phases kind rest))

/-- No phase among the operations has a sum that wraps around. -/
def Steady (s : Session) (ops : List Op) : Prop := s.Phases Scene.Exact ops

instance (s : Session) (ops : List Op) : Decidable (s.Steady ops) :=
  inferInstanceAs (Decidable (s.Phases Scene.Exact ops))

/-- For every phase among the operations the slots can be had. -/
def Fitting (s : Session) (ops : List Op) : Prop := s.Phases Scene.Fits ops

instance (s : Session) (ops : List Op) : Decidable (s.Fitting ops) :=
  inferInstanceAs (Decidable (s.Phases Scene.Fits ops))

section Phases

variable {kind : Scene → Prop}

theorem phases_append (s : Session) (xs ys : List Op) :
    s.Phases kind (xs ++ ys) ↔ s.Phases kind xs ∧ (s.after xs).Phases kind ys := by
  induction xs generalizing s with
  | nil => exact ⟨fun h => ⟨trivial, h⟩, fun h => h.2⟩
  | cons op rest ih =>
      rw [List.cons_append, Phases, Phases, ih, after_cons, and_assoc]

theorem phases_of_not_mem (s : Session) (ops : List Op) (h : Op.process ∉ ops) :
    s.Phases kind ops := by
  induction ops generalizing s with
  | nil => trivial
  | cons op rest ih =>
      refine ⟨fun hop => absurd ?_ h, ih _ fun hmem => h (List.mem_cons_of_mem _ hmem)⟩
      rw [hop]
      exact List.mem_cons_self

theorem Fitting.steady {s : Session} {ops : List Op} (h : s.Fitting ops) : s.Steady ops := by
  induction ops generalizing s with
  | nil => trivial
  | cons op rest ih => exact ⟨fun hop => (h.1 hop).exact, ih h.2⟩

end Phases

/-- The sessions that a new scene may come to by operations of which none takes
    a sum that wraps around. -/
inductive Reachable : Session → Prop
  | start {machine : Machine} {config : Config} {scene : Scene} (keys : PayloadKeys)
      (h : Scene.create machine config = .ok scene) : Reachable ⟨scene, keys⟩
  | step {s : Session} (h : Reachable s) (op : Op) (hexact : op = .process → s.scene.Exact) :
      Reachable (s.step op).session

theorem Reachable.after {s : Session} (h : s.Reachable) (ops : List Op) (hsteady : s.Steady ops) :
    (s.after ops).Reachable := by
  induction ops generalizing s with
  | nil => exact h
  | cons op rest ih => exact ih (h.step op hsteady.1) hsteady.2

end Session

namespace Scene

-- A scene is created if and only if there is room for the reserved slot and the
-- machine has the slots.
theorem create_eq_ok_iff (machine : Machine) (config : Config) (s : Scene) :
    create machine config = .ok s ↔
      config.initialCapacity ≠ 0 ∧ config.initialCapacity.toNat ≤ machine.maxSlots ∧
        s = build machine config := by
  unfold create Config.validate
  by_cases h : config.initialCapacity = 0
  · rw [if_pos h]
    exact ⟨fun e => by simp only [reduceCtorEq] at e, fun e => absurd h e.1⟩
  · rw [if_neg h]
    by_cases hroom : machine.maxSlots < config.initialCapacity.toNat
    · simp only [if_pos hroom, reduceCtorEq, false_iff]
      exact fun e => absurd hroom (Nat.not_lt_of_le e.2.1)
    · simp only [if_neg hroom, Except.ok.injEq, ne_eq, h, not_false_eq_true, true_and,
        Nat.le_of_not_lt hroom]
      exact eq_comm

theorem create_build (machine : Machine) (config : Config) (h : config.initialCapacity ≠ 0)
    (hroom : config.initialCapacity.toNat ≤ machine.maxSlots) :
    create machine config = .ok (build machine config) :=
  (create_eq_ok_iff machine config _).mpr ⟨h, hroom, rfl⟩

theorem exists_create_iff (machine : Machine) (config : Config) (h : config.initialCapacity ≠ 0) :
    (∃ s, create machine config = .ok s) ↔ config.initialCapacity.toNat ≤ machine.maxSlots := by
  simp only [create_eq_ok_iff, ne_eq, h, not_false_eq_true, true_and, exists_and_left, exists_eq,
    and_true]

theorem slot_build (machine : Machine) (config : Config) (n : Nat) :
    (build machine config).storage.slot n = Item.pristine := by
  simp only [build, Storage.slot, Array.getD_eq_getD_getElem?, Array.getElem?_replicate]
  split <;> rfl

theorem next_build (machine : Machine) (config : Config) :
    (build machine config).next.toNat = 1 := rfl

-- All buckets of a new scene are empty, and all its slots are pristine.
theorem sound_build (machine : Machine) (config : Config) :
    (build machine config).storage.Sound (build machine config).next := by
  refine ⟨fun f ids hf id => ?_, fun n _ => slot_build machine config n⟩
  -- Standard buckets first, then the listed ones: all new, so all empty.
  have hnone : ∀ g ids, Buckets.empty.get? g = some ids → ids = IdSet.empty :=
    fun g ids hg => by simp only [Buckets.get?, Buckets.empty, List.find?_nil, Option.map_none,
      reduceCtorEq] at hg
  have hempty : ids = IdSet.empty :=
    Buckets.get?_allocateAll_empty Buckets.standard config.extraBuckets
      (Buckets.get?_allocateAll_empty Buckets.empty Buckets.standardFilters hnone) f ids hf
  rw [hempty, Storage.item_eq_slot, slot_build]
  exact ⟨fun h => absurd h List.not_mem_nil, fun h => absurd h (Storage.not_fits_pristine f)⟩

-- The number of the next id after one was given out, unless there is none left.
theorem allocate_cases (s : Scene) :
    (s.next = 0xffffffff ∧ s.allocate = .error (.exhausted s.next)) ∨
      (s.next.toNat + 1 < UInt32.size ∧ (s.next + 1).toNat = s.next.toNat + 1 ∧
        s.allocate = .ok (⟨s.next⟩, { s with next := s.next + 1 })) := by
  unfold allocate
  by_cases h : s.next = 0xffffffff
  · exact Or.inl ⟨h, if_pos h⟩
  · -- Short of the last number the next one does not wrap around.
    have hlt := s.next.toNat_lt_size
    have hne : s.next.toNat ≠ 4294967295 := fun e => h (UInt32.toNat.inj e)
    have hsize : UInt32.size = 4294967296 := rfl
    have hsucc : (s.next + 1).toNat = s.next.toNat + 1 := by
      rw [UInt32.toNat_add, UInt32.toNat_one]
      omega
    exact Or.inr ⟨by omega, hsucc, if_neg h⟩

-- A bucket is added for a filter that has none, and filled.
theorem allocateBucket_cases (s : Scene) (f : Filter) :
    (f ∈ s.storage.buckets.filters ∧ s.allocateBucket f = (false, [], s)) ∨
      (f ∉ s.storage.buckets.filters ∧ s.allocateBucket f
        = (true, [.bucketAllocated f (s.storage.fillBucket f).2],
           { s with storage := (s.storage.fillBucket f).1 })) := by
  rw [Buckets.mem_filters_iff_has]
  unfold allocateBucket
  by_cases hf : s.storage.buckets.has f = true
  · exact Or.inl ⟨hf, if_pos hf⟩
  · exact Or.inr ⟨hf, if_neg hf⟩

-- Adding a bucket changes the buckets and nothing else.
theorem exists_buckets_allocateBucket (s : Scene) (f : Filter) :
    ∃ buckets, (s.allocateBucket f).2.2
      = { s with storage := { s.storage with buckets := buckets } } := by
  rcases s.allocateBucket_cases f with ⟨_, heq⟩ | ⟨_, heq⟩
  · exact ⟨s.storage.buckets, by rw [heq]⟩
  · exact ⟨(s.storage.fillBucket f).1.buckets, by rw [heq]; rfl⟩

theorem sound_allocateBucket (s : Scene) (f : Filter) (h : s.storage.Sound s.next) :
    (s.allocateBucket f).2.2.storage.Sound (s.allocateBucket f).2.2.next := by
  rcases s.allocateBucket_cases f with ⟨_, heq⟩ | ⟨hnew, heq⟩
  · rw [heq]
    exact h
  · rw [heq]
    exact Storage.sound_fillBucket s.storage s.next f h hnew

end Scene

namespace Session

/-- What every scene in use satisfies: an id was set aside, and the storage is
    sound for the ids given out. -/
structure Sound (s : Session) : Prop where
  next_pos : 1 ≤ s.scene.next.toNat
  storage : s.scene.storage.Sound s.scene.next

-- Giving out an id moves the next one on and does nothing else, whether there
-- was one to give out or not.
theorem step_allocate (s : Session) :
    ∃ result next, s.step .allocate
        = { answer := .issued result, session := { s with scene := { s.scene with next := next } } }
      ∧ s.scene.next.toNat ≤ next.toNat := by
  rcases s.scene.allocate_cases with ⟨_, heq⟩ | ⟨_, hsucc, heq⟩
  · exact ⟨.error (.exhausted s.scene.next), s.scene.next, by rw [step, heq], Nat.le_refl _⟩
  · exact ⟨.ok ⟨s.scene.next⟩, s.scene.next + 1, by rw [step, heq], by omega⟩

theorem scene_process (s : Session) :
    (s.step .process).session.scene
      = { s.scene with queue := [], storage := (s.scene.application s.keys).1 } :=
  Scene.process_scene s.keys s.scene

theorem scene_allocateBucket (s : Session) (f : Filter) :
    ∃ buckets, (s.step (.allocateBucket f)).session.scene
      = { s.scene with storage := { s.scene.storage with buckets := buckets } } :=
  s.scene.exists_buckets_allocateBucket f

-- No operation changes the machine or the configuration or takes an id back, and
-- none but a phase changes the number of slots.
theorem scene_step (s : Session) (op : Op) :
    (s.step op).session.scene.machine = s.scene.machine ∧
      (s.step op).session.scene.config = s.scene.config ∧
      s.scene.next.toNat ≤ (s.step op).session.scene.next.toNat ∧
      (op ≠ .process → (s.step op).session.scene.capacity = s.scene.capacity) := by
  cases op with
  | allocate =>
      rcases s.step_allocate with ⟨_, next, heq, hle⟩
      rw [heq]
      exact ⟨rfl, rfl, hle, fun _ => rfl⟩
  | process =>
      rw [scene_process]
      exact ⟨rfl, rfl, Nat.le_refl _, fun hne => absurd rfl hne⟩
  | allocateBucket f =>
      rcases s.scene_allocateBucket f with ⟨buckets, heq⟩
      rw [heq]
      exact ⟨rfl, rfl, Nat.le_refl _, fun _ => rfl⟩
  | enqueue batch => exact ⟨rfl, rfl, Nat.le_refl _, fun _ => rfl⟩
  | definePayload name key => exact ⟨rfl, rfl, Nat.le_refl _, fun _ => rfl⟩
  | observe observers => exact ⟨rfl, rfl, Nat.le_refl _, fun _ => rfl⟩

theorem next_le_after (s : Session) (ops : List Op) :
    s.scene.next.toNat ≤ (s.after ops).scene.next.toNat := by
  induction ops generalizing s with
  | nil => exact Nat.le_refl _
  | cons op rest ih => exact Nat.le_trans (s.scene_step op).2.2.1 (ih _)

-- A machine that checks its sums takes none that wraps around.
theorem steady_of_checked (s : Session) (ops : List Op)
    (h : s.scene.machine.checked = true) : s.Steady ops := by
  induction ops generalizing s with
  | nil => trivial
  | cons op rest ih =>
      refine ⟨fun _ => .inl h, ih _ ?_⟩
      rw [(s.scene_step op).1]
      exact h

/-- If the next id and the spare slots come to a word in the end, they did so
    all along. -/
theorem steady_of_lt (s : Session) (ops : List Op)
    (h : (s.after ops).scene.next.toNat + s.scene.config.growthSlack.toNat < UInt64.size) :
    s.Steady ops := by
  induction ops generalizing s with
  | nil => trivial
  | cons op rest ih =>
      have hnext := s.next_le_after (op :: rest)
      refine ⟨fun _ => .inr (.inr (by omega)), ih _ ?_⟩
      rw [(s.scene_step op).2.1]
      exact h

/-- Three slots to begin with, and so many spare ones that a machine which does
    not check its sums takes them and four more for one. -/
def wrappingConfig : Config where
  initialCapacity := 3
  growthSlack := 0xfffffffffffffffd

/-- The scene of that configuration on such a machine. -/
def wrappingSession : Session :=
  ⟨Scene.build (.standard false) wrappingConfig, PayloadKeys.initial⟩

/-- Two items are live, and a third id, for which there is no slot, was given
    out. -/
def wrappingRun : List Op :=
  [.allocate, .allocate,
    .enqueue { resets := [(⟨1⟩, some (.own Key.light)), (⟨2⟩, some (.own Key.light))] },
    .process, .allocate]

theorem reachable_wrappingRun : (wrappingSession.after wrappingRun).Reachable :=
  (Reachable.start _ (Scene.create_build _ wrappingConfig (by decide) (by decide))).after _
    (by decide +kernel)

/-- One slot to begin with, and more spare ones than there can be, though not
    more than a word holds. -/
def vastConfig : Config where
  initialCapacity := 1
  growthSlack := 0x8000000000000000

/-- The scene of that configuration, after an id was given out and the batches
    were taken in. -/
def vastSession (queue : List Batch) : Session :=
  after ⟨Scene.build (.standard false) vastConfig, PayloadKeys.initial⟩
    (.allocate :: queue.map Op.enqueue)

theorem reachable_vastSession (queue : List Batch) : (vastSession queue).Reachable := by
  refine (Reachable.start _ (Scene.create_build _ vastConfig (by decide) (by decide))).after _
    (phases_of_not_mem _ _ fun hmem => ?_)
  rcases List.mem_cons.mp hmem with hop | hop
  · simp only [reduceCtorEq] at hop
  · rcases List.mem_map.mp hop with ⟨_, _, heq⟩
    simp only [reduceCtorEq] at heq

theorem issued_step (s : Session) (op : Op) (id : ItemId) (h : s.scene.Issued id) :
    (s.step op).session.scene.Issued id := by
  cases op with
  | allocate =>
      rcases s.step_allocate with ⟨_, next, heq, hle⟩
      rw [heq]
      exact ⟨h.1, Nat.le_trans h.2 (Nat.sub_le_sub_right hle 1)⟩
  | process =>
      rw [scene_process]
      exact h
  | allocateBucket f =>
      rcases s.scene_allocateBucket f with ⟨buckets, heq⟩
      rw [heq]
      exact h
  | enqueue batch => exact h
  | definePayload name key => exact h
  | observe observers => exact h

-- Ids that were given out stay so, whatever is done.
theorem issued_after (s : Session) (ops : List Op) (id : ItemId) (h : s.scene.Issued id) :
    (s.after ops).scene.Issued id := by
  induction ops generalizing s with
  | nil => exact h
  | cons op rest ih => exact ih (s.step op).session (issued_step s op id h)

/-- An operation keeps the scene sound, whether it fails or not, unless it is a
    phase with a sum that wraps around. -/
theorem sound_step (s : Session) (op : Op) (hexact : op = .process → s.scene.Exact)
    (h : s.Sound) : (s.step op).session.Sound := by
  cases op with
  | allocate =>
      rcases s.step_allocate with ⟨_, next, heq, hle⟩
      rw [heq]
      exact ⟨Nat.le_trans h.next_pos hle, h.storage.mono hle⟩
  | enqueue batch => exact ⟨h.next_pos, h.storage⟩
  | process =>
      refine ⟨?_, ?_⟩
      · rw [scene_process]
        exact h.next_pos
      · rw [scene_process]
        exact Scene.sound_application s.keys s.scene (hexact rfl) h.storage
  | allocateBucket filter =>
      rcases s.scene_allocateBucket filter with ⟨buckets, heq⟩
      refine ⟨?_, Scene.sound_allocateBucket s.scene filter h.storage⟩
      rw [heq]
      exact h.next_pos
  | definePayload name key => exact ⟨h.next_pos, h.storage⟩
  | observe observers => exact ⟨h.next_pos, h.storage⟩

theorem sound_after (s : Session) (ops : List Op) (hsteady : s.Steady ops) (h : s.Sound) :
    (s.after ops).Sound := by
  induction ops generalizing s with
  | nil => exact h
  | cons op rest ih => exact ih (s.step op).session hsteady.2 (sound_step s op hsteady.1 h)

theorem Reachable.sound {s : Session} (h : s.Reachable) : s.Sound := by
  induction h with
  | start keys hcreate =>
      rcases (Scene.create_eq_ok_iff _ _ _).mp hcreate with ⟨_, _, rfl⟩
      exact ⟨Nat.le_of_eq (Scene.next_build _ _).symm, Scene.sound_build _ _⟩
  | step _ op hexact ih => exact sound_step _ op hexact ih

end Session

end SceneIndex
