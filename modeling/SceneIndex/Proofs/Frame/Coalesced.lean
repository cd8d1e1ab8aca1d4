import SceneIndex.Proofs.Frame.Turns
import SceneIndex.Proofs.Scene.Lifecycle

/-!
# Two frames and one

When two frames come to the same as one.

A frame takes some batches in and applies them. Two frames may be drawn
together by taking in the batches of both before anything is applied. Since
the resets of a phase come before its removals, this puts the resets of the
second frame in front of the removals of the first, and the question is when
that shows.

It shows for an item that the first frame removes and the second puts on show
again. In two frames the item is live in the end; in one frame the removal has
the last word. Nothing else shows. A removal in the second frame ends both
runs in the same way, a clear leaves nothing where the removal left nothing,
and an item that the first frame does not remove ends with its last reset
entry wherever the frames are cut. `frames_coalesce_iff` puts this as an
equivalence, so the condition cannot be made weaker.

The size of the storage never shows. It grows at the beginning of the first
phase, by the ids given out so far, and the second phase finds it large enough.
If the first phase cannot have the slots, no phase can, and everything stays as
it was in both runs.

## Main definitions

* `Session.frame`: Batches come in, and then all are applied.
* `Session.ShownAgain`: An item that goes in the first frame and comes back in
  the second.

## Theorems

* `scene_frame`: The scene after a frame.
* `item_frame`: What a frame comes to for one item.
* `capacity_frame`, `next_le_capacity_frame`: The size of the storage after a
  frame.
* `scene_frame_of_not_fits`: A frame for which the slots cannot be had.
* `item_frames`, `item_joinedFrame`: Two frames, and one made of both.
* `item_of_shownAgain`, `lifecycle_of_shownAgain`: Where the two differ.
* `item_frames_congr`, `frames_congr`: Where they agree.
* `frames_complete`: All phases go through.
* `frames_coalesce_iff`: When they come to the same.
-/

namespace SceneIndex

namespace Session

/-- The operations of a frame: batches come in, and then all that wait are
    applied. -/
def frame (batches : List Batch) : List Op := batches.map Op.enqueue ++ [.process]

/-- Some batch of the first frame removes the item, no batch of the second
    does, and the last reset entry for it in the second has a payload. -/
def ShownAgain (first second : List Batch) (id : ItemId) : Prop :=
  (∃ b ∈ first, id ∈ b.removals) ∧ (∀ b ∈ second, id ∉ b.removals) ∧
    ∃ payload, (Batch.join second).lastReset? id = some (some payload)

theorem shownAgain_iff (first second : List Batch) (id : ItemId) :
    ShownAgain first second id ↔
      Batch.ShowsAgain (Batch.join first) (Batch.join second) id := by
  unfold ShownAgain Batch.ShowsAgain
  rw [Batch.mem_removals_join, Batch.mem_removals_join]
  simp only [not_exists, not_and]

theorem after_enqueues (s : Session) (batches : List Batch) :
    s.after (batches.map Op.enqueue)
      = { s with scene := { s.scene with queue := s.scene.queue ++ batches } } := by
  induction batches generalizing s with
  | nil =>
      simp only [List.map_nil, List.append_nil]
      rfl
  | cons b rest ih =>
      rw [List.map_cons, after_cons, ih]
      simp only [step, Scene.enqueue, List.append_assoc, List.singleton_append]

section Frame

variable (s : Session) (batches : List Batch) (hqueue : s.scene.queue = [])

include hqueue

-- A frame is a phase on the batches that it takes in.
theorem after_frame :
    s.after (frame batches)
      = (({ s with scene := { s.scene with queue := batches } } : Session).step
          .process).session := by
  rw [frame, after_append, after_enqueues, hqueue, List.nil_append]
  rfl

theorem scene_frame :
    (s.after (frame batches)).scene
      = { s.scene with
          queue := []
          storage := (({ s.scene with queue := batches } : Scene).application s.keys).1 } := by
  rw [after_frame s batches hqueue, scene_process]

theorem keys_frame : (s.after (frame batches)).keys = s.keys := by
  rw [after_frame s batches hqueue]
  rfl

/-- After a frame of known ids an item is what the batches come to for it. -/
theorem item_frame (hs : s.Sound) (hfits : s.scene.Fits) (hknown : s.scene.Knows batches)
    (id : ItemId) :
    (s.after (frame batches)).scene.storage.item id
      = (Batch.join batches).outcome s.keys id (s.scene.storage.item id) := by
  have hpending : ∀ c ∈ ({ s.scene with queue := batches } : Scene).pending.changes,
      s.scene.Issued c.id := by
    intro c hc
    rcases (Batch.mem_changes_join batches c).mp hc with ⟨b, hb, hcb⟩
    exact hknown b hb c hcb
  have hitem := Scene.item_application s.keys { s.scene with queue := batches } hs.next_pos
    hfits hpending id
  rw [Item.through_changes] at hitem
  rw [scene_frame s batches hqueue]
  exact hitem

theorem capacity_frame (hfits : s.scene.Fits) :
    (s.after (frame batches)).scene.capacity = s.scene.growth?.getD s.scene.capacity := by
  rw [scene_frame s batches hqueue]
  exact (Scene.capacity_application s.keys { s.scene with queue := batches }).trans
    (Scene.capacity_grownStorage { s.scene with queue := batches } hfits)

-- A frame leaves no need to grow, since no id was given out meanwhile.
theorem next_le_capacity_frame (hfits : s.scene.Fits) :
    (s.after (frame batches)).scene.next.toNat ≤ (s.after (frame batches)).scene.capacity := by
  have hcap := Scene.capacity_application s.keys { s.scene with queue := batches }
  have hnext := Scene.next_le_capacity_grownStorage { s.scene with queue := batches } hfits
  rw [← hcap] at hnext
  rw [scene_frame s batches hqueue]
  exact hnext

/-- A frame for which the slots cannot be had leaves the scene as it was. -/
theorem scene_frame_of_not_fits (hexact : s.scene.Exact) (hfits : ¬ s.scene.Fits) :
    (s.after (frame batches)).scene = s.scene := by
  have hphase := Scene.process_of_not_fits s.keys { s.scene with queue := batches } hexact hfits
  rw [after_frame s batches hqueue]
  change (({ s.scene with queue := batches } : Scene).process s.keys).1 = s.scene
  rw [hphase, ← hqueue]

end Frame

-- No batch adds a bucket.
theorem filters_frame (s : Session) (batches : List Batch) (f : Filter) :
    f ∈ (s.after (frame batches)).scene.storage.buckets.filters ↔
      f ∈ s.scene.storage.buckets.filters := by
  rw [mem_filters_after]
  refine ⟨fun h => h.resolve_right fun hop => ?_, Or.inl⟩
  rcases List.mem_append.mp hop with hop | hop
  · rcases List.mem_map.mp hop with ⟨b, _, heq⟩
    simp only [reduceCtorEq] at heq
  · simp only [List.mem_singleton, reduceCtorEq] at hop

-- A frame as turns of a producer who is alone.
theorem frame_eq_turns (batches : List Batch) :
    frame batches
      = ((batches.map (Turn.submit ()) ++ [Turn.process]) : List (Turn Unit)).map Turn.op := by
  simp only [frame, List.map_append, List.map_map, List.map_cons, List.map_nil]
  rfl

-- Taking batches in does not change which slots there are to be.
theorem fitting_frame (s : Session) (batches : List Batch) (hfits : s.scene.Fits) :
    s.Fitting (frame batches) := by
  refine (phases_append s _ _).mpr ⟨phases_of_not_mem s _ fun hmem => ?_, fun _ => ?_, trivial⟩
  · rcases List.mem_map.mp hmem with ⟨_, _, heq⟩
    simp only [reduceCtorEq] at heq
  · rw [after_enqueues]
    exact hfits

theorem frame_completes (s : Session) (batches : List Batch) (hs : s.Sound)
    (hfits : s.scene.Fits) (hqueue : s.scene.queue = []) (hknown : s.scene.Knows batches) (result : Except Fault Applied)
    (h : Answer.applied result ∈ s.answers (frame batches)) : ∃ summary, result = .ok summary := by
  have hfitting := fitting_frame s batches hfits
  rw [frame_eq_turns] at h hfitting
  have hsubmitted : ∀ rest : List Batch,
      Turn.submitted (rest.map (Turn.submit ())) = rest := by
    intro rest
    induction rest with
    | nil => rfl
    | cons b rest ih => exact congrArg (b :: ·) ih
  refine phases_complete s _ hs hfitting ?_ result h
  rw [ahead_schedule s _ hqueue, hsubmitted]
  exact hknown

theorem knows_frame (s : Session) (batches later : List Batch) (h : s.scene.Knows later) :
    (s.after (frame batches)).scene.Knows later :=
  fun b hb c hc => issued_after s (frame batches) c.id (h b hb c hc)

section Frames

variable {s : Session} (hqueue : s.scene.queue = []) (first second : List Batch)

include hqueue

theorem queue_frame (batches : List Batch) : (s.after (frame batches)).scene.queue = [] := by
  rw [scene_frame s batches hqueue]

theorem next_frames :
    (s.after (frame first ++ frame second)).scene.next
      = (s.after (frame (first ++ second))).scene.next := by
  rw [after_append, scene_frame _ second (queue_frame hqueue first),
    scene_frame s first hqueue, scene_frame s (first ++ second) hqueue]

theorem capacity_frames (hexact : s.scene.Exact) :
    (s.after (frame first ++ frame second)).scene.capacity
      = (s.after (frame (first ++ second))).scene.capacity := by
  rw [after_append]
  by_cases hfits : s.scene.Fits
  · -- The second frame finds the slots that the first one made.
    have hroom := next_le_capacity_frame s first hqueue hfits
    have hnone : (s.after (frame first)).scene.growth? = none :=
      if_neg (Nat.not_lt_of_le hroom)
    rw [capacity_frame _ second (queue_frame hqueue first) (.inl hroom), hnone, Option.getD_none,
      capacity_frame s first hqueue hfits, capacity_frame s (first ++ second) hqueue hfits]
  · have hstays := scene_frame_of_not_fits s first hqueue hexact hfits
    rw [scene_frame_of_not_fits _ second (queue_frame hqueue first) (by rw [hstays]; exact hexact)
      (by rw [hstays]; exact hfits), hstays,
      scene_frame_of_not_fits s (first ++ second) hqueue hexact hfits]

-- Neither run has a phase with a sum that wraps around.
theorem sound_frames (hs : s.Sound) (hfits : s.scene.Fits) :
    (s.after (frame first ++ frame second)).Sound ∧ (s.after (frame (first ++ second))).Sound := by
  have hroom := next_le_capacity_frame s first hqueue hfits
  refine ⟨sound_after s _ ((phases_append s _ _).mpr
    ⟨(fitting_frame s first hfits).steady, ?_⟩) hs,
    sound_after s _ (fitting_frame s _ hfits).steady hs⟩
  exact (fitting_frame (s.after (frame first)) second (.inl hroom)).steady

variable (hs : s.Sound) (hfits : s.scene.Fits) (hfirst : s.scene.Knows first)
  (hsecond : s.scene.Knows second)

include hs hfits hfirst hsecond

theorem item_frames (id : ItemId) :
    (s.after (frame first ++ frame second)).scene.storage.item id
      = (Batch.join second).outcome s.keys id
          ((Batch.join first).outcome s.keys id (s.scene.storage.item id)) := by
  have hsound := sound_after s (frame first) (fitting_frame s first hfits).steady hs
  rw [after_append, item_frame _ second (queue_frame hqueue first) hsound
    (.inl (next_le_capacity_frame s first hqueue hfits)) (knows_frame s first second hsecond),
    keys_frame s first hqueue, item_frame s first hqueue hs hfits hfirst]

theorem item_joinedFrame (id : ItemId) :
    (s.after (frame (first ++ second))).scene.storage.item id
      = ((Batch.join first).merge (Batch.join second)).outcome s.keys id
          (s.scene.storage.item id) := by
  rw [item_frame s (first ++ second) hqueue hs hfits (hfirst.append hsecond), Batch.join_append]

-- The item has its payload in the end if the removal is a frame before it, and
-- has lost it if they are in the same frame.
theorem item_of_shownAgain (id : ItemId) (h : ShownAgain first second id) :
    (∃ payload, (s.after (frame first ++ frame second)).scene.storage.item id
      = { payload := some payload, key := payload.key s.keys, killed := false }) ∧
    (s.after (frame (first ++ second))).scene.storage.item id
      = { payload := none, key := Key.empty, killed := true } := by
  rcases (shownAgain_iff first second id).mp h with ⟨hgone, hstays, payload, hlast⟩
  have hmerged : id ∈ ((Batch.join first).merge (Batch.join second)).removals :=
    List.mem_append_left _ hgone
  constructor
  · refine ⟨payload, ?_⟩
    rw [item_frames hqueue first second hs hfits hfirst hsecond,
      Batch.outcome_of_lastReset _ _ _ _ _ hstays hlast]
    rfl
  · rw [item_joinedFrame hqueue first second hs hfits hfirst hsecond,
      Batch.outcome_of_removal _ _ _ _ hmerged]
    rfl

theorem item_frames_congr (id : ItemId) (h : ¬ ShownAgain first second id) :
    (s.after (frame first ++ frame second)).scene.storage.item id
      = (s.after (frame (first ++ second))).scene.storage.item id := by
  rw [shownAgain_iff] at h
  rw [item_frames hqueue first second hs hfits hfirst hsecond,
    item_joinedFrame hqueue first second hs hfits hfirst hsecond,
    Batch.outcome_merge_of_not_showsAgain _ _ _ _ _ h]

-- The id was given out before, so the item alone decides how far it has come.
theorem lifecycle_of_shownAgain (id : ItemId) (h : ShownAgain first second id) :
    (s.after (frame first ++ frame second)).scene.lifecycle id = .live ∧
      (s.after (frame (first ++ second))).scene.lifecycle id = .killed := by
  rcases sound_frames hqueue first second hs hfits with ⟨htwo, hone⟩
  rcases h.1 with ⟨b, hb, hmem⟩
  have hissued : s.scene.Issued id :=
    hfirst b hb (.remove id) ((Batch.mem_changes b _).mpr (Or.inr (Or.inl ⟨id, hmem, rfl⟩)))
  rcases item_of_shownAgain hqueue first second hs hfits hfirst hsecond id h with
    ⟨⟨payload, hshown⟩, hgone⟩
  constructor
  · rw [Scene.lifecycle_of_issued _ id htwo.next_pos (issued_after s _ id hissued), hshown]
    rfl
  · rw [Scene.lifecycle_of_issued _ id hone.next_pos (issued_after s _ id hissued), hgone]
    rfl

-- With all items the same, slots and buckets are.
theorem frames_congr (h : ∀ id, ¬ ShownAgain first second id) :
    (s.after (frame first ++ frame second)).scene.storage.slots
        = (s.after (frame (first ++ second))).scene.storage.slots ∧
      ∀ f, (s.after (frame first ++ frame second)).scene.members f
        = (s.after (frame (first ++ second))).scene.members f := by
  rcases sound_frames hqueue first second hs hfits with ⟨⟨_, htwo⟩, ⟨_, hone⟩⟩
  have hitems : ∀ id, (s.after (frame first ++ frame second)).scene.storage.item id
      = (s.after (frame (first ++ second))).scene.storage.item id :=
    fun id => item_frames_congr hqueue first second hs hfits hfirst hsecond id (h id)
  rw [next_frames hqueue first second] at htwo
  refine ⟨htwo.slots_congr hone (capacity_frames hqueue first second hfits.exact) hitems,
    fun f => ?_⟩
  refine htwo.filed.get?_congr hone.filed (fun g => ?_) hitems f
  rw [after_append, filters_frame, filters_frame, filters_frame]

theorem frames_complete (result : Except Fault Applied)
    (h : Answer.applied result ∈ s.answers (frame first ++ frame second)
      ++ s.answers (frame (first ++ second))) : ∃ summary, result = .ok summary := by
  rw [answers_append] at h
  rcases List.mem_append.mp h with hframes | hjoined
  · rcases List.mem_append.mp hframes with hbefore | hafter
    · exact frame_completes s first hs hfits hqueue hfirst result hbefore
    · exact frame_completes _ second
        (sound_after s (frame first) (fitting_frame s first hfits).steady hs)
        (.inl (next_le_capacity_frame s first hqueue hfits)) (queue_frame hqueue first)
        (knows_frame s first second hsecond) result hafter
  · exact frame_completes s (first ++ second) hs hfits hqueue (hfirst.append hsecond) result
      hjoined

end Frames

/-- Where the slots can be had, two frames come to the same slots and the same
    buckets as one frame with the batches of both, if and only if no item is
    removed in the first frame and put on show again in the second. Such an item
    is live after two frames and killed after one, and no phase fails. The size
    of the storage is the same in any case. -/
theorem frames_coalesce_iff {s : Session} (hs : s.Reachable) (hexact : s.scene.Exact)
    (hqueue : s.scene.queue = []) (first second : List Batch) (hfirst : s.scene.Knows first)
    (hsecond : s.scene.Knows second) :
    (s.scene.Fits →
      ((s.after (frame first ++ frame second)).scene.storage.slots
            = (s.after (frame (first ++ second))).scene.storage.slots ∧
          (∀ f, (s.after (frame first ++ frame second)).scene.members f
            = (s.after (frame (first ++ second))).scene.members f) ↔
        ¬ ∃ id, ShownAgain first second id) ∧
      (∀ id, ShownAgain first second id →
        (s.after (frame first ++ frame second)).scene.lifecycle id = .live ∧
        (s.after (frame (first ++ second))).scene.lifecycle id = .killed) ∧
      ∀ result, Answer.applied result ∈ s.answers (frame first ++ frame second)
          ++ s.answers (frame (first ++ second)) → ∃ summary, result = .ok summary) ∧
    (s.after (frame first ++ frame second)).scene.capacity
      = (s.after (frame (first ++ second))).scene.capacity := by
  have hsound := hs.sound
  refine ⟨fun hfits => ⟨⟨fun hsame => ?_, fun hnone => ?_⟩, ?_,
    frames_complete hqueue first second hsound hfits hfirst hsecond⟩,
    capacity_frames hqueue first second hexact⟩
  · -- An item that is shown again holds a payload in one run only.
    rintro ⟨id, hid⟩
    rcases item_of_shownAgain hqueue first second hsound hfits hfirst hsecond id hid with
      ⟨⟨payload, hshown⟩, hgone⟩
    have hitem := congrArg (fun slots => slots.getD id.index Item.pristine) hsame.1
    have hpayload := congrArg Item.payload (hshown.symm.trans (hitem.trans hgone))
    simp only [reduceCtorEq] at hpayload
  · exact frames_congr hqueue first second hsound hfits hfirst hsecond
      fun id hid => hnone ⟨id, hid⟩
  · exact lifecycle_of_shownAgain hqueue first second hsound hfits hfirst hsecond

/-- One item, which is live, and nothing waits. -/
def shownRun : List Op :=
  [.allocate, .enqueue { resets := [(⟨1⟩, some (.own Key.opaqueShape))] }, .process]

/-- The item is removed. -/
def removal : List Batch := [{ removals := [⟨1⟩] }]

/-- The item is cleared, and then shown as a light. -/
def returnAsLight : List Batch :=
  [{ resets := [(⟨1⟩, none)] }, { resets := [(⟨1⟩, some (.own Key.light))] }]

theorem shownAgain_returnAsLight : ShownAgain removal returnAsLight ⟨1⟩ :=
  ⟨⟨_, List.mem_singleton_self _, by decide⟩, by decide, .own Key.light, rfl⟩

/-- Two frames leave the item live and one frame leaves it killed, so the runs
    do not come to the same. -/
theorem frames_differ_shownRun :
    (crampedSession.after shownRun).Reachable ∧
      (crampedSession.after shownRun).scene.Fits ∧
      (crampedSession.after shownRun).scene.queue = [] ∧
      (crampedSession.after shownRun).scene.Knows removal ∧
      (crampedSession.after shownRun).scene.Knows returnAsLight ∧
      ShownAgain removal returnAsLight ⟨1⟩ ∧
      ((crampedSession.after shownRun).after
        (frame removal ++ frame returnAsLight)).scene.lifecycle ⟨1⟩ = .live ∧
      ((crampedSession.after shownRun).after
        (frame (removal ++ returnAsLight))).scene.lifecycle ⟨1⟩ = .killed ∧
      ¬ (((crampedSession.after shownRun).after
              (frame removal ++ frame returnAsLight)).scene.storage.slots
            = ((crampedSession.after shownRun).after
              (frame (removal ++ returnAsLight))).scene.storage.slots ∧
        ∀ f, ((crampedSession.after shownRun).after
              (frame removal ++ frame returnAsLight)).scene.members f
          = ((crampedSession.after shownRun).after
              (frame (removal ++ returnAsLight))).scene.members f) := by
  have hreach := reachable_crampedSession.after shownRun (by decide +kernel)
  have hfits : (crampedSession.after shownRun).scene.Fits := by decide +kernel
  have hremoval : (crampedSession.after shownRun).scene.Knows removal := by decide
  have hreturn : (crampedSession.after shownRun).scene.Knows returnAsLight := by decide
  rcases (frames_coalesce_iff hreach hfits.exact rfl removal returnAsLight hremoval hreturn).1
    hfits with ⟨hlaw, hstages, _⟩
  rcases hstages ⟨1⟩ shownAgain_returnAsLight with ⟨hlive, hkilled⟩
  exact ⟨hreach, hfits, rfl, hremoval, hreturn, shownAgain_returnAsLight, hlive, hkilled,
    fun hsame => hlaw.mp hsame ⟨⟨1⟩, shownAgain_returnAsLight⟩⟩

/-- The item is removed and put on show again, and yet two frames come to the same
    as one, for the slots cannot be had and nothing is applied at all. -/
theorem frames_agree_vastSession :
    (vastSession []).Reachable ∧ (vastSession []).scene.queue = [] ∧
      (vastSession []).scene.Knows removal ∧ (vastSession []).scene.Knows returnAsLight ∧
      ShownAgain removal returnAsLight ⟨1⟩ ∧
      ((vastSession []).after (frame removal ++ frame returnAsLight)).scene
        = ((vastSession []).after (frame (removal ++ returnAsLight))).scene := by
  refine ⟨reachable_vastSession [], rfl, by decide, by decide, shownAgain_returnAsLight, ?_⟩
  decide +kernel

end Session

end SceneIndex
