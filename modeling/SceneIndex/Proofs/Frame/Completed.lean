import SceneIndex.Proofs.Batch.Outcome
import SceneIndex.Proofs.Session.Index

/-!
# A completed apply phase

What one apply phase means, told slot by slot.

The program makes one batch of the queue and runs through its entries three
times, changing slots and buckets as it goes. The theorem of this module does
not follow it there. It says for every slot which entry decides: a removal, if
there is one, and otherwise the last reset entry for the id. All other slots
hold afterwards what they held before. Buckets need not be mentioned at all,
since they are in step with the slots before and after.

When a reset decides, the key in the slot is the one that the payload reports
at the time of the phase. It was not asked when the entry was recorded, and
it is not asked again for the slots that the batch does not name.

All of this is said of phases that have the slots they need. A phase for which
they cannot be had does not complete, however good its entries are, and
`process_short_vastSession` is one.

## Theorems

* `applyAll_moves`: Moves leave the storage as it is.
* `application_without_moves`: So the storage is the same without them.
* `slot_application_of_unnamed`: A slot that is not named stays.
* `process_applies_deciding_entries`: What a completed phase does.
-/

namespace SceneIndex

namespace Storage

-- Moves leave the storage as it is.
theorem applyAll_moves (keys : PayloadKeys) (next : UInt32) (st : Storage) (ids : List ItemId) :
    (st.applyAll keys next (ids.map Change.move)).1 = st := by
  induction ids with
  | nil => rfl
  | cons id rest ih =>
      rw [List.map_cons]
      by_cases h : st.holds next (Change.move id).id = true
      · rw [applyAll_cons keys next st _ _ h]
        exact ih
      · rw [applyAll, if_neg h]

end Storage

namespace Batch

theorem mem_changes_of_removal (b : Batch) (id : ItemId) (h : id ∈ b.removals) :
    Change.remove id ∈ b.changes :=
  (mem_changes b _).mpr (Or.inr (Or.inl ⟨id, h, rfl⟩))

theorem mem_changes_of_reset (b : Batch) (entry : ItemId × Option Payload)
    (h : entry ∈ b.resets) : Change.ofReset entry ∈ b.changes :=
  (mem_changes b _).mpr (Or.inl ⟨entry, h, rfl⟩)

end Batch

namespace Scene

section Applied

variable (keys : PayloadKeys) (s : Scene) (hnext : 1 ≤ s.next.toNat) (hfits : s.Fits)
  (h : ∀ c ∈ s.pending.changes, s.Issued c.id)

include hnext hfits h

-- The storage comes to the same without the moves.
theorem application_without_moves :
    (({ s with queue := [{ s.pending with moves := [] }] } : Scene).application keys).1
      = (s.application keys).1 := by
  have hfront : ∀ c ∈ s.pending.resets.map Change.ofReset
      ++ s.pending.removals.map Change.remove, s.grownStorage.holds s.next c.id = true := by
    intro c hc
    exact (holds_grownStorage_iff s c.id hnext hfits).mpr (h c (List.mem_append_left _ hc))
  change (s.grownStorage.applyAll keys s.next _).1 = (s.grownStorage.applyAll keys s.next _).1
  rw [due_of_queue s _ hfits, Batch.join_singleton, due_of_fits s hfits, Batch.changes,
    Batch.changes, List.map_nil, List.append_nil,
    Storage.applyAll_append keys s.next _ _ _ hfront, Storage.applyAll_moves]

-- A slot that no reset and no removal names stays as it is.
theorem slot_application_of_unnamed (n : Nat)
    (hremovals : ∀ id ∈ s.pending.removals, id.index ≠ n)
    (hresets : ∀ entry ∈ s.pending.resets, entry.1.index ≠ n) :
    (s.application keys).1.slot n = s.storage.slot n := by
  -- A move may name the slot, so it is the application without moves that
  -- names it nowhere.
  rw [← application_without_moves keys s hnext hfits h]
  refine (Storage.slot_applyAll_of_unnamed keys s.next s.grownStorage _ n ?_).trans
    (slot_grownStorage s hfits.exact n)
  intro c hc
  rw [due_of_queue s _ hfits, Batch.join_singleton, Batch.mem_changes] at hc
  rcases hc with ⟨entry, hentry, rfl⟩ | ⟨id, hid, rfl⟩ | ⟨id, hid, _⟩
  · rw [Batch.id_ofReset]
    exact hresets entry hentry
  · exact hremovals id hid
  · exact absurd hid List.not_mem_nil

-- An id that was given out has a slot after the phase, and it holds what the
-- queue comes to for it.
theorem getElem?_slots_application (id : ItemId) (hid : s.Issued id) :
    (s.application keys).1.slots[id.index]?
      = some (s.pending.outcome keys id (s.storage.item id)) := by
  have hlt := index_lt_capacity_application keys s hfits id hid
  rw [Storage.getElem?_slots _ _ hlt, ← Storage.item_eq_slot,
    item_application keys s hnext hfits h, Item.through_changes]

end Applied

end Scene

namespace Session

/-- An apply phase on a queue that names only ids that were given out goes
    through, if the slots for it can be had. For every id that is removed the
    slot ends without payload; for every other id that is reset the last reset
    entry decides; every other slot holds what it held, and a slot that was added
    holds nothing. Moves make no difference to the scene. The phase reports what
    it found and how far it grew the storage, empties the queue, leaves the rest
    of the scene alone, and the buckets are in step with the slots. -/
theorem process_applies_deciding_entries {s : Session} (hs : s.Reachable)
    (hfits : s.scene.Fits) (hknown : s.scene.Knows s.scene.queue) :
    ∃ scene events grownTo,
      s.scene.process s.keys = (scene, events, .ok
        { batches := s.scene.queue.length
          resets := s.scene.pending.resets.length
          removals := s.scene.pending.removals.length
          moves := s.scene.pending.moves.length
          grownTo := grownTo }) ∧
      grownTo = (if s.scene.capacity < s.scene.allocatedCount + 1 then
          some (s.scene.allocatedCount + 1 + s.scene.config.growthSlack.toNat)
        else none) ∧
      (∀ id ∈ s.scene.pending.removals, scene.storage.slots[id.index]?
        = some { payload := none, key := Key.empty, killed := true }) ∧
      (∀ earlier id payload later,
        s.scene.pending.resets = earlier ++ (id, payload) :: later →
        id ∉ later.map Prod.fst → id ∉ s.scene.pending.removals →
        scene.storage.slots[id.index]? = some (match payload with
          | some p => { payload := some p, key := p.key s.keys, killed := false }
          | none => { payload := none, key := Key.empty, killed := true })) ∧
      (∀ n < scene.capacity, (∀ id ∈ s.scene.pending.removals, id.index ≠ n) →
        (∀ entry ∈ s.scene.pending.resets, entry.1.index ≠ n) →
        scene.storage.slots[n]? = some (s.scene.storage.slots.getD n Item.pristine)) ∧
      (({ s.scene with queue := [{ s.scene.pending with moves := [] }] } : Scene).process
        s.keys).1 = scene ∧
      scene.capacity = grownTo.getD s.scene.capacity ∧
      scene.queue = [] ∧ scene.next = s.scene.next ∧ scene.config = s.scene.config ∧
      scene.observers = s.scene.observers ∧
      scene.storage.buckets.filters = s.scene.storage.buckets.filters ∧
      scene.storage.Filed := by
  have hsound := hs.sound
  have hnext := hsound.next_pos
  have hpending := hknown.pending
  have hdone := Scene.application_completed s.keys s.scene hnext hfits hpending
  have hslot := Scene.getElem?_slots_application s.keys s.scene hnext hfits hpending
  refine ⟨_, _, _, Scene.process_of_completed s.keys s.scene hfits hdone,
    Scene.growth?_eq s.scene hnext, fun id hid => ?_,
    fun earlier id payload later hsplit hlater hnot => ?_, fun n hn hremovals hresets => ?_,
    ?_, ?_, rfl, rfl, rfl, rfl, ?_, ?_⟩
  · -- A removal decides.
    rw [hslot id (hpending _ (Batch.mem_changes_of_removal _ id hid)), Batch.outcome, if_pos hid]
    rfl
  · -- The last reset entry decides.
    have hmem : (id, payload) ∈ s.scene.pending.resets := by
      rw [hsplit]
      exact List.mem_append_right _ List.mem_cons_self
    have hid' := hpending _ (Batch.mem_changes_of_reset _ _ hmem)
    rw [Batch.id_ofReset] at hid'
    rw [hslot id hid', Batch.outcome, if_neg hnot,
      Batch.lastReset?_split _ id payload earlier later hsplit hlater]
    cases payload <;> rfl
  · -- No entry names the slot.
    refine (Storage.getElem?_slots _ n hn).trans (congrArg some ?_)
    exact Scene.slot_application_of_unnamed s.keys s.scene hnext hfits hpending n
      hremovals hresets
  · rw [Scene.process_scene,
      Scene.application_without_moves s.keys s.scene hnext hfits hpending]
  · exact (Scene.capacity_application s.keys s.scene).trans
      (Scene.capacity_grownStorage s.scene hfits)
  · exact Scene.filters_application s.keys s.scene
  · exact (Scene.sound_application s.keys s.scene hfits.exact hsound.storage).filed

/-- Three items are live, and a queue that names them again and again waits. -/
def repetitiveRun : List Op :=
  [.allocate, .allocate, .allocate, .definePayload "lamp" Key.light,
    .enqueue
      { resets := [(⟨1⟩, some (.own Key.opaqueShape)), (⟨2⟩, some (.own Key.opaqueShape)),
          (⟨3⟩, some (.shared "lamp"))] },
    .process, .definePayload "lamp" Key.background,
    .enqueue
      { resets := [(⟨1⟩, none), (⟨2⟩, some (.own Key.light))]
        removals := [⟨2⟩, ⟨2⟩]
        moves := [⟨3⟩] },
    .enqueue { resets := [(⟨1⟩, some (.shared "lamp")), (⟨2⟩, none)], moves := [⟨1⟩] }]

/-- The first item has its last payload, with the key that the payload has by
    now; the second is removed; the third keeps the key that its payload had. -/
theorem process_applies_repetitiveRun :
    (crampedSession.after repetitiveRun).Reachable ∧
      (crampedSession.after repetitiveRun).scene.Fits ∧
      (crampedSession.after repetitiveRun).scene.Knows
        (crampedSession.after repetitiveRun).scene.queue ∧
      ∃ scene events,
        (crampedSession.after repetitiveRun).scene.process
            (crampedSession.after repetitiveRun).keys = (scene, events, .ok
          { batches := 2, resets := 4, removals := 2, moves := 2, grownTo := none }) ∧
        scene.storage.slots[1]? = some
          { payload := some (.shared "lamp"), key := Key.background, killed := false } ∧
        scene.storage.slots[2]? = some { payload := none, key := Key.empty, killed := true } ∧
        scene.storage.slots[3]? = some
          { payload := some (.shared "lamp"), key := Key.light, killed := false } := by
  have hreach := reachable_crampedSession.after repetitiveRun (by decide +kernel)
  have hfits : (crampedSession.after repetitiveRun).scene.Fits := by decide +kernel
  have hknown : (crampedSession.after repetitiveRun).scene.Knows
      (crampedSession.after repetitiveRun).scene.queue := by decide
  rcases process_applies_deciding_entries hreach hfits hknown with
    ⟨scene, events, grownTo, hphase, hgrown, hremoved, hreset, hother, _, hcap, _⟩
  have hnone : grownTo = none := hgrown.trans rfl
  subst hnone
  refine ⟨hreach, hfits, hknown, scene, events, hphase, ?_, ?_, ?_⟩
  · exact hreset [(⟨1⟩, none), (⟨2⟩, some (.own Key.light))] ⟨1⟩ (some (.shared "lamp"))
      [(⟨2⟩, none)] rfl (by decide) (by decide)
  · exact hremoved ⟨2⟩ (by decide)
  · refine (hother 3 ?_ (by decide) (by decide)).trans rfl
    rw [hcap]
    decide

/-- The only batch puts a light in the place of an id that was given out. The phase
    does not complete, and the light is nowhere. -/
theorem process_short_vastSession :
    (vastSession [{ resets := [(⟨1⟩, some (.own Key.light))] }]).Reachable ∧
      (vastSession [{ resets := [(⟨1⟩, some (.own Key.light))] }]).scene.Knows
        (vastSession [{ resets := [(⟨1⟩, some (.own Key.light))] }]).scene.queue ∧
      ((vastSession [{ resets := [(⟨1⟩, some (.own Key.light))] }]).step .process).answer
        = .applied (.error .capacity) ∧
      ((vastSession [{ resets := [(⟨1⟩, some (.own Key.light))] }]).step
        .process).session.scene.storage.slots[1]? = none := by
  exact ⟨reachable_vastSession _, by decide, rfl, by decide +kernel⟩

end Session

end SceneIndex
