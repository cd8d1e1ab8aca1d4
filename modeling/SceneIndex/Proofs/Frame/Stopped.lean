import SceneIndex.Proofs.Session.History

/-!
# A stopped apply phase

When an apply phase fails, and what it leaves behind.

An entry of the queue may name an id that the scene never gave out. The phase
finds out when it gets to the entry, with the queue taken and the storage
grown, and gives up. What it leaves is not a state of its own kind. It is the
state of a completed phase, of the one that would have run on a queue with
only the entries before the bad one (`process_of_front`), so there is
nothing that holds after completed phases only.

The program tests three things about an id: that it is not the reserved one,
that it lies below the next one, and that it has a slot. The third never
decides, since the storage has grown before the first entry is looked at, and
what `StopsAt` asks of the bad entry does not mention slots.

Slots come in elsewhere. If those that are needed cannot be had, the phase fails
before it looks at any entry, and all it leaves behind is an empty queue.

## Main definitions

* `Session.StopsAt`: What a phase comes to that is stopped at an entry.

## Theorems

* `exists_first_unissued`: The first bad entry of a queue that has one.
* `application_stopped`: It ends the application just before it.
* `process_of_front`: What is left is what the entries before it come to.
* `getElem?_slots_decided`, `getElem?_slots_kept`: The slots that are left, by the
  entries before it.
* `process_fails_iff`: Only a bad entry or want of slots makes a phase fail.
* `process_stops_at_first_unissued`: When and how a phase fails.
-/

namespace SceneIndex

namespace Scene

theorem not_issued_iff (s : Scene) (id : ItemId) :
    ¬ s.Issued id ↔ id.index = 0 ∨ s.allocatedCount < id.index := by
  unfold Issued
  omega

-- A queue that names an id that was never given out has a first entry that
-- does.
theorem exists_first_unissued (s : Scene) (h : ∃ c ∈ s.pending.changes, ¬ s.Issued c.id) :
    ∃ front bad back, s.pending.changes = front ++ bad :: back ∧
      (∀ c ∈ front, s.Issued c.id) ∧ ¬ s.Issued bad.id := by
  rcases h with ⟨c, hc, hbad⟩
  have hsome : (s.pending.changes.find? fun c => decide (¬ s.Issued c.id)).isSome = true := by
    rw [List.find?_isSome]
    exact ⟨c, hc, decide_eq_true hbad⟩
  rcases Option.isSome_iff_exists.mp hsome with ⟨bad, hfind⟩
  rcases List.find?_eq_some_iff_append.mp hfind with ⟨hstop, front, back, hsplit, hfront⟩
  refine ⟨front, bad, back, hsplit, fun d hd => ?_, of_decide_eq_true hstop⟩
  have hgood := hfront d hd
  rw [Bool.not_eq_true', decide_eq_false_iff_not, not_not] at hgood
  exact hgood

section Stop

variable (keys : PayloadKeys) (s : Scene) (hnext : 1 ≤ s.next.toNat) (hfits : s.Fits)
  (front : List Change) (bad : Change) (back : List Change)
  (hsplit : s.pending.changes = front ++ bad :: back)
  (hfront : ∀ c ∈ front, s.Issued c.id) (hbad : ¬ s.Issued bad.id)

include hnext hfits hsplit hfront hbad

-- The first bad entry ends the application just before it.
theorem application_stopped :
    s.application keys
      = ((s.grownStorage.applyAll keys s.next front).1,
         (s.grownStorage.applyAll keys s.next front).2.1,
         some ⟨bad.id, s.next, s.grownStorage.capacity⟩) := by
  rw [application, due_of_fits s hfits, hsplit]
  refine Storage.applyAll_stop keys s.next s.grownStorage front bad back (fun c hc => ?_) ?_
  · exact (holds_grownStorage_iff s c.id hnext hfits).mpr (hfront c hc)
  · rw [holds_grownStorage_iff s bad.id hnext hfits]
    exact hbad

theorem result_process_stopped :
    (s.process keys).2.2
      = .error (.unissued ⟨bad.id, s.next, s.grownStorage.capacity⟩) := by
  have happ := application_stopped keys s hnext hfits front bad back hsplit hfront hbad
  rw [process_of_stopped keys s _ hfits (by rw [happ])]

/-- What a stopped phase leaves is what a phase on the entries before the bad
    one leaves, and that phase goes through. -/
theorem process_of_front (queue : List Batch) (hqueue : (Batch.join queue).changes = front) :
    ∃ events summary, ({ s with queue := queue } : Scene).process keys
      = ((s.process keys).1, events, .ok summary) := by
  have hpending : ({ s with queue := queue } : Scene).pending.changes = front := hqueue
  have hfits' : ({ s with queue := queue } : Scene).Fits := hfits
  have hdone : (({ s with queue := queue } : Scene).application keys).2.2 = none := by
    refine application_completed keys _ hnext hfits' fun c hc => ?_
    rw [hpending] at hc
    exact hfront c hc
  -- Both applications use up the same entries, from the same storage.
  have hleft : (({ s with queue := queue } : Scene).application keys).1
      = (s.application keys).1 := by
    rw [application_stopped keys s hnext hfits front bad back hsplit hfront hbad, application,
      due_of_queue s queue hfits, hqueue]
    rfl
  have hphase := process_of_completed keys _ hfits' hdone
  rw [hleft] at hphase
  rw [process_scene]
  exact ⟨_, _, hphase⟩

-- The item of an id is what the entries before the bad one make of it.
theorem item_stopped (id : ItemId) :
    (s.application keys).1.item id
      = (s.storage.item id).told id (front.map fun c => ⟨c, keys⟩) := by
  have heq : s.grownStorage.item id = s.storage.item id :=
    slot_grownStorage s hfits.exact id.index
  rw [application_stopped keys s hnext hfits front bad back hsplit hfront hbad,
    Storage.item_applyAll keys s.next _ _ id
      (fun c hc => (holds_grownStorage_iff s c.id hnext hfits).mpr (hfront c hc)),
    heq, Item.told_eq_through]

/-- The last entry before the bad one that resets, clears or removes an item says
    what is in its slot. -/
theorem getElem?_slots_decided (earlier : List Change) (c : Change) (later : List Change)
    (id : ItemId) (hdecided : front = earlier ++ c :: later) (hc : c.decides id = true)
    (hlater : ∀ d ∈ later, ¬ d.decides id = true) :
    (s.application keys).1.slots[id.index]? = some (c.leaves keys) := by
  have hid : s.Issued id := by
    rw [← Change.id_of_decides id c hc]
    refine hfront c ?_
    rw [hdecided]
    exact List.mem_append_right _ List.mem_cons_self
  have hlast : Session.lastDecision? id (front.map fun c => ⟨c, keys⟩) = some ⟨c, keys⟩ := by
    rw [hdecided, List.map_append, List.map_cons]
    refine Session.lastDecision?_split id _ _ _ hc fun e he => ?_
    rcases List.mem_map.mp he with ⟨d, hd, rfl⟩
    exact hlater d hd
  have hitem := item_stopped keys s hnext hfits front bad back hsplit hfront hbad id
  rw [Item.told, hlast] at hitem
  rw [Storage.getElem?_slots _ _ (index_lt_capacity_application keys s hfits id hid),
    ← Storage.item_eq_slot, hitem]
  rcases Change.cases_of_decides id c hc with ⟨payload, rfl⟩ | rfl | rfl <;> rfl

/-- If no entry before the bad one resets, clears or removes the item of a slot,
    then it holds what it held. -/
theorem getElem?_slots_kept (n : Nat) (hn : n < (s.application keys).1.capacity)
    (hkept : ∀ c ∈ front, ∀ id, id.index = n → ¬ c.decides id = true) :
    (s.application keys).1.slots[n]? = some (s.storage.slots.getD n Item.pristine) := by
  refine (Storage.getElem?_slots _ n hn).trans (congrArg some ?_)
  by_cases hsize : n < UInt32.size
  · rcases ItemId.exists_index hsize with ⟨id, rfl⟩
    have hlast : Session.lastDecision? id (front.map fun c => ⟨c, keys⟩) = none := by
      rw [Session.lastDecision?_eq_none_iff]
      intro e he
      rcases List.mem_map.mp he with ⟨c, hc, rfl⟩
      exact hkept c hc id rfl
    have hitem := item_stopped keys s hnext hfits front bad back hsplit hfront hbad id
    rw [Item.told, hlast] at hitem
    exact hitem
  · -- No id has the number of this slot.
    rw [application_stopped keys s hnext hfits front bad back hsplit hfront hbad]
    refine (Storage.slot_applyAll_of_unnamed keys s.next _ front n fun c _ heq => ?_).trans
      (slot_grownStorage s hfits.exact n)
    have hlt := c.id.number.toNat_lt_size
    exact hsize (heq ▸ hlt)

end Stop

/-- A phase fails exactly when the slots cannot be had or the queue names an id
    that was never given out. -/
theorem process_fails_iff (keys : PayloadKeys) (s : Scene) (hnext : 1 ≤ s.next.toNat)
    (hexact : s.Exact) :
    (∃ fault, (s.process keys).2.2 = .error fault) ↔
      ¬ s.Fits ∨ ∃ c ∈ s.pending.changes, ¬ s.Issued c.id := by
  by_cases hfits : s.Fits
  · simp only [hfits, not_true_eq_false, false_or]
    constructor
    · rintro ⟨fault, hfault⟩
      by_contra hnone
      have hall : ∀ c ∈ s.pending.changes, s.Issued c.id := by
        intro c hc
        by_contra hbad
        exact hnone ⟨c, hc, hbad⟩
      rw [process_of_completed keys s hfits (application_completed keys s hnext hfits hall)]
        at hfault
      simp only [reduceCtorEq] at hfault
    · intro hbad
      rcases exists_first_unissued s hbad with ⟨front, bad, back, hsplit, hfront, hfirst⟩
      exact ⟨_, result_process_stopped keys s hnext hfits front bad back hsplit hfront hfirst⟩
  · refine ⟨fun _ => .inl hfits, fun _ => ⟨s.shortage, ?_⟩⟩
    rw [process_of_not_fits keys s hexact hfits]

end Scene

namespace Session

/-- What an apply phase comes to that is stopped at a bad entry, with others
    before it. -/
structure StopsAt (s : Session) (front : List Change) (bad : Change) : Prop where
  /-- The phase fails, and names the id of the bad entry, the next id, and the
      number of slots after growth. -/
  named : ∃ cause, (s.scene.process s.keys).2.2 = .error (.unissued cause) ∧
    cause.id = bad.id ∧ cause.next = s.scene.next ∧
    cause.slots = (s.scene.process s.keys).1.capacity ∧
    (Fault.unissued cause).message
      = "item id " ++ bad.id.text ++ " was never issued by this scene (next id "
        ++ Text.Numeral.decimal s.scene.next.toNat ++ ", storage "
        ++ Text.Numeral.decimal (s.scene.process s.keys).1.capacity ++ ")"
  /-- There is a queue with just the entries before it. -/
  queue : ∃ queue, (Batch.join queue).changes = front
  /-- On any such queue the phase completes, and leaves the same scene. -/
  same : ∀ queue, (Batch.join queue).changes = front → ∃ events summary,
    ({ s.scene with queue := queue } : Scene).process s.keys
      = ((s.scene.process s.keys).1, events, .ok summary)
  /-- The last entry before it that resets, clears or removes an item says what is
      in its slot. -/
  decided : ∀ earlier c later id, front = earlier ++ c :: later → c.decides id = true →
    (∀ d ∈ later, ¬ d.decides id = true) →
    (s.scene.process s.keys).1.storage.slots[id.index]? = some (c.leaves s.keys)
  /-- A slot whose item none of them resets, clears or removes holds what it held,
      and one that was added holds nothing. -/
  kept : ∀ n < (s.scene.process s.keys).1.capacity,
    (∀ c ∈ front, ∀ id, id.index = n → ¬ c.decides id = true) →
    (s.scene.process s.keys).1.storage.slots[n]?
      = some (s.scene.storage.slots.getD n Item.pristine)

theorem stopsAt {s : Session} (hs : s.Sound) (hfits : s.scene.Fits) (front : List Change)
    (bad : Change) (back : List Change) (hsplit : s.scene.pending.changes = front ++ bad :: back)
    (hfront : ∀ c ∈ front, s.scene.Issued c.id) (hbad : ¬ s.scene.Issued bad.id) :
    s.StopsAt front bad := by
  have hnext := hs.next_pos
  have hcap := Scene.capacity_process s.keys s.scene
  constructor
  case named =>
    refine ⟨_, Scene.result_process_stopped s.keys s.scene hnext hfits front bad back hsplit
      hfront hbad, rfl, rfl, hcap.symm, ?_⟩
    rw [hcap]
    rfl
  case queue =>
    -- Recording the entries one by one gives such a queue.
    refine ⟨[Batch.empty.recordAll front], ?_⟩
    rw [Batch.join_singleton]
    exact Batch.changes_recordAll s.scene.pending front (bad :: back) hsplit
  case same =>
    exact Scene.process_of_front s.keys s.scene hnext hfits front bad back hsplit hfront hbad
  case decided =>
    rw [Scene.process_scene]
    exact Scene.getElem?_slots_decided s.keys s.scene hnext hfits front bad back hsplit hfront hbad
  case kept =>
    rw [Scene.process_scene]
    exact Scene.getElem?_slots_kept s.keys s.scene hnext hfits front bad back hsplit hfront hbad

/-- An apply phase fails if and only if the slots that it needs cannot be had, or
    the queue names the reserved id or one beyond those given out. In the first
    case nothing is applied, and only the queue is lost. In the second it is
    stopped at the first such entry, and leaves what the entries before it come
    to. However the phase ends, the queue is empty, growth stays, nothing else
    about the scene has changed, the buckets are in step with the slots, and the
    scene goes on in use. -/
theorem process_stops_at_first_unissued {s : Session} (hs : s.Reachable)
    (hexact : s.scene.Exact) :
    ((∃ fault, (s.scene.process s.keys).2.2 = .error fault) ↔
      ¬ s.scene.Fits ∨
        ∃ c ∈ s.scene.pending.changes, c.id.index = 0 ∨ s.scene.allocatedCount < c.id.index) ∧
    (¬ s.scene.Fits →
      s.scene.process s.keys = ({ s.scene with queue := [] }, [], .error s.scene.shortage)) ∧
    (s.scene.Fits → ∀ front bad back, s.scene.pending.changes = front ++ bad :: back →
      (∀ c ∈ front, ¬ (c.id.index = 0 ∨ s.scene.allocatedCount < c.id.index)) →
      (bad.id.index = 0 ∨ s.scene.allocatedCount < bad.id.index) → s.StopsAt front bad) ∧
    (s.scene.Fits →
      (s.scene.process s.keys).1.capacity = s.scene.growth?.getD s.scene.capacity) ∧
    (s.scene.process s.keys).1.queue = [] ∧
    (s.scene.process s.keys).1.next = s.scene.next ∧
    (s.scene.process s.keys).1.config = s.scene.config ∧
    (s.scene.process s.keys).1.observers = s.scene.observers ∧
    (s.scene.process s.keys).1.storage.buckets.filters = s.scene.storage.buckets.filters ∧
    (s.scene.process s.keys).1.storage.Filed ∧
    (s.step .process).session.Reachable := by
  have hsound := hs.sound
  simp only [← Scene.not_issued_iff, not_not]
  refine ⟨Scene.process_fails_iff s.keys s.scene hsound.next_pos hexact,
    Scene.process_of_not_fits s.keys s.scene hexact,
    fun hfits front bad back hsplit hfront hbad =>
      stopsAt hsound hfits front bad back hsplit hfront hbad, fun hfits => ?_,
    ?_, ?_, ?_, ?_, ?_, ?_, hs.step .process fun _ => hexact⟩
  · exact (Scene.capacity_process s.keys s.scene).trans (Scene.capacity_grownStorage s.scene hfits)
  · rw [Scene.process_scene]
  · rw [Scene.process_scene]
  · rw [Scene.process_scene]
  · rw [Scene.process_scene]
  · rw [Scene.process_scene]
    exact Scene.filters_application s.keys s.scene
  · rw [Scene.process_scene]
    exact (Scene.sound_application s.keys s.scene hexact hsound.storage).filed

/-- The queue removes an item that was never given out, between two others. -/
def carelessRun : List Op :=
  [.allocate, .allocate,
    .enqueue
      { resets := [(⟨1⟩, some (.own Key.light)), (⟨2⟩, some (.own Key.light))] },
    .enqueue { removals := [⟨2⟩, ⟨9⟩, ⟨1⟩], moves := [⟨0⟩] }]

/-- The removal before the bad one takes effect and the one after it does not,
    as if the queue had ended there. -/
theorem process_stops_carelessRun :
    (crampedSession.after carelessRun).Reachable ∧
      (crampedSession.after carelessRun).scene.Exact ∧
      (crampedSession.after carelessRun).scene.Fits ∧
      (crampedSession.after carelessRun).StopsAt
        [.reset ⟨1⟩ (.own Key.light), .reset ⟨2⟩ (.own Key.light), .remove ⟨2⟩] (.remove ⟨9⟩) ∧
      ((crampedSession.after carelessRun).scene.process
          (crampedSession.after carelessRun).keys).1.storage.slots[1]?
        = some { payload := some (.own Key.light), key := Key.light, killed := false } ∧
      ((crampedSession.after carelessRun).scene.process
          (crampedSession.after carelessRun).keys).1.storage.slots[2]?
        = some { payload := none, key := Key.empty, killed := true } := by
  have hreach := reachable_crampedSession.after carelessRun (by decide +kernel)
  have hfits : (crampedSession.after carelessRun).scene.Fits := by decide +kernel
  have hstops := (process_stops_at_first_unissued hreach hfits.exact).2.2.1 hfits
    [.reset ⟨1⟩ (.own Key.light), .reset ⟨2⟩ (.own Key.light), .remove ⟨2⟩] (.remove ⟨9⟩)
    [.remove ⟨1⟩, .move ⟨0⟩] rfl (by decide) (by decide)
  refine ⟨hreach, hfits.exact, hfits, hstops, ?_, ?_⟩
  · exact hstops.decided [] (.reset ⟨1⟩ (.own Key.light)) _ ⟨1⟩ rfl (by decide) (by decide)
  · exact hstops.decided [.reset ⟨1⟩ (.own Key.light), .reset ⟨2⟩ (.own Key.light)] (.remove ⟨2⟩)
      [] ⟨2⟩ rfl (by decide) (by decide)

/-- The only entry is good, and the phase fails. The slots for it cannot be
    had. -/
theorem process_fails_vastSession :
    (vastSession [{ removals := [⟨1⟩] }]).Reachable ∧
      (∃ fault, ((vastSession [{ removals := [⟨1⟩] }]).scene.process
          (vastSession [{ removals := [⟨1⟩] }]).keys).2.2 = .error fault) ∧
      ¬ ∃ c ∈ (vastSession [{ removals := [⟨1⟩] }]).scene.pending.changes,
        c.id.index = 0 ∨ (vastSession [{ removals := [⟨1⟩] }]).scene.allocatedCount < c.id.index :=
  ⟨reachable_vastSession _, ⟨.capacity, rfl⟩, by decide⟩

end Session

end SceneIndex
