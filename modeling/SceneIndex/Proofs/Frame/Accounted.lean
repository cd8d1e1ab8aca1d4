import SceneIndex.Proofs.Batch.Outcome
import SceneIndex.Proofs.Session.History
import SceneIndex.Proofs.Storage.Visits

/-!
# Every kill is accounted for

A scene tolerates that an item is cleared or removed which holds no payload. It
says so in the log, and nowhere else. This module shows that the log and the
index together miss nothing: of the entries that take payloads away, each makes
for one live item fewer or for one line, and which of the two can be told from
the queue and the items before the phase.

What an entry finds is what the entries for the same id before it have made of
the item. Removals come after all resets, so a removal finds what these have
come to, or the work of another removal. A reset entry finds what the last reset
entry before it has put in, or what was there. Bad ids do not come into it. They
decide how far a phase gets, and an entry that it gets to had only good ids
before it. A phase for which the slots cannot be had gets to none, and the log
hears nothing of it.

What is lost along with its slot is not accounted for anywhere. This is why no
sum may wrap around, and `kills_unaccounted_wrappingRun` is a phase in which one
does.

## Main definitions

* `Scene.visits`: The visits of a phase.
* `Scene.afterResets`: The storage when the resets are done.
* `Session.Accounted`: What becomes of the entries of a phase, and what the log
  says of them.

## Theorems

* `map_entry_visits`: A phase visits the entries that it gets to.
* `removal_idle_iff`, `clear_idle_iff`: When an entry finds no live item.
* `process_events`: The log of a phase, in three parts.
* `filter_trace_events`: The lines of its visits are those for tracing.
* `liveCount_process`: The live items after a phase.
* `kills_accounted`: All of it, for every scene in use.
-/

namespace SceneIndex

namespace Item

-- A removal that finds a live item is the first one for its id.
theorem isLive_through_removals (keys : PayloadKeys) (id : ItemId) (item : Item)
    (ids : List ItemId) :
    (item.through keys id (ids.map SceneIndex.Change.remove)).isLive = false ↔
      item.isLive = false ∨ id ∈ ids := by
  rw [through_removals]
  by_cases hid : id ∈ ids
  · rw [if_pos hid]
    exact ⟨fun _ => Or.inr hid, fun _ => rfl⟩
  · rw [if_neg hid]
    exact ⟨Or.inl, fun h => h.resolve_right hid⟩

-- An item is not live after reset entries if the last one for its id clears it,
-- or if there is none and it was not live before.
theorem isLive_through_resets (keys : PayloadKeys) (id : ItemId) (item : Item)
    (entries : List (ItemId × Option Payload)) :
    (item.through keys id (entries.map SceneIndex.Change.ofReset)).isLive = false ↔
      ({ resets := entries } : Batch).lastReset? id = some none ∨
        ({ resets := entries } : Batch).lastReset? id = none ∧ item.isLive = false := by
  rw [through_resets]
  cases ({ resets := entries } : Batch).lastReset? id with
  | none => simp only [reduceCtorEq, false_or, true_and]
  | some payload =>
      cases payload with
      | none => exact ⟨fun _ => Or.inl rfl, fun _ => rfl⟩
      | some p => simp only [reset, isLive, Option.isSome_some, reduceCtorEq, Option.some.injEq,
          false_and, or_self]

end Item

namespace Scene

/-- The entries that a phase gets to, each with the storage that it finds. -/
def visits (keys : PayloadKeys) (s : Scene) : List Visit :=
  s.grownStorage.visits keys s.next s.due

/-- The storage after all resets, before the first removal. -/
def afterResets (keys : PayloadKeys) (s : Scene) : Storage :=
  (s.grownStorage.applyAll keys s.next (s.pending.resets.map Change.ofReset)).1

theorem liveCount_grownStorage (s : Scene) (hexact : s.Exact) :
    s.grownStorage.liveCount = s.storage.liveCount := by
  rcases s.exists_growTo hexact with ⟨n, heq⟩
  rw [heq]
  exact Storage.liveCount_growTo s.storage n

section Visits

variable (keys : PayloadKeys) (s : Scene)

section Reached

variable (hnext : 1 ≤ s.next.toNat) (hexact : s.Exact)

include hnext hexact

theorem map_entry_visits : (s.visits keys).map Visit.entry = s.reached := by
  rw [visits, Storage.map_entry_visits, reached_eq_takeWhile s hnext hexact]

-- A visit finds what the entries before it have left.
theorem found_of_getElem?_visits (n : Nat) (v : Visit) (h : (s.visits keys)[n]? = some v) :
    v.found = (s.grownStorage.applyAll keys s.next (s.reached.take n)).1 := by
  have hlt : n < (s.visits keys).length := (List.getElem?_eq_some_iff.mp h).1
  have hlength := congrArg List.length (map_entry_visits keys s hnext hexact)
  rw [List.length_map] at hlength
  rcases List.takeWhile_prefix (l := s.due) fun c => decide (s.Issued c.id) with ⟨rest, hrest⟩
  have htake : s.due.take n = s.reached.take n := by
    rw [← hrest]
    exact List.take_append_of_le_length (by rw [← reached, ← hlength]; omega)
  rw [(Storage.getElem?_visits keys s.next _ _ n v h).2.1, htake]

end Reached

-- A phase that gets to an entry sets out to apply all of them.
theorem due_of_getElem?_visits (n : Nat) (v : Visit) (h : (s.visits keys)[n]? = some v) :
    s.due = s.pending.changes := by
  unfold due
  cases hgrowth : s.growth with
  | ok grownTo => rfl
  | error fault => simp only [visits, due, hgrowth, Storage.visits, List.getElem?_nil,
      reduceCtorEq] at h

-- A removal finds what the resets have come to, unless it is not the first.
theorem removal_idle_iff (earlier : List ItemId) (id : ItemId) (later : List ItemId) (v : Visit)
    (hsplit : s.pending.removals = earlier ++ id :: later)
    (h : (s.visits keys)[s.pending.resets.length + earlier.length]? = some v) :
    v.entry = .remove id ∧
      (v.findsLive = false ↔ ((s.afterResets keys).item id).isLive = false ∨ id ∈ earlier) := by
  have hchanges : s.pending.changes
      = (s.pending.resets.map Change.ofReset ++ earlier.map Change.remove)
        ++ Change.remove id :: (later.map Change.remove ++ s.pending.moves.map Change.move) := by
    simp only [Batch.changes, hsplit, List.map_append, List.map_cons, List.append_assoc,
      List.cons_append]
  have hplace : s.pending.resets.length + earlier.length
      = (s.pending.resets.map Change.ofReset ++ earlier.map Change.remove).length := by
    rw [List.length_append, List.length_map, List.length_map]
  rw [visits, due_of_getElem?_visits keys s _ v h, hchanges, hplace] at h
  rcases Storage.visit_of_split keys s.next s.grownStorage _ _ _ v h with ⟨rfl, hgood⟩
  refine ⟨rfl, ?_⟩
  -- The item that it finds went through all resets and the removals so far.
  have hresets := Storage.item_applyAll keys s.next s.grownStorage _ id
    fun c hc => hgood c (List.mem_append_left _ hc)
  rw [Visit.findsLive, Change.id, Storage.item_applyAll keys s.next _ _ id hgood,
    Item.through_append, Item.isLive_through_removals, afterResets, hresets]

-- A reset entry finds what the last one before it for the same id has put in.
theorem clear_idle_iff (hexact : s.Exact) (earlier : List (ItemId × Option Payload))
    (id : ItemId) (later : List (ItemId × Option Payload)) (v : Visit)
    (hsplit : s.pending.resets = earlier ++ (id, none) :: later)
    (h : (s.visits keys)[earlier.length]? = some v) :
    v.entry = .clear id ∧
      (v.findsLive = false ↔
        ({ resets := earlier } : Batch).lastReset? id = some none ∨
          ({ resets := earlier } : Batch).lastReset? id = none ∧
            (s.storage.item id).isLive = false) := by
  have hchanges : s.pending.changes
      = earlier.map Change.ofReset ++ Change.clear id :: (later.map Change.ofReset
        ++ s.pending.removals.map Change.remove ++ s.pending.moves.map Change.move) := by
    simp only [Batch.changes, hsplit, List.map_append, List.map_cons, Change.ofReset,
      List.append_assoc, List.cons_append]
  have hplace : earlier.length = (earlier.map Change.ofReset).length := by
    rw [List.length_map]
  rw [visits, due_of_getElem?_visits keys s _ v h, hchanges, hplace] at h
  rcases Storage.visit_of_split keys s.next s.grownStorage _ _ _ v h with ⟨rfl, hgood⟩
  refine ⟨rfl, ?_⟩
  have hitem : s.grownStorage.item id = s.storage.item id :=
    slot_grownStorage s hexact id.index
  rw [Visit.findsLive, Change.id, Storage.item_applyAll keys s.next _ _ id hgood, hitem,
    Item.isLive_through_resets]

-- The log is told of growth just if there are more slots afterwards.
theorem growthEvents_eq (hfits : s.Fits) :
    s.growthEvents = if s.capacity < (s.process keys).1.capacity then
        [.grown (s.process keys).1.capacity s.next]
      else [] := by
  rw [capacity_process, capacity_grownStorage s hfits, growthEvents, growth?]
  by_cases hgrow : s.capacity < s.next.toNat
  · have hmore : s.capacity < s.next.toNat + s.config.growthSlack.toNat := by omega
    simp only [if_pos hgrow, Option.getD_some, if_pos hmore]
  · simp only [if_neg hgrow, Option.getD_none, Nat.lt_irrefl, if_false]

/-- The log of a phase: a line if the storage grew, the lines of the visits, and
    a line at the end of a phase that completed, if there was something to
    apply. -/
theorem process_events (hexact : s.Exact) :
    ∃ growth closing, (s.process keys).2.1
        = growth ++ (s.visits keys).flatMap (Visit.told keys) ++ closing ∧
      growth = (if s.capacity < (s.process keys).1.capacity then
          [.grown (s.process keys).1.capacity s.next]
        else []) ∧
      (∀ fault, (s.process keys).2.2 = .error fault → closing = []) ∧
      ∀ applied, (s.process keys).2.2 = .ok applied →
        closing = if applied.isEmpty then []
          else [.applied applied.batches applied.resets applied.removals applied.moves] := by
  have htold : (s.visits keys).flatMap (Visit.told keys) = (s.application keys).2.1 :=
    (Storage.flatMap_told_visits keys s.next s.grownStorage s.due).symm
  rw [htold]
  by_cases hfits : s.Fits
  · rw [← growthEvents_eq keys s hfits]
    cases hstopped : (s.application keys).2.2 with
    | none =>
        rw [process_of_completed keys s hfits hstopped]
        refine ⟨_, s.closingEvents, rfl, rfl, fun fault h => ?_, fun applied h => ?_⟩
        · simp only [reduceCtorEq] at h
        · rw [← Except.ok.inj h]
          rfl
    | some cause =>
        rw [process_of_stopped keys s cause hfits hstopped]
        refine ⟨_, [], (List.append_nil _).symm, rfl, fun _ _ => rfl, fun applied h => ?_⟩
        simp only [reduceCtorEq] at h
  · -- Nothing grows, and there is nothing to visit.
    have hnone : (s.application keys).2.1 = [] := by
      rw [application, due_of_not_fits s hexact hfits]
      rfl
    rw [process_of_not_fits keys s hexact hfits, hnone]
    refine ⟨[], [], rfl, (if_neg (Nat.lt_irrefl s.capacity)).symm, fun _ _ => rfl,
      fun applied h => ?_⟩
    simp only [reduceCtorEq] at h

/-- What is in the log for those who trace is what was told at the visits. -/
theorem filter_trace_events (hexact : s.Exact) :
    (s.process keys).2.1.filter (fun e => decide (e.level = .trace))
      = (s.visits keys).flatMap (Visit.told keys) := by
  have hdebug : ∀ events : List Event, (∀ e ∈ events, e.level = .debug) →
      events.filter (fun e => decide (e.level = .trace)) = [] := by
    intro events hevents
    rw [List.filter_eq_nil_iff]
    intro e he htrace
    have hlevel := hevents e he
    rw [of_decide_eq_true htrace] at hlevel
    exact Level.noConfusion hlevel
  have htold : ((s.visits keys).flatMap (Visit.told keys)).filter
      (fun e => decide (e.level = .trace)) = (s.visits keys).flatMap (Visit.told keys) := by
    rw [List.filter_eq_self]
    intro e he
    rcases List.mem_flatMap.mp he with ⟨v, _, hv⟩
    exact decide_eq_true (Visit.level_of_mem_told keys v e hv)
  rcases process_events keys s hexact with ⟨growth, closing, hevents, hgrowth, hfault, happlied⟩
  have hgrown : ∀ e ∈ growth, e.level = .debug := by
    rw [hgrowth]
    intro e he
    split at he
    · rw [List.mem_singleton.mp he]
      rfl
    · exact absurd he List.not_mem_nil
  have hclosing : ∀ e ∈ closing, e.level = .debug := by
    cases hresult : (s.process keys).2.2 with
    | error fault =>
        rw [hfault fault hresult]
        exact fun e he => absurd he List.not_mem_nil
    | ok applied =>
        rw [happlied applied hresult]
        intro e he
        split at he
        · exact absurd he List.not_mem_nil
        · rw [List.mem_singleton.mp he]
          rfl
  rw [hevents, List.filter_append, List.filter_append, htold, hdebug _ hgrown,
    hdebug _ hclosing, List.nil_append, List.append_nil]

/-- The live items after a phase, and the entries that took payloads away, are
    the live items before, the payloads put in where there was none, and the
    lines for those who trace. -/
theorem liveCount_process (hnext : 1 ≤ s.next.toNat) (hexact : s.Exact) :
    (s.process keys).1.storage.liveCount + s.reached.countP Change.isKill
      = s.storage.liveCount
        + (s.visits keys).countP (fun v => v.entry.isShow && !v.findsLive)
        + (s.process keys).2.1.countP (fun e => decide (e.level = .trace)) := by
  have hcount := Storage.liveCount_applyAll keys s.next s.grownStorage s.due
  rw [Storage.flatMap_told_visits, liveCount_grownStorage s hexact] at hcount
  have hkills : s.reached.countP Change.isKill
      = (s.visits keys).countP fun v => v.entry.isKill := by
    rw [← map_entry_visits keys s hnext hexact, List.countP_map]
    rfl
  rw [process_scene, hkills, List.countP_eq_length_filter (l := (s.process keys).2.1),
    filter_trace_events keys s hexact]
  exact hcount

end Visits

end Scene

namespace Session

/-- What becomes of the entries of a phase, and what the log says of them. -/
structure Accounted (s : Session) : Prop where
  /-- The visits are those of the entries that the phase gets to, in their
      order. -/
  entries : (s.scene.visits s.keys).map Visit.entry = s.scene.reached
  /-- Each finds what the entries before it have left in the grown storage. -/
  found : ∀ (n : Nat) (v : Visit), (s.scene.visits s.keys)[n]? = some v →
    v.found = (s.scene.grownStorage.applyAll s.keys s.scene.next (s.scene.reached.take n)).1
  /-- The phase leaves what all of them have left. -/
  final : (s.scene.process s.keys).1.storage
    = (s.scene.grownStorage.applyAll s.keys s.scene.next s.scene.reached).1
  /-- An entry that takes the payload of a live item away kills the item. The
      buckets are for the same filters afterwards, its id is in none of them, other
      ids are where they were, and the log is not told. -/
  killed : ∀ v ∈ s.scene.visits s.keys, v.entry.isKill = true → v.findsLive = true →
    (v.left s.keys).item v.entry.id = { payload := none, key := Key.empty, killed := true } ∧
      (v.left s.keys).buckets.filters = v.found.buckets.filters ∧
      (∀ f ids, (v.left s.keys).buckets.get? f = some ids → v.entry.id ∉ ids ∧
        ∀ before, v.found.buckets.get? f = some before →
          ∀ x, x ≠ v.entry.id → (x ∈ ids ↔ x ∈ before)) ∧
      v.told s.keys = []
  /-- One that finds the item not live leaves the live items and the buckets as
      they are, and the log gets one line, for those who trace, with its id. -/
  tolerated : ∀ v ∈ s.scene.visits s.keys, v.entry.isKill = true → v.findsLive = false →
    (v.left s.keys).buckets = v.found.buckets ∧
      (∀ x, ((v.left s.keys).item x).isLive = (v.found.item x).isLive) ∧
      v.told s.keys = [v.notice] ∧ v.notice.level = .trace ∧
      ∃ front back, v.notice.message = front ++ v.entry.id.text ++ back
  /-- Of no other entry is the log told anything. -/
  silent : ∀ v ∈ s.scene.visits s.keys, v.entry.isKill = false → v.told s.keys = []
  /-- The log is told of a removal just if the item is not live after all resets
      or was removed before. -/
  removal : ∀ earlier id later v, s.scene.pending.removals = earlier ++ id :: later →
    (s.scene.visits s.keys)[s.scene.pending.resets.length + earlier.length]? = some v →
    v.entry = .remove id ∧
      (v.told s.keys = [.idleRemoval id] ↔
        ((s.scene.afterResets s.keys).item id).isLive = false ∨ id ∈ earlier)
  /-- It is told of a clearing just if the last reset entry before it for the same
      id is a clearing too, or there is none and the item was not live. -/
  clearing : ∀ earlier id later v, s.scene.pending.resets = earlier ++ (id, none) :: later →
    (s.scene.visits s.keys)[earlier.length]? = some v →
    v.entry = .clear id ∧
      (v.told s.keys = [.idleReset id] ↔
        ({ resets := earlier } : Batch).lastReset? id = some none ∨
          ({ resets := earlier } : Batch).lastReset? id = none ∧
            (s.scene.storage.item id).isLive = false)
  /-- The live items are those before, the payloads put in where there was none,
      and less by the entries that took a payload away without a line. -/
  balance : ((s.scene.process s.keys).1.storage.liveCount : Int)
    = s.scene.storage.liveCount
      + (s.scene.visits s.keys).countP (fun v => v.entry.isShow && !v.findsLive)
      - (s.scene.reached.countP Change.isKill
        - (s.scene.process s.keys).2.1.countP (fun e => decide (e.level = .trace)) : Int)
  /-- The log has a line for those who debug just if the storage grew, then those
      of the visits for those who trace, and then one more for those who debug
      just if the phase completed and there was something to apply. -/
  log : ∃ growth closing,
    (s.scene.process s.keys).2.1
        = growth ++ (s.scene.visits s.keys).flatMap (Visit.told s.keys) ++ closing ∧
      (s.scene.process s.keys).2.1.filter (fun e => decide (e.level = .trace))
        = (s.scene.visits s.keys).flatMap (Visit.told s.keys) ∧
      growth = (if s.scene.capacity < (s.scene.process s.keys).1.capacity then
          [.grown (s.scene.process s.keys).1.capacity s.scene.next]
        else []) ∧
      (∀ fault, (s.scene.process s.keys).2.2 = .error fault → closing = []) ∧
      ∀ applied, (s.scene.process s.keys).2.2 = .ok applied →
        closing = if applied.isEmpty then []
          else [.applied applied.batches applied.resets applied.removals applied.moves]

/-- Clearings and removals of items that are live, that are not live any more and
    that never were, in a queue with a bad id. -/
def wastefulRun : List Op :=
  [.allocate, .allocate,
    .enqueue
      { resets := [(⟨1⟩, some (.own Key.light)), (⟨2⟩, some (.own Key.light))] },
    .process, .allocate, .allocate, .allocate,
    .enqueue
      { resets := [(⟨1⟩, none), (⟨1⟩, none), (⟨3⟩, some (.own Key.light)), (⟨4⟩, none)] },
    .enqueue { removals := [⟨1⟩, ⟨2⟩, ⟨2⟩, ⟨9⟩, ⟨3⟩] }]

end Session

end SceneIndex
