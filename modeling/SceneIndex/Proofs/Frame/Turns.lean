import Mathlib.Algebra.GroupWithZero.Nat
import SceneIndex.Proofs.Batch.Outcome
import SceneIndex.Proofs.Session.Index

/-!
# Turns: batches handed in between apply phases

Where the phases fall among the batches makes no difference.

While producers hand in batches, a renderer applies whatever waits, and ids
are given out to whoever asks. Each of these is a turn. The state between two
turns depends on how many phases there were so far, and so do the slots, since
a batch that was handed in may or may not be applied. `forecast` is what does
not depend on it: what an item would be if the queue were applied now. A batch
that is handed in acts on the forecast, and a phase leaves it alone.

`ahead` is the other thing that turns leave alone, or nearly so. It lists the
batches that wait and those still to come. A turn takes nothing up into it and
changes no order, so what was known of all these batches at the start is known
of them at any time.

All this is said of turns among which no phase wants for slots.

Counting goes the same way. A phase reports exactly what it took from the
queue, so what was reported and what still waits add up to what was handed in,
in any measure in which a phase reports the sum over its queue.

## Main definitions

* `Turn`: A batch handed in, a phase, or an id given out.
* `Session.forecast`: What an item would be if the queue were applied.
* `Session.ahead`: The batches that wait and those to come.
* `Turn.schedule`: The turns, and a phase at the end.
* `Session.reports`: What the completed phases report.

## Theorems

* `ahead_step`: A turn adds nothing to the batches ahead.
* `forecast_enqueue`, `forecast_process`, `forecast_allocate`: The forecast
  turn by turn.
* `forecast_turns`: It is the outcome of all batches joined.
* `phases_complete`: All phases go through.
* `tally_turns`: Nothing is lost and nothing is counted twice.
* `item_schedule`, `tally_schedule`: The same once a phase came last.
-/

namespace SceneIndex

/-- What may happen while producers are at work: one of them hands in a batch,
    the queue is applied, or an id is given out. -/
inductive Turn (ι : Type) where
  | submit (producer : ι) (batch : Batch)
  | process
  | allocate

namespace Turn

variable {ι : Type}

/-- A turn as an operation on the session, which does not see who the producer
    is. -/
def op : Turn ι → Session.Op
  | submit _ batch => .enqueue batch
  | process => .process
  | allocate => .allocate

/-- The batch that is handed in, if it is that kind of turn. -/
def batch? : Turn ι → Option Batch
  | submit _ batch => some batch
  | process => none
  | allocate => none

/-- The batches handed in, in their order. -/
def submitted (turns : List (Turn ι)) : List Batch := turns.filterMap batch?

/-- The turns as operations, with a phase at the end. -/
def schedule (turns : List (Turn ι)) : List Session.Op := (turns ++ [process]).map op

theorem submitted_schedule (turns : List (Turn ι)) :
    submitted (turns ++ [process]) = submitted turns := by
  rw [submitted, List.filterMap_append]
  exact List.append_nil _

end Turn

namespace Session

variable {ι : Type}

/-- What the item of an id would be if the queue were applied now. -/
def forecast (s : Session) (id : ItemId) : Item :=
  s.scene.pending.outcome s.keys id (s.scene.storage.item id)

/-- The batches that wait and those still to come. -/
def ahead (s : Session) (turns : List (Turn ι)) : List Batch :=
  s.scene.queue ++ Turn.submitted turns

/-- What a completed phase reports. -/
def Answer.report? : Answer → Option Applied
  | applied (.ok summary) => some summary
  | _ => none

/-- What the completed phases among the answers report. -/
def reports (answers : List Answer) : List Applied := answers.filterMap Answer.report?

/-- A turn takes batches from those ahead and adds none. -/
theorem ahead_step (s : Session) (turn : Turn ι) (rest : List (Turn ι)) :
    ((s.step turn.op).session.ahead rest).Sublist (s.ahead (turn :: rest)) := by
  cases turn with
  | submit producer batch =>
      change ((s.scene.queue ++ [batch]) ++ Turn.submitted rest).Sublist
        (s.scene.queue ++ (batch :: Turn.submitted rest))
      rw [List.append_assoc]
      exact List.Sublist.refl _
  | process =>
      rw [Turn.op, ahead, scene_process]
      exact List.sublist_append_right _ _
  | allocate =>
      rcases s.step_allocate with ⟨_, _, heq, _⟩
      rw [Turn.op, heq]
      exact List.Sublist.refl _

theorem knows_step (s : Session) (turn : Turn ι) (rest : List (Turn ι))
    (h : s.scene.Knows (s.ahead (turn :: rest))) :
    (s.step turn.op).session.scene.Knows ((s.step turn.op).session.ahead rest) := by
  intro b hb c hc
  exact issued_step s turn.op c.id (h b ((ahead_step s turn rest).subset hb) c hc)

theorem knows_queue (s : Session) (turns : List (Turn ι)) (h : s.scene.Knows (s.ahead turns)) :
    s.scene.Knows s.scene.queue :=
  fun b hb => h b (List.mem_append_left _ hb)

-- Turns leave the keys of the payloads alone.
theorem keys_step (s : Session) (turn : Turn ι) : (s.step turn.op).session.keys = s.keys := by
  cases turn with
  | submit producer batch => rfl
  | process => rfl
  | allocate =>
      rcases s.step_allocate with ⟨_, _, heq, _⟩
      rw [Turn.op, heq]

theorem forecast_of_idle (s : Session) (id : ItemId) (h : s.scene.queue = []) :
    s.forecast id = s.scene.storage.item id := by
  rw [forecast, Scene.pending, h]
  exact Batch.outcome_join_nil s.keys id _

/-- A batch that is handed in acts on the forecast, unless it resets what a
    waiting batch removes. -/
theorem forecast_enqueue (s : Session) (b : Batch) (id : ItemId)
    (h : ∀ a ∈ s.scene.queue, ¬ Batch.Revives a b id) :
    (s.step (.enqueue b)).session.forecast id = b.outcome s.keys id (s.forecast id) := by
  have hpending : (s.step (.enqueue b)).session.scene.pending = s.scene.pending.merge b := by
    change Batch.join (s.scene.queue ++ [b]) = _
    rw [Batch.join_append, Batch.join_singleton]
    rfl
  have hnot : ¬ Batch.Revives s.scene.pending b id := by
    intro hrev
    rcases Batch.revives_join_left _ b id hrev with ⟨a, ha, hab⟩
    exact h a ha hab
  rw [forecast, hpending]
  exact Batch.outcome_merge s.keys s.scene.pending b id _ hnot

/-- A phase makes the forecast true. -/
theorem forecast_process (s : Session) (hs : s.Sound) (hfits : s.scene.Fits)
    (h : s.scene.Knows s.scene.queue) (id : ItemId) :
    (s.step .process).session.forecast id = s.forecast id := by
  have hitem := Scene.item_application s.keys s.scene hs.next_pos hfits h.pending id
  rw [Item.through_changes] at hitem
  rw [forecast_of_idle _ id (by rw [scene_process]), scene_process]
  exact hitem

theorem forecast_allocate (s : Session) (id : ItemId) :
    (s.step .allocate).session.forecast id = s.forecast id := by
  rcases s.step_allocate with ⟨_, _, heq, _⟩
  rw [heq]
  rfl

/-- The forecast after turns is what all the batches handed in come to, joined
    in their order, wherever the phases fell. -/
theorem forecast_turns (s : Session) (turns : List (Turn ι)) (id : ItemId) (hs : s.Sound)
    (hfitting : s.Fitting (turns.map Turn.op)) (hknown : s.scene.Knows (s.ahead turns))
    (hordered : (s.ahead turns).Pairwise fun a b => ¬ Batch.Revives a b id) :
    (s.after (turns.map Turn.op)).forecast id
      = (Batch.join (Turn.submitted turns)).outcome s.keys id (s.forecast id) := by
  -- What is ahead only gets shorter, so the conditions hold again after the
  -- first turn.
  induction turns generalizing s with
  | nil => exact (Batch.outcome_join_nil s.keys id _).symm
  | cons turn rest ih =>
      have hnow : turn.op = .process → s.scene.Fits := hfitting.1
      have ih' := ih (s.step turn.op).session
        (sound_step s turn.op (fun hop => (hnow hop).exact) hs) hfitting.2
        (knows_step s turn rest hknown) (hordered.sublist (ahead_step s turn rest))
      rw [List.map_cons, after_cons, ih', keys_step]
      cases turn with
      | submit producer batch =>
          -- The batch resets nothing that a waiting one removes, and no later
          -- one resets what this one removes.
          rcases List.pairwise_append.mp hordered with ⟨_, hlater, hwaiting⟩
          have hfirst : ∀ a ∈ s.scene.queue, ¬ Batch.Revives a batch id :=
            fun a ha => hwaiting a ha batch List.mem_cons_self
          have hrest : ¬ Batch.Revives batch (Batch.join (Turn.submitted rest)) id := by
            intro hrev
            rcases Batch.revives_join_right batch _ id hrev with ⟨b, hb, hab⟩
            exact (List.pairwise_cons.mp hlater).1 b hb hab
          have hjoin : Batch.join (Turn.submitted (.submit producer batch :: rest))
              = batch.merge (Batch.join (Turn.submitted rest)) := Batch.join_cons batch _
          rw [hjoin, Batch.outcome_merge s.keys batch _ id _ hrest]
          exact congrArg _ (forecast_enqueue s batch id hfirst)
      | process =>
          exact congrArg _ (forecast_process s hs (hnow rfl) (knows_queue s _ hknown) id)
      | allocate => exact congrArg _ (forecast_allocate s id)

-- A phase on known ids reports what the queue held.
theorem answer_process (s : Session) (hs : s.Sound) (hfits : s.scene.Fits)
    (h : s.scene.Knows s.scene.queue) :
    (s.step .process).answer = .applied (.ok s.scene.summary) := by
  have hdone := Scene.application_completed s.keys s.scene hs.next_pos hfits h.pending
  change Answer.applied (s.scene.process s.keys).2.2 = _
  rw [Scene.process_of_completed s.keys s.scene hfits hdone]

/-- All phases among the turns go through. -/
theorem phases_complete (s : Session) (turns : List (Turn ι)) (hs : s.Sound)
    (hfitting : s.Fitting (turns.map Turn.op)) (hknown : s.scene.Knows (s.ahead turns)) (result : Except Fault Applied)
    (h : Answer.applied result ∈ s.answers (turns.map Turn.op)) :
    ∃ summary, result = .ok summary := by
  induction turns generalizing s with
  | nil => exact absurd h List.not_mem_nil
  | cons turn rest ih =>
      have hfits : turn.op = .process → s.scene.Fits := hfitting.1
      rcases List.mem_cons.mp h with hnow | hlater
      · cases turn with
        | submit producer batch => simp only [Turn.op, step, reduceCtorEq] at hnow
        | process =>
            rw [Turn.op, answer_process s hs (hfits rfl) (knows_queue s _ hknown),
              Answer.applied.injEq] at hnow
            exact ⟨_, hnow⟩
        | allocate =>
            rcases s.step_allocate with ⟨_, _, heq, _⟩
            simp only [Turn.op, heq, reduceCtorEq] at hnow
      · exact ih _ (sound_step s turn.op (fun hop => (hfits hop).exact) hs) hfitting.2
          (knows_step s turn rest hknown) hlater

section Tally

variable (measure : Batch → Nat) (reported : Applied → Nat)
  (hmeasure : ∀ s : Scene, reported s.summary = (s.queue.map measure).sum)

theorem tally_cons (answer : Answer) (rest : List Answer) :
    ((reports (answer :: rest)).map reported).sum
      = (answer.report?.map reported).getD 0 + ((reports rest).map reported).sum := by
  cases hreport : answer.report? with
  | none => simp only [reports, List.filterMap_cons, hreport, Option.map_none, Option.getD_none,
      Nat.zero_add]
  | some summary => simp only [reports, List.filterMap_cons, hreport, List.map_cons,
      List.sum_cons, Option.map_some, Option.getD_some]

include hmeasure

-- What a turn takes from the batches ahead, it reports.
theorem tally_step (s : Session) (turn : Turn ι) (rest : List (Turn ι)) (hs : s.Sound)
    (hfits : turn.op = .process → s.scene.Fits) (hknown : s.scene.Knows s.scene.queue) :
    ((s.step turn.op).answer.report?.map reported).getD 0
        + (((s.step turn.op).session.ahead rest).map measure).sum
      = ((s.ahead (turn :: rest)).map measure).sum := by
  cases turn with
  | submit producer batch =>
      change 0 + (((s.scene.queue ++ [batch]) ++ Turn.submitted rest).map measure).sum
        = ((s.scene.queue ++ (batch :: Turn.submitted rest)).map measure).sum
      rw [List.append_assoc, Nat.zero_add]
      rfl
  | process =>
      -- The queue goes from what is ahead into the report.
      have hleft : (s.step (Turn.process : Turn ι).op).session.ahead rest
          = Turn.submitted rest := by
        rw [Turn.op, ahead, scene_process, List.nil_append]
      rw [hleft, Turn.op, answer_process s hs (hfits rfl) hknown]
      change reported s.scene.summary + _
        = ((s.scene.queue ++ Turn.submitted rest).map measure).sum
      rw [hmeasure, List.map_append, List.sum_append]
  | allocate =>
      rcases s.step_allocate with ⟨_, _, heq, _⟩
      rw [Turn.op, heq]
      exact Nat.zero_add _

/-- What was reported and what still waits add up to what waited at the start
    and what was handed in since. This holds in any measure in which a phase
    reports the sum over the queue. -/
theorem tally_turns (s : Session) (turns : List (Turn ι)) (hs : s.Sound)
    (hfitting : s.Fitting (turns.map Turn.op)) (hknown : s.scene.Knows (s.ahead turns)) :
    ((reports (s.answers (turns.map Turn.op))).map reported).sum
        + ((s.after (turns.map Turn.op)).scene.queue.map measure).sum
      = ((s.ahead turns).map measure).sum := by
  induction turns generalizing s with
  | nil =>
      change 0 + (s.scene.queue.map measure).sum = ((s.scene.queue ++ []).map measure).sum
      rw [Nat.zero_add, List.append_nil]
  | cons turn rest ih =>
      have hfits : turn.op = .process → s.scene.Fits := hfitting.1
      have hstep := tally_step measure reported hmeasure s turn rest hs hfits
        (knows_queue s _ hknown)
      have ih' := ih (s.step turn.op).session
        (sound_step s turn.op (fun hop => (hfits hop).exact) hs) hfitting.2
        (knows_step s turn rest hknown)
      rw [List.map_cons, after_cons, answers, tally_cons]
      omega

end Tally

section Schedule

variable (s : Session) (turns : List (Turn ι))

theorem after_schedule :
    s.after (Turn.schedule turns)
      = ((s.after (turns.map Turn.op)).step .process).session := by
  rw [Turn.schedule, List.map_append, after_append]
  rfl

theorem filters_schedule (f : Filter) :
    f ∈ (s.after (Turn.schedule turns)).scene.storage.buckets.filters ↔
      f ∈ s.scene.storage.buckets.filters := by
  rw [mem_filters_after]
  refine ⟨fun h => h.resolve_right fun hop => ?_, Or.inl⟩
  -- No turn adds a bucket.
  rcases List.mem_map.mp hop with ⟨turn, _, heq⟩
  cases turn <;> simp only [Turn.op, reduceCtorEq] at heq

theorem queue_schedule : (s.after (Turn.schedule turns)).scene.queue = [] := by
  rw [after_schedule, scene_process]

-- After the phase at the end every id that was given out has a slot.
theorem index_lt_capacity_schedule (hfitting : s.Fitting (Turn.schedule turns)) (id : ItemId)
    (h : s.scene.Issued id) :
    id.index < (s.after (Turn.schedule turns)).scene.storage.capacity := by
  rw [Fitting, Turn.schedule, List.map_append, phases_append] at hfitting
  have hissued := issued_after s (turns.map Turn.op) id h
  rw [after_schedule, scene_process]
  exact Scene.index_lt_capacity_application _ _ (hfitting.2.1 rfl) id hissued

theorem ahead_schedule (hqueue : s.scene.queue = []) :
    s.ahead (turns ++ [.process]) = Turn.submitted turns := by
  rw [ahead, hqueue, Turn.submitted_schedule, List.nil_append]

theorem item_schedule (id : ItemId) (hs : s.Sound)
    (hfitting : s.Fitting (Turn.schedule turns)) (hqueue : s.scene.queue = [])
    (hknown : s.scene.Knows (Turn.submitted turns))
    (hordered : (Turn.submitted turns).Pairwise fun a b => ¬ Batch.Revives a b id) :
    (s.after (Turn.schedule turns)).scene.storage.item id
      = (Batch.join (Turn.submitted turns)).outcome s.keys id (s.scene.storage.item id) := by
  -- Nothing waits at either end, so both forecasts are the items themselves.
  have hahead := ahead_schedule s turns hqueue
  have hforecast := forecast_turns s (turns ++ [Turn.process]) id hs hfitting
    (hahead.symm ▸ hknown) (hahead.symm ▸ hordered)
  rw [Turn.submitted_schedule, forecast_of_idle s id hqueue] at hforecast
  rw [← hforecast]
  exact (forecast_of_idle _ id (queue_schedule s turns)).symm

theorem tally_schedule (measure : Batch → Nat) (reported : Applied → Nat)
    (hmeasure : ∀ s : Scene, reported s.summary = (s.queue.map measure).sum) (hs : s.Sound)
    (hfitting : s.Fitting (Turn.schedule turns)) (hqueue : s.scene.queue = [])
    (hknown : s.scene.Knows (Turn.submitted turns)) :
    ((reports (s.answers (Turn.schedule turns))).map reported).sum
      = ((Turn.submitted turns).map measure).sum := by
  have hahead := ahead_schedule s turns hqueue
  have htally := tally_turns measure reported hmeasure s (turns ++ [Turn.process]) hs hfitting
    (hahead.symm ▸ hknown)
  -- Nothing waits at the end, so all of it was reported.
  have hidle : (s.after ((turns ++ [Turn.process]).map Turn.op)).scene.queue = [] :=
    queue_schedule s turns
  rw [hidle, hahead] at htally
  exact htally

end Schedule

end Session

end SceneIndex
