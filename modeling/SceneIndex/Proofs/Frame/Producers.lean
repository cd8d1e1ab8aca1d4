import Mathlib.Algebra.BigOperators.Group.Finset.Basic
import Mathlib.Data.Fintype.BigOperators
import SceneIndex.Proofs.Frame.Turns

/-!
# Producers converge

Several producers at work on one scene come to the same result, however they
are scheduled.

Each producer has its own list of batches and hands them in one after the
other. Nothing else is fixed. Batches of different producers may come in any
order, ids may be given out and phases may run at any time. What is asked of
the producers is that no two of them reset or remove the same item, and that
none resets an item in a batch after one in which it removed it.

The slots then depend on the lists alone. By `forecast_turns` an item is the
outcome of all batches joined in the order in which they came. The entries
that touch the item all belong to its owner, and they stand in the order of
the owner's list, so another schedule has the same entries in the same order.
Buckets follow, being in step with the slots.

The second condition cannot be dropped. With a phase between the removal and
the reset the item is live in the end, and without one the reset is undone,
since all removals of a phase come after its resets. Nor can it be dropped that
the phases have the slots they need, for one that has not loses what waits, and
`batches_lost_vastSession` shows such a loss.

## Main definitions

* `Turn.submittedBy`: The batches that one producer handed in.
* `Turn.Interleaves`: Each producer handed in its own list.

## Theorems

* `pairwise_submitted`: What holds within and across producers holds of all
  batches in turn.
* `flatMap_submitted`: What only one producer contributes to.
* `sum_submitted`: A sum over all batches, producer by producer.
* `outcome_of_owner`, `outcome_of_unowned`, `outcome_interleaved`: What an item
  comes to in any schedule.
* `producers_converge`: So slots, buckets and totals are the same in all.
-/

namespace SceneIndex

-- A batch of known ids touches known items.
theorem Scene.Knows.issued_of_touched {s : Scene} {batches : List Batch} (h : s.Knows batches)
    (b : Batch) (hb : b ∈ batches) (id : ItemId) (hid : id ∈ b.touched) : s.Issued id := by
  rcases List.mem_append.mp hid with hreset | hremoval
  · rcases List.mem_map.mp hreset with ⟨entry, hentry, rfl⟩
    have hissued := h b hb (Change.ofReset entry)
      ((Batch.mem_changes b _).mpr (Or.inl ⟨entry, hentry, rfl⟩))
    rw [Batch.id_ofReset] at hissued
    exact hissued
  · exact h b hb (.remove id)
      ((Batch.mem_changes b _).mpr (Or.inr (Or.inl ⟨id, hremoval, rfl⟩)))

namespace Turn

variable {ι : Type} [DecidableEq ι]

/-- The batch that this producer hands in, if it is that kind of turn. -/
def batchOf? (p : ι) : Turn ι → Option Batch
  | submit q batch => if q = p then some batch else none
  | process => none
  | allocate => none

/-- The batches that one producer handed in, in their order. -/
def submittedBy (p : ι) (turns : List (Turn ι)) : List Batch := turns.filterMap (batchOf? p)

/-- The turns are a schedule of the producers' work: each has handed in its
    own list, and nobody else has handed in anything. -/
def Interleaves (producers : ι → List Batch) (turns : List (Turn ι)) : Prop :=
  ∀ p, submittedBy p turns = producers p

theorem submittedBy_self (p : ι) (b : Batch) (rest : List (Turn ι)) :
    submittedBy p (submit p b :: rest) = b :: submittedBy p rest := by
  simp only [submittedBy, List.filterMap_cons, batchOf?, if_true]

theorem submittedBy_other (p q : ι) (b : Batch) (rest : List (Turn ι)) (h : q ≠ p) :
    submittedBy p (submit q b :: rest) = submittedBy p rest := by
  simp only [submittedBy, List.filterMap_cons, batchOf?, if_neg h]

theorem submittedBy_cons (p : ι) (turn : Turn ι) (rest : List (Turn ι)) :
    (submittedBy p rest).Sublist (submittedBy p (turn :: rest)) :=
  (List.sublist_cons_self turn rest).filterMap _

theorem mem_submitted (turns : List (Turn ι)) (b : Batch) :
    b ∈ submitted turns ↔ ∃ p, b ∈ submittedBy p turns := by
  simp only [submitted, submittedBy, List.mem_filterMap]
  constructor
  · rintro ⟨turn, hturn, hb⟩
    cases turn with
    | submit q batch => exact ⟨q, submit q batch, hturn, (if_pos rfl).trans hb⟩
    | process => simp only [batch?, reduceCtorEq] at hb
    | allocate => simp only [batch?, reduceCtorEq] at hb
  · rintro ⟨p, turn, hturn, hb⟩
    cases turn with
    | submit q batch =>
        by_cases hq : q = p
        · exact ⟨submit q batch, hturn, (if_pos hq).symm.trans hb⟩
        · simp only [batchOf?, if_neg hq, reduceCtorEq] at hb
    | process => simp only [batchOf?, reduceCtorEq] at hb
    | allocate => simp only [batchOf?, reduceCtorEq] at hb

/-- What holds between earlier and later batches of each producer, and between
    any batches of two producers, holds between all batches in turn. -/
theorem pairwise_submitted (R : Batch → Batch → Prop) (turns : List (Turn ι))
    (hown : ∀ p, (submittedBy p turns).Pairwise R)
    (hcross : ∀ p q, p ≠ q → ∀ a ∈ submittedBy p turns, ∀ b ∈ submittedBy q turns, R a b) :
    (submitted turns).Pairwise R := by
  induction turns with
  | nil => exact List.Pairwise.nil
  | cons turn rest ih =>
      have hrest := ih (fun p => (hown p).sublist (submittedBy_cons p turn rest))
        fun p q hpq a ha b hb => hcross p q hpq a ((submittedBy_cons p turn rest).subset ha)
          b ((submittedBy_cons q turn rest).subset hb)
      cases turn with
      | submit q batch =>
          refine List.pairwise_cons.mpr ⟨fun b hb => ?_, hrest⟩
          -- A later batch is the same producer's or another's.
          rcases (mem_submitted rest b).mp hb with ⟨p, hp⟩
          by_cases hpq : q = p
          · have hfirst := hown p
            rw [hpq, submittedBy_self] at hfirst
            exact (List.pairwise_cons.mp hfirst).1 b hp
          · refine hcross q p hpq batch ?_ b ((submittedBy_cons p _ rest).subset hp)
            rw [submittedBy_self]
            exact List.mem_cons_self
      | process => exact hrest
      | allocate => exact hrest

-- If the batches of all other producers contribute nothing, what is collected
-- from all batches is collected from those of the one.
theorem flatMap_submitted {β : Type} (g : Batch → List β) (p : ι) (turns : List (Turn ι))
    (h : ∀ q, q ≠ p → ∀ b ∈ submittedBy q turns, g b = []) :
    (submitted turns).flatMap g = (submittedBy p turns).flatMap g := by
  induction turns with
  | nil => rfl
  | cons turn rest ih =>
      have hrest := ih fun q hq b hb => h q hq b ((submittedBy_cons q turn rest).subset hb)
      cases turn with
      | submit q batch =>
          change (batch :: submitted rest).flatMap g = _
          rw [List.flatMap_cons, hrest]
          -- A batch counts on both sides, or it is another producer's and
          -- contributes nothing.
          by_cases hq : q = p
          · rw [hq, submittedBy_self, List.flatMap_cons]
          · have hnone : g batch = [] := by
              refine h q hq batch ?_
              rw [submittedBy_self]
              exact List.mem_cons_self
            rw [submittedBy_other p q batch rest hq, hnone, List.nil_append]
      | process => exact hrest
      | allocate => exact hrest

-- A sum over all batches is the sum of the producers' own sums.
theorem sum_submitted [Fintype ι] (measure : Batch → Nat) (turns : List (Turn ι)) :
    ((submitted turns).map measure).sum
      = ∑ p, ((submittedBy p turns).map measure).sum := by
  induction turns with
  | nil => exact Finset.sum_const_zero.symm
  | cons turn rest ih =>
      cases turn with
      | submit q batch =>
          -- The batch adds to one producer's sum.
          have hsplit : ∀ p, ((submittedBy p (submit q batch :: rest)).map measure).sum
              = (if q = p then measure batch else 0)
                + ((submittedBy p rest).map measure).sum := by
            intro p
            by_cases hq : q = p
            · rw [hq, submittedBy_self, if_pos rfl, List.map_cons, List.sum_cons]
            · rw [submittedBy_other p q batch rest hq, if_neg hq, Nat.zero_add]
          change ((batch :: submitted rest).map measure).sum = _
          rw [List.map_cons, List.sum_cons, ih, Finset.sum_congr rfl fun p _ => hsplit p,
            Finset.sum_add_distrib, Finset.sum_ite_eq, if_pos (Finset.mem_univ q)]
      | process => exact ih
      | allocate => exact ih

-- Only one producer touches the item, so all batches come to what that
-- producer's batches come to.
theorem outcome_of_only (keys : PayloadKeys) (p : ι) (turns : List (Turn ι)) (id : ItemId)
    (item : Item) (h : ∀ q, q ≠ p → ∀ b ∈ submittedBy q turns, id ∉ b.touched) :
    (Batch.join (submitted turns)).outcome keys id item
      = (Batch.join (submittedBy p turns)).outcome keys id item := by
  refine Batch.outcome_congr keys _ _ id item ?_ ?_
  · -- The resets for the id, in their order.
    simp only [Batch.join, List.filter_flatMap]
    refine flatMap_submitted _ p turns fun q hq b hb => ?_
    rw [List.filter_eq_nil_iff]
    intro entry hentry heq
    have hid : id ∈ b.resets.map Prod.fst :=
      List.mem_map.mpr ⟨entry, hentry, of_decide_eq_true heq⟩
    exact h q hq b hb (List.mem_append_left _ hid)
  · -- Of the removals it counts only whether there is one.
    rw [Batch.mem_removals_join, Batch.mem_removals_join]
    constructor
    · rintro ⟨b, hb, hid⟩
      rcases (mem_submitted turns b).mp hb with ⟨q, hq⟩
      by_cases hqp : q = p
      · exact ⟨b, hqp ▸ hq, hid⟩
      · exact absurd (List.mem_append_right _ hid) (h q hqp b hq)
    · rintro ⟨b, hb, hid⟩
      exact ⟨b, (mem_submitted turns b).mpr ⟨p, hb⟩, hid⟩

section Interleaves

variable {producers : ι → List Batch} {turns : List (Turn ι)}

theorem Interleaves.exists_producer (h : Interleaves producers turns) (b : Batch)
    (hb : b ∈ submitted turns) : ∃ p, b ∈ producers p := by
  rcases (mem_submitted turns b).mp hb with ⟨p, hp⟩
  rw [h p] at hp
  exact ⟨p, hp⟩

theorem Interleaves.knows (h : Interleaves producers turns) (s : Scene)
    (hissued : ∀ p, s.Knows (producers p)) : s.Knows (submitted turns) := by
  intro b hb
  rcases h.exists_producer b hb with ⟨p, hp⟩
  exact hissued p b hp

-- An item that one batch removes and another resets is touched by both, so
-- both belong to the same producer.
theorem Interleaves.not_revives (h : Interleaves producers turns)
    (howned : ∀ p q, ∀ a ∈ producers p, ∀ b ∈ producers q, ∀ id ∈ a.touched,
      id ∈ b.touched → p = q)
    (hordered : ∀ p, (producers p).Pairwise fun a b =>
      ∀ id ∈ a.removals, id ∉ b.resets.map Prod.fst) (id : ItemId) :
    (submitted turns).Pairwise fun a b => ¬ Batch.Revives a b id := by
  refine pairwise_submitted _ turns (fun p => ?_) fun p q hpq a ha b hb hrev => ?_
  · rw [h p]
    exact (hordered p).imp fun hab hrev => hab id hrev.1 hrev.2
  · rw [h p] at ha
    rw [h q] at hb
    exact hpq (howned p q a ha b hb id (List.mem_append_right _ hrev.1)
      (List.mem_append_left _ hrev.2))

theorem Interleaves.sum [Fintype ι] (h : Interleaves producers turns) (measure : Batch → Nat) :
    ((submitted turns).map measure).sum = ∑ p, ((producers p).map measure).sum := by
  rw [sum_submitted]
  exact Finset.sum_congr rfl fun p _ => by rw [h p]

end Interleaves

section Owned

variable (keys : PayloadKeys) {producers : ι → List Batch} {turns : List (Turn ι)}
  (h : Interleaves producers turns)

include h

/-- In any schedule an item comes to what the batches of its owner come to. -/
theorem outcome_of_owner (howned : ∀ p q, ∀ a ∈ producers p, ∀ b ∈ producers q,
      ∀ id ∈ a.touched, id ∈ b.touched → p = q)
    (p : ι) (a : Batch) (ha : a ∈ producers p) (id : ItemId) (hid : id ∈ a.touched)
    (item : Item) :
    (Batch.join (submitted turns)).outcome keys id item
      = (Batch.join (producers p)).outcome keys id item := by
  -- A batch that touches the item is its owner's, and the owner's list is the
  -- same in every schedule.
  rw [outcome_of_only keys p turns id item fun q hq b hb hbid => ?_, h p]
  rw [h q] at hb
  exact hq (howned q p b hb a ha id hbid hid)

/-- An item that no producer touches is what it was. -/
theorem outcome_of_unowned (id : ItemId) (hid : ∀ p, ∀ a ∈ producers p, id ∉ a.touched)
    (item : Item) : (Batch.join (submitted turns)).outcome keys id item = item := by
  refine Batch.outcome_of_untouched keys _ id item fun htouched => ?_
  rcases (Batch.mem_touched_join _ id).mp htouched with ⟨b, hb, hbid⟩
  rcases h.exists_producer b hb with ⟨p, hp⟩
  exact hid p b hp hbid

end Owned

/-- So it does not depend on the schedule. -/
theorem outcome_interleaved (keys : PayloadKeys) {producers : ι → List Batch}
    (howned : ∀ p q, ∀ a ∈ producers p, ∀ b ∈ producers q, ∀ id ∈ a.touched,
      id ∈ b.touched → p = q)
    {first second : List (Turn ι)} (hfirst : Interleaves producers first)
    (hsecond : Interleaves producers second) (id : ItemId) (item : Item) :
    (Batch.join (submitted first)).outcome keys id item
      = (Batch.join (submitted second)).outcome keys id item := by
  by_cases howner : ∃ p, ∃ a ∈ producers p, id ∈ a.touched
  · rcases howner with ⟨p, a, ha, hid⟩
    rw [outcome_of_owner keys hfirst howned p a ha id hid,
      outcome_of_owner keys hsecond howned p a ha id hid]
  · have hnobody : ∀ p, ∀ a ∈ producers p, id ∉ a.touched :=
      fun p a ha hid => howner ⟨p, a, ha, hid⟩
    rw [outcome_of_unowned keys hfirst id hnobody, outcome_of_unowned keys hsecond id hnobody]

end Turn

namespace Session

variable {ι : Type} [DecidableEq ι]

/-- What a schedule of the producers' work comes to, if it ends with a phase. -/
structure Converged [Fintype ι] (s : Session) (producers : ι → List Batch)
    (turns : List (Turn ι)) : Prop where
  /-- All phases go through. -/
  complete : ∀ result, Answer.applied result ∈ s.answers (Turn.schedule turns) →
    ∃ summary, result = .ok summary
  /-- Together they report all batches that were handed in, each once. -/
  batches : ((reports (s.answers (Turn.schedule turns))).map (·.batches)).sum
    = ∑ p, (producers p).length
  /-- The same for reset entries. -/
  resets : ((reports (s.answers (Turn.schedule turns))).map (·.resets)).sum
    = ∑ p, ((producers p).map (·.resets.length)).sum
  /-- The same for removals. -/
  removals : ((reports (s.answers (Turn.schedule turns))).map (·.removals)).sum
    = ∑ p, ((producers p).map (·.removals.length)).sum
  /-- The same for moves. -/
  moves : ((reports (s.answers (Turn.schedule turns))).map (·.moves)).sum
    = ∑ p, ((producers p).map (·.moves.length)).sum
  /-- The slot of an item holds what the batches of the producer that touches it
      come to, joined in the producer's own order. -/
  owned : ∀ p, ∀ a ∈ producers p, ∀ id ∈ a.touched,
    (s.after (Turn.schedule turns)).scene.storage.slots[id.index]?
      = some ((Batch.join (producers p)).outcome s.keys id (s.scene.storage.item id))
  /-- The slot of an item that no producer touches holds what it held. -/
  unowned : ∀ id, s.scene.Issued id → (∀ p, ∀ a ∈ producers p, id ∉ a.touched) →
    (s.after (Turn.schedule turns)).scene.storage.slots[id.index]?
      = some (s.scene.storage.item id)

section Converge

variable [Fintype ι] {s : Session} (hs : s.Reachable) (hqueue : s.scene.queue = [])
  {producers : ι → List Batch} (hissued : ∀ p, s.scene.Knows (producers p))
  (howned : ∀ p q, ∀ a ∈ producers p, ∀ b ∈ producers q, ∀ id ∈ a.touched,
    id ∈ b.touched → p = q)
  (hordered : ∀ p, (producers p).Pairwise fun a b =>
    ∀ id ∈ a.removals, id ∉ b.resets.map Prod.fst)

include hs hqueue hissued howned hordered

theorem converged (turns : List (Turn ι)) (hturns : Turn.Interleaves producers turns)
    (hfitting : s.Fitting (Turn.schedule turns)) : s.Converged producers turns := by
  have hsound := hs.sound
  have hknown := hturns.knows s.scene hissued
  have htally : ∀ (measure : Batch → Nat) (reported : Applied → Nat),
      (∀ s : Scene, reported s.summary = (s.queue.map measure).sum) →
      ((reports (s.answers (Turn.schedule turns))).map reported).sum
        = ∑ p, ((producers p).map measure).sum := by
    intro measure reported hmeasure
    rw [tally_schedule s turns measure reported hmeasure hsound hfitting hqueue hknown,
      hturns.sum]
  have hslot : ∀ id, s.scene.Issued id →
      (s.after (Turn.schedule turns)).scene.storage.slots[id.index]?
        = some ((Batch.join (Turn.submitted turns)).outcome s.keys id
            (s.scene.storage.item id)) := by
    intro id hid
    rw [Storage.getElem?_slots _ _ (index_lt_capacity_schedule s turns hfitting id hid),
      ← Storage.item_eq_slot, item_schedule s turns id hsound hfitting hqueue hknown
        (hturns.not_revives howned hordered id)]
  constructor
  case complete =>
    intro result hresult
    refine phases_complete s (turns ++ [Turn.process]) hsound hfitting ?_ result hresult
    rw [ahead_schedule s turns hqueue]
    exact hknown
  case batches =>
    rw [htally (fun _ => 1) (·.batches) fun s => ?_]
    · simp only [List.map_const', List.sum_replicate_nat, Nat.mul_one]
    · simp only [Scene.summary, List.map_const', List.sum_replicate_nat, Nat.mul_one]
  case resets => exact htally _ _ fun s => List.length_flatMap
  case removals => exact htally _ _ fun s => List.length_flatMap
  case moves => exact htally _ _ fun s => List.length_flatMap
  case owned =>
    intro p a ha id hid
    rw [hslot id ((hissued p).issued_of_touched a ha id hid),
      Turn.outcome_of_owner s.keys hturns howned p a ha id hid]
  case unowned =>
    intro id hid hnobody
    rw [hslot id hid, Turn.outcome_of_unowned s.keys hturns id hnobody]

/-- Producers that touch no item of one another, and none of which resets what
    it removed in an earlier batch, come to the same result in every schedule
    that ends with a phase and in which no phase wants for slots. All phases go
    through, and together they report just what was handed in. In each slot is
    what the batches of the item's owner come to, or what was there, so that two
    schedules agree in the slots and in the buckets. -/
theorem producers_converge :
    (∀ turns, Turn.Interleaves producers turns → s.Fitting (Turn.schedule turns) →
      s.Converged producers turns) ∧
    ∀ first second, Turn.Interleaves producers first → Turn.Interleaves producers second →
      s.Fitting (Turn.schedule first) → s.Fitting (Turn.schedule second) →
      (∀ id, s.scene.Issued id → ∃ item,
        (s.after (Turn.schedule first)).scene.storage.slots[id.index]? = some item ∧
        (s.after (Turn.schedule second)).scene.storage.slots[id.index]? = some item) ∧
      ∀ f, (s.after (Turn.schedule first)).scene.members f
        = (s.after (Turn.schedule second)).scene.members f := by
  have hconverged := converged hs hqueue hissued howned hordered
  refine ⟨hconverged, fun first second hfirst hsecond hfits hfits' => ?_⟩
  -- The two runs agree in every item, so in the slots and in the buckets.
  have hitem : ∀ id, (s.after (Turn.schedule first)).scene.storage.item id
      = (s.after (Turn.schedule second)).scene.storage.item id := by
    intro id
    rw [item_schedule s first id hs.sound hfits hqueue (hfirst.knows s.scene hissued)
        (hfirst.not_revives howned hordered id),
      item_schedule s second id hs.sound hfits' hqueue (hsecond.knows s.scene hissued)
        (hsecond.not_revives howned hordered id)]
    exact Turn.outcome_interleaved s.keys howned hfirst hsecond id _
  refine ⟨fun id hid => ?_, fun f => ?_⟩
  · refine ⟨_, Storage.getElem?_slots _ _ (index_lt_capacity_schedule s first hfits id hid), ?_⟩
    refine (Storage.getElem?_slots _ _
      (index_lt_capacity_schedule s second hfits' id hid)).trans ?_
    exact congrArg some (hitem id).symm
  · refine Storage.Filed.get?_congr (hs.after _ hfits.steady).sound.storage.filed
      (hs.after _ hfits'.steady).sound.storage.filed (fun g => ?_) hitem f
    rw [filters_schedule s first g, filters_schedule s second g]

end Converge

/-- Two items, one of them live already, and nothing waits. -/
def quietRun : List Op :=
  [.allocate, .allocate, .enqueue { resets := [(⟨2⟩, some (.own Key.opaqueShape))] }, .process]

/-- One producer shows an item and takes it away again, the other changes the
    other item, and moves are everyone's. -/
def twoProducers (p : Fin 2) : List Batch :=
  if p = 0 then
    [{ resets := [(⟨1⟩, some (.own Key.light))], moves := [⟨2⟩] }, { removals := [⟨1⟩] }]
  else [{ resets := [(⟨2⟩, none), (⟨2⟩, some (.shared "lamp"))], moves := [⟨1⟩] }]

/-- The first producer is served at once, and the second comes in between. -/
def eagerTurns : List (Turn (Fin 2)) :=
  [.submit 0 { resets := [(⟨1⟩, some (.own Key.light))], moves := [⟨2⟩] }, .process,
    .submit 1 { resets := [(⟨2⟩, none), (⟨2⟩, some (.shared "lamp"))], moves := [⟨1⟩] },
    .submit 0 { removals := [⟨1⟩] }]

/-- More ids are given out, and everything waits for the last phase. -/
def lazyTurns : List (Turn (Fin 2)) :=
  [.allocate,
    .submit 1 { resets := [(⟨2⟩, none), (⟨2⟩, some (.shared "lamp"))], moves := [⟨1⟩] },
    .submit 0 { resets := [(⟨1⟩, some (.own Key.light))], moves := [⟨2⟩] },
    .submit 0 { removals := [⟨1⟩] }, .allocate]

/-- Both schedules kill the first item and give the lamp to the second, though
    the storage grows in the last phase of one of them only. -/
theorem producers_converge_eager_lazy :
    (crampedSession.after quietRun).Reachable ∧
      (crampedSession.after quietRun).scene.queue = [] ∧
      Turn.Interleaves twoProducers eagerTurns ∧ Turn.Interleaves twoProducers lazyTurns ∧
      (crampedSession.after quietRun).Fitting (Turn.schedule eagerTurns) ∧
      (crampedSession.after quietRun).Fitting (Turn.schedule lazyTurns) ∧
      (crampedSession.after quietRun).Converged twoProducers eagerTurns ∧
      (crampedSession.after quietRun).Converged twoProducers lazyTurns ∧
      ∀ f, ((crampedSession.after quietRun).after (Turn.schedule eagerTurns)).scene.members f
        = ((crampedSession.after quietRun).after (Turn.schedule lazyTurns)).scene.members f := by
  have hreach := reachable_crampedSession.after quietRun (by decide +kernel)
  have hqueue : (crampedSession.after quietRun).scene.queue = [] := rfl
  have heager : Turn.Interleaves twoProducers eagerTurns := by
    unfold Turn.Interleaves
    decide
  have hlazy : Turn.Interleaves twoProducers lazyTurns := by
    unfold Turn.Interleaves
    decide
  have hfits : (crampedSession.after quietRun).Fitting (Turn.schedule eagerTurns) := by
    decide +kernel
  have hfits' : (crampedSession.after quietRun).Fitting (Turn.schedule lazyTurns) := by
    decide +kernel
  have hissued : ∀ p, (crampedSession.after quietRun).scene.Knows (twoProducers p) := by decide
  rcases producers_converge hreach hqueue hissued (by decide) (by decide) with ⟨hconverged, hsame⟩
  exact ⟨hreach, hqueue, heager, hlazy, hfits, hfits', hconverged _ heager hfits,
    hconverged _ hlazy hfits', (hsame _ _ heager hlazy hfits hfits').2⟩

/-- The only producer shows an item. The phase at the end has not the slots for
    it, and so the batch is lost: it is in no report, and the item is not live. -/
theorem batches_lost_vastSession :
    (vastSession []).Reachable ∧ (vastSession []).scene.queue = [] ∧
      (vastSession []).scene.Knows [{ resets := [(⟨1⟩, some (.own Key.light))] }] ∧
      Turn.Interleaves (fun _ : Unit => [{ resets := [(⟨1⟩, some (.own Key.light))] }])
        [.submit () { resets := [(⟨1⟩, some (.own Key.light))] }] ∧
      ((reports ((vastSession []).answers (Turn.schedule
        [.submit () { resets := [(⟨1⟩, some (.own Key.light))] }]))).map (·.batches)).sum = 0 ∧
      ((vastSession []).after (Turn.schedule
        [.submit () { resets := [(⟨1⟩, some (.own Key.light))] }])).scene.queue = [] ∧
      ((vastSession []).after (Turn.schedule
        [.submit () { resets := [(⟨1⟩, some (.own Key.light))] }])).scene.lifecycle ⟨1⟩
          = .allocated := by
  refine ⟨reachable_vastSession [], rfl, by decide, fun _ => rfl, rfl, rfl, ?_⟩
  decide +kernel

end Session

end SceneIndex
