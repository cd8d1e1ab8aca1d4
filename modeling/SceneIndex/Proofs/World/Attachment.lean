import SceneIndex.Proofs.World.Binding

/-!
# Attachment is exclusive

A scene lists its observers and an observer holds on to its scene, and nobody
keeps the two in agreement but the calls themselves. This module says what of
it survives everything that may be done to a world, by any number of scenes
and observers.

That no list has an observer twice rests on the scene alone: it looks at the
list before it adds to it. So it holds of every kind of observer, and also if
observers are bound and unbound past the scenes.

That the lists and the bindings agree rests on the observers too. They have to
leave their answers to their bindings, and nobody may turn to the bindings
directly. `Paired` is the invariant. It is about the numbers that observers
hold on to and not about the scenes that they follow, since a number is still
held on to when its scene is gone, and it says besides that no observer holds
on to the number of a scene that is still to come. The rest follows from it:
as an observer holds on to one number, it is on one list.

What is done to a world shows in four ways in its lists and bindings: not at
all, as a new scene, as a scene that is gone, or as a call. `Effect` is that,
and both invariants are kept by each of the four.

## Main definitions

* `World.Act`: Something done to a world, or a call made to an observer.
* `World.Act.isRegular`: The scene takes part in it.
* `World.SameAttachment`: The lists and the bindings are the same.
* `World.Effect`: What an act may do to them.
* `World.NoRepeats`: No list has an observer twice.
* `World.Paired`: The lists and the bindings agree.
* `World.Exclusive`: What follows for what may be asked and answered.

## Theorems

* `effect_onScene`, `effect_step`, `effect_act`: An act has one of the four
  effects.
* `noRepeats_effect`, `noRepeats_afterActs`: The lists, whatever is done.
* `Paired.rebound`: The invariant under another binding of one observer.
* `Paired.joined`, `Paired.left`: The invariant under calls that succeed.
* `paired_effect`, `paired_afterActs`: The invariant, if all acts are regular.
* `register_iff`, `unregister_iff`: What calls answer.
* `exclusive_of_paired`: What follows from the invariants.
* `attachment_exclusive`: All of it, from the start.
-/

namespace SceneIndex

namespace Scene

theorem observers_allocate (s s' : Scene) (id : ItemId) (h : s.allocate = .ok (id, s')) :
    s'.observers = s.observers := by
  rcases s.allocate_cases with ⟨_, heq⟩ | ⟨_, _, heq⟩
  · rw [heq] at h
    simp only [reduceCtorEq] at h
  · rw [heq, Except.ok.injEq, Prod.mk.injEq] at h
    rw [← h.2]

theorem observers_allocateMany (count : Nat) (s : Scene) :
    (s.allocateMany count).2.observers = s.observers :=
  allocateMany_preserves (fun s' => s'.observers = s.observers)
    (fun t id t' hone ht => (observers_allocate t t' id hone).trans ht) count s rfl

theorem observers_process (keys : PayloadKeys) (s : Scene) :
    (s.process keys).1.observers = s.observers := by
  rw [process_scene]

theorem observers_allocateBucket (s : Scene) (f : Filter) :
    (s.allocateBucket f).2.2.observers = s.observers := by
  rcases s.exists_buckets_allocateBucket f with ⟨buckets, heq⟩
  rw [heq]

theorem observers_create (machine : Machine) (config : Config) (s : Scene)
    (h : create machine config = .ok s) : s.observers = [] := by
  rcases (create_eq_ok_iff machine config s).mp h with ⟨_, _, rfl⟩
  rfl

end Scene

namespace World

/-- The scene takes part in the call. -/
def Call.isRegular : Call → Bool
  | register _ _ | unregister _ _ => true
  | bind _ _ | unbind _ _ => false

/-- The step turns to no binding directly, and an observer that it creates
    leaves its answers to its binding. -/
def Step.isRegular : Step → Bool
  | addObserver _ kind => kind.forwards
  | onScene _ (.bind _) | onScene _ (.unbind _) => false
  | _ => true

/-- Something done to a world, or a call to an observer that need not hold a
    name. -/
inductive Act where
  | step (step : Step)
  | call (call : Call)

/-- The scene takes part in the act. -/
def Act.isRegular : Act → Bool
  | step s => s.isRegular
  | call c => c.isRegular

/-- Does an act. -/
def act (w : World) : Act → World
  | .step s => (w.step s).world
  | .call c => (w.call c).2

/-- The world after acts in turn. -/
def afterActs (w : World) (acts : List Act) : World := acts.foldl act w

/-- The lists and the bindings are the same, and as many scenes have been
    created. -/
structure SameAttachment (w w' : World) : Prop where
  attached : ∀ n, w'.attached n = w.attached n
  binding : ∀ h, w'.binding h = w.binding h
  length : w'.scenes.length = w.scenes.length

/-- What an act may do to lists and bindings. -/
inductive Effect (regular : Bool) (w : World) : World → Prop
  /-- Nothing. -/
  | idle {w' : World} (hsame : SameAttachment w w')
      (hkinds : regular = true → w.Obliging → w'.Obliging) : Effect regular w w'
  /-- There is one more scene. -/
  | added (s : Scene) (hlist : s.observers = []) : Effect regular w (w.addScene s)
  /-- A scene is gone. -/
  | dropped (n : Nat) : Effect regular w (w.dropScene n)
  /-- A call was made. -/
  | called (c : Call) (hregular : regular = true → c.isRegular = true) :
      Effect regular w (w.call c).2

section Effects

variable {regular : Bool} {w : World}

theorem Effect.refl : Effect regular w w :=
  .idle ⟨fun _ => rfl, fun _ => rfl, rfl⟩ fun _ hw => hw

-- A scene that keeps its list may otherwise change as it likes.
theorem effect_setScene (n : Nat) (s s' : Scene) (hscene : w.scene? n = some s)
    (hlist : s'.observers = s.observers) : Effect regular w (w.setScene n s') := by
  refine .idle ⟨fun m => ?_, fun _ => rfl, List.length_set⟩ fun _ hw => hw
  rw [attached_setScene w n m s' (lt_length_of_scene? w n s hscene)]
  by_cases hm : m = n
  · rw [if_pos hm, hm, attached, hscene, Option.map_some, hlist]
  · rw [if_neg hm]

theorem effect_addObserver (name : String) (kind : Observer.Kind)
    (hkind : regular = true → kind.forwards = true) :
    Effect regular w (w.addObserver name kind) := by
  refine .idle ⟨fun _ => rfl, fun h => ?_, rfl⟩ fun hregular hw o ho => ?_
  · -- The new observer holds on to nothing, and neither did the number before.
    simp only [binding, addObserver, List.getElem?_append]
    by_cases hlt : h < w.observers.length
    · rw [if_pos hlt]
    · rw [if_neg hlt, List.getElem?_eq_none (Nat.le_of_not_lt hlt)]
      cases h - w.observers.length <;> rfl
  · rcases List.mem_append.mp ho with hold | hnew
    · exact hw o hold
    · rw [List.mem_singleton.mp hnew]
      exact hkind hregular

theorem effect_withObserver (name : String) (act : Nat → Reply)
    (hact : ∀ h, Effect regular w (act h).world) :
    Effect regular w (w.withObserver name act).world := by
  rcases w.world_withObserver name act with ⟨h, heq⟩ | heq
  · rw [heq]
    exact hact h
  · rw [heq]
    exact .refl

theorem effect_onScene (n : Nat) (s : Scene) (hscene : w.scene? n = some s) (step : SceneStep)
    (hregular : regular = true → (Step.onScene n step).isRegular = true) :
    Effect regular w (w.onScene n s step).world := by
  cases step with
  | drop => exact .dropped n
  | allocate count =>
      rw [world_allocate]
      exact effect_setScene n s _ hscene (s.observers_allocateMany count)
  | enqueue changes => exact effect_setScene n s _ hscene rfl
  | process =>
      rw [world_process]
      exact effect_setScene n s _ hscene (s.observers_process w.keys)
  | allocateBucket f => exact effect_setScene n s _ hscene (s.observers_allocateBucket f)
  | register name => exact effect_withObserver name _ fun h => .called (.register h n) fun _ => rfl
  | unregister name =>
      exact effect_withObserver name _ fun h => .called (.unregister h n) fun _ => rfl
  | bind name =>
      exact effect_withObserver name _ fun h => .called (.bind h n) fun hr => hregular hr
  | unbind name =>
      exact effect_withObserver name _ fun h => .called (.unbind h n) fun hr => hregular hr
  -- The other steps only ask.
  | key id => exact .refl
  | lifecycle id => exact .refl
  | members f => exact .refl
  | contains f id => exact .refl
  | survey => exact .refl

theorem effect_step (step : Step) (hregular : regular = true → step.isRegular = true) :
    Effect regular w (w.step step).world := by
  cases step with
  | create source =>
      rcases w.world_create source with heq | ⟨config, s, hcreate, heq⟩
      · rw [World.step, heq]
        exact .refl
      · rw [World.step, heq]
        exact .added s (Scene.observers_create w.machine config s hcreate)
  | definePayload name key => exact .idle ⟨fun _ => rfl, fun _ => rfl, rfl⟩ fun _ hw => hw
  | addObserver name kind => exact effect_addObserver name kind hregular
  | observed name =>
      refine effect_withObserver name _ fun h => ?_
      split <;> exact .refl
  | onScene n sceneStep =>
      simp only [World.step]
      cases hscene : w.scene? n with
      | some s => exact effect_onScene n s hscene sceneStep hregular
      | none => cases sceneStep <;> exact .refl

/-- Whatever is done shows in lists and bindings in one of the four ways. -/
theorem effect_act (a : Act) (hregular : regular = true → a.isRegular = true) :
    Effect regular w (w.act a) := by
  cases a with
  | step s => exact effect_step s hregular
  | call c => exact .called c hregular

end Effects

/-- No list has an observer twice. -/
def NoRepeats (w : World) : Prop := ∀ n ids, w.attached n = some ids → ids.Nodup

/-- The lists and the bindings agree, and no observer holds on to the number
    of a scene that is still to come. -/
structure Paired (w : World) : Prop where
  kinds : w.Obliging
  lt : ∀ h n, w.binding h = some n → n < w.scenes.length
  listed : ∀ n ids, w.attached n = some ids → ∀ h, h ∈ ids ↔ w.binding h = some n

section Lists

variable {w : World} (hw : w.NoRepeats)

include hw

theorem noRepeats_of_scenes_eq (w' : World) (h : w'.scenes = w.scenes) : w'.NoRepeats := by
  intro n ids hids
  rw [attached_of_scenes_eq w n w' h] at hids
  exact hw n ids hids

theorem noRepeats_setScene (w' : World) (n : Nat) (s : Scene) (hscenes : w'.scenes = w.scenes)
    (hn : n < w.scenes.length) (hs : s.observers.Nodup) : (w'.setScene n s).NoRepeats := by
  intro m ids hids
  rw [attached_setScene w' n m s (hscenes ▸ hn)] at hids
  by_cases hm : m = n
  · rw [if_pos hm, Option.some.injEq] at hids
    rw [← hids]
    exact hs
  · rw [if_neg hm] at hids
    exact noRepeats_of_scenes_eq hw w' hscenes m ids hids

theorem noRepeats_call (c : Call) : (w.call c).2.NoRepeats := by
  cases c with
  | register h n =>
      rcases w.register_cases h n with
        ⟨_, heq, _⟩ | ⟨_, _, heq⟩ | ⟨ids, s, hids, hnew, hlist, _, _, heq⟩
      · rw [call, heq]
        exact hw
      · rw [call, heq]
        exact noRepeats_of_scenes_eq hw _ (w.scenes_bind h n)
      · -- The observer goes to the end of a list that did not have it.
        rw [call, heq]
        refine noRepeats_setScene hw _ n s (w.scenes_bind h n)
          (w.lt_length_of_attached n ids hids) ?_
        have hone : [h].Nodup := List.nodup_cons.mpr ⟨List.not_mem_nil, List.nodup_nil⟩
        rw [hlist, List.nodup_append]
        refine ⟨hw n ids hids, hone, fun x hx y hy => ?_⟩
        rw [List.mem_singleton.mp hy]
        exact fun hxh => hnew (hxh ▸ hx)
  | unregister h n =>
      rcases w.unregister_cases h n with
        ⟨_, heq, _⟩ | ⟨_, _, heq⟩ | ⟨ids, s, hids, hlist, _, _, heq⟩
      · rw [call, heq]
        exact hw
      · rw [call, heq]
        exact noRepeats_of_scenes_eq hw _ (w.scenes_unbind h n)
      · rw [call, heq]
        refine noRepeats_setScene hw _ n s (w.scenes_unbind h n)
          (w.lt_length_of_attached n ids hids) ?_
        rw [hlist]
        exact (hw n ids hids).filter _
  | bind h n => exact noRepeats_of_scenes_eq hw _ (w.scenes_bind h n)
  | unbind h n => exact noRepeats_of_scenes_eq hw _ (w.scenes_unbind h n)

theorem noRepeats_effect {regular : Bool} {w' : World} (h : Effect regular w w') :
    w'.NoRepeats := by
  cases h with
  | idle hsame hkinds =>
      intro n ids hids
      rw [hsame.attached n] at hids
      exact hw n ids hids
  | added s hlist =>
      intro n ids hids
      rw [attached_addScene] at hids
      by_cases hn : n = w.scenes.length
      · rw [if_pos hn, Option.some.injEq] at hids
        rw [← hids, hlist]
        exact List.nodup_nil
      · rw [if_neg hn] at hids
        exact hw n ids hids
  | dropped n =>
      intro m ids hids
      rw [attached_dropScene] at hids
      by_cases hm : m = n
      · rw [if_pos hm] at hids
        simp only [reduceCtorEq] at hids
      · rw [if_neg hm] at hids
        exact hw m ids hids
  | called c hregular => exact noRepeats_call hw c

end Lists

/-- No list has an observer twice, whatever is done and whatever observers
    there are. -/
theorem noRepeats_afterActs (w : World) (acts : List Act) (hw : w.NoRepeats) :
    (w.afterActs acts).NoRepeats := by
  induction acts generalizing w with
  | nil => exact hw
  | cons a rest ih =>
      have heffect : Effect false w (w.act a) :=
        effect_act a fun h => absurd h Bool.false_ne_true
      exact ih (w.act a) (noRepeats_effect hw heffect)

section Agreement

variable {w w' : World} (hw : w.Paired)

include hw

-- An observer on a list follows the scene of the list, and no other.
theorem Paired.mem_iff (n : Nat) (ids : List Nat) (hids : w.attached n = some ids) (h : Nat) :
    h ∈ ids ↔ w.followed h = some n := by
  have halive : w.isAlive n = true := by rw [isAlive_eq_attached, hids, Option.isSome_some]
  rw [hw.listed n ids hids h, followed_eq_some_iff]
  exact ⟨fun hb => ⟨hb, halive⟩, fun hb => hb.1⟩

/-- The agreement outlasts another binding of one observer, if the lists say
    the new binding of that observer and the old ones of all others. -/
theorem Paired.rebound (h : Nat) (target : Option Nat) (hkinds : w'.Obliging)
    (hbinding : ∀ x, w'.binding x = if x = h then target else w.binding x)
    (hlength : w'.scenes.length = w.scenes.length)
    (htarget : ∀ n, target = some n → n < w.scenes.length)
    (hself : ∀ m ids, w'.attached m = some ids → (h ∈ ids ↔ target = some m))
    (hothers : ∀ m ids, w'.attached m = some ids → ∀ x, x ≠ h →
      (x ∈ ids ↔ w.binding x = some m)) : w'.Paired := by
  refine ⟨hkinds, fun x m hx => ?_, fun m ids hids x => ?_⟩
  · rw [hlength]
    rw [hbinding] at hx
    by_cases hxh : x = h
    · rw [if_pos hxh] at hx
      exact htarget m hx
    · rw [if_neg hxh] at hx
      exact hw.lt x m hx
  · rw [hbinding]
    by_cases hxh : x = h
    · rw [if_pos hxh, hxh]
      exact hself m ids hids
    · rw [if_neg hxh]
      exact hothers m ids hids x hxh

/-- An observer that follows no scene joins one: it is on the list, and it is
    on no other. -/
theorem Paired.joined (h n : Nat) (ids : List Nat) (hids : w.attached n = some ids)
    (hfree : w.followed h = none) (hkinds : w'.Obliging)
    (hattached : ∀ m, w'.attached m = if m = n then some (ids ++ [h]) else w.attached m)
    (hbinding : ∀ x, w'.binding x = if x = h then some n else w.binding x)
    (hlength : w'.scenes.length = w.scenes.length) : w'.Paired := by
  refine hw.rebound h (some n) hkinds hbinding hlength (fun m hm => ?_) (fun m ids' hids' => ?_)
    (fun m ids' hids' x hx => ?_)
  · rw [← Option.some.inj hm]
    exact lt_length_of_attached w n ids hids
  · rw [hattached] at hids'
    by_cases hm : m = n
    · rw [if_pos hm, Option.some.injEq] at hids'
      rw [← hids', hm]
      exact ⟨fun _ => rfl, fun _ => List.mem_append_right _ List.mem_cons_self⟩
    · -- On another list it would have followed that scene.
      rw [if_neg hm] at hids'
      rw [hw.mem_iff m ids' hids' h, hfree, Option.some.injEq]
      exact ⟨fun hno => by simp only [reduceCtorEq] at hno, fun hnm => absurd hnm.symm hm⟩
  · rw [hattached] at hids'
    by_cases hm : m = n
    · rw [if_pos hm, Option.some.injEq] at hids'
      rw [← hids', hm, ← hw.listed n ids hids x]
      simp only [List.mem_append, List.mem_singleton, hx, or_false]
    · rw [if_neg hm] at hids'
      exact hw.listed m ids' hids' x

/-- An observer leaves the scene that it follows: it is on no list. -/
theorem Paired.left (h n : Nat) (ids : List Nat) (hids : w.attached n = some ids)
    (hbound : w.followed h = some n) (hkinds : w'.Obliging)
    (hattached : ∀ m, w'.attached m = if m = n then some (ids.filter (· ≠ h)) else w.attached m)
    (hbinding : ∀ x, w'.binding x = if x = h then none else w.binding x)
    (hlength : w'.scenes.length = w.scenes.length) : w'.Paired := by
  refine hw.rebound h none hkinds hbinding hlength (fun m hm => ?_) (fun m ids' hids' => ?_)
    (fun m ids' hids' x hx => ?_)
  · simp only [reduceCtorEq] at hm
  · rw [hattached] at hids'
    by_cases hm : m = n
    · rw [if_pos hm, Option.some.injEq] at hids'
      rw [← hids']
      simp only [List.mem_filter, ne_eq, not_true_eq_false, decide_false, Bool.false_eq_true,
        and_false, reduceCtorEq]
    · -- It followed the scene that it leaves, so it was on no other list.
      rw [if_neg hm] at hids'
      rw [hw.mem_iff m ids' hids' h, hbound, Option.some.injEq]
      exact ⟨fun hnm => absurd hnm.symm hm, fun hno => by simp only [reduceCtorEq] at hno⟩
  · rw [hattached] at hids'
    by_cases hm : m = n
    · rw [if_pos hm, Option.some.injEq] at hids'
      rw [← hids', hm, ← hw.listed n ids hids x]
      simp only [List.mem_filter, ne_eq, hx, not_false_eq_true, decide_true, and_true]
    · rw [if_neg hm] at hids'
      exact hw.listed m ids' hids' x

theorem Paired.same (hsame : SameAttachment w w') (hkinds : w'.Obliging) : w'.Paired := by
  refine ⟨hkinds, fun h n hb => ?_, fun n ids hids h => ?_⟩
  · rw [hsame.length]
    rw [hsame.binding] at hb
    exact hw.lt h n hb
  · rw [hsame.attached] at hids
    rw [hsame.binding]
    exact hw.listed n ids hids h

-- A call that answers no leaves everything in agreement that was.
theorem Paired.refused (hscenes : w'.scenes = w.scenes)
    (hbinding : ∀ x, w'.binding x = w.binding x) (hkinds : w'.Obliging) : w'.Paired :=
  hw.same ⟨fun n => attached_of_scenes_eq w n w' hscenes, hbinding, congrArg List.length hscenes⟩
    hkinds

theorem paired_call (c : Call) (hregular : c.isRegular = true) : (w.call c).2.Paired := by
  cases c with
  | register h n =>
      have hkinds := obliging_bind hw.kinds h n
      have hscenes := w.scenes_bind h n
      rcases w.register_cases h n with
        ⟨_, heq, _⟩ | ⟨_, hno, heq⟩ | ⟨ids, s, hids, hnew, hlist, hyes, _, heq⟩
      · rw [call, heq]
        exact hw
      · rw [call, heq]
        exact hw.refused hscenes (w.binding_of_bind_refused h n hno) hkinds
      · have hlt := lt_length_of_attached w n ids hids
        rw [call, heq]
        refine hw.joined h n ids hids ((bind_accepted_iff hw.kinds h n).mp hyes).2.2 hkinds
          (fun m => ?_) (binding_bind hw.kinds h n hyes) ?_
        · rw [attached_setScene _ n m s (hscenes ▸ hlt), hlist, attached_of_scenes_eq w m _ hscenes]
        · rw [setScene, List.length_set, hscenes]
  | unregister h n =>
      have hkinds := obliging_unbind hw.kinds h n
      have hscenes := w.scenes_unbind h n
      rcases w.unregister_cases h n with
        ⟨_, heq, _⟩ | ⟨_, hno, heq⟩ | ⟨ids, s, hids, hlist, hyes, _, heq⟩
      · rw [call, heq]
        exact hw
      · rw [call, heq]
        exact hw.refused hscenes (w.binding_of_unbind_refused h n hno) hkinds
      · have hlt := lt_length_of_attached w n ids hids
        rw [call, heq]
        refine hw.left h n ids hids ((unbind_accepted_iff hw.kinds h n).mp hyes) hkinds
          (fun m => ?_) (binding_unbind hw.kinds h n hyes) ?_
        · rw [attached_setScene _ n m s (hscenes ▸ hlt), hlist, attached_of_scenes_eq w m _ hscenes]
        · rw [setScene, List.length_set, hscenes]
  | bind h n => exact absurd hregular Bool.false_ne_true
  | unbind h n => exact absurd hregular Bool.false_ne_true

/-- The lists and the bindings still agree after a regular act. -/
theorem paired_effect (h : Effect true w w') : w'.Paired := by
  cases h with
  | idle hsame hkinds => exact hw.same hsame (hkinds rfl hw.kinds)
  | added s hlist =>
      refine ⟨hw.kinds, fun h n hb => ?_, fun n ids hids h => ?_⟩
      · rw [addScene, List.length_append]
        exact Nat.lt_of_lt_of_le (hw.lt h n hb) (Nat.le_add_right _ _)
      · rw [attached_addScene] at hids
        by_cases hn : n = w.scenes.length
        · -- Nobody holds on to the number of a scene that was still to come.
          have hnobody : ¬ w.binding h = some n := fun hb => Nat.lt_irrefl n (hn ▸ hw.lt h n hb)
          rw [if_pos hn, Option.some.injEq] at hids
          rw [← hids, hlist]
          exact ⟨fun hmem => absurd hmem List.not_mem_nil, fun hb => absurd hb hnobody⟩
        · rw [if_neg hn] at hids
          exact hw.listed n ids hids h
  | dropped n =>
      refine ⟨hw.kinds, fun h m hb => ?_, fun m ids hids h => ?_⟩
      · rw [dropScene, List.length_set]
        exact hw.lt h m hb
      · rw [attached_dropScene] at hids
        by_cases hm : m = n
        · rw [if_pos hm] at hids
          simp only [reduceCtorEq] at hids
        · rw [if_neg hm] at hids
          exact hw.listed m ids hids h
  | called c hregular => exact paired_call hw c (hregular rfl)

end Agreement

/-- The lists and the bindings agree, if all acts are regular. -/
theorem paired_afterActs (w : World) (acts : List Act) (hw : w.Paired)
    (hregular : ∀ a ∈ acts, a.isRegular = true) : (w.afterActs acts).Paired := by
  induction acts generalizing w with
  | nil => exact hw
  | cons a rest ih =>
      have heffect : Effect true w (w.act a) :=
        effect_act a fun _ => hregular a List.mem_cons_self
      exact ih (w.act a) (paired_effect hw heffect) fun b hb =>
        hregular b (List.mem_cons_of_mem a hb)

/-- What may be asked about attachment, and what calls answer. -/
structure Exclusive (w : World) : Prop where
  /-- An observer is on the list of a scene just if it follows the scene. -/
  listed : ∀ n ids, w.attached n = some ids → ∀ h, h ∈ ids ↔ w.followed h = some n
  /-- An observer is on one list at most. -/
  single : ∀ n m ids ids', w.attached n = some ids → w.attached m = some ids' →
    ∀ h, h ∈ ids → h ∈ ids' → n = m
  /-- An observer that is there is attached to a scene that is there just if it
      follows none. -/
  register : ∀ h n, h < w.observers.length → w.isAlive n = true →
    ((w.register h n).1 = true ↔ w.followed h = none)
  /-- An observer is detached from a scene just if it follows that one. -/
  unregister : ∀ h n, (w.unregister h n).1 = true ↔ w.followed h = some n
  /-- A list is as long as there are observers that follow the scene. -/
  count : ∀ n ids, w.attached n = some ids →
    ids.length = ((List.range w.observers.length).filter fun h => w.followed h = some n).length

section Exclusivity

variable {w : World} (hw : w.Paired)

include hw

theorem register_iff (h n : Nat) (hh : h < w.observers.length) (hn : w.isAlive n = true) :
    (w.register h n).1 = true ↔ w.followed h = none := by
  rcases w.register_cases h n with
    ⟨hno, _, hlisted⟩ | ⟨hno, hbind, _⟩ | ⟨_, _, _, _, _, hbind, hyes, _⟩
  · -- It is on the list, so it follows the scene.
    rcases hlisted hn with ⟨ids, hids, hmem⟩
    rw [hw.mem_iff n ids hids h] at hmem
    rw [hno, hmem]
    simp only [Bool.false_eq_true, reduceCtorEq]
  · have hiff := bind_accepted_iff hw.kinds h n
    rw [hbind] at hiff
    rw [hno, hiff]
    exact ⟨fun hall => hall.2.2, fun hfree => ⟨hh, hn, hfree⟩⟩
  · have hfree := ((bind_accepted_iff hw.kinds h n).mp hbind).2.2
    exact ⟨fun _ => hfree, fun _ => hyes⟩

theorem unregister_iff (h n : Nat) : (w.unregister h n).1 = true ↔ w.followed h = some n := by
  rcases w.unregister_cases h n with
    ⟨hno, _, hgone⟩ | ⟨hno, hunbind, _⟩ | ⟨_, _, _, _, hunbind, hyes, _⟩
  · rw [hno, followed_eq_some_iff]
    exact ⟨fun h => absurd h Bool.false_ne_true, fun h => absurd h.2 hgone⟩
  · rw [← unbind_accepted_iff hw.kinds h n, hno, hunbind]
  · rw [← unbind_accepted_iff hw.kinds h n, hyes, hunbind]

-- An observer that follows a scene is there.
theorem length_attached (hlists : w.NoRepeats) (n : Nat) (ids : List Nat)
    (hids : w.attached n = some ids) :
    ids.length
      = ((List.range w.observers.length).filter fun h => w.followed h = some n).length := by
  refine ((List.perm_ext_iff_of_nodup (hlists n ids hids)
    (List.nodup_range.filter _)).mpr fun h => ?_).length_eq
  rw [List.mem_filter, List.mem_range, decide_eq_true_eq, hw.mem_iff n ids hids h]
  refine ⟨fun hfollowed => ⟨?_, hfollowed⟩, fun hboth => hboth.2⟩
  by_contra hlt
  rw [followed, List.getElem?_eq_none (Nat.le_of_not_lt hlt)] at hfollowed
  simp only [Option.bind_none, reduceCtorEq] at hfollowed

/-- What follows from the two invariants. -/
theorem exclusive_of_paired (hlists : w.NoRepeats) : w.Exclusive where
  listed := hw.mem_iff
  single n m ids ids' hids hids' h hmem hmem' := by
    rw [hw.mem_iff n ids hids h] at hmem
    rw [hw.mem_iff m ids' hids' h, hmem, Option.some.injEq] at hmem'
    exact hmem'
  register := register_iff hw
  unregister := unregister_iff hw
  count := length_attached hw hlists

end Exclusivity

/-- Two observers follow the first scene when it is dropped. One of them tried
    to move on before that, and did so afterwards. -/
def droppedActs : List Act :=
  [.step (.create (.given { initialCapacity := 1 })),
    .step (.create (.given { initialCapacity := 1 })),
    .step (.addObserver "moving" .binding), .step (.addObserver "staying" .noting),
    .call (.register 0 0), .call (.register 1 0), .call (.register 0 1),
    .step (.onScene 0 .drop), .call (.register 0 1)]

/-- The world after these acts. -/
def droppedWorld : World := (fresh (.standard false) .standard).afterActs droppedActs

end World

end SceneIndex
