import Mathlib.Tactic.ByContra
import SceneIndex.Proofs.World.Scenes

/-!
# Lists and bindings

Who is attached to what is written down twice. A scene lists its observers,
and an observer holds on to the number of its scene. A call writes in both
places, one after the other, and dropping a scene takes away the list without
telling the observers.

This module says what a call does to the two. A call that answers no has
changed neither, whichever kind of observer it was made to
(`refused_changes_nothing`). A call that answers yes has asked the observer
and then changed one list. What the observer answered is known for those that
leave the answer to their binding: they follow a scene if they follow none,
and leave a scene if it is the one they follow (`bind_accepted_iff`,
`unbind_accepted_iff`).

A binding to a scene that is gone counts as none, but it is not erased, so the
binding and what the observer follows are two things.

## Main definitions

* `Observer.Kind.forwards`: An observer that leaves its answer to its binding.
* `World.attached`: The observers that a scene lists.
* `World.binding`: The number that an observer holds on to.
* `World.followed`: The scene that an observer follows.
* `World.Obliging`: All observers leave their answers to their bindings.
* `World.Call`: Attaching and detaching, by the scene or past it.
* `World.call`: Makes a call.

## Theorems

* `attached_setScene`, `attached_addScene`, `attached_dropScene`: The lists
  after one scene was changed, added or dropped.
* `register_cases`, `unregister_cases`: What a scene does when it is called.
* `refused_changes_nothing`: A call that answers no.
* `bind_accepted_iff`, `unbind_accepted_iff`: What an observer answers.
* `binding_bind`, `binding_unbind`: The bindings after it answered yes.
-/

namespace SceneIndex

namespace Observer

/-- An observer that leaves its answer to its binding, whatever else it does
    when it is told something. -/
def Kind.forwards : Kind → Bool
  | binding | counting | noting => true
  | refusing | sticky | accepting => false

section Told

variable (alive : Nat → Bool) (o : Observer) (n : Nat) (buckets : Buckets)

theorem kind_onRegister : (o.onRegister alive n buckets).2.kind = o.kind := by
  rcases o with ⟨kind, bound, registers, unregisters, seen⟩
  cases hscene : bound.filter alive <;> cases kind <;>
    simp only [onRegister, bind, scene, hscene]

theorem kind_onUnregister : (o.onUnregister alive n).2.kind = o.kind := by
  rcases o with ⟨kind, bound, registers, unregisters, seen⟩
  by_cases hscene : bound.filter alive = some n <;> cases kind <;>
    simp only [onUnregister, unbind, scene, hscene, if_true, if_false]

theorem bound_of_refused (h : (o.onRegister alive n buckets).1 = false) :
    (o.onRegister alive n buckets).2.bound = o.bound := by
  rcases o with ⟨kind, bound, registers, unregisters, seen⟩
  cases hscene : bound.filter alive <;> cases kind <;>
    simp only [onRegister, bind, scene, hscene, reduceCtorEq] at h ⊢

theorem bound_of_kept (h : (o.onUnregister alive n).1 = false) :
    (o.onUnregister alive n).2.bound = o.bound := by
  rcases o with ⟨kind, bound, registers, unregisters, seen⟩
  by_cases hscene : bound.filter alive = some n <;> cases kind <;>
    simp only [onUnregister, unbind, scene, hscene, if_true, if_false, reduceCtorEq] at h ⊢

-- What an observer answers that leaves it to its binding, and its binding then.
theorem onRegister_of_forwards (hkind : o.kind.forwards = true) :
    ((o.onRegister alive n buckets).1 = true ↔ o.scene alive = none) ∧
      ((o.onRegister alive n buckets).1 = true →
        (o.onRegister alive n buckets).2.bound = some n) := by
  rcases o with ⟨kind, bound, registers, unregisters, seen⟩
  cases hscene : bound.filter alive <;> cases kind <;>
    simp only [onRegister, bind, scene, hscene, Kind.forwards, reduceCtorEq] at hkind ⊢ <;>
    simp only [true_implies, false_implies, and_self]

theorem onUnregister_of_forwards (hkind : o.kind.forwards = true) :
    ((o.onUnregister alive n).1 = true ↔ o.scene alive = some n) ∧
      ((o.onUnregister alive n).1 = true → (o.onUnregister alive n).2.bound = none) := by
  rcases o with ⟨kind, bound, registers, unregisters, seen⟩
  by_cases hscene : bound.filter alive = some n <;> cases kind <;>
    simp only [onUnregister, unbind, scene, hscene, Kind.forwards, if_true, if_false,
      reduceCtorEq] at hkind ⊢ <;>
    simp only [true_implies, false_implies, and_self]

end Told

end Observer

namespace World

/-- The observers that the scene of a number lists, if it is there. -/
def attached (w : World) (n : Nat) : Option (List Nat) := (w.scene? n).map (·.observers)

/-- The number of the scene that an observer holds on to, whether the scene is
    there or not. -/
def binding (w : World) (h : Nat) : Option Nat := (w.observers[h]?).bind (·.bound)

/-- The scene that the observer of a number follows. -/
def followed (w : World) (h : Nat) : Option Nat := (w.observers[h]?).bind w.observed

/-- All observers leave their answers to their bindings. -/
def Obliging (w : World) : Prop := ∀ o ∈ w.observers, o.kind.forwards = true

/-- Attaching and detaching: by the scene, or past it, by telling the
    observer. -/
inductive Call where
  | register (observer scene : Nat)
  | unregister (observer scene : Nat)
  | bind (observer scene : Nat)
  | unbind (observer scene : Nat)

/-- Makes a call. -/
def call (w : World) : Call → Bool × World
  | .register h n => ((w.register h n).1, (w.register h n).2.2)
  | .unregister h n => ((w.unregister h n).1, (w.unregister h n).2.2)
  | .bind h n => w.bind h n
  | .unbind h n => w.unbind h n

section Scenes

variable (w : World) (n m : Nat)

theorem lt_length_of_scene? (s : Scene) (h : w.scene? n = some s) : n < w.scenes.length := by
  by_contra hlt
  rw [scene?, List.getD_eq_getElem?_getD, List.getElem?_eq_none (Nat.le_of_not_lt hlt)] at h
  simp only [Option.getD_none, reduceCtorEq] at h

theorem attached_of_scenes_eq (w' : World) (h : w'.scenes = w.scenes) :
    w'.attached n = w.attached n := by
  rw [attached, attached, scene?, scene?, h]

theorem attached_setScene (s : Scene) (h : n < w.scenes.length) :
    (w.setScene n s).attached m = if m = n then some s.observers else w.attached m := by
  rw [attached, setScene, scene?_set]
  by_cases hm : m = n
  · rw [if_pos hm, if_pos ⟨hm, h⟩, Option.map_some]
  · rw [if_neg hm, if_neg fun hboth => hm hboth.1, attached]

theorem attached_addScene (s : Scene) :
    (w.addScene s).attached m
      = if m = w.scenes.length then some s.observers else w.attached m := by
  rw [attached, scene?_addScene]
  by_cases hm : m = w.scenes.length
  · rw [if_pos hm, if_pos hm, Option.map_some]
  · rw [if_neg hm, if_neg hm, attached]

theorem attached_dropScene :
    (w.dropScene n).attached m = if m = n then none else w.attached m := by
  rw [attached, dropScene, scene?_set]
  by_cases hm : m = n
  · rw [if_pos hm, hm]
    by_cases hn : n < w.scenes.length
    · rw [if_pos ⟨rfl, hn⟩, Option.map_none]
    · -- The number was that of no scene before.
      rw [if_neg fun hboth => hn hboth.2, Option.map_eq_none_iff]
      by_contra hsome
      rcases Option.ne_none_iff_exists'.mp hsome with ⟨s, hs⟩
      exact hn (lt_length_of_scene? w n s hs)
  · rw [if_neg hm, if_neg fun hboth => hm hboth.1, attached]

theorem isAlive_eq_attached : w.isAlive n = (w.attached n).isSome := by
  rw [isAlive, attached, Option.isSome_map]

theorem lt_length_of_attached (ids : List Nat) (h : w.attached n = some ids) :
    n < w.scenes.length := by
  rcases Option.map_eq_some_iff.mp h with ⟨s, hs, _⟩
  exact lt_length_of_scene? w n s hs

end Scenes

section Calls

variable (w : World) (h n : Nat)

-- An observer follows the scene that it holds on to, if the scene is there.
theorem followed_eq : w.followed h = (w.binding h).filter w.isAlive := by
  unfold followed binding
  cases w.observers[h]? <;> rfl

theorem followed_eq_some_iff :
    w.followed h = some n ↔ w.binding h = some n ∧ w.isAlive n = true := by
  rw [followed_eq, Option.filter_eq_some_iff]

theorem binding_setObserver (o o' : Observer) (x : Nat) (ho : w.observers[h]? = some o) :
    (w.setObserver h o').binding x = if x = h then o'.bound else w.binding x := by
  have hlt : h < w.observers.length := (List.getElem?_eq_some_iff.mp ho).1
  simp only [binding, setObserver]
  by_cases hx : x = h
  · rw [if_pos hx, hx, List.getElem?_set_self hlt, Option.bind_some]
  · rw [if_neg hx, List.getElem?_set_ne (Ne.symm hx)]

theorem obliging_setObserver (o : Observer) (hw : w.Obliging) (ho : o.kind.forwards = true) :
    (w.setObserver h o).Obliging := by
  intro x hx
  rcases List.mem_or_eq_of_mem_set hx with hold | rfl
  · exact hw x hold
  · exact ho

/-- An observer is asked to follow a scene only if both are there. -/
theorem bind_cases :
    (w.bind h n = (false, w) ∧ ¬ (h < w.observers.length ∧ w.isAlive n = true)) ∨
      ∃ o s, w.observers[h]? = some o ∧ w.scene? n = some s ∧
        w.bind h n = ((o.onRegister w.isAlive n s.storage.buckets).1,
          w.setObserver h (o.onRegister w.isAlive n s.storage.buckets).2) := by
  unfold bind isAlive
  cases ho : w.observers[h]? with
  | none =>
      rw [List.getElem?_eq_none_iff] at ho
      exact Or.inl ⟨rfl, fun hboth => absurd hboth.1 (Nat.not_lt_of_le ho)⟩
  | some o =>
      cases hs : w.scene? n with
      | none => exact Or.inl ⟨rfl, fun hboth => absurd hboth.2 Bool.false_ne_true⟩
      | some s => exact Or.inr ⟨o, s, rfl, rfl, rfl⟩

theorem unbind_cases :
    (w.unbind h n = (false, w) ∧ ¬ h < w.observers.length) ∨
      ∃ o, w.observers[h]? = some o ∧
        w.unbind h n = ((o.onUnregister w.isAlive n).1,
          w.setObserver h (o.onUnregister w.isAlive n).2) := by
  unfold unbind
  cases ho : w.observers[h]? with
  | none =>
      rw [List.getElem?_eq_none_iff] at ho
      exact Or.inl ⟨rfl, Nat.not_lt_of_le ho⟩
  | some o => exact Or.inr ⟨o, rfl, rfl⟩

theorem scenes_bind : (w.bind h n).2.scenes = w.scenes := by
  rcases w.bind_cases h n with ⟨heq, _⟩ | ⟨o, s, _, _, heq⟩
  · rw [heq]
  · rw [heq]
    rfl

theorem scenes_unbind : (w.unbind h n).2.scenes = w.scenes := by
  rcases w.unbind_cases h n with ⟨heq, _⟩ | ⟨o, _, heq⟩
  · rw [heq]
  · rw [heq]
    rfl

theorem binding_of_bind_refused (hno : (w.bind h n).1 = false) (x : Nat) :
    (w.bind h n).2.binding x = w.binding x := by
  rcases w.bind_cases h n with ⟨heq, _⟩ | ⟨o, s, ho, _, heq⟩
  · rw [heq]
  · rw [heq] at hno ⊢
    refine (w.binding_setObserver h o _ x ho).trans ?_
    by_cases hx : x = h
    · rw [if_pos hx, hx, Observer.bound_of_refused w.isAlive o n _ hno, binding, ho,
        Option.bind_some]
    · rw [if_neg hx]

theorem binding_of_unbind_refused (hno : (w.unbind h n).1 = false) (x : Nat) :
    (w.unbind h n).2.binding x = w.binding x := by
  rcases w.unbind_cases h n with ⟨heq, _⟩ | ⟨o, ho, heq⟩
  · rw [heq]
  · rw [heq] at hno ⊢
    refine (w.binding_setObserver h o _ x ho).trans ?_
    by_cases hx : x = h
    · rw [if_pos hx, hx, Observer.bound_of_kept w.isAlive o n hno, binding, ho, Option.bind_some]
    · rw [if_neg hx]

/-- Attaching ends in one of three ways: without a question to the observer,
    for the scene is not there or lists it already, with its refusal, or with
    its number at the end of the list. -/
theorem register_cases :
    ((w.register h n).1 = false ∧ (w.register h n).2.2 = w ∧
        (w.isAlive n = true → ∃ ids, w.attached n = some ids ∧ h ∈ ids)) ∨
      ((w.register h n).1 = false ∧ (w.bind h n).1 = false ∧
        (w.register h n).2.2 = (w.bind h n).2) ∨
      ∃ ids s, w.attached n = some ids ∧ h ∉ ids ∧ s.observers = ids ++ [h] ∧
        (w.bind h n).1 = true ∧ (w.register h n).1 = true ∧
        (w.register h n).2.2 = (w.bind h n).2.setScene n s := by
  unfold register attached
  cases hs : w.scene? n with
  | none =>
      refine Or.inl ⟨rfl, rfl, fun halive => ?_⟩
      rw [isAlive, hs] at halive
      exact absurd halive Bool.false_ne_true
  | some s =>
      by_cases hlisted : s.observers.contains h = true
      · have hmem : h ∈ s.observers := List.contains_iff_mem.mp hlisted
        simp only [if_pos hlisted]
        exact Or.inl ⟨trivial, trivial, fun _ => ⟨s.observers, rfl, hmem⟩⟩
      · simp only [if_neg hlisted]
        rw [List.contains_iff_mem] at hlisted
        rcases w.bind h n with ⟨accepted, w'⟩
        cases accepted with
        | false => exact Or.inr (Or.inl ⟨rfl, rfl, rfl⟩)
        | true => exact Or.inr (Or.inr ⟨s.observers, _, rfl, hlisted, rfl, rfl, rfl, rfl⟩)

/-- So does detaching. It does not look at the list before it asks. -/
theorem unregister_cases :
    ((w.unregister h n).1 = false ∧ (w.unregister h n).2.2 = w ∧ ¬ w.isAlive n = true) ∨
      ((w.unregister h n).1 = false ∧ (w.unbind h n).1 = false ∧
        (w.unregister h n).2.2 = (w.unbind h n).2) ∨
      ∃ ids s, w.attached n = some ids ∧ s.observers = ids.filter (· ≠ h) ∧
        (w.unbind h n).1 = true ∧ (w.unregister h n).1 = true ∧
        (w.unregister h n).2.2 = (w.unbind h n).2.setScene n s := by
  unfold unregister attached
  cases hs : w.scene? n with
  | none =>
      refine Or.inl ⟨rfl, rfl, fun halive => ?_⟩
      rw [isAlive, hs] at halive
      exact absurd halive Bool.false_ne_true
  | some s =>
      rcases w.unbind h n with ⟨accepted, w'⟩
      cases accepted with
      | false => exact Or.inr (Or.inl ⟨rfl, rfl, rfl⟩)
      | true => exact Or.inr (Or.inr ⟨s.observers, _, rfl, rfl, rfl, rfl, rfl⟩)

end Calls

/-- A call that answers no has changed no scene and no binding, whatever
    observer it was made to. -/
theorem refused_changes_nothing (w : World) (c : Call) (hno : (w.call c).1 = false) :
    (w.call c).2.scenes = w.scenes ∧ ∀ h, (w.call c).2.binding h = w.binding h := by
  cases c with
  | register h n =>
      rcases w.register_cases h n with ⟨_, heq, _⟩ | ⟨_, hbind, heq⟩ | ⟨_, _, _, _, _, _, hyes, _⟩
      · simp only [call, heq, implies_true, and_self]
      · simp only [call, heq]
        exact ⟨w.scenes_bind h n, w.binding_of_bind_refused h n hbind⟩
      · exact absurd (hno.symm.trans hyes) Bool.false_ne_true
  | unregister h n =>
      rcases w.unregister_cases h n with ⟨_, heq, _⟩ | ⟨_, hbind, heq⟩ | ⟨_, _, _, _, _, hyes, _⟩
      · simp only [call, heq, implies_true, and_self]
      · simp only [call, heq]
        exact ⟨w.scenes_unbind h n, w.binding_of_unbind_refused h n hbind⟩
      · exact absurd (hno.symm.trans hyes) Bool.false_ne_true
  | bind h n => exact ⟨w.scenes_bind h n, w.binding_of_bind_refused h n hno⟩
  | unbind h n => exact ⟨w.scenes_unbind h n, w.binding_of_unbind_refused h n hno⟩

section Obliging

variable {w : World} (hw : w.Obliging) (h n : Nat)

include hw

theorem obliging_bind : (w.bind h n).2.Obliging := by
  rcases w.bind_cases h n with ⟨heq, _⟩ | ⟨o, s, ho, _, heq⟩
  · rw [heq]
    exact hw
  · rw [heq]
    refine w.obliging_setObserver h _ hw ?_
    rw [Observer.kind_onRegister]
    exact hw o (List.mem_of_getElem? ho)

theorem obliging_unbind : (w.unbind h n).2.Obliging := by
  rcases w.unbind_cases h n with ⟨heq, _⟩ | ⟨o, ho, heq⟩
  · rw [heq]
    exact hw
  · rw [heq]
    refine w.obliging_setObserver h _ hw ?_
    rw [Observer.kind_onUnregister]
    exact hw o (List.mem_of_getElem? ho)

/-- An observer agrees to follow a scene just if it follows none. -/
theorem bind_accepted_iff :
    (w.bind h n).1 = true ↔
      h < w.observers.length ∧ w.isAlive n = true ∧ w.followed h = none := by
  rcases w.bind_cases h n with ⟨heq, hmissing⟩ | ⟨o, s, ho, hs, heq⟩
  · rw [heq]
    exact ⟨fun hyes => absurd hyes Bool.false_ne_true,
      fun hall => absurd ⟨hall.1, hall.2.1⟩ hmissing⟩
  · have hlt : h < w.observers.length := (List.getElem?_eq_some_iff.mp ho).1
    have halive : w.isAlive n = true := by rw [isAlive, hs, Option.isSome_some]
    have hanswer := (o.onRegister_of_forwards w.isAlive n s.storage.buckets
      (hw o (List.mem_of_getElem? ho))).1
    rw [heq, hanswer, followed, ho, Option.bind_some, observed]
    exact ⟨fun hfree => ⟨hlt, halive, hfree⟩, fun hall => hall.2.2⟩

/-- An observer agrees to leave a scene just if it follows that one. -/
theorem unbind_accepted_iff : (w.unbind h n).1 = true ↔ w.followed h = some n := by
  rcases w.unbind_cases h n with ⟨heq, hmissing⟩ | ⟨o, ho, heq⟩
  · rw [heq, followed, List.getElem?_eq_none (Nat.le_of_not_lt hmissing)]
    simp only [Bool.false_eq_true, Option.bind_none, reduceCtorEq]
  · rw [heq, (o.onUnregister_of_forwards w.isAlive n (hw o (List.mem_of_getElem? ho))).1, followed,
      ho, Option.bind_some, observed]

theorem binding_bind (hyes : (w.bind h n).1 = true) (x : Nat) :
    (w.bind h n).2.binding x = if x = h then some n else w.binding x := by
  rcases w.bind_cases h n with ⟨heq, _⟩ | ⟨o, s, ho, _, heq⟩
  · rw [heq] at hyes
    exact absurd hyes Bool.false_ne_true
  · rw [heq] at hyes ⊢
    have hbound := (o.onRegister_of_forwards w.isAlive n s.storage.buckets
      (hw o (List.mem_of_getElem? ho))).2 hyes
    refine (w.binding_setObserver h o _ x ho).trans ?_
    rw [hbound]

theorem binding_unbind (hyes : (w.unbind h n).1 = true) (x : Nat) :
    (w.unbind h n).2.binding x = if x = h then none else w.binding x := by
  rcases w.unbind_cases h n with ⟨heq, _⟩ | ⟨o, ho, heq⟩
  · rw [heq] at hyes
    exact absurd hyes Bool.false_ne_true
  · rw [heq] at hyes ⊢
    have hbound := (o.onUnregister_of_forwards w.isAlive n
      (hw o (List.mem_of_getElem? ho))).2 hyes
    refine (w.binding_setObserver h o _ x ho).trans ?_
    rw [hbound]

end Obliging

end World

end SceneIndex
