import SceneIndex.Proofs.Session.Basic
import SceneIndex.World.Step

/-!
# The scenes of a world

What is known of sessions is known of every scene in a world.

A world has many scenes, and a session is about one. The steps of a world that
concern a scene are operations on it, except for giving out several ids, which
is several operations, and for attaching and detaching observers, which
changes its list of observers and nothing else. The steps that do not concern
the scene leave it alone, but one of them may give a payload another key. That
is an operation on every scene at once.

So whatever is done to a world, each scene that is there is one that a session
may come to, with the keys that the world has by then. As with sessions, this is
about steps of which none applies changes with a sum that wraps around.

The first part of the module says what steps write: under which number a scene
is kept afterwards, and what it is. It knows nothing of sessions.

## Main definitions

* `World.after`: The world after steps in turn.
* `World.InUse`: Every scene that is there is that of a session in use.
* `World.Steady`: No phase among the steps has a sum that wraps around.

## Theorems

* `scene?_set`, `scene?_addScene`: The scenes after one was changed or added.
* `world_withObserver`, `world_create`, `world_allocate`, `world_process`: The
  world after a step.
* `allocateMany_preserves`: What giving out one id keeps, giving out several
  keeps.
* `inUse_onScene`: A step on one scene keeps all of them in use.
* `inUse_step`: So does any step.
* `inUse_after`: All scenes of a world are in use.
-/

namespace SceneIndex

namespace Scene

/-- What giving out one id keeps, giving out several keeps, up to the first
    that cannot be given out. -/
theorem allocateMany_preserves (P : Scene → Prop)
    (hstep : ∀ s id s', s.allocate = .ok (id, s') → P s → P s') (count : Nat) (s : Scene)
    (hs : P s) : P (s.allocateMany count).2 := by
  induction count generalizing s with
  | zero => exact hs
  | succ k ih =>
      unfold allocateMany
      cases hone : s.allocate with
      | error fault => exact hs
      | ok given =>
          rcases given with ⟨id, s'⟩
          have hrest := ih s' (hstep s id s' hone hs)
          simp only []
          rcases hmany : s'.allocateMany k with ⟨result, last⟩
          rw [hmany] at hrest
          cases result <;> exact hrest

end Scene

namespace World

section Writes

variable (w : World) (n m : Nat)

theorem scene?_set (content : Option Scene) :
    ({ w with scenes := w.scenes.set n content } : World).scene? m
      = if m = n ∧ n < w.scenes.length then content else w.scene? m := by
  simp only [scene?, List.getD_eq_getElem?_getD]
  by_cases hm : m = n
  · by_cases hn : n < w.scenes.length
    · rw [if_pos ⟨hm, hn⟩, hm, List.getElem?_set_self hn, Option.getD_some]
    · -- There is no such number, and nothing is written.
      rw [if_neg fun h => hn h.2, List.set_eq_of_length_le (Nat.le_of_not_lt hn)]
  · rw [if_neg fun h => hm h.1, List.getElem?_set_ne (Ne.symm hm)]

theorem scene?_addScene (s : Scene) :
    (w.addScene s).scene? m = if m = w.scenes.length then some s else w.scene? m := by
  simp only [scene?, addScene, List.getD_eq_getElem?_getD]
  by_cases hm : m = w.scenes.length
  · rw [if_pos hm, hm, List.getElem?_concat_length, Option.getD_some]
  · rw [if_neg hm]
    rcases Nat.lt_or_gt_of_ne hm with hlt | hgt
    · rw [List.getElem?_append_left hlt]
    · -- Beyond the new scene there was none and there is none.
      rw [List.getElem?_eq_none (Nat.le_of_lt hgt), List.getElem?_eq_none]
      rw [List.length_append, List.length_singleton]
      exact hgt

theorem world_withObserver (name : String) (act : Nat → Reply) :
    (∃ o, (w.withObserver name act).world = (act o).world) ∨
      (w.withObserver name act).world = w := by
  unfold withObserver
  split
  · exact Or.inl ⟨_, rfl⟩
  · exact Or.inr rfl

theorem world_create (source : Source) :
    (w.create source).world = w ∨
      ∃ config s, Scene.create w.machine config = .ok s ∧
        (w.create source).world = w.addScene s := by
  unfold create
  cases source.config w.library with
  | error e => exact Or.inl rfl
  | ok config =>
      cases hcreate : Scene.create w.machine config with
      | error refusal => cases refusal <;> exact Or.inl (by simp only [hcreate])
      | ok s => exact Or.inr ⟨config, s, hcreate, by simp only [hcreate]⟩

theorem world_allocate (s : Scene) (count : Nat) :
    (w.onScene n s (.allocate count)).world = w.setScene n (s.allocateMany count).2 := by
  simp only [onScene]
  rcases s.allocateMany count with ⟨result, last⟩
  cases result <;> rfl

theorem world_process (s : Scene) :
    (w.onScene n s .process).world = w.setScene n (s.process w.keys).1 := by
  simp only [onScene]
  rcases s.process w.keys with ⟨last, events, result⟩
  cases result <;> rfl

end Writes

/-- The world after steps in turn. -/
def after (w : World) (steps : List Step) : World :=
  steps.foldl (fun w step => (w.step step).world) w

/-- Every scene that is there is that of a session in use. -/
def InUse (w : World) : Prop :=
  ∀ n s, w.scene? n = some s → Session.Reachable ⟨s, w.keys⟩

/-- No phase among the steps has a sum that wraps around. -/
def Steady (w : World) : List Step → Prop
  | [] => True
  | step :: rest =>
    (∀ n s, step = .onScene n .process → w.scene? n = some s → s.Exact) ∧
      (w.step step).world.Steady rest

variable {w : World}

theorem inUse_set (h : w.InUse) (n : Nat) (content : Option Scene)
    (hcontent : ∀ s, content = some s → Session.Reachable ⟨s, w.keys⟩) :
    ({ w with scenes := w.scenes.set n content } : World).InUse := by
  intro m t ht
  rw [scene?_set] at ht
  split at ht
  · exact hcontent t ht
  · exact h m t ht

theorem inUse_setScene (h : w.InUse) (n : Nat) (s : Scene)
    (hs : Session.Reachable ⟨s, w.keys⟩) : (w.setScene n s).InUse :=
  inUse_set h n (some s) fun _ ht => (Option.some.inj ht) ▸ hs

theorem inUse_addScene (h : w.InUse) (s : Scene) (hs : Session.Reachable ⟨s, w.keys⟩) :
    (w.addScene s).InUse := by
  intro m t ht
  rw [scene?_addScene] at ht
  split at ht
  · rw [← Option.some.inj ht]
    exact hs
  · exact h m t ht

-- Binding is between an observer and the number of a scene, so it shows in
-- neither the scenes nor the keys.
theorem inUse_bind (h : w.InUse) (o n : Nat) :
    (w.bind o n).2.InUse ∧ (w.bind o n).2.keys = w.keys := by
  unfold bind
  split
  · exact ⟨h, rfl⟩
  · exact ⟨h, rfl⟩

theorem inUse_unbind (h : w.InUse) (o n : Nat) :
    (w.unbind o n).2.InUse ∧ (w.unbind o n).2.keys = w.keys := by
  unfold unbind
  split
  · exact ⟨h, rfl⟩
  · exact ⟨h, rfl⟩

theorem inUse_register (h : w.InUse) (o n : Nat) : (w.register o n).2.2.InUse := by
  rcases inUse_bind h o n with ⟨hbound, hkeys⟩
  unfold register
  cases hscene : w.scene? n with
  | none => exact h
  | some s =>
      have hs := (h n s hscene).step (.observe (s.observers ++ [o])) nofun
      by_cases hlisted : s.observers.contains o = true
      · simp only [if_pos hlisted]
        exact h
      · simp only [if_neg hlisted]
        rcases hbind : w.bind o n with ⟨accepted, w'⟩
        rw [hbind] at hbound hkeys
        cases accepted with
        | false => exact hbound
        | true => exact inUse_setScene hbound n _ (hkeys ▸ hs)

theorem inUse_unregister (h : w.InUse) (o n : Nat) : (w.unregister o n).2.2.InUse := by
  rcases inUse_unbind h o n with ⟨hbound, hkeys⟩
  unfold unregister
  cases hscene : w.scene? n with
  | none => exact h
  | some s =>
      have hs := (h n s hscene).step (.observe (s.observers.filter (· ≠ o))) nofun
      rcases hbind : w.unbind o n with ⟨accepted, w'⟩
      rw [hbind] at hbound hkeys
      cases accepted with
      | false => exact hbound
      | true => exact inUse_setScene hbound n _ (hkeys ▸ hs)

theorem inUse_withObserver (h : w.InUse) (name : String) (act : Nat → Reply)
    (hact : ∀ o, (act o).world.InUse) : (w.withObserver name act).world.InUse := by
  rcases w.world_withObserver name act with ⟨o, heq⟩ | heq
  · rw [heq]
    exact hact o
  · rw [heq]
    exact h

theorem reachable_allocateMany (keys : PayloadKeys) (count : Nat) (s : Scene)
    (hs : Session.Reachable ⟨s, keys⟩) :
    Session.Reachable ⟨(s.allocateMany count).2, keys⟩ := by
  refine Scene.allocateMany_preserves (fun s => Session.Reachable ⟨s, keys⟩) ?_ count s hs
  intro s id s' hone hs
  have hstep := hs.step .allocate nofun
  simp only [Session.step, hone] at hstep
  exact hstep

/-- A step on one scene keeps all scenes in use. -/
theorem inUse_onScene (h : w.InUse) (n : Nat) (s : Scene) (hscene : w.scene? n = some s)
    (step : SceneStep) (hexact : step = .process → s.Exact) :
    (w.onScene n s step).world.InUse := by
  have hs := h n s hscene
  cases step with
  | drop => exact inUse_set h n none fun t ht => (Option.some_ne_none t ht.symm).elim
  | allocate count =>
      rw [world_allocate]
      exact inUse_setScene h n _ (reachable_allocateMany w.keys count s hs)
  | enqueue changes => exact inUse_setScene h n _ (hs.step (.enqueue _) nofun)
  | process =>
      rw [world_process]
      exact inUse_setScene h n _ (hs.step .process fun _ => hexact rfl)
  | allocateBucket f => exact inUse_setScene h n _ (hs.step (.allocateBucket f) nofun)
  | register name => exact inUse_withObserver h name _ fun o => inUse_register h o n
  | unregister name => exact inUse_withObserver h name _ fun o => inUse_unregister h o n
  | bind name => exact inUse_withObserver h name _ fun o => (inUse_bind h o n).1
  | unbind name => exact inUse_withObserver h name _ fun o => (inUse_unbind h o n).1
  -- The other steps only ask.
  | key id => exact h
  | lifecycle id => exact h
  | members f => exact h
  | contains f id => exact h
  | survey => exact h

/-- A step keeps all scenes in use. -/
theorem inUse_step (h : w.InUse) (step : Step)
    (hexact : ∀ n s, step = .onScene n .process → w.scene? n = some s → s.Exact) :
    (w.step step).world.InUse := by
  cases step with
  | create source =>
      rcases w.world_create source with heq | ⟨config, s, hcreate, heq⟩
      · rw [World.step, heq]
        exact h
      · rw [World.step, heq]
        exact inUse_addScene h s (.start w.keys hcreate)
  | definePayload name key =>
      -- Every scene goes on with the new keys.
      exact fun n s hs => (h n s hs).step (.definePayload name key) nofun
  | addObserver name kind => exact h
  | observed name =>
      refine inUse_withObserver h name _ fun o => ?_
      split
      · exact h
      · exact h
  | onScene n sceneStep =>
      simp only [World.step]
      cases hscene : w.scene? n with
      | some s =>
          exact inUse_onScene h n s hscene sceneStep fun hstep =>
            hexact n s (congrArg (Step.onScene n) hstep) hscene
      | none => cases sceneStep <;> exact h

/-- Whatever was done to a world, every scene in it is one that a session may
    come to, with the keys that the payloads have by now. -/
theorem inUse_after (machine : Machine) (library : Config.Library) (steps : List Step)
    (hsteady : (fresh machine library).Steady steps) :
    (after (fresh machine library) steps).InUse := by
  have hkeep : ∀ (rest : List Step) (w : World), w.InUse → w.Steady rest →
      (w.after rest).InUse := by
    intro rest
    induction rest with
    | nil => exact fun _ h _ => h
    | cons step rest ih =>
        exact fun w h hsteady => ih (w.step step).world (inUse_step h step hsteady.1) hsteady.2
  refine hkeep steps _ (fun n s hs => ?_) hsteady
  simp only [scene?, fresh, List.getD_nil, reduceCtorEq] at hs

end World

end SceneIndex
