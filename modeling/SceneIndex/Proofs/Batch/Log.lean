import SceneIndex.Batch.Shelf

/-!
# Batches as logs

Whoever fills batches may think of each of them as one list of changes, in the
order in which they were recorded. Recording adds a change at the end, and
joining puts one list behind the other. A batch in columns keeps less than
that, since the order between changes of different kinds is lost, but it keeps
everything that can be asked of it.

`ofLog` lays a log out in columns, and every operation on batches comes from
the one on logs: this is what `respects_ofLog` says, one operation at a time.
Named batches then take the same steps whatever they are kept as
(`map_run`, `map_runAll`), so after any steps the columns under a name are laid
out from the log under that name. `toBatch` is a second such reading. The
batches that the scene works with have their resets paired from the start, and
they too go through the same steps.

The one operation that does not treat all columns alike is appending, which
asks whether the batch is empty and does not look at the payloads for it. This
is sound because the column of payloads is as long as that of the ids.

## Main definitions

* `Columns.ofLog`: A log, laid out in columns.
* `Columns.Shows`: The answers of a batch are those of a log.
* `Recording.Respects`: A reading of one kind of batch as another.
* `Batch.Step.logAt`: What a step makes of the log under a name.
* `Batch.Step.columnsAfter`, `Batch.Step.logsAfter`: What steps make of empty
  batches and of empty logs.
* `Bracketing`: Batches, and the order in which they are joined.

## Theorems

* `append_eq_merge`: The shortcut for an empty batch makes no difference.
* `respects_ofLog`, `respects_toBatch`: Operations on columns, read off those on
  logs, and those on batches with paired resets, read off columns.
* `map_runAll`: The same steps, on different kinds of batches.
* `get_run_of_not_written`: What a step leaves alone.
* `get_run_log`: What a step on logs does, one name at a time.
* `Bracketing.value_eq`: The order in which batches are joined is of no account.
* `columns_follow_log`: All steps, answers and orders.
-/

namespace SceneIndex

namespace Change

/-- The id and the payload that a reset or a clear brings. -/
def reset? : Change → Option (ItemId × Option Payload)
  | reset id payload => some (id, some payload)
  | clear id => some (id, none)
  | remove _ => none
  | move _ => none

/-- The id that is removed. -/
def removed? : Change → Option ItemId
  | remove id => some id
  | reset _ _ => none
  | clear _ => none
  | move _ => none

/-- The id that is moved. -/
def moved? : Change → Option ItemId
  | move id => some id
  | reset _ _ => none
  | clear _ => none
  | remove _ => none

end Change

/-- A log records at its end, and logs are joined by putting one behind the
    other. -/
instance : Recording (List Change) where
  empty := []
  record log change := log ++ [change]
  merge log other := log ++ other
  append log other := log ++ other
  extend log others := log ++ others.flatten
  clear _ := []

namespace Columns

theorem ext_columns {a b : Columns} (hids : a.resetIds = b.resetIds)
    (hpayloads : a.resetPayloads = b.resetPayloads) (hremovals : a.removals = b.removals)
    (hmoves : a.moves = b.moves) : a = b := by
  rcases a with ⟨ids, payloads, removals, moves, paired⟩
  rcases b with ⟨ids', payloads', removals', moves', paired'⟩
  subst hids hpayloads hremovals hmoves
  rfl

/-- The changes of a log, laid out in columns. -/
def ofLog (log : List Change) : Columns where
  resetIds := (log.filterMap Change.reset?).map Prod.fst
  resetPayloads := (log.filterMap Change.reset?).map Prod.snd
  removals := log.filterMap Change.removed?
  moves := log.filterMap Change.moved?
  paired := by rw [List.length_map, List.length_map]

/-- Every answer of a batch is what the log answers: its resets, removals and
    moves are those of the log, in the order of the log, and it is as long. -/
structure Shows (c : Columns) (log : List Change) : Prop where
  resets : c.resets = log.filterMap Change.reset?
  removals : c.removals = log.filterMap Change.removed?
  moves : c.moves = log.filterMap Change.moved?
  batch : c.toBatch =
    ⟨log.filterMap Change.reset?, log.filterMap Change.removed?, log.filterMap Change.moved?⟩
  size : c.size = log.length
  isEmpty : c.isEmpty = true ↔ log = []

theorem resets_ofLog (log : List Change) :
    (ofLog log).resets = log.filterMap Change.reset? :=
  (List.zip_of_prod rfl rfl).symm

-- Every change is of one of the three kinds.
theorem size_ofLog (log : List Change) : (ofLog log).size = log.length := by
  unfold size ofLog
  simp only [List.length_map]
  induction log with
  | nil => rfl
  | cons change rest ih =>
      rw [List.length_cons, ← ih]
      cases change <;>
        simp only [List.filterMap_cons, Change.reset?, Change.removed?, Change.moved?,
          List.length_cons] <;>
        omega

theorem shows_ofLog (log : List Change) : (ofLog log).Shows log where
  resets := resets_ofLog log
  removals := rfl
  moves := rfl
  batch := by
    unfold toBatch
    rw [resets_ofLog]
    rfl
  size := size_ofLog log
  isEmpty := by
    unfold isEmpty
    rw [beq_iff_eq, size_ofLog, List.length_eq_zero_iff]

theorem ofLog_append (log other : List Change) :
    ofLog (log ++ other) = (ofLog log).merge (ofLog other) := by
  apply ext_columns
  · simp only [ofLog, merge, List.filterMap_append, List.map_append]
  · simp only [ofLog, merge, List.filterMap_append, List.map_append]
  · exact List.filterMap_append
  · exact List.filterMap_append

theorem merge_assoc (a b c : Columns) : (a.merge b).merge c = a.merge (b.merge c) := by
  simp only [merge, List.append_assoc]

theorem empty_merge (c : Columns) : empty.merge c = c := by
  simp only [merge, empty, List.nil_append]

theorem merge_empty (c : Columns) : c.merge empty = c := by
  simp only [merge, empty, List.append_nil]

-- The payloads of an empty batch are not looked at, but there are none, since
-- there are no ids that they could go with.
theorem eq_empty_of_isEmpty (c : Columns) (h : c.isEmpty = true) : c = empty := by
  unfold isEmpty size at h
  rw [beq_iff_eq, Nat.add_eq_zero_iff, Nat.add_eq_zero_iff] at h
  have hids : c.resetIds = [] := List.length_eq_zero_iff.mp h.1.1
  have hpayloads : c.resetPayloads.length = 0 := by rw [← c.paired, h.1.1]
  exact ext_columns hids (List.length_eq_zero_iff.mp hpayloads)
    (List.length_eq_zero_iff.mp h.1.2) (List.length_eq_zero_iff.mp h.2)

/-- Replacing an empty batch is the same as adding to it. -/
theorem append_eq_merge (a b : Columns) : a.append b = a.merge b := by
  unfold append
  by_cases h : a.isEmpty = true
  · rw [if_pos h, eq_empty_of_isEmpty a h, empty_merge]
  · rw [if_neg h]

theorem extend_merge (a b : Columns) (others : List Columns) :
    (a.merge b).extend others = a.merge (b.extend others) := by
  induction others generalizing b with
  | nil => rfl
  | cons other rest ih =>
      have hfirst : (a.merge b).append other = a.merge (b.append other) := by
        rw [append_eq_merge, append_eq_merge, merge_assoc]
      change ((a.merge b).append other).extend rest = a.merge ((b.append other).extend rest)
      rw [hfirst, ih]

theorem extend_append (a : Columns) (front back : List Columns) :
    a.extend (front ++ back) = (a.extend front).extend back :=
  List.foldl_append

end Columns

/-- The reading `f` of one kind of batch as another goes along with all
    operations. -/
structure Recording.Respects {β γ : Type} [Recording β] [Recording γ] (f : β → γ) : Prop where
  empty : f Recording.empty = Recording.empty
  record : ∀ b change, f (Recording.record b change) = Recording.record (f b) change
  merge : ∀ a b, f (Recording.merge a b) = Recording.merge (f a) (f b)
  append : ∀ a b, f (Recording.append a b) = Recording.append (f a) (f b)
  extend : ∀ a others, f (Recording.extend a others) = Recording.extend (f a) (others.map f)
  clear : ∀ b, f (Recording.clear b) = Recording.clear (f b)

namespace Columns

-- Recording one change is merging with the batch of that change alone.
theorem record_eq_merge (c : Columns) (change : Change) :
    c.record change = c.merge (ofLog [change]) := by
  cases change with
  | reset id payload =>
      apply ext_columns
      · rfl
      · rfl
      · exact (List.append_nil c.removals).symm
      · exact (List.append_nil c.moves).symm
  | clear id =>
      apply ext_columns
      · rfl
      · rfl
      · exact (List.append_nil c.removals).symm
      · exact (List.append_nil c.moves).symm
  | remove id =>
      apply ext_columns
      · exact (List.append_nil c.resetIds).symm
      · exact (List.append_nil c.resetPayloads).symm
      · rfl
      · exact (List.append_nil c.moves).symm
  | move id =>
      apply ext_columns
      · exact (List.append_nil c.resetIds).symm
      · exact (List.append_nil c.resetPayloads).symm
      · exact (List.append_nil c.removals).symm
      · rfl

theorem ofLog_record (log : List Change) (change : Change) :
    ofLog (log ++ [change]) = (ofLog log).record change := by
  rw [ofLog_append, record_eq_merge]

theorem ofLog_extend (log : List Change) (others : List (List Change)) :
    ofLog (log ++ others.flatten) = (ofLog log).extend (others.map ofLog) := by
  induction others generalizing log with
  | nil => exact congrArg ofLog (List.append_nil log)
  | cons other rest ih =>
      have hfirst : (ofLog log).append (ofLog other) = ofLog (log ++ other) := by
        rw [append_eq_merge, ofLog_append]
      change _ = ((ofLog log).append (ofLog other)).extend (rest.map ofLog)
      rw [hfirst, ← ih, List.flatten_cons, List.append_assoc]

/-- Operations on columns are those on the logs that were laid out. -/
theorem respects_ofLog : Recording.Respects ofLog where
  empty := rfl
  record := ofLog_record
  merge := ofLog_append
  append log other := by
    change ofLog (log ++ other) = (ofLog log).append (ofLog other)
    rw [append_eq_merge, ofLog_append]
  extend := ofLog_extend
  clear _ := rfl

-- The resets stay in their pairs when batches are joined, because the columns
-- of the first batch are equally long.
theorem toBatch_merge (a b : Columns) : (a.merge b).toBatch = a.toBatch.merge b.toBatch := by
  have hresets : (a.merge b).resets = a.resets ++ b.resets := List.zip_append a.paired
  unfold toBatch Batch.merge
  rw [hresets]
  rfl

theorem toBatch_record (c : Columns) (change : Change) :
    (c.record change).toBatch = c.toBatch.record change := by
  rw [record_eq_merge, toBatch_merge]
  cases change <;> simp only [toBatch, Batch.merge, Batch.record, ofLog, resets,
    Change.reset?, Change.removed?, Change.moved?, List.filterMap_cons, List.filterMap_nil,
    List.map_cons, List.map_nil, List.zip_cons_cons, List.zip_nil_left, List.append_nil]

-- Both kinds of batches count the same changes.
theorem isEmpty_toBatch (c : Columns) : c.toBatch.isEmpty = c.isEmpty := by
  have hresets : c.resets.length = c.resetIds.length := by
    unfold resets
    rw [List.length_zip, ← c.paired, Nat.min_self]
  unfold Batch.isEmpty Batch.size isEmpty size toBatch
  rw [hresets]

theorem toBatch_append (a b : Columns) : (a.append b).toBatch = a.toBatch.append b.toBatch := by
  unfold append Batch.append
  rw [isEmpty_toBatch, apply_ite toBatch, toBatch_merge]

theorem toBatch_extend (a : Columns) (others : List Columns) :
    (a.extend others).toBatch = a.toBatch.extend (others.map toBatch) := by
  induction others generalizing a with
  | nil => rfl
  | cons other rest ih =>
      change ((a.append other).extend rest).toBatch
        = (a.toBatch.append other.toBatch).extend (rest.map toBatch)
      rw [ih, toBatch_append]

/-- Operations on batches with paired resets are those on columns. -/
theorem respects_toBatch : Recording.Respects toBatch where
  empty := rfl
  record := toBatch_record
  merge := toBatch_merge
  append := toBatch_append
  extend := toBatch_extend
  clear _ := rfl

end Columns

/-- The shelf with every value read as another. -/
def Shelf.map {label β γ : Type} (f : β → γ) (s : Shelf label β) : Shelf label γ :=
  fun k => f (s.get k)

theorem Shelf.map_put {label β γ : Type} [DecidableEq label] (f : β → γ) (s : Shelf label β)
    (k : label) (v : β) : (s.put k v).map f = (s.map f).put k (f v) := by
  funext other
  unfold Shelf.map Shelf.put Shelf.get
  exact apply_ite f _ _ _

namespace Batch

section Respects

variable {β γ : Type} [Recording β] [Recording γ] {f : β → γ}

theorem map_take (h : Recording.Respects f) (shelf : Shelf String β) (name other : String) :
    take (shelf.map f) name other
      = (f (take shelf name other).1, (take shelf name other).2.map f) := by
  unfold take
  by_cases hsame : other = name
  · rw [if_pos hsame, if_pos hsame, h.empty]
  · rw [if_neg hsame, if_neg hsame, Shelf.map_put, h.empty]
    rfl

theorem map_takeAll (h : Recording.Respects f) (shelf : Shelf String β) (name : String)
    (others : List String) :
    takeAll (shelf.map f) name others
      = ((takeAll shelf name others).1.map f, (takeAll shelf name others).2.map f) := by
  induction others generalizing shelf with
  | nil => rfl
  | cons other rest ih =>
      unfold takeAll
      simp only [map_take h, ih, List.map_cons]

theorem map_foldl_record (h : Recording.Respects f) (b : β) (changes : List Change) :
    f (changes.foldl Recording.record b) = changes.foldl Recording.record (f b) := by
  induction changes generalizing b with
  | nil => rfl
  | cons change rest ih =>
      rw [List.foldl_cons, List.foldl_cons, ih, h.record]

/-- A step on batches that are read otherwise is the step on the batches. -/
theorem map_run (h : Recording.Respects f) (shelf : Shelf String β) (step : Step) :
    (step.run shelf).map f = step.run (shelf.map f) := by
  cases step with
  | record name changes =>
      unfold Step.run
      rw [Shelf.map_put, map_foldl_record h]
      rfl
  | merge name other =>
      unfold Step.run
      rw [Shelf.map_put, h.merge]
      rfl
  | append name other =>
      unfold Step.run
      simp only [map_take h]
      rw [Shelf.map_put, h.append]
      rfl
  | extend name others =>
      unfold Step.run
      simp only [map_takeAll h]
      rw [Shelf.map_put, h.extend]
      rfl
  | clear name =>
      unfold Step.run
      rw [Shelf.map_put, h.clear]
      rfl
  | copy name target =>
      unfold Step.run
      rw [Shelf.map_put]
      rfl

/-- Steps in turn on batches that are read otherwise. -/
theorem map_runAll (h : Recording.Respects f) (shelf : Shelf String β) (steps : List Step) :
    (Step.runAll shelf steps).map f = Step.runAll (shelf.map f) steps := by
  induction steps generalizing shelf with
  | nil => rfl
  | cons step rest ih =>
      change (Step.runAll (step.run shelf) rest).map f
        = Step.runAll (step.run (shelf.map f)) rest
      rw [ih, map_run h]

end Respects

section Frame

variable {β : Type} [Recording β]

/-- The names of the batches that a step may change. A merge only reads the
    other batch, while appending takes it away. -/
def Step.written : Step → List String
  | record name _ => [name]
  | merge name _ => [name]
  | append name other => [name, other]
  | extend name others => name :: others
  | clear name => [name]
  | copy _ target => [target]

-- What was taken away is empty, unless it is the batch worked on.
theorem get_take (shelf : Shelf String β) (name other label : String) :
    (take shelf name other).2.get label
      = if label = other ∧ label ≠ name then Recording.empty else shelf.get label := by
  unfold take
  by_cases hsame : other = name
  · rw [if_pos hsame, if_neg fun h => h.2 (h.1.trans hsame)]
  · rw [if_neg hsame]
    by_cases hlabel : label = other
    · rw [if_pos ⟨hlabel, hlabel ▸ hsame⟩, hlabel]
      exact Shelf.get_put_self shelf other Recording.empty
    · rw [if_neg fun h => hlabel h.1]
      exact Shelf.get_put_other shelf Recording.empty hlabel

theorem get_takeAll (shelf : Shelf String β) (name : String) (others : List String)
    (label : String) : (takeAll shelf name others).2.get label
      = if label ∈ others ∧ label ≠ name then Recording.empty else shelf.get label := by
  induction others generalizing shelf with
  | nil => rw [if_neg fun h => absurd h.1 List.not_mem_nil, takeAll]
  | cons other rest ih =>
      unfold takeAll
      rw [ih, get_take]
      by_cases hname : label = name
      · rw [if_neg fun h => h.2 hname, if_neg fun h => h.2 hname, if_neg fun h => h.2 hname]
      · by_cases hrest : label ∈ rest
        · rw [if_pos ⟨hrest, hname⟩, if_pos ⟨List.mem_cons_of_mem other hrest, hname⟩]
        · simp only [List.mem_cons, hrest, or_false, false_and, if_false]

/-- A step leaves all batches alone but those that it may change. -/
theorem get_run_of_not_written (shelf : Shelf String β) (step : Step) {label : String}
    (hlabel : label ∉ step.written) : (step.run shelf).get label = shelf.get label := by
  have hput : ∀ (left : Shelf String β) (name : String) (b : β), label ≠ name →
      (left.put name b).get label = left.get label :=
    fun left _ b hname => Shelf.get_put_other left b hname
  cases step with
  | record name _ => exact hput shelf name _ (List.ne_of_not_mem_cons hlabel)
  | merge name _ => exact hput shelf name _ (List.ne_of_not_mem_cons hlabel)
  | append name other =>
      have hother : label ≠ other :=
        List.ne_of_not_mem_cons (List.not_mem_of_not_mem_cons hlabel)
      rw [Step.run, hput _ name _ (List.ne_of_not_mem_cons hlabel), get_take,
        if_neg fun h => hother h.1]
  | extend name others =>
      rw [Step.run, hput _ name _ (List.ne_of_not_mem_cons hlabel), get_takeAll,
        if_neg fun h => List.not_mem_of_not_mem_cons hlabel h.1]
  | clear name => exact hput shelf name _ (List.ne_of_not_mem_cons hlabel)
  | copy _ target => exact hput shelf target _ (List.ne_of_not_mem_cons hlabel)

end Frame

section Logs

/-- What the logs under the names come to, one behind the other. A name that was
    seen before has nothing left. -/
def drawn (logs : Shelf String (List Change)) (seen : List String) : List String → List Change
  | [] => []
  | other :: rest =>
    (if other ∈ seen then [] else logs.get other) ++ drawn logs (other :: seen) rest

/-- What a step makes of the log under a name, told by the logs before it. -/
def Step.logAt (logs : Shelf String (List Change)) (label : String) : Step → List Change
  | record name changes => if label = name then logs.get name ++ changes else logs.get label
  | merge name other =>
    if label = name then logs.get name ++ logs.get other else logs.get label
  | append name other =>
    if label = name then logs.get name ++ drawn logs [name] [other]
    else if label = other then [] else logs.get label
  | extend name others =>
    if label = name then logs.get name ++ drawn logs [name] others
    else if label ∈ others then [] else logs.get label
  | clear name => if label = name then [] else logs.get label
  | copy name target => if label = target then logs.get name else logs.get label

/-- What is taken away in turn. Of the names seen by then, the one of the batch
    worked on among them, nothing is left. -/
theorem flatten_takeAll (logs shelf : Shelf String (List Change)) (name : String)
    (seen others : List String) (hname : name ∈ seen)
    (hshelf : ∀ label, label ≠ name →
      shelf.get label = if label ∈ seen then [] else logs.get label) :
    (takeAll shelf name others).1.flatten = drawn logs seen others := by
  induction others generalizing shelf seen with
  | nil => rfl
  | cons other rest ih =>
      have hfirst : (take shelf name other).1 = if other ∈ seen then [] else logs.get other := by
        unfold take
        by_cases hsame : other = name
        · rw [if_pos hsame, if_pos (hsame ▸ hname)]
          rfl
        · rw [if_neg hsame]
          exact hshelf other hsame
      have hleft : ∀ label, label ≠ name → (take shelf name other).2.get label
          = if label ∈ other :: seen then [] else logs.get label := by
        intro label hlabel
        rw [get_take, hshelf label hlabel]
        by_cases hsame : label = other
        · rw [if_pos ⟨hsame, hlabel⟩, if_pos (hsame ▸ List.mem_cons_self)]
          rfl
        · simp only [List.mem_cons, hsame, false_or, false_and, if_false]
      unfold takeAll drawn
      rw [List.flatten_cons, hfirst, ih _ _ (List.mem_cons_of_mem other hname) hleft]

theorem foldl_record_log (log changes : List Change) :
    changes.foldl Recording.record log = log ++ changes := by
  induction changes generalizing log with
  | nil => exact (List.append_nil log).symm
  | cons change rest ih =>
      rw [List.foldl_cons, ih]
      exact List.append_assoc log [change] rest

theorem get_run_extend_log (logs : Shelf String (List Change)) (name : String)
    (others : List String) (label : String) :
    ((Step.extend name others).run logs).get label = (Step.extend name others).logAt logs label := by
  have hseen : ∀ label, label ≠ name →
      logs.get label = if label ∈ [name] then [] else logs.get label := by
    intro label hlabel
    rw [if_neg (by rwa [List.mem_singleton])]
  have htaken := flatten_takeAll logs logs name [name] others List.mem_cons_self hseen
  rw [Step.run, Step.logAt]
  by_cases hlabel : label = name
  · rw [hlabel, if_pos rfl, Shelf.get_put_self, get_takeAll, if_neg fun h => h.2 rfl, ← htaken]
    rfl
  · rw [if_neg hlabel, Shelf.get_put_other _ _ hlabel, get_takeAll]
    simp only [ne_eq, hlabel, not_false_eq_true, and_true]
    rfl

/-- A step on logs, one name at a time. -/
theorem get_run_log (logs : Shelf String (List Change)) (step : Step) (label : String) :
    (step.run logs).get label = step.logAt logs label := by
  cases step with
  | record name changes =>
      rw [Step.run, foldl_record_log]
      rfl
  | merge name other => rfl
  | append name other =>
      -- On logs this is extending by one.
      have hrun : (Step.append name other).run logs = (Step.extend name [other]).run logs :=
        congrArg (Shelf.put _ name) (congrArg (_ ++ ·) (List.append_nil _).symm)
      rw [hrun, get_run_extend_log]
      simp only [Step.logAt, List.mem_singleton]
  | extend name others => exact get_run_extend_log logs name others label
  | clear name => rfl
  | copy name target => rfl

end Logs

/-- The columns under all names after steps from empty batches. -/
def Step.columnsAfter (steps : List Step) : Shelf String Columns :=
  runAll Shelf.initial steps

/-- The logs under all names after steps from empty logs. -/
def Step.logsAfter (steps : List Step) : Shelf String (List Change) :=
  runAll Shelf.initial steps

/-- Each further step does to the logs what it says. -/
theorem get_logsAfter_concat (steps : List Step) (step : Step) (label : String) :
    (Step.logsAfter (steps ++ [step])).get label = step.logAt (Step.logsAfter steps) label := by
  unfold Step.logsAfter Step.runAll
  rw [List.foldl_append]
  exact get_run_log _ step label

-- The columns under a name are laid out from the log under that name.
theorem get_columnsAfter (steps : List Step) (name : String) :
    (Step.columnsAfter steps).get name = Columns.ofLog ((Step.logsAfter steps).get name) := by
  have hrun := map_runAll Columns.respects_ofLog Shelf.initial steps
  exact (congrArg (·.get name) hrun).symm

/-- The batch that is handed over is the one that the same steps make of
    batches with paired resets. -/
theorem toBatch_columnsAfter (steps : List Step) (name : String) :
    ((Step.columnsAfter steps).get name).toBatch
      = (Step.runAll (Shelf.initial : Shelf String Batch) steps).get name := by
  have hrun := map_runAll Columns.respects_toBatch Shelf.initial steps
  exact congrArg (·.get name) hrun

end Batch

/-- Batches, and the order in which they are joined. -/
inductive Bracketing where
  | one (batch : Columns)
  | merged (left right : Bracketing)
  | appended (left right : Bracketing)

namespace Bracketing

/-- The batches that are joined, from left to right. -/
def leaves : Bracketing → List Columns
  | one batch => [batch]
  | merged left right => left.leaves ++ right.leaves
  | appended left right => left.leaves ++ right.leaves

/-- The batch that comes of joining. -/
def value : Bracketing → Columns
  | one batch => batch
  | merged left right => left.value.merge right.value
  | appended left right => left.value.append right.value

/-- Only the sequence of the batches counts, and not the order in which they
    are joined. -/
theorem value_eq (t : Bracketing) : t.value = Columns.empty.extend t.leaves := by
  -- Joining what two sequences come to is going through one after the other.
  have hjoin : ∀ left right : Bracketing, left.value = Columns.empty.extend left.leaves →
      right.value = Columns.empty.extend right.leaves →
      left.value.merge right.value = Columns.empty.extend (left.leaves ++ right.leaves) := by
    intro left right hleft hright
    rw [Columns.extend_append, ← hleft, hright, ← Columns.extend_merge, Columns.merge_empty]
  induction t with
  | one batch => rfl
  | merged left right hleft hright => exact hjoin left right hleft hright
  | appended left right hleft hright =>
      unfold value
      rw [Columns.append_eq_merge]
      exact hjoin left right hleft hright

end Bracketing

namespace Columns

/-- After any steps on named batches, every batch answers as the log under its
    name does, which was empty at the start and of which each step made what
    `Batch.Step.logAt` says. A step leaves all batches alone but those that it may
    change, and the batch that is merged in is none of them. Appending is
    merging for every pair, extending joins a whole sequence, joining is
    associative with the empty batch as identity on both sides, and only the
    sequence of what is joined counts. -/
theorem columns_follow_log :
    (∀ (steps : List Batch.Step) (name : String),
      ((Batch.Step.columnsAfter steps).get name).Shows ((Batch.Step.logsAfter steps).get name)) ∧
    (∀ name, (Batch.Step.logsAfter []).get name = []) ∧
    (∀ (steps : List Batch.Step) (step : Batch.Step) (name : String),
      (Batch.Step.logsAfter (steps ++ [step])).get name
        = step.logAt (Batch.Step.logsAfter steps) name) ∧
    (∀ (shelf : Shelf String Columns) (step : Batch.Step) (label : String),
      label ∉ step.written → (step.run shelf).get label = shelf.get label) ∧
    (∀ a b : Columns, a.append b = a.merge b) ∧
    (∀ (log : List Change) (others : List (List Change)),
      (ofLog log).extend (others.map ofLog) = ofLog (log ++ others.flatten)) ∧
    (∀ a b c : Columns, (a.merge b).merge c = a.merge (b.merge c)) ∧
    (∀ c : Columns, empty.merge c = c ∧ c.merge empty = c) ∧
    ∀ t : Bracketing, t.value = empty.extend t.leaves := by
  refine ⟨fun steps name => ?_, fun _ => rfl, Batch.get_logsAfter_concat, fun shelf step _ => Batch.get_run_of_not_written shelf step,
    append_eq_merge, fun log others => (ofLog_extend log others).symm, merge_assoc,
    fun c => ⟨empty_merge c, merge_empty c⟩, Bracketing.value_eq⟩
  rw [Batch.get_columnsAfter]
  exact shows_ofLog _

/-- A batch is doubled, copied, and appended to an empty one. A third takes both
    of them, and what is recorded after that is dropped. -/
def doublingSteps : List Batch.Step :=
  [.record "a" [.remove ⟨7⟩, .clear ⟨1⟩, .reset ⟨1⟩ (.shared "box")],
   .merge "a" "a",
   .copy "a" "b",
   .append "c" "a",
   .record "d" [.move ⟨3⟩],
   .extend "d" ["c", "b", "c", "d"],
   .record "b" [.remove ⟨9⟩],
   .clear "b"]

theorem columns_follow_doublingSteps :
    ((Batch.Step.columnsAfter (doublingSteps.take 4)).get "c").resets
        = [(⟨1⟩, none), (⟨1⟩, some (.shared "box")), (⟨1⟩, none), (⟨1⟩, some (.shared "box"))] ∧
      ((Batch.Step.columnsAfter doublingSteps).get "d").removals = [⟨7⟩, ⟨7⟩, ⟨7⟩, ⟨7⟩] ∧
      ((Batch.Step.columnsAfter doublingSteps).get "d").moves = [⟨3⟩] ∧
      ((Batch.Step.columnsAfter doublingSteps).get "d").size = 13 ∧
      ((Batch.Step.columnsAfter doublingSteps).get "a").isEmpty = true ∧
      ((Batch.Step.columnsAfter doublingSteps).get "b").isEmpty = true ∧
      ((Batch.Step.columnsAfter doublingSteps).get "c").isEmpty = true ∧
      "b" ∉ (Batch.Step.merge "c" "b").written ∧
      ((Batch.Step.merge "c" "b").run (Batch.Step.columnsAfter doublingSteps)).get "b"
        = (Batch.Step.columnsAfter doublingSteps).get "b" := by
  obtain ⟨hshows, -, -, hframe, -⟩ := columns_follow_log
  have hother : "b" ∉ (Batch.Step.merge "c" "b").written := by decide
  exact ⟨(hshows _ "c").resets, (hshows _ "d").removals, (hshows _ "d").moves,
    (hshows _ "d").size, (hshows _ "a").isEmpty.mpr rfl, (hshows _ "b").isEmpty.mpr rfl,
    (hshows _ "c").isEmpty.mpr rfl, hother, hframe _ (.merge "c" "b") "b" hother⟩

end Columns

end SceneIndex
