import SceneIndex.Proofs.Buckets.Contents

/-!
# Changing a key without taking the item out

When the key of an item changes, its id could be taken out under the old key
and put in under the new one. Buckets do less: a bucket on which the two keys
agree is passed over. This module says what the shortcut costs.

It costs nothing as long as the id is where it should be. Passing over a
bucket that accepts both keys is right just if the id is in it already, and
`rekey_eq_insert_erase_iff` says that this is the only thing to ask for. A
bucket that was added without being filled may lack the id, and then the two
ways differ.

Most buckets are in step: they hold the id just if they accept its key. On
such buckets a change of key has a plain meaning. It files the id under the
new key and forgets the old one (`rekey_eq_file`), so of a chain of changes
only the last counts, and going back restores what was there. `file` is that
meaning as an operation of its own, and it is what carries the induction along
a chain.

## Main definitions

* `IdSet.switch`: The set with an id in it or not.
* `Buckets.file`: The buckets with the id in just those that accept the key.
* `Buckets.FiledUnder`: The id is in just those buckets.
* `Buckets.rekeyThrough`: The buckets after a chain of changes.

## Theorems

* `mapIds_eq_iff`: When two changes of ids come to the same.
* `rekey_eq_insert_erase_iff`: When the shortcut makes no difference.
* `filedUnder_iff_file_eq`: Filing an id where it is filed changes nothing.
* `rekey_eq_file`: What a change of key comes to on buckets in step.
* `rekeyThrough_eq_file`: What a chain of changes comes to.
* `contains_rekeyThrough_other`: No other id is touched.
* `rekey_lawful`: All of it together.
-/

namespace SceneIndex

namespace IdSet

theorem insert_erase_eq_iff (s : IdSet) (id : ItemId) : (s.erase id).insert id = s ↔ id ∈ s := by
  constructor
  · intro h
    rw [← h]
    exact mem_insert.mpr (Or.inl rfl)
  · intro h
    apply ext
    intro x
    rw [mem_insert, mem_erase]
    by_cases hx : x = id
    · simp only [hx, true_or, h]
    · simp only [hx, false_or, ne_eq, not_false_eq_true, true_and]

theorem insert_of_mem {s : IdSet} {id : ItemId} (h : id ∈ s) : s.insert id = s := by
  apply ext
  intro x
  rw [mem_insert]
  constructor
  · rintro (rfl | hx)
    · exact h
    · exact hx
  · exact Or.inr

theorem erase_of_notMem {s : IdSet} {id : ItemId} (h : id ∉ s) : s.erase id = s := by
  apply ext
  intro x
  rw [mem_erase]
  constructor
  · exact fun hx => hx.2
  · intro hx
    refine ⟨?_, hx⟩
    rintro rfl
    exact h hx

/-- The set with an id in it, or with the id not in it. -/
def switch (id : ItemId) (on : Bool) (s : IdSet) : IdSet :=
  if on then s.insert id else s.erase id

theorem mem_switch {id x : ItemId} {on : Bool} {s : IdSet} :
    x ∈ s.switch id on ↔ if x = id then on = true else x ∈ s := by
  unfold switch
  by_cases hon : on = true
  · rw [if_pos hon, mem_insert]
    by_cases hx : x = id
    · simp only [hx, true_or, if_true, hon]
    · simp only [hx, false_or, if_false]
  · rw [if_neg hon, mem_erase]
    by_cases hx : x = id
    · simp only [hx, ne_eq, not_true_eq_false, false_and, if_true, hon, Bool.false_eq_true]
    · simp only [hx, ne_eq, not_false_eq_true, true_and, if_false]

theorem switch_switch (id : ItemId) (first second : Bool) (s : IdSet) :
    (s.switch id first).switch id second = s.switch id second := by
  apply ext
  intro x
  rw [mem_switch, mem_switch, mem_switch]
  by_cases hx : x = id
  · simp only [hx, if_true]
  · simp only [hx, if_false]

theorem switch_eq_iff (id : ItemId) (on : Bool) (s : IdSet) :
    s.switch id on = s ↔ (id ∈ s ↔ on = true) := by
  have hself : id ∈ s.switch id on ↔ on = true := by rw [mem_switch, if_pos rfl]
  constructor
  · intro h
    rw [h] at hself
    exact hself
  · intro h
    apply ext
    intro x
    by_cases hx : x = id
    · rw [hx, hself, h]
    · rw [mem_switch, if_neg hx]

end IdSet

namespace Buckets

theorem find?_of_mem {f : Filter} {ids : IdSet} {entries : List (Filter × IdSet)}
    (h : entries.Pairwise (fun a b => a.1.rank < b.1.rank)) (hmem : (f, ids) ∈ entries) :
    (entries.find? fun entry => decide (entry.1 = f)) = some (f, ids) := by
  induction entries with
  | nil => exact absurd hmem List.not_mem_nil
  | cons head rest ih =>
      rw [List.pairwise_cons] at h
      rcases List.mem_cons.mp hmem with heq | hrest
      · rw [← heq]
        exact List.find?_cons_of_pos (decide_eq_true rfl)
      · -- The head ranks below the filter, so it has another one.
        have hlt : head.1.rank < f.rank := h.1 (f, ids) hrest
        have hne : ¬ head.1 = f := by
          intro heq
          rw [heq] at hlt
          exact Nat.lt_irrefl _ hlt
        rw [List.find?_cons_of_neg (by simpa only [decide_eq_true_eq] using hne)]
        exact ih h.2 hrest

/-- The bucket of a filter is the entry with that filter, since no filter has
    two buckets. -/
theorem get?_eq_some_iff (b : Buckets) (f : Filter) (ids : IdSet) :
    b.get? f = some ids ↔ (f, ids) ∈ b.entries := by
  constructor
  · intro h
    rcases Option.map_eq_some_iff.mp h with ⟨⟨g, found⟩, hfind, hids⟩
    have hg : g = f := by simpa only [decide_eq_true_eq] using List.find?_some hfind
    rw [← hg, ← hids]
    exact List.mem_of_find?_eq_some hfind
  · intro h
    unfold get?
    rw [find?_of_mem b.ascending h, Option.map_some]

theorem forall_get?_iff (b : Buckets) (p : Filter → IdSet → Prop) :
    (∀ f ids, b.get? f = some ids → p f ids) ↔ ∀ entry ∈ b.entries, p entry.1 entry.2 := by
  simp only [get?_eq_some_iff, Prod.forall]

theorem ext_entries {a b : Buckets} (h : a.entries = b.entries) : a = b := by
  rcases a with ⟨entries, hentries⟩
  rcases b with ⟨entries', hentries'⟩
  subst h
  rfl

/-- Two changes of ids come to the same if they do so in every bucket. -/
theorem mapIds_eq_iff (g h : Filter → IdSet → IdSet) (b : Buckets) :
    b.mapIds g = b.mapIds h ↔ ∀ entry ∈ b.entries, g entry.1 entry.2 = h entry.1 entry.2 := by
  constructor
  · intro heq entry hentry
    have hlists := List.map_inj_left.mp (congrArg Buckets.entries heq) entry hentry
    exact congrArg Prod.snd hlists
  · intro hall
    apply ext_entries
    refine List.map_congr_left (fun entry hentry => ?_)
    rw [hall entry hentry]

theorem mapIds_id (b : Buckets) : b.mapIds (fun _ ids => ids) = b :=
  ext_entries (List.map_id _)

theorem mapIds_mapIds (g h : Filter → IdSet → IdSet) (b : Buckets) :
    (b.mapIds g).mapIds h = b.mapIds fun f ids => h f (g f ids) := by
  apply ext_entries
  simp only [mapIds, List.map_map]
  rfl

-- Only a bucket that accepts both keys can tell the two ways apart.
theorem rekey_entry_iff (id : ItemId) (wasIn isIn : Bool) (ids : IdSet) :
    (match wasIn, isIn with
      | true, false => ids.erase id
      | false, true => ids.insert id
      | _, _ => ids)
        = (if isIn = true then (if wasIn = true then ids.erase id else ids).insert id
            else if wasIn = true then ids.erase id else ids) ↔
      (wasIn = true → isIn = true → id ∈ ids) := by
  by_cases hboth : wasIn = true ∧ isIn = true
  · rcases hboth with ⟨rfl, rfl⟩
    have hback : ids = (ids.erase id).insert id ↔ id ∈ ids := by
      rw [eq_comm]
      exact IdSet.insert_erase_eq_iff ids id
    exact ⟨fun h _ _ => hback.mp h, fun h => hback.mpr (h rfl rfl)⟩
  · refine iff_of_true ?_ (fun hwas his => absurd ⟨hwas, his⟩ hboth)
    cases wasIn <;> cases isIn
    · rfl
    · rfl
    · rfl
    · exact absurd ⟨rfl, rfl⟩ hboth

/-- Passing over the buckets that accept both keys makes no difference just if
    all of them hold the id. -/
theorem rekey_eq_insert_erase_iff (b : Buckets) (id : ItemId) (old new : Key) :
    b.rekey id old new = (b.erase id old).insert id new ↔
      ∀ entry ∈ b.entries, entry.1.accepts old = true → entry.1.accepts new = true →
        id ∈ entry.2 := by
  unfold rekey erase insert
  rw [mapIds_mapIds, mapIds_eq_iff]
  exact forall₂_congr (fun entry _ => rekey_entry_iff id _ _ entry.2)

/-- The id is in just those buckets that accept the key. -/
def FiledUnder (b : Buckets) (id : ItemId) (key : Key) : Prop :=
  ∀ entry ∈ b.entries, (id ∈ entry.2 ↔ entry.1.accepts key = true)

instance (b : Buckets) (id : ItemId) (key : Key) : Decidable (b.FiledUnder id key) :=
  inferInstanceAs (Decidable (∀ entry ∈ b.entries, _))

/-- The buckets with the id in just those that accept the key. -/
def file (b : Buckets) (id : ItemId) (key : Key) : Buckets :=
  b.mapIds fun f ids => ids.switch id (f.accepts key)

theorem filedUnder_iff_file_eq (b : Buckets) (id : ItemId) (key : Key) :
    b.FiledUnder id key ↔ b.file id key = b := by
  have hsame := mapIds_eq_iff (fun f ids => ids.switch id (f.accepts key)) (fun _ ids => ids) b
  rw [mapIds_id] at hsame
  unfold FiledUnder file
  rw [hsame]
  simp only [IdSet.switch_eq_iff]

theorem file_file (b : Buckets) (id : ItemId) (first second : Key) :
    (b.file id first).file id second = b.file id second := by
  unfold file
  rw [mapIds_mapIds]
  simp only [IdSet.switch_switch]

theorem filedUnder_file (b : Buckets) (id : ItemId) (key : Key) :
    (b.file id key).FiledUnder id key := by
  rw [filedUnder_iff_file_eq, file_file]

/-- On buckets that are in step with the old key, a change of key files the id
    under the new one. -/
theorem rekey_eq_file {b : Buckets} {id : ItemId} {old : Key} (h : b.FiledUnder id old)
    (new : Key) : b.rekey id old new = b.file id new := by
  unfold rekey file
  rw [mapIds_eq_iff]
  intro entry hentry
  have hmem := h entry hentry
  -- Where the keys agree, the id is in the bucket or not as both demand.
  cases hold : entry.1.accepts old <;> cases hnew : entry.1.accepts new
  · rw [hold] at hmem
    exact (IdSet.erase_of_notMem (fun hin => Bool.false_ne_true (hmem.mp hin))).symm
  · rfl
  · rfl
  · exact (IdSet.insert_of_mem (hmem.mpr hold)).symm

/-- The buckets after the key of an item became each of the listed keys in
    turn. -/
def rekeyThrough (b : Buckets) (id : ItemId) : Key → List Key → Buckets
  | _, [] => b
  | old, new :: later => (b.rekey id old new).rekeyThrough id new later

theorem rekeyThrough_eq_file {b : Buckets} {id : ItemId} {old : Key} (h : b.FiledUnder id old)
    (keys : List Key) : b.rekeyThrough id old keys = b.file id (keys.getLastD old) := by
  induction keys generalizing b old with
  | nil => exact ((filedUnder_iff_file_eq b id old).mp h).symm
  | cons new later ih =>
      have hnew : (b.rekey id old new).FiledUnder id new := by
        rw [rekey_eq_file h]
        exact filedUnder_file b id new
      change (b.rekey id old new).rekeyThrough id new later = _
      rw [ih hnew, rekey_eq_file h, file_file, List.getLastD_cons]

theorem filters_rekeyThrough (b : Buckets) (id : ItemId) (old : Key) (keys : List Key) :
    (b.rekeyThrough id old keys).filters = b.filters := by
  induction keys generalizing b old with
  | nil => rfl
  | cons new later ih =>
      change ((b.rekey id old new).rekeyThrough id new later).filters = _
      rw [ih]
      exact filters_mapIds _ b

theorem contains_rekey_other (b : Buckets) (id other : ItemId) (old new : Key) (f : Filter)
    (h : other ≠ id) : (b.rekey id old new).contains f other = b.contains f other := by
  unfold contains
  rw [get?_rekey]
  cases b.get? f with
  | none => rfl
  | some ids =>
      have herase : other ∈ ids.erase id ↔ other ∈ ids := by
        rw [IdSet.mem_erase]
        exact and_iff_right h
      have hinsert : other ∈ ids.insert id ↔ other ∈ ids := by
        rw [IdSet.mem_insert]
        exact or_iff_right h
      cases f.accepts old <;> cases f.accepts new <;>
        simp only [Option.map_some, herase, hinsert]

theorem contains_rekeyThrough_other (b : Buckets) (id other : ItemId) (old : Key)
    (keys : List Key) (f : Filter) (h : other ≠ id) :
    (b.rekeyThrough id old keys).contains f other = b.contains f other := by
  induction keys generalizing b old with
  | nil => rfl
  | cons new later ih =>
      change ((b.rekey id old new).rekeyThrough id new later).contains f other = _
      rw [ih, contains_rekey_other b id other old new f h]

/-- A change of key is a removal under the old key and an insertion under the
    new one if and only if every bucket that accepts both holds the id. If the
    id was in just the buckets that accept the old key, it is in just those
    that accept the new one afterwards, a chain of changes comes to the change
    from its first key to its last, and going back restores the buckets. No
    change of key, and no chain of them, touches the filters or another id. -/
theorem rekey_lawful (b : Buckets) (id : ItemId) (old : Key) :
    (∀ new, b.rekey id old new = (b.erase id old).insert id new ↔
      ∀ f ids, b.get? f = some ids → f.accepts old = true → f.accepts new = true → id ∈ ids) ∧
    ((∀ f ids, b.get? f = some ids → (id ∈ ids ↔ f.accepts old = true)) →
      (∀ new f ids, (b.rekey id old new).get? f = some ids →
        (id ∈ ids ↔ f.accepts new = true)) ∧
      (∀ keys, b.rekeyThrough id old keys = b.rekey id old (keys.getLastD old)) ∧
      ∀ new, (b.rekey id old new).rekey id new old = b) ∧
    (∀ new, (b.rekey id old new).filters = b.filters ∧
      ∀ f other, other ≠ id → (b.rekey id old new).contains f other = b.contains f other) ∧
    ∀ keys, (b.rekeyThrough id old keys).filters = b.filters ∧
      ∀ f other, other ≠ id →
        (b.rekeyThrough id old keys).contains f other = b.contains f other := by
  refine ⟨fun new => ?_, fun hin => ?_, fun new => ⟨filters_mapIds _ b, fun f other hother => ?_⟩,
    fun keys => ⟨filters_rekeyThrough b id old keys, fun f other hother => ?_⟩⟩
  · rw [forall_get?_iff b (fun f ids => f.accepts old = true → f.accepts new = true → id ∈ ids)]
    exact rekey_eq_insert_erase_iff b id old new
  · have hold : b.FiledUnder id old :=
      (forall_get?_iff b (fun f ids => id ∈ ids ↔ f.accepts old = true)).mp hin
    have hnew : ∀ new, (b.rekey id old new).FiledUnder id new := by
      intro new
      rw [rekey_eq_file hold]
      exact filedUnder_file b id new
    refine ⟨fun new => ?_, fun keys => ?_, fun new => ?_⟩
    · exact (forall_get?_iff _ (fun f ids => id ∈ ids ↔ f.accepts new = true)).mpr (hnew new)
    · rw [rekeyThrough_eq_file hold, rekey_eq_file hold]
    · rw [rekey_eq_file (hnew new), rekey_eq_file hold, file_file]
      exact (filedUnder_iff_file_eq b id old).mp hold
  · exact contains_rekey_other b id other old new f hother
  · exact contains_rekeyThrough_other b id other old keys f hother

/-- One shape, filed in the standard buckets and in one for everything. -/
def oneShape : Buckets := (standard.allocate Filter.everything).insert ⟨1⟩ Key.opaqueShape

/-- One shape in the standard buckets, and a bucket for everything that was
    added later and not filled. -/
def oneShapeUnfilled : Buckets :=
  (standard.insert ⟨1⟩ Key.opaqueShape).allocate Filter.everything

/-- The shape becomes transparent, then a light, and then opaque again, and is
    where it was. Where the bucket for everything was not filled, the first of
    these changes is not a removal and an insertion. -/
theorem rekey_oneShape :
    (∀ f ids, oneShape.get? f = some ids →
      ((⟨1⟩ : ItemId) ∈ ids ↔ f.accepts Key.opaqueShape = true)) ∧
    oneShape.rekeyThrough ⟨1⟩ Key.opaqueShape [Key.transparentShape, Key.light, Key.opaqueShape]
      = oneShape ∧
    oneShapeUnfilled.rekey ⟨1⟩ Key.opaqueShape Key.transparentShape
      ≠ (oneShapeUnfilled.erase ⟨1⟩ Key.opaqueShape).insert ⟨1⟩ Key.transparentShape := by
  have hin : ∀ f ids, oneShape.get? f = some ids →
      ((⟨1⟩ : ItemId) ∈ ids ↔ f.accepts Key.opaqueShape = true) := by
    rw [forall_get?_iff oneShape
      (fun f ids => (⟨1⟩ : ItemId) ∈ ids ↔ f.accepts Key.opaqueShape = true)]
    decide
  refine ⟨hin, ?_, ?_⟩
  · rcases rekey_lawful oneShape ⟨1⟩ Key.opaqueShape with ⟨_, hfiled, _⟩
    rcases hfiled hin with ⟨_, hchain, _⟩
    rw [hchain]
    decide
  · rcases rekey_lawful oneShapeUnfilled ⟨1⟩ Key.opaqueShape with ⟨hways, _⟩
    intro hsame
    have hmem := (hways Key.transparentShape).mp hsame Filter.everything IdSet.empty (by decide)
      (by decide) (by decide)
    exact List.not_mem_nil hmem

end Buckets

end SceneIndex
