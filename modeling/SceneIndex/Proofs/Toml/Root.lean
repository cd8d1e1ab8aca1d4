import Mathlib.Data.List.Nodup
import SceneIndex.Proofs.Toml.Range
import SceneIndex.Proofs.Toml.Said

/-!
# The root table of a TOML document

What a statement does to the root table is one of two things (`Table.Step`). It
adds an entry under a key that the table did not have, or it replaces a table or
an array, which gets more entries or another element further down. Headers and
dotted keys may go far down, but from the root they look the same. This is shown
for all of them at once (`after_step`).

The rest follows from the step and is carried through a document by induction.
Numbers stay in range, and no key is there twice.

## Main definitions

* `Value.isNested`: The value is a table or an array.
* `Table.Step`: What a statement does to the root table.

## Theorems

* `after_step`: A statement is a step of the root table.
* `read?_inRange`: No number in the root table is too large.
* `nodup_of_read?`: No key is in the root table twice.
-/

namespace SceneIndex

namespace Toml

/-- The value is a table or an array. -/
def Value.isNested : Value → Bool
  | .table _ _ => true
  | .array _ _ => true
  | _ => false

namespace Table

variable {t t' : Table} {key : String} {given : Option Value}

/-- What a statement does to the root table, if it may give it this value. -/
inductive Step (t : Table) (given : Option Value) : Table → Prop
  | added {key : String} {v : Value} (hnone : t.get? key = none)
      (hv : v.isNested = true ∨ given = some v) : Step t given (t ++ [(key, v)])
  | replaced {key : String} {v : Value} (hv : v.isNested = true) : Step t given (t.replace key v)

section Changes

/-- A change at the end of a path is a step, if it is one where the path is
    empty. On any longer path the root table only gets another table or another
    array. -/
theorem reach_step {dotted : Bool} {change : Origin → Table → Option Table}
    (hchange : ∀ origin t t', change origin t = some t' → Step t given t')
    {path : List String} {origin : Origin} (h : reach dotted change path origin t = some t') :
    Step t given t' := by
  cases path with
  | nil => exact hchange origin t t' h
  | cons k rest =>
      unfold reach at h
      split at h
      · rename_i hnone
        simp only at h
        split at h
        · rw [← Option.some.inj h]
          exact .added hnone (Or.inl rfl)
        · cases h
      · cases h
      · split at h
        · cases h
        · split at h
          · rw [← Option.some.inj h]
            exact .replaced rfl
          · cases h
      · split at h
        · split at h
          · rw [← Option.some.inj h]
            exact .replaced rfl
          · cases h
        · cases h
      · cases h

theorem assign_step {path : List String} {v : Value} {origin : Origin}
    (h : assign path key v origin t = some t') : Step t (some v) t' := by
  refine reach_step (fun origin t t' h => ?_) h
  split at h
  · cases h
  · unfold add? at h
    split at h
    · rename_i hnone
      rw [← Option.some.inj h]
      exact .added hnone (Or.inr rfl)
    · cases h

theorem assignUnder_step {current path : List String} {v : Value}
    (h : assignUnder current path key v t = some t') : Step t (some v) t' :=
  reach_step (fun _ _ _ h => assign_step h) h

theorem openTable_step {path : List String} (h : openTable path key t = some t') :
    Step t none t' := by
  refine reach_step (fun origin t t' h => ?_) h
  split at h
  · rename_i hnone
    rw [← Option.some.inj h]
    exact .added hnone (Or.inl rfl)
  · rw [← Option.some.inj h]
    exact .replaced rfl
  · cases h

theorem openElement_step {path : List String} (h : openElement path key t = some t') :
    Step t none t' := by
  refine reach_step (fun origin t t' h => ?_) h
  split at h
  · rename_i hnone
    rw [← Option.some.inj h]
    exact .added hnone (Or.inl rfl)
  · rw [← Option.some.inj h]
    exact .replaced rfl
  · cases h

end Changes

section Entries

theorem map_fst_replace (t : Table) (key : String) (v : Value) :
    (t.replace key v).map Prod.fst = t.map Prod.fst := by
  unfold replace
  rw [List.map_map]
  apply List.map_congr_left
  intro entry _
  simp only [Function.comp_apply]
  split
  · rename_i heq
    exact (beq_iff_eq.mp heq).symm
  · rfl

theorem get?_eq_none_iff : t.get? key = none ↔ key ∉ t.map Prod.fst := by
  unfold get?
  rw [Option.map_eq_none_iff, List.find?_eq_none, List.mem_map, not_exists]
  refine forall_congr' fun entry => ?_
  rw [beq_iff_eq, not_and]

end Entries

namespace Step

theorem nodup (h : Step t given t') (ht : (t.map Prod.fst).Nodup) :
    (t'.map Prod.fst).Nodup := by
  cases h with
  | added hnone _ =>
      rw [List.map_append, List.map_singleton, ← List.concat_eq_append]
      exact ht.concat (get?_eq_none_iff.mp hnone)
  | replaced => rwa [map_fst_replace]

-- Tables and arrays are no numbers.
theorem inRange (h : Step t given t') (hgiven : ∀ v, given = some v → v.InRange)
    (ht : t.InRange) : t'.InRange := by
  have hnested : ∀ v : Value, v.isNested = true → v.InRange := by
    rintro v hv n rfl
    cases hv
  cases h with
  | added _ hv =>
      intro entry hentry
      rcases List.mem_append.mp hentry with hold | hnew
      · exact ht entry hold
      · rw [List.mem_singleton.mp hnew]
        exact hv.elim (hnested _) (hgiven _)
  | replaced hv =>
      intro entry hentry
      obtain ⟨old, hmem, rfl⟩ := List.mem_map.mp hentry
      split
      · exact hnested _ hv
      · exact ht old hmem

end Step

end Table

section Documents

variable {d next final : Document} {st : Statement} {said : List Statement}

/-- A statement is a step of the root table. -/
theorem after_step (h : d.after st = some next) :
    Table.Step d.root st.value? next.root := by
  cases st with
  | entry path key v =>
      obtain ⟨root, hroot, rfl⟩ := Option.map_eq_some_iff.mp h
      exact Table.assignUnder_step hroot
  | table path key =>
      obtain ⟨root, hroot, rfl⟩ := Option.map_eq_some_iff.mp h
      exact Table.openTable_step hroot
  | element path key =>
      obtain ⟨root, hroot, rfl⟩ := Option.map_eq_some_iff.mp h
      exact Table.openElement_step hroot

/-- What all statements keep is true in the end. -/
theorem invariant_of_foldlM {P : Document → Prop}
    (hstep : ∀ d st next, st ∈ said → d.after st = some next → P d → P next)
    (h : said.foldlM Document.after d = some final) (hd : P d) : P final := by
  induction said generalizing d with
  | nil => rwa [← Option.some.inj h]
  | cons st rest ih =>
      rw [List.foldlM_cons] at h
      obtain ⟨next, hnext, hrest⟩ := Option.bind_eq_some_iff.mp h
      exact ih (fun d st next hst => hstep d st next (List.mem_cons_of_mem _ hst)) hrest
        (hstep d st next List.mem_cons_self hnext hd)

theorem exists_value_of_isRead {v : Value} (h : st.IsRead) (hv : st.value? = some v) :
    ∃ depth s rest, value depth s = some (v, rest) := by
  obtain ⟨s, rest, hread⟩ := h
  unfold Statement.read at hread
  split at hread
  · split at hread
    · obtain ⟨rfl, _⟩ := Prod.mk.inj (Option.some.inj hread)
      cases hv
    · cases hread
  · split at hread
    · obtain ⟨rfl, _⟩ := Prod.mk.inj (Option.some.inj hread)
      cases hv
    · cases hread
  · split at hread
    · rename_i hentry
      obtain ⟨rfl, _⟩ := Prod.mk.inj (Option.some.inj hread)
      obtain rfl := Option.some.inj hv
      unfold entry at hentry
      split at hentry
      · obtain ⟨⟨w, after⟩, hvalue, heq⟩ := Option.map_eq_some_iff.mp hentry
        rw [(Prod.mk.inj (Prod.mk.inj heq).1).2] at hvalue
        exact ⟨_, _, _, hvalue⟩
      · cases hentry
    · cases hread

/-- No whole number in the root table of a document is above the range of 64
    bits with a sign. -/
theorem read?_inRange {text : String} {t : Table} (h : read? text = some t) : t.InRange := by
  obtain ⟨said, current, hread, hsaid⟩ := exists_said_of_read? h
  refine invariant_of_foldlM (P := fun d => d.root.InRange) (fun d st next hst hnext hd => ?_) hsaid
    (fun entry hentry => absurd hentry List.not_mem_nil)
  refine (after_step hnext).inRange (fun v hv => ?_) hd
  obtain ⟨depth, s, rest, hvalue⟩ := exists_value_of_isRead (hread st hst) hv
  exact value_inRange hvalue

/-- No key is in the root table of a document twice. -/
theorem nodup_of_read? {text : String} {t : Table} (h : read? text = some t) :
    (t.map Prod.fst).Nodup := by
  obtain ⟨said, current, _, hsaid⟩ := exists_said_of_read? h
  exact invariant_of_foldlM (P := fun d => (d.root.map Prod.fst).Nodup)
    (fun d st next _ hnext => (after_step hnext).nodup) hsaid List.nodup_nil

end Documents

end Toml

end SceneIndex
