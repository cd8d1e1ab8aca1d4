import SceneIndex.Toml.Document

/-!
# What a TOML document says

The reader of a document does two things at once. It finds out what each line
says, and it builds the tables. Here they are taken apart: what a line says does
not depend on the tables, and nothing else is done to them (`statement_eq`).

So what is to be proved of the tables is proved of statements, one at a time, and
no text is looked at.

## Main definitions

* `Statement`: What a line says.
* `Statement.read`: What the line at the front of a text says.
* `Document.after`: The document after a statement.

## Theorems

* `statement_eq`: A line, and what it says.
* `exists_said_of_lines`, `exists_said_of_read?`: The tables are built from what
  the lines say.
-/

namespace SceneIndex

namespace Toml

open Text (Found)

/-- What a line says: an entry, or the header of a table or of an array
    element. -/
inductive Statement where
  | entry (path : List String) (key : String) (value : Value)
  | table (path : List String) (key : String)
  | element (path : List String) (key : String)

namespace Statement

/-- The value of an entry. -/
def value? : Statement → Option Value
  | entry _ _ v => some v
  | _ => none

/-- What the line at the front of a text says, and what follows. -/
def read (s : List Char) : Found Statement :=
  match s with
  | '[' :: '[' :: rest =>
    match keyPath rest with
    | some ((path, key), ']' :: ']' :: rest) => some (element path key, rest)
    | _ => none
  | '[' :: rest =>
    match keyPath rest with
    | some ((path, key), ']' :: rest) => some (table path key, rest)
    | _ => none
  | _ =>
    match Toml.entry (value (depthLimit - 1)) s with
    | some (((path, key), v), rest) => some (entry path key v, rest)
    | none => none

/-- Some line says this. -/
def IsRead (st : Statement) : Prop := ∃ s rest, read s = some (st, rest)

end Statement

/-- The document after a statement. -/
def Document.after (d : Document) : Statement → Option Document
  | .entry path key v => d.assign path key v
  | .table path key => d.openTable path key
  | .element path key => d.openElement path key

section Statements

/-- Reading a line is finding out what it says and doing that to the tables. -/
theorem statement_eq (d : Document) (s : List Char) : statement d s =
    (Statement.read s).bind fun (st, rest) => (d.after st).map (·, rest) := by
  fun_cases Statement.read s with
  | case1 rest path key after hkey => simp only [statement, hkey, Option.bind_some, Document.after]
  | case2 rest hkey => simp only [statement, Option.bind_none]
  | case3 rest hnot path key after hkey =>
      simp only [statement, hkey, Option.bind_some, Document.after]
  | case4 rest hnot hkey => simp only [statement, Option.bind_none]
  | case5 s path key v after hentry hnot hnot' =>
      simp only [statement, hentry, Option.bind_some, Document.after]
  | case6 s hentry hnot hnot' => simp only [statement, hentry, Option.bind_none]

/-- Nothing is done to the tables but what a line says. -/
theorem exists_read_of_statement {d next : Document} {s rest : List Char}
    (h : statement d s = some (next, rest)) :
    ∃ st, Statement.read s = some (st, rest) ∧ d.after st = some next := by
  rw [statement_eq] at h
  obtain ⟨⟨st, after⟩, hread, h⟩ := Option.bind_eq_some_iff.mp h
  obtain ⟨built, hbuilt, heq⟩ := Option.map_eq_some_iff.mp h
  obtain ⟨rfl, rfl⟩ := Prod.mk.inj heq
  exact ⟨st, hread, hbuilt⟩

end Statements

section Loop

/-- What the loop over lines builds is built from statements. -/
theorem exists_said_of_lines {fuel : Nat} {d final : Document} {s : List Char}
    (h : linesWith statement fuel d s = some final) :
    ∃ said : List Statement, (∀ st ∈ said, st.IsRead) ∧
      said.foldlM Document.after d = some final := by
  induction fuel generalizing d s with
  | zero => cases h
  | succ fuel ih =>
      unfold linesWith at h
      split at h
      · exact ⟨[], fun st hst => absurd hst List.not_mem_nil, h⟩
      · exact ih h
      · split at h
        · exact ih h
        · cases h
      · split at h
        · cases h
        · rename_i hstatement
          split at h
          · obtain ⟨st, hread, hnext⟩ := exists_read_of_statement hstatement
            obtain ⟨said, hall, hsaid⟩ := ih h
            refine ⟨st :: said, List.forall_mem_cons.mpr ⟨⟨_, _, hread⟩, hall⟩, ?_⟩
            rw [List.foldlM_cons, hnext]
            exact hsaid
          · cases h

/-- The root table of a document is built from statements. -/
theorem exists_said_of_read? {text : String} {t : Table} (h : read? text = some t) :
    ∃ (said : List Statement) (current : List String), (∀ st ∈ said, st.IsRead) ∧
      said.foldlM Document.after {} = some ⟨t, current⟩ := by
  unfold read? readWith? at h
  split at h
  · obtain ⟨final, hfinal, rfl⟩ := Option.map_eq_some_iff.mp h
    obtain ⟨said, hall, hsaid⟩ := exists_said_of_lines hfinal
    exact ⟨said, final.current, hall, hsaid⟩
  · cases h

end Loop

end Toml

end SceneIndex
