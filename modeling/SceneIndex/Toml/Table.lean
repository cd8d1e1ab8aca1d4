import SceneIndex.Toml.Value

/-!
# Building tables

A document builds its tables line by line. Headers and dotted keys name a
table by a path from the root or from the table at hand; tables on the way
that do not exist yet are made. A table may be opened by a header once, and
never after a dotted key has made it; a dotted key may not add to a table
that a header has opened or that is written in braces.

## Main definitions

* `Toml.Table.reach`: Changes the table at the end of a path.
* `Toml.Table.assign`: The table with a value under a dotted key.
* `Toml.Table.openTable`, `Toml.Table.openElement`: The table after a header.
-/

namespace SceneIndex

namespace Toml

namespace Table

/-- Changes the table at the end of a path, making the tables on the way that
    do not exist. The path belongs to a dotted key or to a header, and the
    tables made on the way remember which. A path leads through an array that
    headers grew to its latest element, and never through any other value. -/
def reach (dotted : Bool) (change : Origin → Table → Option Table) :
    List String → Origin → Table → Option Table
  | [], origin, t => change origin t
  | key :: rest, _, t =>
    match t.get? key with
    | none =>
      let made := if dotted then Origin.dotted else Origin.implied
      match reach dotted change rest made [] with
      | some inner => some (t ++ [(key, .table made inner)])
      | none => none
    | some (.table .braces _) => none
    | some (.table origin inner) =>
      if dotted && origin == .header then none
      else
        match reach dotted change rest origin inner with
        | some inner => some (t.replace key (.table origin inner))
        | none => none
    | some (.array true items) =>
      match items.getLast? with
      | some (.table origin inner) =>
        match reach dotted change rest origin inner with
        | some inner =>
          some (t.replace key (.array true (items.dropLast ++ [.table origin inner])))
        | none => none
      | _ => none
    | some _ => none

/-- Adds an entry to the table that a dotted key reaches. A key with dots must
    reach a table made by dotted keys, and a key without dots one that is
    not. -/
def assign (path : List String) (key : String) (value : Value) :
    Origin → Table → Option Table :=
  reach true
    (fun origin t =>
      if (origin == .dotted) == path.isEmpty then none else t.add? key value)
    path

/-- Opens the table that a header names, below the table at the end of a
    path. It must be new or so far only implied by other headers. -/
def openTable (path : List String) (key : String) : Table → Option Table :=
  reach false
    (fun _ t =>
      match t.get? key with
      | none => some (t ++ [(key, .table .header [])])
      | some (.table .implied inner) => some (t.replace key (.table .header inner))
      | some _ => none)
    path .header

/-- Opens another element of the array that a header names, below the table at
    the end of a path. The array must be new or grown by such headers. -/
def openElement (path : List String) (key : String) : Table → Option Table :=
  reach false
    (fun _ t =>
      match t.get? key with
      | none => some (t ++ [(key, .array true [.table .header []])])
      | some (.array true items) =>
        some (t.replace key (.array true (items ++ [.table .header []])))
      | some _ => none)
    path .header

/-- Adds an entry to the table that the latest header opened. -/
def assignUnder (current path : List String) (key : String) (value : Value) :
    Table → Option Table :=
  reach false (assign path key value) current .header

end Table

end Toml

end SceneIndex
