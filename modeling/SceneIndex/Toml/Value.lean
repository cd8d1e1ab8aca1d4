/-!
# TOML values

A TOML document is a table of named values. How a table came to be decides
what may still be added to it, so every table carries its origin, and so does
every array: one grown by headers takes further elements, one written in
brackets does not.

Floating-point numbers and dates are kept as they are written: nothing here
asks for more than that they are well formed.

## Main definitions

* `Toml.Value`: A value of any kind.
* `Toml.Origin`: How a table came to be.
* `Toml.Table`: The entries of a table, in the order of the document.
-/

namespace SceneIndex

namespace Toml

/-- How a table came to be: written in braces, opened by a header of its own,
    implied by the header of a table inside it, or implied by a dotted key. -/
inductive Origin where
  | braces
  | header
  | implied
  | dotted
  deriving DecidableEq, Repr

/-- A value of a document. -/
inductive Value where
  | text (content : String)
  | integer (number : Int)
  | float (written : String)
  | boolean (value : Bool)
  | moment (written : String)
  /-- An array, and whether headers made it. -/
  | array (grown : Bool) (items : List Value)
  | table (origin : Origin) (entries : List (String × Value))
  deriving Repr, Inhabited

/-- The entries of a table, in the order of the document. -/
abbrev Table := List (String × Value)

namespace Table

/-- The value under a key. -/
def get? (t : Table) (key : String) : Option Value :=
  (t.find? fun entry => entry.1 == key).map (·.2)

/-- The table with one more entry; a key can have only one. -/
def add? (t : Table) (key : String) (value : Value) : Option Table :=
  match t.get? key with
  | none => some (t ++ [(key, value)])
  | some _ => none

/-- The table with another value under a key that it has. -/
def replace (t : Table) (key : String) (value : Value) : Table :=
  t.map fun entry => if entry.1 == key then (key, value) else entry

end Table

end Toml

end SceneIndex
