/-!
# Outlines

The debug text of a value is an outline of its parts: a leaf, a list, a named
tuple or a named record. An outline has two layouts, one on a single line and
one with every part on a line of its own, indented by four more spaces than
the whole and followed by a comma.

## Main definitions

* `Outline`: The parts of a value, as far as its debug text shows them.
* `Outline.inline`: The layout on a single line.
* `Outline.indented`: The layout with a line for every part.
-/

namespace SceneIndex

namespace Text

/-- The parts of a value that its debug text shows. A record may hide some of
    its fields, which two dots at its end then stand for. -/
inductive Outline where
  | leaf (text : String)
  | list (items : List Outline)
  | tuple (name : String) (items : List Outline)
  | record (name : String) (fields : List (String × Outline)) (hidden : Bool)

namespace Outline

/-- An optional number: its value wrapped in `Some`, or `None`. -/
def ofOption (value : Option String) : Outline :=
  match value with
  | none => leaf "None"
  | some text => tuple "Some" [leaf text]

/-- A truth value. -/
def ofBool (value : Bool) : Outline :=
  leaf (if value then "true" else "false")

mutual

/-- The layout on a single line. -/
def inline : Outline → String
  | leaf text => text
  | list items => "[" ++ ", ".intercalate (inlineItems items) ++ "]"
  | tuple name items => name ++ "(" ++ ", ".intercalate (inlineItems items) ++ ")"
  | record name fields hidden =>
    let shown := inlineFields fields ++ (if hidden then [".."] else [])
    name ++ " \x7b " ++ ", ".intercalate shown ++ " \x7d"

/-- The items of a list or tuple, each on a single line. -/
def inlineItems : List Outline → List String
  | [] => []
  | item :: rest => inline item :: inlineItems rest

/-- The fields of a record, each with its name on a single line. -/
def inlineFields : List (String × Outline) → List String
  | [] => []
  | (name, value) :: rest => (name ++ ": " ++ inline value) :: inlineFields rest

end

/-- The start of a line at an indentation depth, after a line break. -/
def lineBreak (depth : Nat) : String :=
  "\n" ++ String.ofList (List.replicate (4 * depth) ' ')

mutual

/-- The layout with a line for every part, where the whole stands at an
    indentation depth. An empty list stays on its line. -/
def indentedAt (depth : Nat) : Outline → String
  | leaf text => text
  | list [] => "[]"
  | list items => "[" ++ indentedItems depth items ++ lineBreak depth ++ "]"
  | tuple name items => name ++ "(" ++ indentedItems depth items ++ lineBreak depth ++ ")"
  | record name fields hidden =>
    name ++ " \x7b" ++ indentedFields depth fields
      ++ (if hidden then lineBreak (depth + 1) ++ ".." else "") ++ lineBreak depth ++ "\x7d"

/-- The items of a list or tuple, each on a line of its own. -/
def indentedItems (depth : Nat) : List Outline → String
  | [] => ""
  | item :: rest =>
    lineBreak (depth + 1) ++ indentedAt (depth + 1) item ++ "," ++ indentedItems depth rest

/-- The fields of a record, each on a line of its own. -/
def indentedFields (depth : Nat) : List (String × Outline) → String
  | [] => ""
  | (name, value) :: rest =>
    lineBreak (depth + 1) ++ name ++ ": " ++ indentedAt (depth + 1) value ++ ","
      ++ indentedFields depth rest

end

/-- The layout with a line for every part. -/
def indented (outline : Outline) : String :=
  indentedAt 0 outline

end Outline

end Text

end SceneIndex
