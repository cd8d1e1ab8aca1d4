import SceneIndex.Sheet
import SceneIndex.Text.Numeral

/-!
# RON documents of sheets

A sheet is a record with a line for every field. The rows are records in a list,
with deeper lines. Nothing is escaped.

## Main definitions

* `Ron.write`: The document of a sheet.
-/

namespace SceneIndex

namespace Ron

open Text

/-- The line of a number. -/
def numberLine (entry : String × UInt64) : String :=
  "    " ++ entry.1 ++ ": " ++ Numeral.decimal entry.2.toNat ++ ",\n"

/-- The line of a text in its wrapper. -/
def textLine (entry : String × String) : String :=
  "            " ++ entry.1 ++ ": (\"" ++ entry.2 ++ "\"),\n"

/-- The lines of a row. -/
def rowText (row : List (String × String)) : String :=
  "        (\n" ++ String.join (row.map textLine) ++ "        ),\n"

/-- The list of the rows. -/
def rowsText (rows : List (List (String × String))) : String :=
  if rows.isEmpty then "[]" else "[\n" ++ String.join (rows.map rowText) ++ "    ]"

/-- The document of a sheet. -/
def write (s : Sheet) : String :=
  "(\n" ++ String.join (s.numbers.map numberLine) ++ "    " ++ s.list ++ ": "
    ++ rowsText s.rows ++ ",\n)"

end Ron

end SceneIndex
