import SceneIndex.Ron.Value
import SceneIndex.Toml.Value

/-!
# Sheets

What is written in a format is handed over as a sheet: some numbers, and then a
list of rows of texts, all of them under names. The texts stand in wrappers. One
format writes the wrappers and the other does not, so that a sheet is a value of
either format.

## Main definitions

* `Sheet`: Numbers and rows of texts.
* `Sheet.toToml`, `Sheet.toRon`: The sheet as a value of a format.
-/

namespace SceneIndex

/-- Numbers without sign under names, and a list of rows under one more name. A
    row has texts under names. -/
structure Sheet where
  numbers : List (String × UInt64)
  list : String
  rows : List (List (String × String))

namespace Sheet

/-- The entries of the numbers in TOML. -/
def tomlNumbers (numbers : List (String × UInt64)) : Toml.Table :=
  numbers.map fun entry => (entry.1, .integer entry.2.toNat)

/-- The table of a row in TOML. -/
def tomlRow (row : List (String × String)) : Toml.Value :=
  .table .header (row.map fun entry => (entry.1, .text entry.2))

/-- The sheet as a TOML table. Every row has a header, so that only an array
    without rows is written in brackets. -/
def toToml (s : Sheet) : Toml.Table :=
  tomlNumbers s.numbers ++ [(s.list, .array (!s.rows.isEmpty) (s.rows.map tomlRow))]

/-- The fields of the numbers in RON. -/
def ronNumbers (numbers : List (String × UInt64)) : List (String × Ron.Value) :=
  numbers.map fun entry => (entry.1, .whole entry.2.toNat)

/-- The record of a row in RON, with wrappers around its texts. -/
def ronRow (row : List (String × String)) : Ron.Value :=
  .record none (row.map fun entry => (entry.1, .tuple none [.text entry.2]))

/-- The sheet as the fields of a RON record. -/
def toRon (s : Sheet) : List (String × Ron.Value) :=
  ronNumbers s.numbers ++ [(s.list, .list (s.rows.map ronRow))]

end Sheet

end SceneIndex
