import SceneIndex.Sheet
import SceneIndex.Text.Numeral

/-!
# TOML documents of sheets

A number has a line of its own, and so has every text of a row. The rows come
last, each below a header. Nothing is escaped.

## Main definitions

* `Toml.sheetText`: The lines of a sheet.
* `Toml.write`: The document of a sheet, unless a number is too large for it.
-/

namespace SceneIndex

namespace Toml

open Text

/-- The line of a number. -/
def numberLine (entry : String × UInt64) : String :=
  entry.1 ++ " = " ++ Numeral.decimal entry.2.toNat ++ "\n"

/-- The line of a text. -/
def textLine (entry : String × String) : String :=
  entry.1 ++ " = \"" ++ entry.2 ++ "\"\n"

/-- The lines of a row: a blank one, a header, and the texts. -/
def rowText (list : String) (row : List (String × String)) : String :=
  "\n[[" ++ list ++ "]]\n" ++ String.join (row.map textLine)

/-- The lines of the rows. A list without rows has a line among the numbers. -/
def rowsText (list : String) (rows : List (List (String × String))) : String :=
  if rows.isEmpty then list ++ " = []\n" else String.join (rows.map (rowText list))

/-- The lines of a sheet. -/
def sheetText (s : Sheet) : String :=
  String.join (s.numbers.map numberLine) ++ rowsText s.list s.rows

/-- The document of a sheet, unless a number is above the range of 64 bits with
    a sign. -/
def write (s : Sheet) : Except String String :=
  if s.numbers.all (·.2.toNat ≤ Numeral.signedLimit) then .ok (sheetText s)
  else .error "out-of-range value for u64 type"

end Toml

end SceneIndex
