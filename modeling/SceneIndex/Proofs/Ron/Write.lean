import SceneIndex.Proofs.Ron.Values
import SceneIndex.Proofs.Sheet
import SceneIndex.Ron.Write

/-!
# Sheets written in RON are read back

The document of a sheet is a record with a line for each field. The rows are a
list of records, whose fields hold texts in parentheses. Each of these is laid
out in the same way, with its own indentation, so the document is described from
the inside out: the texts, a row, the list, and the record of all fields. Eight
levels are used up on the way, of the many that there are.

Numbers of 64 bits are all in the range of the format.

## Main definitions

* `linesLayout`: One item to a line.
* `sheetFields`: The fields of a sheet as they are written.

## Theorems

* `toList_write`: The document is the fields, laid out.
* `read?_write`: The document stands for the sheet.
-/

namespace SceneIndex

namespace Ron

open Text

open Sheet (PlainRow ronNumbers ronRow)

section Layouts

theorem all_replicate_blank (n : Nat) : (List.replicate n ' ').all isSpace = true := by
  rw [List.all_replicate]
  split <;> decide

/-- One item to a line, indented by so many blanks, with so many in front of
    the closing mark. -/
def linesLayout (indent last : Nat) : Layout where
  before := List.replicate indent ' '
  behind := ['\n']
  last := List.replicate last ' '
  before_blank := all_replicate_blank indent
  behind_blank := by decide
  last_blank := all_replicate_blank last

/-- No blanks at all. -/
def tightLayout : Layout where
  before := []
  behind := []
  last := []
  before_blank := by decide
  behind_blank := by decide
  last_blank := by decide

end Layouts

section Fields

/-- The field of a number. -/
def numberField (n : String × UInt64) : FieldText :=
  ⟨n.1, Numeral.write 10 n.2.toNat, .whole n.2.toNat⟩

/-- The field of a text, in quotes and parentheses. -/
def textField (entry : String × String) : FieldText :=
  ⟨entry.1, '(' :: (doubleQuote :: (entry.2.toList ++ [doubleQuote]) ++ [')']),
    .tuple none [.text entry.2]⟩

/-- The record of a row. -/
def rowChars (row : List (String × String)) : List Char :=
  '(' :: (linesLayout 12 8).body ')' ((row.map textField).map FieldText.chars)

/-- The list of the rows. -/
def rowsChars (rows : List (List (String × String))) : List Char :=
  '[' :: (if rows.isEmpty then tightLayout else linesLayout 8 4).body ']' (rows.map rowChars)

/-- The field of the list. -/
def listField (s : Sheet) : FieldText :=
  ⟨s.list, rowsChars s.rows, .list (s.rows.map ronRow)⟩

/-- The fields of a sheet. -/
def sheetFields (s : Sheet) : List FieldText := s.numbers.map numberField ++ [listField s]

theorem ronRow_eq (row : List (String × String)) :
    ronRow row = .record none ((row.map textField).map FieldText.entry) := by
  rw [List.map_map]
  rfl

theorem map_entry_sheetFields (s : Sheet) : (sheetFields s).map FieldText.entry = s.toRon := by
  rw [sheetFields, List.map_append, List.map_map]
  rfl

end Fields

section Documents

theorem toList_numberLine (n : String × UInt64) :
    (numberLine n).toList = (linesLayout 4 0).item (numberField n).chars := by
  have hindent : "    ".toList = List.replicate 4 ' ' := by decide
  have hcolon : ": ".toList = [':', ' '] := by decide
  have hbreak : ",\n".toList = [',', '\n'] := by decide
  simp only [numberLine, numberField, FieldText.chars, Layout.item, linesLayout, Numeral.decimal,
    String.toList_append, String.toList_ofList, hindent, hcolon, hbreak, List.append_assoc,
    List.cons_append, List.nil_append]

theorem toList_textLine (entry : String × String) :
    (textLine entry).toList = (linesLayout 12 8).item (textField entry).chars := by
  have hindent : "            ".toList = List.replicate 12 ' ' := by decide
  have hopen : ": (\"".toList = [':', ' ', '(', doubleQuote] := by decide
  have hclose : "\"),\n".toList = [doubleQuote, ')', ',', '\n'] := by decide
  simp only [textLine, textField, FieldText.chars, Layout.item, linesLayout,
    String.toList_append, hindent, hopen, hclose, List.append_assoc, List.cons_append,
    List.nil_append]

theorem toList_rowText (row : List (String × String)) :
    (rowText row).toList = (linesLayout 8 4).item (rowChars row) := by
  have hopen : "        (\n".toList = List.replicate 8 ' ' ++ ['(', '\n'] := by decide
  have hclose : "        ),\n".toList = List.replicate 8 ' ' ++ [')', ',', '\n'] := by decide
  have hlines : (row.map textLine).flatMap String.toList
      = ((row.map textField).map FieldText.chars).flatMap (linesLayout 12 8).item := by
    rw [List.flatMap_map, List.flatMap_map, List.flatMap_map]
    exact List.flatMap_congr fun entry _ => toList_textLine entry
  simp only [rowText, String.toList_append, String.toList_join, hopen, hclose, hlines, rowChars,
    Layout.body]
  simp only [Layout.item, linesLayout, List.append_assoc, List.cons_append, List.nil_append]

theorem toList_rowsText (rows : List (List (String × String))) :
    (rowsText rows).toList = rowsChars rows := by
  unfold rowsText rowsChars
  by_cases hrows : rows.isEmpty = true
  · rw [if_pos hrows, if_pos hrows, List.isEmpty_iff.mp hrows]
    decide
  · have hopen : "[\n".toList = ['[', '\n'] := by decide
    have hclose : "    ]".toList = List.replicate 4 ' ' ++ [']'] := by decide
    have hlines : (rows.map rowText).flatMap String.toList
        = (rows.map rowChars).flatMap (linesLayout 8 4).item := by
      rw [List.flatMap_map, List.flatMap_map]
      exact List.flatMap_congr fun row _ => toList_rowText row
    rw [if_neg hrows, if_neg hrows]
    simp only [String.toList_append, String.toList_join, hopen, hclose, hlines, Layout.body,
      linesLayout, List.cons_append, List.nil_append]

theorem toList_write (s : Sheet) :
    (write s).toList
      = '(' :: (linesLayout 4 0).body ')' ((sheetFields s).map FieldText.chars) := by
  have hopen : "(\n".toList = ['(', '\n'] := by decide
  have hindent : "    ".toList = List.replicate 4 ' ' := by decide
  have hcolon : ": ".toList = [':', ' '] := by decide
  have hclose : ",\n)".toList = [',', '\n', ')'] := by decide
  have hlines : (s.numbers.map numberLine).flatMap String.toList
      = ((s.numbers.map numberField).map FieldText.chars).flatMap (linesLayout 4 0).item := by
    rw [List.flatMap_map, List.flatMap_map, List.flatMap_map]
    exact List.flatMap_congr fun n _ => toList_numberLine n
  simp only [write, sheetFields, String.toList_append, String.toList_join, toList_rowsText, hopen,
    hindent, hcolon, hclose, hlines, List.map_append, List.map_singleton, List.flatMap_append,
    List.flatMap_singleton, Layout.body]
  simp only [listField, FieldText.chars, Layout.item, linesLayout, List.replicate_zero,
    List.append_assoc, List.cons_append, List.nil_append]

end Documents

section Readers

variable (e : Extensions) (depth : Nat)

theorem reads_textField {entry : String × String} (hname : IsPlainName entry.1.toList)
    (htext : ∀ c ∈ entry.2.toList, Flags.isQuotable c = true) :
    (textField entry).Reads (value e (depth + 2)) where
  name := hname
  text := by
    have hquoted := isItemText_quoted e depth htext
    rw [String.ofList_toList] at hquoted
    exact isItemText_wrapped hquoted (by decide)

theorem isItemText_rowChars {row : List (String × String)} (hrow : PlainRow row) :
    IsItemText (value e (depth + 4)) (rowChars row) (ronRow row) := by
  have hreads : ∀ g ∈ row.map textField, g.Reads (value e (depth + 2)) := by
    intro g hg
    obtain ⟨entry, hentry, rfl⟩ := List.mem_map.mp hg
    exact reads_textField e depth (hrow.name entry hentry) (hrow.text entry hentry)
  have hne : row.map textField ≠ [] := fun hnil => hrow.ne_nil (List.map_eq_nil_iff.mp hnil)
  rw [ronRow_eq, rowChars]
  exact isItemText_record (linesLayout 12 8) hne hreads

theorem isItemText_rowsChars {rows : List (List (String × String))}
    (hrows : ∀ row ∈ rows, PlainRow row) :
    IsItemText (value e (depth + 6)) (rowsChars rows) (.list (rows.map ronRow)) := by
  refine isItemText_list _ ?_
  rw [List.forall₂_map_left_iff, List.forall₂_map_right_iff, List.forall₂_same]
  exact fun row hrow => isItemText_rowChars e depth (hrows row hrow)

theorem reads_sheetFields {s : Sheet} (hs : s.Plain) :
    ∀ g ∈ sheetFields s, g.Reads (value e (depth + 6)) := by
  intro g hg
  rcases List.mem_append.mp hg with hnumber | hlist
  · obtain ⟨n, hn, rfl⟩ := List.mem_map.mp hnumber
    exact ⟨hs.name n hn, isItemText_number e _ n.2.toNat_lt⟩
  · rw [List.mem_singleton.mp hlist]
    exact ⟨hs.list, isItemText_rowsChars e depth hs.row⟩

end Readers

/-- The document of a sheet is read as its record, without any extensions. -/
theorem read?_write {s : Sheet} (hs : s.Plain) :
    read? (write s) = some ⟨{}, .record none s.toRon⟩ := by
  have hne : sheetFields s ≠ [] := List.append_ne_nil_of_right_ne_nil _ (List.cons_ne_nil _ _)
  have htext : write s
      = String.ofList ('(' :: (linesLayout 4 0).body ')' ((sheetFields s).map FieldText.chars)) := by
    rw [← toList_write, String.ofList_toList]
  rw [htext, ← map_entry_sheetFields]
  exact read?_record (linesLayout 4 0) hne (reads_sheetFields {} (depthLimit - 8) hs)

end Ron

end SceneIndex
