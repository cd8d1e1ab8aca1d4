import SceneIndex.Proofs.Sheet
import SceneIndex.Proofs.Toml.Lines
import SceneIndex.Toml.Write

/-!
# Sheets written in TOML are read back

The document of a sheet has a line for each number and then either a line with an
empty array or some lines for each row. `built_sheetText` goes through the lines
one by one. The rows are the part with an induction of its own: the rows so far
are the elements of the array so far, and a row adds one more (`built_rows`).

## Main definitions

* `numberEntry`, `textEntry`: The lines of a sheet as entries.

## Theorems

* `write_eq`: A sheet is written if it fits.
* `built_row`, `built_rows`: The lines of rows add them to an array.
* `built_sheetText`: The document builds the table line by line.
* `read?_sheetText`: The document stands for the sheet.
-/

namespace SceneIndex

namespace Toml

open Text

open Sheet (PlainRow tomlNumbers tomlRow)

theorem write_eq (s : Sheet) :
    write s = if s.FitsToml then .ok (sheetText s)
      else .error "out-of-range value for u64 type" := by
  have hall : s.numbers.all (·.2.toNat ≤ Numeral.signedLimit) = true ↔ s.FitsToml := by
    simp only [List.all_eq_true, decide_eq_true_eq, Sheet.FitsToml]
  unfold write
  simp only [hall]

section Entries

/-- The entry of a number. -/
def numberEntry (n : String × UInt64) : EntryText :=
  ⟨n.1, Numeral.write 10 n.2.toNat, .integer n.2.toNat⟩

/-- The entry of a text. -/
def textEntry (entry : String × String) : EntryText :=
  ⟨entry.1, doubleQuote :: (entry.2.toList ++ [doubleQuote]), .text entry.2⟩

theorem toList_numberLine (n : String × UInt64) :
    (numberLine n).toList = (numberEntry n).chars := by
  have hequals : " = ".toList = [' ', '=', ' '] := by decide
  have hbreak : "\n".toList = ['\n'] := by decide
  simp only [numberLine, numberEntry, EntryText.chars, Numeral.decimal, String.toList_append,
    String.toList_ofList, hequals, hbreak, List.append_assoc, List.cons_append, List.nil_append]

theorem toList_textLine (entry : String × String) :
    (textLine entry).toList = (textEntry entry).chars := by
  have hequals : " = \"".toList = [' ', '=', ' ', doubleQuote] := by decide
  have hbreak : "\"\n".toList = [doubleQuote, '\n'] := by decide
  simp only [textLine, textEntry, EntryText.chars, String.toList_append, hequals, hbreak,
    List.append_assoc, List.cons_append, List.nil_append]

theorem map_numberEntry (numbers : List (String × UInt64)) :
    (numbers.map numberEntry).map EntryText.entry = tomlNumbers numbers :=
  List.map_map

theorem tomlRow_eq (row : List (String × String)) :
    tomlRow row = .table .header ((row.map textEntry).map EntryText.entry) := by
  rw [List.map_map]
  rfl

theorem reads_numberEntry {n : String × UInt64} (hname : Ron.IsPlainName n.1.toList)
    (hn : n.2.toNat ≤ Numeral.signedLimit) : (numberEntry n).Reads where
  key := isBareKey_of_isPlainName hname
  text := isLineValue_number hn
  ordinary := Numeral.forall_mem_write (by decide) (by decide) _

theorem reads_textEntry {entry : String × String} (hname : Ron.IsPlainName entry.1.toList)
    (htext : ∀ c ∈ entry.2.toList, Flags.isQuotable c = true) : (textEntry entry).Reads where
  key := isBareKey_of_isPlainName hname
  text := by
    have hvalue := isLineValue_quoted htext
    rw [String.ofList_toList] at hvalue
    exact hvalue
  ordinary := by
    intro c hc
    simp only [textEntry, List.mem_cons, List.mem_append, List.not_mem_nil, or_false] at hc
    rcases hc with rfl | hc | rfl
    · decide
    · exact isOrdinary_of_class (by decide) (by decide) (htext c hc)
    · decide

theorem reads_row {row : List (String × String)} (hrow : PlainRow row) :
    ∀ g ∈ row.map textEntry, g.Reads := by
  intro g hg
  obtain ⟨entry, hentry, rfl⟩ := List.mem_map.mp hg
  exact reads_textEntry (hrow.name entry hentry) (hrow.text entry hentry)

theorem isOrdinary_of_entries {entries : List EntryText} (h : ∀ g ∈ entries, g.Reads) :
    ∀ c ∈ entries.flatMap EntryText.chars, isOrdinary c = true := by
  intro c hc
  obtain ⟨g, hg, hmem⟩ := List.mem_flatMap.mp hc
  exact (h g hg).isOrdinary_chars c hmem

theorem isOrdinary_of_isBareKey {key : List Char} (h : IsBareKey key) :
    ∀ c ∈ key, isOrdinary c = true :=
  fun c hc => isOrdinary_of_class (by decide) (by decide) (h.bare c hc)

end Entries

section Rows

variable {base : Table} {list : String} {current : List String} {final : Document}
  {rest : List Char}

theorem toList_rowText (list : String) (row : List (String × String)) (rest : List Char) :
    (rowText list row).toList ++ rest
      = '\n' :: '[' :: '[' :: (list.toList ++ ']' :: ']' :: '\n' ::
          ((row.map textEntry).flatMap EntryText.chars ++ rest)) := by
  have hopen : "\n[[".toList = ['\n', '[', '['] := by decide
  have hclose : "]]\n".toList = [']', ']', '\n'] := by decide
  have hlines : (row.map textLine).flatMap String.toList
      = (row.map textEntry).flatMap EntryText.chars := by
    rw [List.flatMap_map, List.flatMap_map]
    exact List.flatMap_congr fun entry _ => toList_textLine entry
  simp only [rowText, String.toList_append, String.toList_join, hopen, hclose, hlines,
    List.append_assoc, List.cons_append, List.nil_append]

theorem isOrdinary_rowText (hlist : IsBareKey list.toList) {row : List (String × String)}
    (hrow : PlainRow row) : ∀ c ∈ (rowText list row).toList, isOrdinary c = true := by
  have hline := toList_rowText list row []
  rw [List.append_nil, List.append_nil] at hline
  intro c hc
  simp only [hline, List.mem_cons, List.mem_append] at hc
  rcases hc with rfl | rfl | rfl | hc | rfl | rfl | rfl | hc
  · decide
  · decide
  · decide
  · exact isOrdinary_of_isBareKey hlist c hc
  · decide
  · decide
  · decide
  · exact isOrdinary_of_entries (reads_row hrow) c hc

/-- The lines of one row add one element to the array of rows. -/
theorem built_row (hlist : IsBareKey list.toList) (hbase : base.get? list = none)
    (items : List Value) {row : List (String × String)} (hrow : PlainRow row)
    (hrest : Built ⟨base.withElements list (items ++ [tomlRow row]), [list]⟩ rest final) :
    Built ⟨base.withElements list items, current⟩ ((rowText list row).toList ++ rest) final := by
  have hopen := Table.openElement_withElements hbase items
  -- Below the header entries go to the element that it has put there.
  have hplace : ∀ t key v, Table.get? t key = none →
      (Document.mk (base.withElements list (items ++ [.table .header t])) [list]).assign [] key v
        = some ⟨base.withElements list (items ++ [.table .header (t ++ [(key, v)])]), [list]⟩ :=
    fun t key v ht => Document.assign_of_root (Table.assignUnder_withElements hbase items ht v)
  have hkeys : (([] ++ (row.map textEntry).map EntryText.entry).map Prod.fst).Nodup := by
    rw [List.nil_append, List.map_map, List.map_map]
    exact hrow.nodup
  rw [tomlRow_eq] at hrest
  rw [toList_rowText]
  exact Built.blank (Built.element hlist (Document.openElement_of_root hopen)
    (built_entries hplace (reads_row hrow) hkeys hrest))

/-- The lines of all rows add all elements. The header in force afterwards is of
    no account. -/
theorem built_rows (hlist : IsBareKey list.toList) (hbase : base.get? list = none)
    (current : List String) (items : List Value) {rows : List (List (String × String))}
    (hrows : ∀ row ∈ rows, PlainRow row) :
    ∃ last, Built ⟨base.withElements list items, current⟩
      (rows.flatMap fun row => (rowText list row).toList)
      ⟨base.withElements list (items ++ rows.map tomlRow), last⟩ := by
  induction rows generalizing current items with
  | nil =>
      rw [List.map_nil, List.append_nil]
      exact ⟨current, Built.done _⟩
  | cons row others ih =>
      obtain ⟨last, hothers⟩ := ih [list] (items ++ [tomlRow row])
        fun row' hrow' => hrows row' (List.mem_cons_of_mem row hrow')
      rw [List.append_assoc, List.singleton_append, ← List.map_cons] at hothers
      exact ⟨last, built_row hlist hbase items (hrows row List.mem_cons_self) hothers⟩

end Rows

theorem toList_sheetText (s : Sheet) : (sheetText s).toList
    = (s.numbers.map numberEntry).flatMap EntryText.chars ++ (rowsText s.list s.rows).toList := by
  rw [sheetText, String.toList_append, String.toList_join, List.flatMap_map, List.flatMap_map]
  exact congrArg (· ++ _) (List.flatMap_congr fun n _ => toList_numberLine n)

section Sheets

variable {s : Sheet} (hs : s.Plain)

include hs

/-- The lines after the numbers give the array of rows, in one line or in
    many. -/
theorem built_rowsText : ∃ last, Built ⟨tomlNumbers s.numbers, []⟩
    (rowsText s.list s.rows).toList ⟨s.toToml, last⟩ := by
  have hlist := isBareKey_of_isPlainName hs.list
  have hnone : Table.get? (tomlNumbers s.numbers) s.list = none := by
    rw [Table.get?_eq_none_iff, tomlNumbers, List.map_map]
    exact fun hmem =>
      (List.nodup_append.mp hs.nodup).2.2 s.list hmem s.list (List.mem_singleton_self _) rfl
  unfold rowsText Sheet.toToml
  by_cases hrows : s.rows.isEmpty = true
  · have hline : (s.list ++ " = []\n").toList
        = s.list.toList ++ ' ' :: '=' :: ' ' :: (['[', ']'] ++ '\n' :: []) := by
      rw [String.toList_append]
      exact congrArg (s.list.toList ++ ·) (by decide)
    have hadd := Table.assignUnder_root hnone (.array false [])
    have hbuilt := Built.entry hlist isLineValue_emptyArray (Document.assign_of_root hadd)
      (Built.done _)
    rw [if_pos hrows, List.isEmpty_iff.mp hrows, hline]
    exact ⟨[], hbuilt⟩
  · obtain ⟨last, hbuilt⟩ := built_rows hlist hnone [] [] hs.row
    rw [Bool.not_eq_true] at hrows
    have hsome : Table.withElements (tomlNumbers s.numbers) s.list ([] ++ s.rows.map tomlRow)
        = tomlNumbers s.numbers ++ [(s.list, .array (!s.rows.isEmpty) (s.rows.map tomlRow))] := by
      rw [Table.withElements, List.nil_append, List.isEmpty_map, hrows]
      rfl
    rw [hrows, if_neg Bool.false_ne_true, String.toList_join, List.flatMap_map]
    rw [hsome, hrows] at hbuilt
    exact ⟨last, hbuilt⟩

variable (hfits : s.FitsToml)

include hfits

theorem reads_numbers : ∀ g ∈ s.numbers.map numberEntry, g.Reads := by
  intro g hg
  obtain ⟨n, hn, rfl⟩ := List.mem_map.mp hg
  exact reads_numberEntry (hs.name n hn) (hfits n hn)

/-- The document of a sheet, read line by line, gives its table. -/
theorem built_sheetText : ∃ last, Built {} (sheetText s).toList ⟨s.toToml, last⟩ := by
  obtain ⟨last, hrows⟩ := built_rowsText hs
  have hplace : ∀ t key v, Table.get? t key = none →
      (Document.mk t []).assign [] key v = some ⟨t ++ [(key, v)], []⟩ :=
    fun t key v ht => Document.assign_of_root (Table.assignUnder_root ht v)
  have hkeys : (([] ++ (s.numbers.map numberEntry).map EntryText.entry).map Prod.fst).Nodup := by
    rw [List.nil_append, List.map_map, List.map_map]
    exact (List.nodup_append.mp hs.nodup).1
  rw [← map_numberEntry, ← List.nil_append (List.map _ _)] at hrows
  rw [toList_sheetText]
  exact ⟨last, built_entries hplace (reads_numbers hs hfits) hkeys hrows⟩

theorem isOrdinary_sheetText : ∀ c ∈ (sheetText s).toList, isOrdinary c = true := by
  have hlist := isBareKey_of_isPlainName hs.list
  have hbrackets : " = []\n".toList.all isOrdinary = true := by decide
  intro c hc
  rw [toList_sheetText, List.mem_append] at hc
  rcases hc with hnumbers | hrows
  · exact isOrdinary_of_entries (reads_numbers hs hfits) c hnumbers
  · unfold rowsText at hrows
    split at hrows
    · rw [String.toList_append, List.mem_append] at hrows
      exact hrows.elim (isOrdinary_of_isBareKey hlist c) (List.all_eq_true.mp hbrackets c)
    · rw [String.toList_join, List.flatMap_map, List.mem_flatMap] at hrows
      obtain ⟨row, hrow, hc⟩ := hrows
      exact isOrdinary_rowText hlist (hs.row row hrow) c hc

/-- The document of a sheet is read as its table. -/
theorem read?_sheetText : read? (sheetText s) = some s.toToml := by
  obtain ⟨last, hbuilt⟩ := built_sheetText hs hfits
  exact read?_of_built (isOrdinary_sheetText hs hfits) hbuilt

end Sheets

end Toml

end SceneIndex
