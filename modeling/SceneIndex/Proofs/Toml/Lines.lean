import SceneIndex.Proofs.Toml.Root
import SceneIndex.Proofs.Toml.Words

/-!
# TOML documents line by line

A document that has one entry or header to a line, without comments, is read
line by line, and each line adds to the tables that the lines before it built.
`Built` follows it that way. It has no fuel: since every line uses up its line
break, the loop over lines never runs out of it (`lines_of_built`).

What is added to the tables depends on the header in force. Two cases are
needed of the many that there are. Before the first header an entry goes to the
root table. After the header of an array element it goes to the latest element,
and the header itself has put that element there, into a new array or at the
end of one.

## Main definitions

* `Built`: A document without comments, line by line.
* `IsLineValue`: A text that is a value up to the end of the line.
* `Table.withElements`: A table with an array that headers grew.
* `EntryText`: An entry as it is written on a line.

## Theorems

* `lines_of_built`, `read?_of_built`: The loop over lines reads what is built
  line by line.
* `Built.entry`, `Built.element`: A line with a plain key and a value, and one
  with the header of an array element.
* `assignUnder_root`, `openElement_withElements`,
  `assignUnder_withElements`: What they add to the tables.
* `built_entries`: Lines for entries add these entries.
-/

namespace SceneIndex

namespace Toml

open Text

section Values

theorem value_number (depth : Nat) {n : Nat} (hn : n ≤ Numeral.signedLimit) {mark : Char}
    (hmark : Scalar.isTokenChar mark = false) (hblank : mark ≠ ' ') (rest : List Char) :
    value depth (Numeral.write 10 n ++ mark :: rest) = some (.integer n, mark :: rest) := by
  obtain ⟨nested, hvalue⟩ := value_eq_valueWith depth
  have hread := Scalar.read_write hn hmark hblank rest
  have hmarks : ∀ c ∈ Numeral.write 10 n,
      ¬ (c = doubleQuote ∨ c = singleQuote) ∧ c ≠ '[' ∧ c ≠ '\x7b' :=
    Numeral.forall_mem_write (by decide) (by decide) n
  obtain ⟨c, others, hwrite, hmem⟩ := Numeral.exists_write_cons 10 n
  have hc := hmarks c hmem
  rw [hwrite, List.cons_append] at hread ⊢
  rw [hvalue]
  simp only [valueWith, if_neg hc.1, if_neg hc.2.1, if_neg hc.2.2, hread]

theorem value_quoted (depth : Nat) {content : List Char}
    (h : ∀ c ∈ content, Flags.isQuotable c = true) {mark : Char} (hmark : mark ≠ doubleQuote)
    (rest : List Char) :
    value depth (doubleQuote :: (content ++ doubleQuote :: mark :: rest))
      = some (.text (String.ofList content), mark :: rest) := by
  obtain ⟨nested, hvalue⟩ := value_eq_valueWith depth
  rw [hvalue]
  simp only [valueWith, true_or, if_true, Quoted.read_quoted h hmark]
  rfl

theorem value_emptyArray (depth : Nat) (rest : List Char) :
    value (depth + 1) ('[' :: ']' :: rest) = some (.array false [], rest) := by
  have hquotes : ¬ ('[' = doubleQuote ∨ '[' = singleQuote) := by decide
  have hgaps : skipGaps false (']' :: rest) = some (']' :: rest) := by
    simp only [skipGaps, if_neg (by decide : ¬ ']' = '#'),
      if_neg (by decide : ¬ (Quoted.isSpace ']' || ']' == '\n') = true)]
  have hitems : separated (skipGaps false) ']' (value depth) (rest.length + 1) (']' :: rest)
      = some ([], rest) :=
    separated_of_listed (by decide) (Listed.closed hgaps) (Nat.succ_pos _)
  change valueWith (some (value depth)) ('[' :: ']' :: rest) = _
  simp only [valueWith, if_neg hquotes, if_true, List.length_cons, hitems]
  rfl

end Values

section Lines

/-- Documents built line by line, from a document and the text that follows it.
    A line that says something begins with a character that is neither a blank
    nor the mark of a comment. -/
inductive Built : Document → List Char → Document → Prop
  | done (d : Document) : Built d [] d
  | blank {d final : Document} {rest : List Char} (hrest : Built d rest final) :
      Built d ('\n' :: rest) final
  | line {d next final : Document} {c : Char} {cs rest : List Char}
      (hspace : Quoted.isSpace c = false) (hbreak : c ≠ '\n') (hcomment : c ≠ '#')
      (hline : statement d (c :: (cs ++ '\n' :: rest)) = some (next, '\n' :: rest))
      (hrest : Built next rest final) : Built d (c :: (cs ++ '\n' :: rest)) final

/-- The loop over lines reads what is built line by line. -/
theorem lines_of_built {d final : Document} {s : List Char} (h : Built d s final) {fuel : Nat}
    (hfuel : s.length < fuel) : linesWith statement fuel d s = some final := by
  induction h generalizing fuel with
  | done d =>
      rcases Nat.exists_eq_add_one_of_ne_zero (Nat.ne_zero_of_lt hfuel) with ⟨fuel, rfl⟩
      rfl
  | @blank d final rest _ ih =>
      rcases Nat.exists_eq_add_one_of_ne_zero (Nat.ne_zero_of_lt hfuel) with ⟨fuel, rfl⟩
      have hskip := skipSpace_of_not_isSpace (by decide : Quoted.isSpace '\n' = false) rest
      unfold linesWith
      simp only [hskip]
      exact ih (Nat.lt_of_add_lt_add_right hfuel)
  | @line d next final c cs rest hspace hbreak hcomment hline _ ih =>
      rcases Nat.exists_eq_add_one_of_ne_zero (Nat.ne_zero_of_lt hfuel) with ⟨fuel, rfl⟩
      have hskip := skipSpace_of_not_isSpace hspace (cs ++ '\n' :: rest)
      have hend : lineEnd ('\n' :: rest) = some rest := by
        unfold lineEnd
        rw [skipSpace_of_not_isSpace (by decide) rest]
        rfl
      have hless : rest.length < fuel := by
        rw [List.length_cons, List.length_append, List.length_cons] at hfuel
        omega
      unfold linesWith
      rw [hskip]
      split
      · rename_i heq
        exact absurd heq (List.cons_ne_nil _ _)
      · rename_i heq
        exact absurd (List.cons.inj heq).1 hbreak
      · rename_i heq
        exact absurd (List.cons.inj heq).1 hcomment
      · simp only [hline, hend]
        exact ih hless

/-- The text is that of a value up to the end of the line. -/
structure IsLineValue (text : List Char) (v : Value) : Prop where
  start : ∃ c cs, text = c :: cs ∧ Quoted.isSpace c = false
  read : ∀ rest, value (depthLimit - 1) (text ++ '\n' :: rest) = some (v, '\n' :: rest)

theorem isLineValue_number {n : Nat} (hn : n ≤ Numeral.signedLimit) :
    IsLineValue (Numeral.write 10 n) (.integer n) where
  start := by
    have hblanks : ∀ c ∈ Numeral.write 10 n, Quoted.isSpace c = false :=
      Numeral.forall_mem_write (by decide) (by decide) n
    obtain ⟨c, cs, hwrite, hmem⟩ := Numeral.exists_write_cons 10 n
    exact ⟨c, cs, hwrite, hblanks c hmem⟩
  read := value_number _ hn (by decide) (by decide)

theorem isLineValue_quoted {content : List Char}
    (h : ∀ c ∈ content, Flags.isQuotable c = true) :
    IsLineValue (doubleQuote :: (content ++ [doubleQuote])) (.text (String.ofList content)) where
  start := ⟨doubleQuote, _, rfl, by decide⟩
  read rest := by
    rw [List.cons_append, List.append_assoc]
    exact value_quoted _ h (by decide) rest

theorem isLineValue_emptyArray : IsLineValue ['[', ']'] (.array false []) where
  start := ⟨'[', [']'], rfl, by decide⟩
  read rest := value_emptyArray _ ('\n' :: rest)

theorem Document.assign_of_root {root built : Table} {current path : List String} {key : String}
    {v : Value} (h : root.assignUnder current path key v = some built) :
    (Document.mk root current).assign path key v = some ⟨built, current⟩ := by
  unfold assign
  rw [h]
  rfl

theorem Document.openElement_of_root {root built : Table} {current path : List String}
    {key : String} (h : root.openElement path key = some built) :
    (Document.mk root current).openElement path key = some ⟨built, path ++ [key]⟩ := by
  unfold openElement
  rw [h]
  rfl

section Steps

variable {d next final : Document} {key : String} {text rest : List Char}

/-- A line with a plain key and a value. -/
theorem Built.entry (hkey : IsBareKey key.toList) {v : Value} (hv : IsLineValue text v)
    (hassign : d.assign [] key v = some next) (hrest : Built next rest final) :
    Built d (key.toList ++ ' ' :: '=' :: ' ' :: (text ++ '\n' :: rest)) final := by
  have hequals : skipSpace (' ' :: '=' :: ' ' :: (text ++ '\n' :: rest))
      = '=' :: ' ' :: (text ++ '\n' :: rest) := rfl
  have hpath := keyPath_bare hkey (by decide : isBareChar ' ' = false) hequals (by decide)
  have hskip : skipSpace (' ' :: (text ++ '\n' :: rest)) = text ++ '\n' :: rest := by
    obtain ⟨c, cs, rfl, hc⟩ := hv.start
    exact skipSpace_of_not_isSpace hc (cs ++ '\n' :: rest)
  have hentry : Toml.entry (value (depthLimit - 1))
        (key.toList ++ ' ' :: '=' :: ' ' :: (text ++ '\n' :: rest))
      = some ((([], key), v), '\n' :: rest) := by
    unfold Toml.entry
    rw [hpath, String.ofList_toList]
    simp only [hskip, hv.read]
    rfl
  have hbare := hkey.bare
  rcases List.exists_cons_of_ne_nil hkey.ne_nil with ⟨k, others, hk⟩
  rw [hk] at hbare hentry ⊢
  obtain ⟨hspace, _, _, hbracket, hcomment, hbreak⟩ :=
    marks_of_isBareChar (hbare k List.mem_cons_self)
  have hline : k :: others ++ ' ' :: '=' :: ' ' :: (text ++ '\n' :: rest)
      = k :: ((others ++ ' ' :: '=' :: ' ' :: text) ++ '\n' :: rest) := by
    simp only [List.cons_append, List.append_assoc]
  rw [hline] at hentry ⊢
  refine Built.line hspace hbreak hcomment ?_ hrest
  unfold statement
  split
  · rename_i heq
    exact absurd (List.cons.inj heq).1 hbracket
  · rename_i heq
    exact absurd (List.cons.inj heq).1 hbracket
  · simp only [hentry, hassign, Option.map_some]

/-- A line with the header of an element of an array in the root table. -/
theorem Built.element (hkey : IsBareKey key.toList)
    (hopen : d.openElement [] key = some next) (hrest : Built next rest final) :
    Built d ('[' :: '[' :: (key.toList ++ ']' :: ']' :: '\n' :: rest)) final := by
  have hpath := keyPath_bare hkey (by decide : isBareChar ']' = false)
    (skipSpace_of_not_isSpace (by decide : Quoted.isSpace ']' = false) (']' :: '\n' :: rest))
    (by decide)
  have hstatement : statement d ('[' :: '[' :: (key.toList ++ ']' :: ']' :: '\n' :: rest))
      = some (next, '\n' :: rest) := by
    simp only [statement, hpath, String.ofList_toList, hopen, Option.map_some]
  have hline : '[' :: '[' :: (key.toList ++ ']' :: ']' :: '\n' :: rest)
      = '[' :: (('[' :: key.toList ++ [']', ']']) ++ '\n' :: rest) := by
    simp only [List.cons_append, List.append_assoc, List.nil_append]
  rw [hline] at hstatement ⊢
  exact Built.line (by decide) (by decide) (by decide) hstatement hrest

end Steps

-- Where there is no carriage return all line breaks are single characters.
theorem unifyBreaks_of_not_mem {s : List Char} (h : '\r' ∉ s) : unifyBreaks s = some s := by
  induction s with
  | nil => rfl
  | cons c rest ih =>
      have hrest := ih (List.not_mem_of_not_mem_cons h)
      have hc : c ≠ '\r' := (List.ne_of_not_mem_cons h).symm
      unfold unifyBreaks
      split
      · rename_i heq
        exact absurd heq (List.cons_ne_nil c rest)
      · rename_i heq
        exact absurd (List.cons.inj heq).1 hc
      · rename_i heq
        obtain ⟨rfl, rfl⟩ := List.cons.inj heq
        rw [if_neg hc, hrest]
        rfl

theorem withoutMark_of_head {s : List Char} (h : s.head? ≠ some '\ufeff') : withoutMark s = s := by
  unfold withoutMark
  split
  · exact absurd rfl h
  · rfl

/-- The character is neither half of a line break nor a mark of the order of
    bytes. -/
def isOrdinary (c : Char) : Bool := c != '\r' && c != '\ufeff'

theorem isOrdinary_of_class {p : Char → Bool} (hreturn : p '\r' = false)
    (hmark : p '\ufeff' = false) {c : Char} (hc : p c = true) : isOrdinary c = true := by
  unfold isOrdinary
  rw [Bool.and_eq_true, bne_iff_ne, bne_iff_ne]
  constructor
  · rintro rfl
    exact absurd (hc.symm.trans hreturn) (by decide)
  · rintro rfl
    exact absurd (hc.symm.trans hmark) (by decide)

/-- A document of ordinary characters that is built line by line from nothing is
    read as what is built. -/
theorem read?_of_built {text : String} {t : Table} {last : List String}
    (hordinary : ∀ c ∈ text.toList, isOrdinary c = true)
    (h : Built {} text.toList ⟨t, last⟩) : read? text = some t := by
  have hmark : text.toList.head? ≠ some '\ufeff' := fun hhead =>
    absurd (hordinary '\ufeff' (List.mem_of_head? hhead)) (by decide)
  have hreturn : '\r' ∉ text.toList := fun hmem => absurd (hordinary '\r' hmem) (by decide)
  unfold read? readWith?
  rw [withoutMark_of_head hmark, unifyBreaks_of_not_mem hreturn]
  simp only [lines_of_built h (Nat.lt_succ_self _), Option.map_some]

end Lines

namespace Table

theorem get?_append_of_none {t : Table} {key : String} (h : t.get? key = none)
    (others : Table) : get? (t ++ others) key = get? others key := by
  unfold get? at h ⊢
  rw [List.find?_append, Option.map_eq_none_iff.mp h, Option.none_or]

theorem get?_singleton (key : String) (v : Value) : get? [(key, v)] key = some v := by
  simp only [get?, List.find?_cons, beq_self_eq_true, Option.map_some]

theorem add?_of_none {t : Table} {key : String} (h : t.get? key = none) (v : Value) :
    t.add? key v = some (t ++ [(key, v)]) := by
  unfold add?
  rw [h]

/-- Before the first header entries are added to the root table. -/
theorem assignUnder_root {t : Table} {key : String} (h : t.get? key = none) (v : Value) :
    assignUnder [] [] key v t = some (t ++ [(key, v)]) :=
  add?_of_none h v

/-- The table with an array that headers grew, if they did so at all. -/
def withElements (base : Table) (key : String) (items : List Value) : Table :=
  if items.isEmpty then base else base ++ [(key, .array true items)]

theorem withElements_append (base : Table) (key : String) (items : List Value) (v : Value) :
    base.withElements key (items ++ [v]) = base ++ [(key, .array true (items ++ [v]))] := by
  have hsome : ¬ (items ++ [v]).isEmpty = true := by
    rw [List.isEmpty_iff]
    exact List.append_ne_nil_of_right_ne_nil items (List.cons_ne_nil v [])
  unfold withElements
  rw [if_neg hsome]

section Elements

variable {base : Table} {key : String} (hkey : base.get? key = none) (items : List Value)

include hkey

theorem get?_array : get? (base ++ [(key, .array true items)]) key = some (.array true items) := by
  rw [get?_append_of_none hkey, get?_singleton]

-- The key is replaced in the last entry, and no entry before it has it.
theorem replace_array (others : List Value) :
    replace (base ++ [(key, .array true items)]) key (.array true others)
      = base ++ [(key, .array true others)] := by
  have hkeys := List.find?_eq_none.mp (Option.map_eq_none_iff.mp hkey)
  have hbase : (base.map fun entry => if entry.1 == key then (key, .array true others) else entry)
      = base := by
    rw [List.map_congr_left fun entry hentry => if_neg (hkeys entry hentry), List.map_id']
  unfold replace
  rw [List.map_append, hbase, List.map_singleton, if_pos (beq_self_eq_true key)]

/-- The header of an element puts it at the end of the array, which it makes if
    there is none. -/
theorem openElement_withElements :
    openElement [] key (base.withElements key items)
      = some (base.withElements key (items ++ [.table .header []])) := by
  rw [withElements_append]
  by_cases hitems : items.isEmpty = true
  · unfold withElements openElement reach
    rw [if_pos hitems, List.isEmpty_iff.mp hitems]
    simp only [hkey, List.nil_append]
  · unfold withElements openElement reach
    rw [if_neg hitems]
    simp only [get?_array hkey, replace_array hkey]

/-- After such a header entries are added to the latest element. -/
theorem assignUnder_withElements {inner : Table} {field : String}
    (hfield : inner.get? field = none) (v : Value) :
    assignUnder [key] [] field v (base.withElements key (items ++ [.table .header inner]))
      = some (base.withElements key (items ++ [.table .header (inner ++ [(field, v)])])) := by
  have hinner : reach false (assign [] field v) [] .header inner
      = some (inner ++ [(field, v)]) := add?_of_none hfield v
  rw [withElements_append, withElements_append]
  unfold assignUnder reach
  simp only [get?_array hkey, List.getLast?_append, List.getLast?_singleton, Option.some_or,
    hinner, List.dropLast_concat, replace_array hkey]

end Elements

end Table

section Entries

/-- An entry as it is written. -/
structure EntryText where
  key : String
  text : List Char
  value : Value

namespace EntryText

/-- The line of an entry. -/
def chars (g : EntryText) : List Char :=
  g.key.toList ++ ' ' :: '=' :: ' ' :: (g.text ++ ['\n'])

/-- What an entry stands for. -/
def entry (g : EntryText) : String × Value := (g.key, g.value)

/-- The key is plain, and the text is that of the value. -/
structure Reads (g : EntryText) : Prop where
  key : IsBareKey g.key.toList
  text : IsLineValue g.text g.value
  ordinary : ∀ c ∈ g.text, isOrdinary c = true

theorem Reads.isOrdinary_chars {g : EntryText} (h : g.Reads) :
    ∀ c ∈ g.chars, isOrdinary c = true := by
  intro c hc
  simp only [chars, List.mem_append, List.mem_cons, List.not_mem_nil, or_false] at hc
  rcases hc with hkey | rfl | rfl | rfl | htext | rfl
  · exact isOrdinary_of_class (by decide) (by decide) (h.key.bare c hkey)
  · decide
  · decide
  · decide
  · exact h.ordinary c htext
  · decide

end EntryText

/-- Lines for entries with different keys add these entries, in their order. They
    add them to the table of which the rest of the document is made, be it the
    root table or the latest element of an array. -/
theorem built_entries {place : Table → Document}
    (hplace : ∀ t key v, t.get? key = none →
      (place t).assign [] key v = some (place (t ++ [(key, v)])))
    {entries : List EntryText} (h : ∀ g ∈ entries, g.Reads) {t : Table}
    (hkeys : ((t ++ entries.map EntryText.entry).map Prod.fst).Nodup) {rest : List Char}
    {final : Document} (hrest : Built (place (t ++ entries.map EntryText.entry)) rest final) :
    Built (place t) (entries.flatMap EntryText.chars ++ rest) final := by
  induction entries generalizing t with
  | nil =>
      rw [List.map_nil, List.append_nil] at hrest
      exact hrest
  | cons g others ih =>
      have hg := h g List.mem_cons_self
      have hline : t ++ (g :: others).map EntryText.entry
          = (t ++ [g.entry]) ++ others.map EntryText.entry := by
        rw [List.map_cons, List.append_assoc, List.singleton_append]
      rw [hline] at hkeys hrest
      have hothers := ih (fun g' hg' => h g' (List.mem_cons_of_mem g hg')) hkeys hrest
      have hnone : t.get? g.key = none := by
        rw [List.map_append, List.map_append, List.append_assoc] at hkeys
        refine Table.get?_eq_none_iff.mpr fun hmem => ?_
        exact (List.nodup_append.mp hkeys).2.2 g.key hmem g.key List.mem_cons_self rfl
      have hbuilt := Built.entry hg.key hg.text (hplace t g.key g.value hnone) hothers
      simp only [List.flatMap_cons, EntryText.chars, List.append_assoc, List.cons_append,
        List.nil_append] at hbuilt ⊢
      exact hbuilt

end Entries

end Toml

end SceneIndex
