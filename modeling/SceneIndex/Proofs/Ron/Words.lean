import SceneIndex.Proofs.Flags.Text
import SceneIndex.Proofs.Text.Reading
import SceneIndex.Ron.Document

/-!
# Words of a RON document

What the reader makes of gaps and of single words: plain names, numbers in base
ten, and texts in quotes that need no escapes. Each word is read up to a mark
that cannot be part of it.

A number is tried as a whole one only if it cannot be a longer floating-point
number. Digits alone are the same run of characters for both, so they are a
whole number.

## Main definitions

* `IsPlainName`: A name that needs no mark to be an identifier.

## Theorems

* `skipGaps_of_start`, `skipGaps_append`: Gaps without comments.
* `identifier_plain`, `identifier_eq_none`: What is an identifier and what is
  not.
* `number_write`: A number in base ten.
* `quoted_plain`: A text in quotes.
-/

namespace SceneIndex

namespace Ron

open Text

section Gaps

-- Without a slash no comment begins.
theorem skipGaps_eq_ite {c : Char} (hslash : c ≠ '/') (rest : List Char) :
    skipGaps (c :: rest) = if isSpace c then skipGaps rest else some (c :: rest) := by
  unfold skipGaps
  rw [skipFrom, if_neg hslash]
  · exact fun _ heq => absurd heq hslash
  · exact fun _ heq => absurd heq hslash

/-- A character that is neither a blank nor a slash ends a gap. -/
theorem skipGaps_of_start {c : Char} (hspace : isSpace c = false) (hslash : c ≠ '/')
    (rest : List Char) : skipGaps (c :: rest) = some (c :: rest) := by
  rw [skipGaps_eq_ite hslash, if_neg (by rw [hspace]; decide)]

theorem skipGaps_cons {c : Char} (hspace : isSpace c = true) (rest : List Char) :
    skipGaps (c :: rest) = skipGaps rest := by
  have hslash : c ≠ '/' := by
    rintro rfl
    exact absurd hspace (by decide)
  rw [skipGaps_eq_ite hslash, if_pos hspace]

/-- Blanks are skipped. -/
theorem skipGaps_append {gap : List Char} (hgap : gap.all isSpace = true)
    (s : List Char) : skipGaps (gap ++ s) = skipGaps s := by
  induction gap with
  | nil => rfl
  | cons c rest ih =>
      rw [List.all_cons, Bool.and_eq_true] at hgap
      rw [List.cons_append, skipGaps_cons hgap.1]
      exact ih hgap.2

end Gaps

section Names

/-- A name that is an identifier as it stands. One that begins with the letter
    of raw identifiers and raw texts is left out. -/
structure IsPlainName (name : List Char) : Prop where
  start : name.head?.any isIdentifierStart = true
  notRaw : name.head? ≠ some 'r'
  chars : name.all isIdentifierChar = true

instance (name : List Char) : Decidable (IsPlainName name) :=
  decidable_of_iff
    (name.head?.any isIdentifierStart = true ∧ name.head? ≠ some 'r' ∧
      name.all isIdentifierChar = true)
    ⟨fun h => ⟨h.1, h.2.1, h.2.2⟩, fun h => ⟨h.start, h.notRaw, h.chars⟩⟩

theorem IsPlainName.exists_cons {name : List Char} (h : IsPlainName name) :
    ∃ c cs, name = c :: cs ∧ isIdentifierStart c = true ∧ c ≠ 'r' := by
  have hstart := h.start
  have hraw := h.notRaw
  cases name with
  | nil => cases hstart
  | cons c cs => exact ⟨c, cs, rfl, hstart, fun heq => hraw (congrArg some heq)⟩

-- Only a text that begins with that letter can be anything but a plain
-- identifier.
theorem identifier_eq_plainIdentifier {c : Char} (hc : c ≠ 'r') (rest : List Char) :
    identifier (c :: rest) = plainIdentifier (c :: rest) := by
  unfold identifier
  split
  · rename_i heq
    exact absurd (List.cons.inj heq).1 hc
  · rename_i heq
    exact absurd (List.cons.inj heq).1 hc
  · rename_i heq
    exact absurd (List.cons.inj heq).1 hc
  · rfl

/-- A plain name is read up to a mark that no identifier has. -/
theorem identifier_plain {name : List Char} (hname : IsPlainName name) {mark : Char}
    (hmark : isRawChar mark = false) (rest : List Char) :
    identifier (name ++ mark :: rest) = some (String.ofList name, mark :: rest) := by
  have hchar : isIdentifierChar mark = false := by
    unfold isRawChar at hmark
    simp only [Bool.or_eq_false_iff] at hmark
    exact hmark.1.1.1
  have htake := takeWhile_run (List.all_eq_true.mp hname.chars) hchar rest
  have hdrop := dropWhile_run (List.all_eq_true.mp hname.chars) hchar rest
  obtain ⟨c, cs, rfl, hstart, hc⟩ := hname.exists_cons
  rw [List.cons_append] at htake hdrop ⊢
  rw [identifier_eq_plainIdentifier hc]
  simp only [plainIdentifier, htake, hdrop, hstart, hmark, List.head?_cons, Option.any_some,
    Bool.not_true, Bool.false_eq_true, if_false]

theorem identifier_eq_none {c : Char} (hc : isIdentifierStart c = false) (rest : List Char) :
    identifier (c :: rest) = none := by
  have hletter : c ≠ 'r' := by
    rintro rfl
    exact absurd hc (by decide)
  rw [identifier_eq_plainIdentifier hletter]
  simp only [plainIdentifier, hc, Bool.not_false, if_true]

end Names

section Numbers

variable {n : Nat} {mark : Char}

theorem base_write (n : Nat) (rest : List Char) (hmark : mark ≠ 'x' ∧ mark ≠ 'o' ∧ mark ≠ 'b') :
    base (Numeral.write 10 n ++ mark :: rest) = (10, Numeral.write 10 n ++ mark :: rest) := by
  have hletters : ∀ c ∈ Numeral.write 10 n, c ≠ 'x' ∧ c ≠ 'o' ∧ c ≠ 'b' :=
    Numeral.forall_mem_write (by decide) (by decide) n
  -- The second character is a digit or the mark.
  have hsecond : ∀ {a b : Char} {others : List Char},
      Numeral.write 10 n ++ mark :: rest = a :: b :: others → b ≠ 'x' ∧ b ≠ 'o' ∧ b ≠ 'b' := by
    intro a b others heq
    rcases List.exists_cons_of_ne_nil (Numeral.write_ne_nil 10 n) with ⟨c, cs, hwrite⟩
    rw [hwrite] at heq hletters
    cases cs with
    | nil =>
        rw [← (List.cons.inj (List.cons.inj heq).2).1]
        exact hmark
    | cons d ds =>
        rw [← (List.cons.inj (List.cons.inj heq).2).1]
        exact hletters d (List.mem_cons_of_mem c List.mem_cons_self)
  unfold base
  split
  · rename_i heq
    exact absurd rfl (hsecond heq).1
  · rename_i heq
    exact absurd rfl (hsecond heq).2.1
  · rename_i heq
    exact absurd rfl (hsecond heq).2.2
  · rfl

theorem magnitude_write (n : Nat) (hmark : isIntegerChar mark = false)
    (hbase : mark ≠ 'x' ∧ mark ≠ 'o') (rest : List Char) :
    magnitude (Numeral.write 10 n ++ mark :: rest) = some (n, mark :: rest) := by
  have hchars : ∀ c ∈ Numeral.write 10 n, isIntegerChar c = true :=
    Numeral.forall_mem_write (by decide) (by decide) n
  have hplain : ∀ c ∈ Numeral.write 10 n, c ≠ '_' :=
    Numeral.forall_mem_write (by decide) (by decide) n
  have hhead : (Numeral.write 10 n).head? ≠ some '_' := fun h =>
    hplain '_' (List.mem_of_head? h) rfl
  have hfilter : (Numeral.write 10 n).filter (· ≠ '_') = Numeral.write 10 n :=
    List.filter_eq_self.mpr fun c hc => decide_eq_true (hplain c hc)
  have hletter : mark ≠ 'b' := by
    rintro rfl
    exact absurd hmark (by decide)
  have hread : Numeral.read? 10 (Numeral.write 10 n) = some n :=
    Numeral.read?_write (by decide) (by decide) n
  unfold magnitude
  rw [base_write n rest ⟨hbase.1, hbase.2, hletter⟩]
  simp only [takeWhile_run hchars hmark, dropWhile_run hchars hmark, if_neg hhead, hfilter, hread,
    Option.map_some]

/-- A written number of 64 bits is a whole number, up to a mark that belongs to
    no number. -/
theorem number_write (hn : n < UInt64.size) (hinteger : isIntegerChar mark = false)
    (hfloat : isFloatChar mark = false) (hbase : mark ≠ 'x' ∧ mark ≠ 'o') (rest : List Char) :
    number (Numeral.write 10 n ++ mark :: rest) = some (.whole n, mark :: rest) := by
  have hchars : ∀ c ∈ Numeral.write 10 n, isIntegerChar c = true :=
    Numeral.forall_mem_write (by decide) (by decide) n
  have hfloats : ∀ c ∈ Numeral.write 10 n, isFloatChar c = true :=
    Numeral.forall_mem_write (by decide) (by decide) n
  have hsigns : ∀ c ∈ Numeral.write 10 n, c ≠ '+' ∧ c ≠ '-' :=
    Numeral.forall_mem_write (by decide) (by decide) n
  have hmagnitude := magnitude_write n hinteger hbase rest
  have htake := takeWhile_run hchars hinteger rest
  have htakeFloat := takeWhile_run hfloats hfloat rest
  obtain ⟨c, cs, hwrite, hmem⟩ := Numeral.exists_write_cons 10 n
  have hc := hsigns c hmem
  rw [hwrite, List.cons_append] at hmagnitude htake htakeFloat ⊢
  have hinteger : integer (c :: (cs ++ mark :: rest)) = some (.whole n, mark :: rest) := by
    have hsign : ¬ (c = '+' ∨ c = '-') := by
      rw [not_or]
      exact hc
    simp only [integer, if_neg hsign, hmagnitude, if_pos hn]
  unfold number
  split
  · rename_i heq
    exact absurd (List.cons.inj heq).1 hc.1
  · rename_i heq
    exact absurd (List.cons.inj heq).1 hc.2
  · simp only [htake, htakeFloat, Nat.lt_irrefl, if_false, hinteger]

end Numbers

section Texts

theorem escaped_plain {content : List Char} (h : ∀ c ∈ content, Flags.isQuotable c = true)
    (rest : List Char) : escaped (content ++ doubleQuote :: rest) = some (content, rest) := by
  induction content with
  | nil =>
      rw [List.nil_append, escaped]
      exact if_pos rfl
  | cons c others ih =>
      have hc := Flags.ne_of_isQuotable (h c List.mem_cons_self)
      have hothers := ih fun d hd => h d (List.mem_cons_of_mem c hd)
      rw [List.cons_append, escaped, if_neg hc.1, if_neg hc.2, hothers]
      rfl

/-- A text in quotes that needs no escapes. -/
theorem quoted_plain {content : List Char} (h : ∀ c ∈ content, Flags.isQuotable c = true)
    (rest : List Char) :
    quoted (doubleQuote :: (content ++ doubleQuote :: rest))
      = some (String.ofList content, rest) := by
  simp only [quoted, if_true, escaped_plain h]
  rfl

end Texts

end Ron

end SceneIndex
