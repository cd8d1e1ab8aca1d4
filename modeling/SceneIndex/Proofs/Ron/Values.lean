import SceneIndex.Proofs.Ron.Words

/-!
# Values of a RON document

How numbers, texts, wrappers, records and lists are read when they are written
in the plain way: records without a name, a comma after every field and item,
and only blanks in gaps.

`IsItemText` says of a text that it is read as one item, with a comma or a
closing parenthesis after it. Numbers and texts are read so as values at every
depth. A wrapper, a record or a list is if what it holds is, two levels further
down, so these statements put together describe a document of any shape, and
the depth that it needs adds up. The blanks make no difference, which is why
records and lists are described for any layout.

## Main definitions

* `IsItemText`: A text that is read as one item, a value or a field.
* `Layout`: The blanks between items.
* `FieldText`: A field of a record as it is written.

## Theorems

* `valueWith_eq_marked`: A value that begins with a mark.
* `separated_body`: The loop over items reads what is laid out.
* `isItemText_number`, `isItemText_quoted`: Numbers and texts.
* `isItemText_wrapped`: A value in parentheses.
* `isItemText_record`: A record.
* `isItemText_list`: A list.
* `read?_record`: A document that is a record.
-/

namespace SceneIndex

namespace Ron

open Text

section Marks

-- A word does not stand where another character does.
theorem keyword_eq_none {word : String} {w c : Char} {ws : List Char}
    (hword : word.toList = w :: ws) (hw : w ≠ c) (rest : List Char) :
    keyword word (c :: rest) = none := by
  unfold keyword
  rw [hword]
  simp only [Text.after?, if_neg hw]

/-- A value that begins neither with an identifier nor with the sign of a word
    is told by its mark, unless it is the unit. -/
theorem valueWith_eq_marked {e : Extensions} {nested : Option Nested} {c : Char}
    {rest : List Char} (hc : isIdentifierStart c = false) (hminus : c ≠ '-')
    (hunit : Text.after? ['(', ')'] (c :: rest) = none) :
    valueWith e nested (c :: rest) = marked nested (c :: rest) := by
  -- All words but one begin like identifiers.
  have hword : ∀ {w : Char}, isIdentifierStart w = true → w ≠ c := by
    rintro w hw rfl
    rw [hc] at hw
    cases hw
  have htrue : keyword "true" (c :: rest) = none :=
    keyword_eq_none (by decide : _ = 't' :: "rue".toList) (hword (by decide)) rest
  have hfalse : keyword "false" (c :: rest) = none :=
    keyword_eq_none (by decide : _ = 'f' :: "alse".toList) (hword (by decide)) rest
  have hsome : keyword "Some" (c :: rest) = none :=
    keyword_eq_none (by decide : _ = 'S' :: "ome".toList) (hword (by decide)) rest
  have hnone : keyword "None" (c :: rest) = none :=
    keyword_eq_none (by decide : _ = 'N' :: "one".toList) (hword (by decide)) rest
  have hinf : keyword "inf" (c :: rest) = none :=
    keyword_eq_none (by decide : _ = 'i' :: "nf".toList) (hword (by decide)) rest
  have hminusInf : keyword "-inf" (c :: rest) = none :=
    keyword_eq_none (by decide : _ = '-' :: "inf".toList) hminus.symm rest
  have hnan : keyword "NaN" (c :: rest) = none :=
    keyword_eq_none (by decide : _ = 'N' :: "aN".toList) (hword (by decide)) rest
  have hfinite : notFinite (c :: rest) = none := by
    unfold notFinite
    simp only [List.findSome?_cons, List.findSome?_nil, hinf, hminusInf, hnan, Option.map_none]
  unfold valueWith
  simp only [htrue, hfalse, hsome, hnone, hunit, hfinite, identifier_eq_none hc]

end Marks

/-- The text is read as one item, with a comma or a closing parenthesis after
    it. It does not begin like a gap or an end. -/
structure IsItemText {α : Type} (item : List Char → Found α) (text : List Char) (a : α) :
    Prop where
  start : ∃ c cs, text = c :: cs ∧ isSpace c = false ∧ c ≠ '/' ∧ c ≠ ')' ∧ c ≠ ']'
  read : ∀ mark rest, mark = ',' ∨ mark = ')' →
    item (text ++ mark :: rest) = some (a, mark :: rest)

theorem IsItemText.skipGaps {α : Type} {item : List Char → Found α} {text : List Char} {a : α}
    (h : IsItemText item text a) (rest : List Char) :
    skipGaps (text ++ rest) = some (text ++ rest) := by
  obtain ⟨c, cs, rfl, hspace, hslash, _⟩ := h.start
  exact skipGaps_of_start hspace hslash (cs ++ rest)

section Leaves

variable (e : Extensions) (depth : Nat)

/-- A number of 64 bits without sign. -/
theorem isItemText_number {n : Nat} (hn : n < UInt64.size) :
    IsItemText (value e depth) (Numeral.write 10 n) (.whole n) := by
  have hdigits : ∀ c ∈ Numeral.write 10 n, isSpace c = false ∧ c ≠ '/' ∧ c ≠ ')' ∧ c ≠ ']' :=
    Numeral.forall_mem_write (by decide) (by decide) n
  have hmarks : ∀ c ∈ Numeral.write 10 n, isIdentifierStart c = false ∧ c ≠ '-' ∧ '(' ≠ c ∧
      c ≠ '(' ∧ c ≠ '[' ∧ c ≠ '\x7b' ∧ c.isDigit = true :=
    Numeral.forall_mem_write (by decide) (by decide) n
  obtain ⟨c, cs, hwrite, hmem⟩ := Numeral.exists_write_cons 10 n
  refine ⟨⟨c, cs, hwrite, hdigits c hmem⟩, fun mark rest hmark => ?_⟩
  have hnumber : number (Numeral.write 10 n ++ mark :: rest) = some (.whole n, mark :: rest) := by
    rcases hmark with rfl | rfl
    · exact number_write hn (by decide) (by decide) (by decide) rest
    · exact number_write hn (by decide) (by decide) (by decide) rest
  obtain ⟨hstart, hminus, hopen, hparen, hbracket, hbrace, hdigit⟩ := hmarks c hmem
  obtain ⟨nested, hvalue⟩ := value_eq_valueWith e depth
  rw [hwrite, List.cons_append] at hnumber ⊢
  rw [hvalue, valueWith_eq_marked hstart hminus (if_neg hopen)]
  simp only [marked, if_neg hparen, if_neg hbracket, if_neg hbrace, hdigit, true_or, if_true,
    hnumber]

/-- A text that needs no escapes. -/
theorem isItemText_quoted {content : List Char} (h : ∀ c ∈ content, Flags.isQuotable c = true) :
    IsItemText (value e depth) (doubleQuote :: (content ++ [doubleQuote]))
      (.text (String.ofList content)) := by
  refine ⟨⟨doubleQuote, _, rfl, by decide⟩, fun mark rest _ => ?_⟩
  obtain ⟨nested, hvalue⟩ := value_eq_valueWith e depth
  have hline : doubleQuote :: (content ++ [doubleQuote]) ++ mark :: rest
      = doubleQuote :: (content ++ doubleQuote :: mark :: rest) := by
    rw [List.cons_append, List.append_assoc, List.singleton_append]
  have hother : ¬ (doubleQuote.isDigit = true ∨ doubleQuote = '+' ∨ doubleQuote = '-') := by decide
  rw [hline, hvalue, valueWith_eq_marked (by decide) (by decide) (if_neg (by decide))]
  simp only [marked, if_neg (by decide : doubleQuote ≠ '('), if_neg (by decide : doubleQuote ≠ '['),
    if_neg (by decide : doubleQuote ≠ '\x7b'), if_neg hother,
    if_neg (by decide : doubleQuote ≠ '.'), true_or, if_true, quoted_plain h]
  rfl

end Leaves

section Layouts

/-- The blanks with which items are laid out: in front of each item, behind
    each comma and the opening mark, and in front of the closing mark. -/
structure Layout where
  before : List Char
  behind : List Char
  last : List Char
  before_blank : before.all isSpace = true
  behind_blank : behind.all isSpace = true
  last_blank : last.all isSpace = true

namespace Layout

/-- An item with its comma. -/
def item (l : Layout) (text : List Char) : List Char := l.before ++ (text ++ ',' :: l.behind)

/-- What stands after the opening mark. -/
def body (l : Layout) (close : Char) (texts : List (List Char)) : List Char :=
  l.behind ++ (texts.flatMap l.item ++ (l.last ++ [close]))

theorem item_ne_nil (l : Layout) (text : List Char) : l.item text ≠ [] :=
  List.append_ne_nil_of_right_ne_nil _
    (List.append_ne_nil_of_right_ne_nil text (List.cons_ne_nil ',' l.behind))

variable (l : Layout) {α : Type} {reader : List Char → Found α} {close : Char}
  {texts : List (List Char)} {meanings : List α}

/-- Items that are laid out are listed. -/
theorem listed_body (hclose : close = ')' ∨ close = ']')
    (h : List.Forall₂ (IsItemText reader) texts meanings) (rest : List Char) :
    Listed skipGaps close reader (l.body close texts ++ rest) meanings rest := by
  have hcloses : ∀ s, skipGaps (close :: s) = some (close :: s) := by
    intro s
    rcases hclose with rfl | rfl
    · exact skipGaps_of_start (by decide) (by decide) s
    · exact skipGaps_of_start (by decide) (by decide) s
  have hitems : Listed skipGaps close reader
      (texts.flatMap l.item ++ (l.last ++ close :: rest)) meanings rest := by
    induction h with
    | nil =>
        refine Listed.closed ?_
        rw [List.flatMap_nil, List.nil_append, skipGaps_append l.last_blank, hcloses]
    | @cons text a texts meanings hitem _ ih =>
        -- What stands behind the comma.
        let later := l.behind ++ (texts.flatMap l.item ++ (l.last ++ close :: rest))
        have hothers : Listed skipGaps close reader later meanings rest :=
          ih.of_skipGaps (skipGaps_append l.behind_blank _)
        have hcomma : skipGaps (',' :: later) = some (',' :: later) :=
          skipGaps_of_start (by decide) (by decide) later
        have hread := hitem.read ',' later (Or.inl rfl)
        have hstart : skipGaps (l.before ++ (text ++ ',' :: later))
            = some (text ++ ',' :: later) := by
          rw [skipGaps_append l.before_blank, hitem.skipGaps]
        have hline : (text :: texts).flatMap l.item ++ (l.last ++ close :: rest)
            = l.before ++ (text ++ ',' :: later) := by
          simp only [List.flatMap_cons, item, List.append_assoc, List.cons_append, later]
        obtain ⟨c, cs, rfl, _, _, hparen, hbracket⟩ := hitem.start
        have hc : c ≠ close := by
          rcases hclose with rfl | rfl
          · exact hparen
          · exact hbracket
        rw [hline]
        exact Listed.next hstart hc hread hcomma hothers
  have hbody : l.body close texts ++ rest
      = l.behind ++ (texts.flatMap l.item ++ (l.last ++ close :: rest)) := by
    simp only [body, List.append_assoc, List.singleton_append]
  rw [hbody]
  exact hitems.of_skipGaps (skipGaps_append l.behind_blank _)

theorem length_lt_body (h : List.Forall₂ (IsItemText reader) texts meanings) (rest : List Char) :
    meanings.length < (l.body close texts ++ rest).length := by
  have hitems := length_le_flatMap l.item_ne_nil texts
  have hlength := h.length_eq
  simp only [body, List.length_append, List.length_singleton]
  omega

/-- The loop over items reads items that are laid out. -/
theorem separated_body (hclose : close = ')' ∨ close = ']')
    (h : List.Forall₂ (IsItemText reader) texts meanings) (rest : List Char) :
    separated skipGaps close reader (l.body close texts ++ rest).length (l.body close texts ++ rest)
      = some (meanings, rest) := by
  have hcomma : close ≠ ',' := by
    rcases hclose with rfl | rfl <;> decide
  exact separated_of_listed hcomma (l.listed_body hclose h rest) (l.length_lt_body h rest)

end Layout

end Layouts

section Composites

variable {e : Extensions} {depth : Nat}

/-- A list. -/
theorem isItemText_list (l : Layout) {texts : List (List Char)} {values : List Value}
    (h : List.Forall₂ (IsItemText (value e depth)) texts values) :
    IsItemText (value e (depth + 2)) ('[' :: l.body ']' texts) (.list values) := by
  refine ⟨⟨'[', _, rfl, by decide⟩, fun mark rest _ => ?_⟩
  have hread := l.separated_body (Or.inr rfl) h (mark :: rest)
  change valueWith e (some ⟨_, value e depth⟩) ('[' :: (l.body ']' texts ++ mark :: rest)) = _
  rw [valueWith_eq_marked (by decide) (by decide) (if_neg (by decide))]
  simp only [marked, if_neg (by decide : ¬ '[' = '('), if_true, hread]
  rfl

/-- A value in parentheses that does not begin like a field. -/
theorem isItemText_wrapped {c : Char} {cs : List Char} {v : Value}
    (h : IsItemText (value e depth) (c :: cs) v) (hc : isIdentifierStart c = false) :
    IsItemText (value e (depth + 2)) ('(' :: (c :: cs ++ [')'])) (.tuple none [v]) := by
  refine ⟨⟨'(', _, rfl, by decide⟩, fun mark rest _ => ?_⟩
  have hgaps := h.skipGaps (')' :: mark :: rest)
  have hread := h.read ')' (mark :: rest) (Or.inr rfl)
  obtain ⟨_, _, heq, _, _, hparen, _⟩ := h.start
  rw [← (List.cons.inj heq).1] at hparen
  have hunit : Text.after? ['(', ')'] ('(' :: c :: (cs ++ ')' :: mark :: rest)) = none := by
    simp only [Text.after?, if_true, if_neg hparen.symm]
  have hfield : beginsField (c :: (cs ++ ')' :: mark :: rest)) = false := by
    unfold beginsField
    rw [identifier_eq_none hc]
  have hitems : separated skipGaps ')' (value e depth) (c :: (cs ++ ')' :: mark :: rest)).length
      (c :: (cs ++ ')' :: mark :: rest)) = some ([v], mark :: rest) := by
    refine separated_of_listed (by decide) (Listed.last hgaps hparen hread ?_) ?_
    · exact skipGaps_of_start (by decide) (by decide) (mark :: rest)
    · simp only [List.length_cons, List.length_append, List.length_nil]
      omega
  have hline : '(' :: (c :: cs ++ [')']) ++ mark :: rest
      = '(' :: c :: (cs ++ ')' :: mark :: rest) := by
    simp only [List.cons_append, List.append_assoc, List.nil_append]
  rw [hline]
  change valueWith e (some ⟨_, value e depth⟩) ('(' :: c :: (cs ++ ')' :: mark :: rest)) = _
  rw [valueWith_eq_marked (by decide) (by decide) hunit]
  rw [List.cons_append] at hgaps
  simp only [marked, if_true, parenthesised, hgaps, hfield, Bool.false_eq_true, if_false, hitems]
  rfl

/-- A field of a record as it is written. -/
structure FieldText where
  name : String
  text : List Char
  value : Value

namespace FieldText

/-- The characters of a field. -/
def chars (f : FieldText) : List Char := f.name.toList ++ ':' :: ' ' :: f.text

/-- What a field stands for. -/
def entry (f : FieldText) : String × Value := (f.name, f.value)

/-- The name is plain, and the text is that of the value. -/
structure Reads (f : FieldText) (item : List Char → Found Value) : Prop where
  name : IsPlainName f.name.toList
  text : IsItemText item f.text f.value

variable {f : FieldText} {item : List Char → Found Value}

theorem Reads.beginsField (h : f.Reads item) (rest : List Char) :
    beginsField (f.chars ++ rest) = true := by
  have hname := identifier_plain h.name (by decide : isRawChar ':' = false)
    (' ' :: (f.text ++ rest))
  unfold Ron.beginsField chars
  rw [List.append_assoc, List.cons_append, List.cons_append, hname]
  simp only [skipGaps_of_start (by decide : isSpace ':' = false) (by decide)]

theorem Reads.isItemText (h : f.Reads item) : IsItemText (field item) f.chars f.entry := by
  refine ⟨?_, fun mark rest hmark => ?_⟩
  · obtain ⟨c, cs, hc, hstart, _⟩ := h.name.exists_cons
    refine ⟨c, cs ++ ':' :: ' ' :: f.text, by rw [chars, hc, List.cons_append], ?_⟩
    -- An identifier does not begin with any of these.
    refine ⟨?_, ?_, ?_, ?_⟩
    · by_contra hspace
      rw [Bool.not_eq_false] at hspace
      simp only [isSpace, Bool.or_eq_true, beq_iff_eq] at hspace
      rcases hspace with ((rfl | rfl) | rfl) | rfl <;> exact absurd hstart (by decide)
    all_goals
      rintro rfl
      exact absurd hstart (by decide)
  · have hname := identifier_plain h.name (by decide : isRawChar ':' = false)
      (' ' :: (f.text ++ mark :: rest))
    have hcolon : colon (':' :: ' ' :: (f.text ++ mark :: rest))
        = some (f.text ++ mark :: rest) := by
      unfold colon
      rw [skipGaps_of_start (by decide) (by decide)]
      simp only [skipGaps_cons (by decide : isSpace ' ' = true), h.text.skipGaps]
    unfold field chars
    rw [List.append_assoc, List.cons_append, List.cons_append, hname, String.ofList_toList]
    simp only [hcolon, h.text.read mark rest hmark]
    rfl

end FieldText

-- A parenthesis that a gap and something else follow is not that of the unit.
theorem after?_unit_eq_none {s s' : List Char} (h : skipGaps s = some s')
    (hs' : s'.head? ≠ some ')') : Text.after? ['(', ')'] ('(' :: s) = none := by
  cases s with
  | nil => rfl
  | cons c rest =>
      by_cases hc : ')' = c
      · subst hc
        rw [skipGaps_of_start (by decide) (by decide)] at h
        rw [← Option.some.inj h] at hs'
        exact absurd rfl hs'
      · simp only [Text.after?, if_true, if_neg hc]

/-- A record is read whatever follows it. -/
theorem value_record (l : Layout) {f : FieldText} {others : List FieldText}
    (h : ∀ g ∈ f :: others, g.Reads (value e depth)) (rest : List Char) :
    value e (depth + 2) ('(' :: (l.body ')' ((f :: others).map FieldText.chars) ++ rest))
      = some (.record none ((f :: others).map FieldText.entry), rest) := by
  have hfields : List.Forall₂ (IsItemText (field (value e depth)))
      ((f :: others).map FieldText.chars) ((f :: others).map FieldText.entry) := by
    rw [List.forall₂_map_left_iff, List.forall₂_map_right_iff, List.forall₂_same]
    exact fun g hg => (h g hg).isItemText
  have hfirst := h f List.mem_cons_self
  -- The text from the first field on.
  let fields := f.chars ++ ',' :: (l.behind ++
    ((others.map FieldText.chars).flatMap l.item ++ (l.last ++ ')' :: rest)))
  have hgaps : skipGaps fields = some fields := hfirst.isItemText.skipGaps _
  have hskip : skipGaps (l.body ')' ((f :: others).map FieldText.chars) ++ rest)
      = some fields := by
    have hline : l.body ')' ((f :: others).map FieldText.chars) ++ rest
        = l.behind ++ (l.before ++ fields) := by
      simp only [Layout.body, Layout.item, List.map_cons, List.flatMap_cons, List.append_assoc,
        List.cons_append, List.nil_append, fields]
    rw [hline, skipGaps_append l.behind_blank, skipGaps_append l.before_blank, hgaps]
  have hhead : fields.head? ≠ some ')' := by
    obtain ⟨c, cs, hc, _, _, hparen, _⟩ := hfirst.isItemText.start
    simp only [fields, hc, List.cons_append, List.head?_cons, ne_eq, Option.some.injEq]
    exact hparen
  have hcount : ((f :: others).map FieldText.entry).length < fields.length := by
    have hothers := length_le_flatMap l.item_ne_nil (others.map FieldText.chars)
    simp only [fields, List.length_map, List.length_append, List.length_cons] at hothers ⊢
    omega
  have hread : separated skipGaps ')' (field (value e depth)) fields.length fields
      = some ((f :: others).map FieldText.entry, rest) := by
    have hlisted := l.listed_body (Or.inl rfl) hfields rest
    exact separated_of_listed (by decide) (hlisted.of_skipGaps (hgaps.trans hskip.symm)) hcount
  have hunit := after?_unit_eq_none hskip hhead
  have hbegins : beginsField fields = true := hfirst.beginsField _
  change valueWith e (some ⟨_, value e depth⟩)
    ('(' :: (l.body ')' ((f :: others).map FieldText.chars) ++ rest)) = _
  rw [valueWith_eq_marked (by decide) (by decide) hunit]
  simp only [marked, if_true, parenthesised, hskip, hbegins, hread]
  rfl

/-- A record as an item of something else. -/
theorem isItemText_record (l : Layout) {fields : List FieldText} (hne : fields ≠ [])
    (h : ∀ g ∈ fields, g.Reads (value e depth)) :
    IsItemText (value e (depth + 2)) ('(' :: l.body ')' (fields.map FieldText.chars))
      (.record none (fields.map FieldText.entry)) := by
  obtain ⟨f, others, rfl⟩ := List.exists_cons_of_ne_nil hne
  exact ⟨⟨'(', _, rfl, by decide⟩, fun mark rest _ => value_record l h (mark :: rest)⟩

/-- A document that is a record, laid out in any way, is read as this record. -/
theorem read?_record (l : Layout) {fields : List FieldText} (hne : fields ≠ [])
    (h : ∀ g ∈ fields, g.Reads (value {} (depthLimit - 2))) :
    read? (String.ofList ('(' :: l.body ')' (fields.map FieldText.chars)))
      = some ⟨{}, .record none (fields.map FieldText.entry)⟩ := by
  obtain ⟨f, others, rfl⟩ := List.exists_cons_of_ne_nil hne
  have hvalue : value {} depthLimit ('(' :: (l.body ')' ((f :: others).map FieldText.chars) ++ []))
      = some (.record none ((f :: others).map FieldText.entry), []) := value_record l h []
  rw [List.append_nil] at hvalue
  generalize l.body ')' ((f :: others).map FieldText.chars) = s at hvalue ⊢
  have hgaps : skipGaps ('(' :: s) = some ('(' :: s) :=
    skipGaps_of_start (by decide) (by decide) s
  have hdirectives : directives (('(' :: s).length + 1) {} ('(' :: s) = some ({}, '(' :: s) := rfl
  unfold read?
  simp only [String.toList_ofList, hgaps, hdirectives, hvalue]
  rfl

end Composites

end Ron

end SceneIndex
