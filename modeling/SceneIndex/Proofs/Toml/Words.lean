import SceneIndex.Proofs.Flags.Text
import SceneIndex.Proofs.Text.Reading
import SceneIndex.Toml.Document

/-!
# Words of a TOML document

What the reader makes of single words: numbers in base ten, texts in double
quotes that need no escapes, and keys without quotes. Each is read up to a mark
that cannot be part of it, and the mark is left for others.

A number is first taken as a run of characters that could also be a date or a
truth value. That it is none of these shows in its characters, all of which are
digits. A number has no leading zero, so it is not refused as one that does.

## Theorems

* `Scalar.read_write`: A number in base ten.
* `Quoted.read_quoted`: A text in double quotes.
* `keyPath_bare`: A key without quotes and dots.
-/

namespace SceneIndex

namespace Toml

open Text

namespace Scalar

theorem moreDigits?_of_digits {base : Nat} (hmark : Numeral.isDigit base '_' = false)
    {s : List Char} (h : ∀ c ∈ s, Numeral.isDigit base c = true) :
    moreDigits? base s = some s := by
  induction s with
  | nil => rfl
  | cons c rest ih =>
      have hc : Numeral.isDigit base c = true := h c List.mem_cons_self
      have hrest := ih fun d hd => h d (List.mem_cons_of_mem c hd)
      unfold moreDigits?
      split
      · rename_i heq
        exact absurd heq (List.cons_ne_nil c rest)
      · -- An underscore is no digit.
        rename_i heq
        rw [(List.cons.inj heq).1, hmark] at hc
        exact absurd hc Bool.false_ne_true
      · rename_i heq
        obtain ⟨rfl, rfl⟩ := List.cons.inj heq
        rw [if_pos hc, hrest]
        rfl

theorem digits?_write (n : Nat) :
    digits? 10 (Numeral.write 10 n) = some (Numeral.write 10 n) := by
  have hdigits := Numeral.isDigit_of_mem_write (by decide : 2 ≤ 10) (by decide) n
  cases hwrite : Numeral.write 10 n with
  | nil => exact absurd hwrite (Numeral.write_ne_nil 10 n)
  | cons c rest =>
      rw [hwrite] at hdigits
      have hrest : moreDigits? 10 rest = some rest :=
        moreDigits?_of_digits (by decide) fun d hd => hdigits d (List.mem_cons_of_mem c hd)
      simp only [digits?, hdigits c List.mem_cons_self, if_true, hrest, Option.map_some]

-- A number that begins with zero is zero and has no other digit.
theorem plainDigits?_write (n : Nat) :
    plainDigits? (Numeral.write 10 n) = some (Numeral.write 10 n) := by
  unfold plainDigits?
  rw [digits?_write]
  split
  · rename_i second others heq
    have hzero : n = 0 := by
      apply Numeral.eq_zero_of_head_write (by decide : 2 ≤ 10) (by decide)
      rw [Option.some.inj heq]
      rfl
    rw [hzero, Numeral.write, if_pos (Or.inl (by decide))] at heq
    exact absurd heq (by simp)
  · rfl

theorem sign_write (n : Nat) : sign (Numeral.write 10 n) = (false, Numeral.write 10 n) := by
  have hmarks : ∀ c ∈ Numeral.write 10 n, c ≠ '-' ∧ c ≠ '+' :=
    Numeral.forall_mem_write (by decide) (by decide) n
  unfold sign
  split
  · rename_i heq
    exact absurd rfl (hmarks '-' (by rw [heq]; exact List.mem_cons_self)).1
  · rename_i heq
    exact absurd rfl (hmarks '+' (by rw [heq]; exact List.mem_cons_self)).2
  · rfl

/-- A written number of 64 bits with a sign is a whole number. -/
theorem integer?_write {n : Nat} (hn : n ≤ Numeral.signedLimit) :
    integer? (Numeral.write 10 n) = some (n : Int) := by
  have hmarks : ∀ c ∈ Numeral.write 10 n, c ≠ 'x' ∧ c ≠ 'o' ∧ c ≠ 'b' :=
    Numeral.forall_mem_write (by decide) (by decide) n
  have hsecond : ∀ {a b : Char} {rest : List Char}, Numeral.write 10 n = a :: b :: rest →
      b ∈ Numeral.write 10 n := by
    intro a b rest heq
    rw [heq]
    exact List.mem_cons_of_mem a List.mem_cons_self
  have hread : Numeral.read? 10 (Numeral.write 10 n) = some n :=
    Numeral.read?_write (by decide) (by decide) n
  unfold integer?
  split
  · rename_i heq
    exact absurd rfl (hmarks _ (hsecond heq)).1
  · rename_i heq
    exact absurd rfl (hmarks _ (hsecond heq)).2.1
  · rename_i heq
    exact absurd rfl (hmarks _ (hsecond heq)).2.2
  · simp only [sign_write, plainDigits?_write, hread, Option.bind_some, inRange?]
    exact if_pos hn

theorem ofToken?_write {n : Nat} (hn : n ≤ Numeral.signedLimit) :
    ofToken? (Numeral.write 10 n) = some (.integer n) := by
  have hletters : ∀ c ∈ Numeral.write 10 n, c ≠ 't' ∧ c ≠ 'f' :=
    Numeral.forall_mem_write (by decide) (by decide) n
  have htrue : Numeral.write 10 n ≠ ['t', 'r', 'u', 'e'] := by
    intro heq
    exact absurd rfl (hletters 't' (by rw [heq]; exact List.mem_cons_self)).1
  have hfalse : Numeral.write 10 n ≠ ['f', 'a', 'l', 's', 'e'] := by
    intro heq
    exact absurd rfl (hletters 'f' (by rw [heq]; exact List.mem_cons_self)).2
  unfold ofToken?
  rw [if_neg htrue, if_neg hfalse, integer?_write hn]

/-- A written number is read up to a mark that is not part of a scalar. A blank
    is no such mark, since the time of a date may follow it. -/
theorem read_write {n : Nat} (hn : n ≤ Numeral.signedLimit) {mark : Char}
    (hmark : isTokenChar mark = false) (hblank : mark ≠ ' ') (rest : List Char) :
    read (Numeral.write 10 n ++ mark :: rest) = some (.integer n, mark :: rest) := by
  have hrun : ∀ c ∈ Numeral.write 10 n, isTokenChar c = true :=
    Numeral.forall_mem_write (by decide) (by decide) n
  have htoken : token (Numeral.write 10 n ++ mark :: rest)
      = (Numeral.write 10 n, mark :: rest) := by
    unfold token
    simp only [takeWhile_run hrun hmark, dropWhile_run hrun hmark]
    split
    · rename_i heq
      exact absurd (List.cons.inj heq).1 hblank
    · rfl
  unfold read
  rw [htoken]
  simp only [ofToken?_write hn, Option.map_some]

end Scalar

namespace Quoted

-- The characters that need no escape are in no way special between quotes.
theorem isPlain_of_isQuotable {c : Char} (h : Flags.isQuotable c = true) : isPlain c = true := by
  unfold Flags.isQuotable at h
  simp only [Bool.and_eq_true, decide_eq_true_eq] at h
  obtain ⟨⟨⟨hlow, hhigh⟩, _⟩, _⟩ := h
  have hrubout : c.toNat ≠ 0x7f := Nat.ne_of_lt hhigh
  unfold isPlain
  simp only [hlow, hrubout, bne_iff_ne, decide_true, Bool.true_and, Bool.or_eq_true, ne_eq,
    not_false_eq_true, or_true]

theorem basic_quoted {content : List Char} (h : ∀ c ∈ content, Flags.isQuotable c = true)
    (rest : List Char) : basic (content ++ doubleQuote :: rest) = some (content, rest) := by
  induction content with
  | nil =>
      rw [List.nil_append, basic]
      exact if_pos rfl
  | cons c others ih =>
      have hplain := isPlain_of_isQuotable (h c List.mem_cons_self)
      have hc := Flags.ne_of_isQuotable (h c List.mem_cons_self)
      have hothers := ih fun d hd => h d (List.mem_cons_of_mem c hd)
      rw [List.cons_append, basic, if_neg hc.1, if_neg hc.2, if_pos hplain, hothers]
      rfl

-- Only a second and a third quote open a long text.
theorem read_eq_readLine {b c : Char} (h : ¬ (b = doubleQuote ∧ c = doubleQuote))
    (rest : List Char) : read (doubleQuote :: b :: c :: rest)
      = readLine (doubleQuote :: b :: c :: rest) := by
  have hsingle : doubleQuote ≠ singleQuote := by decide
  simp only [read, true_and, h, hsingle, false_and, if_false]

/-- A text in double quotes that needs no escapes is read up to its closing
    quote. Another quote must not follow, or an empty text would be taken for
    the opening of a long one. -/
theorem read_quoted {content : List Char} (h : ∀ c ∈ content, Flags.isQuotable c = true)
    {mark : Char} (hmark : mark ≠ doubleQuote) (rest : List Char) :
    read (doubleQuote :: (content ++ doubleQuote :: mark :: rest))
      = some (String.ofList content, mark :: rest) := by
  have hline : readLine (doubleQuote :: (content ++ doubleQuote :: mark :: rest))
      = some (String.ofList content, mark :: rest) := by
    simp only [readLine, if_true, basic_quoted h]
    rfl
  rw [← hline]
  cases content with
  | nil => exact read_eq_readLine (fun hquotes => hmark hquotes.2) _
  | cons c others =>
      have hc := (Flags.ne_of_isQuotable (h c List.mem_cons_self)).1
      cases others with
      | nil => exact read_eq_readLine (fun hquotes => hc hquotes.1) _
      | cons d others => exact read_eq_readLine (fun hquotes => hc hquotes.1) _

end Quoted

section Keys

/-- The key can be written without quotes. -/
structure IsBareKey (key : List Char) : Prop where
  ne_nil : key ≠ []
  all_bare : key.all isBareChar = true

instance (key : List Char) : Decidable (IsBareKey key) :=
  decidable_of_iff (key ≠ [] ∧ key.all isBareChar = true)
    ⟨fun h => ⟨h.1, h.2⟩, fun h => ⟨h.ne_nil, h.all_bare⟩⟩

theorem IsBareKey.bare {key : List Char} (h : IsBareKey key) : ∀ c ∈ key, isBareChar c = true :=
  List.all_eq_true.mp h.all_bare

theorem skipSpace_of_not_isSpace {c : Char} (hc : Quoted.isSpace c = false) (rest : List Char) :
    skipSpace (c :: rest) = c :: rest := by
  unfold skipSpace
  rw [List.dropWhile_cons_of_neg (by rw [hc]; decide)]

-- A bare character is no blank and no mark.
theorem marks_of_isBareChar {c : Char} (hc : isBareChar c = true) :
    Quoted.isSpace c = false ∧ c ≠ doubleQuote ∧ c ≠ singleQuote ∧ c ≠ '[' ∧ c ≠ '#' ∧
      c ≠ '\n' := by
  refine ⟨?_, ?_, ?_, ?_, ?_, ?_⟩
  · by_contra hspace
    rw [Bool.not_eq_false, Quoted.isSpace, Bool.or_eq_true, beq_iff_eq, beq_iff_eq] at hspace
    rcases hspace with rfl | rfl
    · exact absurd hc (by decide)
    · exact absurd hc (by decide)
  all_goals
    rintro rfl
    exact absurd hc (by decide)

theorem simpleKey_bare {key : List Char} (hkey : IsBareKey key) {mark : Char}
    (hmark : isBareChar mark = false) (rest : List Char) :
    simpleKey (key ++ mark :: rest) = some (String.ofList key, mark :: rest) := by
  have hbare := hkey.bare
  rcases List.exists_cons_of_ne_nil hkey.ne_nil with ⟨c, others, rfl⟩
  have hc : isBareChar c = true := hbare c List.mem_cons_self
  have hquotes : ¬ (c = doubleQuote ∨ c = singleQuote) := by
    rw [not_or]
    exact ⟨(marks_of_isBareChar hc).2.1, (marks_of_isBareChar hc).2.2.1⟩
  have htake := takeWhile_run hbare hmark rest
  have hdrop := dropWhile_run hbare hmark rest
  rw [List.cons_append] at htake hdrop ⊢
  simp only [simpleKey, if_neg hquotes, if_pos hc, htake, hdrop]

/-- A key without quotes and dots is read up to a mark, with the blanks that
    follow it. -/
theorem keyPath_bare {key : List Char} (hkey : IsBareKey key) {mark next : Char}
    (hmark : isBareChar mark = false) {rest after : List Char}
    (hafter : skipSpace (mark :: rest) = next :: after) (hnext : next ≠ '.') :
    keyPath (key ++ mark :: rest) = some (([], String.ofList key), next :: after) := by
  have hspace : skipSpace (key ++ mark :: rest) = key ++ mark :: rest := by
    have hbare := hkey.bare
    rcases List.exists_cons_of_ne_nil hkey.ne_nil with ⟨c, others, rfl⟩
    exact skipSpace_of_not_isSpace (marks_of_isBareChar (hbare c List.mem_cons_self)).1 _
  have hparts : ∀ fuel, keyParts (fuel + 1) (key ++ mark :: rest)
      = some ([String.ofList key], next :: after) := by
    intro fuel
    unfold keyParts
    rw [hspace, simpleKey_bare hkey hmark]
    simp only [hafter]
    split
    · rename_i heq
      exact absurd (List.cons.inj heq).1 hnext
    · rfl
  have hlength : (key ++ mark :: rest).length = (key.length + rest.length) + 1 := by
    rw [List.length_append, List.length_cons, Nat.add_assoc]
  unfold keyPath
  rw [hlength, hparts]
  rfl

end Keys

end Toml

end SceneIndex
