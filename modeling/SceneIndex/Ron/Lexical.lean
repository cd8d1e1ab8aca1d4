import SceneIndex.Text.Escape
import SceneIndex.Text.Reading
import SceneIndex.Ron.Value

/-!
# The words and marks of RON

Blanks and comments, identifiers, numbers, quoted texts and characters.

## Main definitions

* `Ron.skipGaps`: Skips blanks and comments.
* `Ron.identifier`: A plain or a raw identifier.
* `Ron.number`: A number of any kind.
* `Ron.quoted`: A text in quotes, with escapes or raw.
* `Ron.letter`: A character in quotes.
-/

namespace SceneIndex

namespace Ron

open Text

/-- The four characters that separate words. -/
def isSpace (c : Char) : Bool := c == ' ' || c == '\t' || c == '\n' || c == '\r'

/-- Where a reader of blanks and comments stands: between comments, in one up
    to the end of the line, or in as many nested ones as are still to be
    closed after the innermost. -/
inductive Gap where
  | between
  | line
  | block (outer : Nat)

/-- Skips blanks and comments from a given place on. A comment to the end of
    the line may be ended by the end of the text, a nested one may not. -/
def skipFrom : Gap → List Char → Option (List Char)
  | .between, [] => some []
  | .between, '/' :: '/' :: rest => skipFrom .line rest
  | .between, '/' :: '*' :: rest => skipFrom (.block 0) rest
  | .between, c :: rest =>
    if c = '/' then none
    else if isSpace c then skipFrom .between rest
    else some (c :: rest)
  | .line, [] => some []
  | .line, c :: rest => skipFrom (if c = '\n' then .between else .line) rest
  | .block _, [] => none
  | .block 0, '*' :: '/' :: rest => skipFrom .between rest
  | .block (outer + 1), '*' :: '/' :: rest => skipFrom (.block outer) rest
  | .block outer, '/' :: '*' :: rest => skipFrom (.block (outer + 1)) rest
  | .block outer, _ :: rest => skipFrom (.block outer) rest

/-- Skips blanks and comments. A lone slash is neither. -/
def skipGaps (s : List Char) : Option (List Char) := skipFrom .between s

/-- The characters that begin an identifier. -/
def isIdentifierStart (c : Char) : Bool := c.isAlpha || c == '_'

/-- The characters of an identifier. -/
def isIdentifierChar (c : Char) : Bool := c.isAlphanum || c == '_'

/-- The characters of a raw identifier. -/
def isRawChar (c : Char) : Bool := isIdentifierChar c || c == '.' || c == '+' || c == '-'

/-- An identifier without a mark. It must not run on with characters that only
    a raw identifier may have. -/
def plainIdentifier (s : List Char) : Found String :=
  match s with
  | [] => none
  | c :: _ =>
    let after := s.dropWhile isIdentifierChar
    if !isIdentifierStart c then none
    else if (after.head?.any isRawChar) then none
    else some (String.ofList (s.takeWhile isIdentifierChar), after)

/-- An identifier, plain or raw. The start of a raw text is no identifier, nor
    is the mark of a raw one at the end of the text. -/
def identifier (s : List Char) : Found String :=
  match s with
  | ['r'] => none
  | 'r' :: '#' :: rest =>
    let name := rest.takeWhile isRawChar
    if name.isEmpty then none else some (String.ofList name, rest.dropWhile isRawChar)
  | 'r' :: c :: _ => if c = doubleQuote then none else plainIdentifier s
  | _ => plainIdentifier s

/-- Takes a given word off a text, if it stands there as a whole word. -/
def keyword (word : String) (s : List Char) : Option (List Char) :=
  match after? word.toList s with
  | some rest => if rest.head?.any isIdentifierChar then none else some rest
  | none => none

/-- The characters of a floating-point number. -/
def isFloatChar (c : Char) : Bool :=
  c.isDigit || c == 'e' || c == 'E' || c == '.' || c == '+' || c == '-' || c == '_'

/-- The characters of a whole number in any base. -/
def isIntegerChar (c : Char) : Bool := Numeral.isDigit 16 c || c == '_'

/-- The base of a whole number and its digits. -/
def base : List Char → Nat × List Char
  | '0' :: 'x' :: rest => (16, rest)
  | '0' :: 'o' :: rest => (8, rest)
  | '0' :: 'b' :: rest => (2, rest)
  | s => (10, s)

/-- A whole number without its sign: digits of its base, with underscores
    after the first. -/
def magnitude (s : List Char) : Found Nat :=
  let (b, s) := base s
  let run := s.takeWhile isIntegerChar
  if run.head? = some '_' then none
  else (Numeral.read? b (run.filter (· ≠ '_'))).map (·, s.dropWhile isIntegerChar)

/-- Skips digits and gives the number of them. -/
def skipDigits (s : List Char) : Nat × List Char :=
  ((s.takeWhile Char.isDigit).length, s.dropWhile Char.isDigit)

/-- Whether a text is a decimal number with an optional sign, a point with a
    digit on one side at least, and an optional exponent. -/
def isDecimal (s : List Char) : Bool :=
  let (whole, rest) := skipDigits (unsigned s)
  let (fraction, rest) := match rest with
    | '.' :: rest => skipDigits rest
    | _ => (0, rest)
  whole + fraction != 0 &&
    match rest with
    | [] => true
    | c :: rest =>
      (c == 'e' || c == 'E') &&
        (let (count, rest) := skipDigits (unsigned rest)
         count != 0 && rest.isEmpty)
where
  /-- The text without a sign in front. -/
  unsigned : List Char → List Char
    | '+' :: rest => rest
    | '-' :: rest => rest
    | s => s

/-- A floating-point number. Infinity and no number are words, with a sign or
    not; the others have no underscores. -/
def float (s : List Char) : Found Value :=
  let words := ["inf", "+inf", "-inf", "NaN", "+NaN", "-NaN"]
  match words.findSome? fun word => (keyword word s).map fun rest => (word, rest) with
  | some (word, rest) => some (.number word, rest)
  | none =>
    let run := s.takeWhile isFloatChar
    if isDecimal run then some (.number (String.ofList run), s.dropWhile isFloatChar) else none

/-- A whole number of 64 bits, with a sign or without. -/
def integer (s : List Char) : Found Value :=
  match s with
  | [] => none
  | c :: rest =>
    if c = '+' ∨ c = '-' then
      match magnitude rest with
      | some (n, after) =>
        if n ≤ Numeral.signedLimit ∨ (c = '-' ∧ n = Numeral.signedLimit + 1) then
          some (.number (String.ofList (s.take (s.length - after.length))), after)
        else none
      | none => none
    else
      match magnitude s with
      | some (n, after) => if n < UInt64.size then some (.whole n, after) else none
      | none => none

/-- A number of any kind. What can be a longer floating-point number than a
    whole one is one; what is no whole number after all may still be one. -/
def number (s : List Char) : Found Value :=
  let digits := match s with
    | '+' :: rest => rest
    | '-' :: rest => rest
    | _ => s
  if (digits.takeWhile isIntegerChar).length < (digits.takeWhile isFloatChar).length then float s
  else
    match integer s with
    | some found => some found
    | none => float s

/-- The character that an escape stands for, after its backslash, and what
    follows: a letter, two digits, or up to six digits in braces. -/
def escape? : List Char → Found Char
  | [] => none
  | c :: rest =>
    if c = 'x' then
      match rest with
      | a :: b :: rest => (ofHex? [a, b]).map (·, rest)
      | _ => none
    else if c = 'u' then braced rest
    else (short? c).map (·, rest)
where
  /-- The character of one letter. -/
  short? (c : Char) : Option Char :=
    if c = singleQuote ∨ c = doubleQuote ∨ c = '\\' then some c
    else if c = 'n' then some '\n'
    else if c = 'r' then some '\r'
    else if c = 't' then some '\t'
    else if c = '0' then some '\x00'
    else none
  /-- The character of a code point in braces. -/
  braced : List Char → Found Char
    | '\x7b' :: s =>
      let digits := s.takeWhile (Numeral.isDigit 16)
      match s.dropWhile (Numeral.isDigit 16) with
      | '\x7d' :: rest => if digits.length ≤ 6 then (ofHex? digits).map (·, rest) else none
      | _ => none
    | _ => none

/-- An escape is not empty. -/
theorem escape?_length {s rest : List Char} {c : Char} (h : escape? s = some (c, rest)) :
    rest.length < s.length := by
  cases s with
  | nil => cases h
  | cons d r =>
    have hbraced (hb : escape?.braced r = some (c, rest)) : rest.length ≤ r.length := by
      simp only [escape?.braced] at hb
      split at hb
      · rename_i t
        have hdrop := (List.dropWhile_sublist (Numeral.isDigit 16) (l := t)).length_le
        split at hb
        · rename_i after hafter
          split at hb
          · obtain ⟨_, _, hb⟩ := Option.map_eq_some_iff.mp hb
            cases hb
            rw [hafter, List.length_cons] at hdrop
            simp only [List.length_cons]
            omega
          · cases hb
        · cases hb
      · cases hb
    simp only [escape?] at h
    split at h
    · split at h
      · obtain ⟨_, _, h⟩ := Option.map_eq_some_iff.mp h
        cases h
        simp only [List.length_cons]
        omega
      · cases h
    · split at h
      · exact Nat.lt_succ_of_le (hbraced h)
      · obtain ⟨_, _, h⟩ := Option.map_eq_some_iff.mp h
        cases h
        simp

/-- The rest of a text in quotes, up to its closing quote. -/
def escaped (s : List Char) : Found (List Char) :=
  match s with
  | [] => none
  | c :: rest =>
    if c = doubleQuote then some ([], rest)
    else if c = '\\' then
      match _found : escape? rest with
      | some (d, after) => (escaped after).mapResult (d :: ·)
      | none => none
    else (escaped rest).mapResult (c :: ·)
termination_by s.length
decreasing_by
  · have := escape?_length _found
    simp only [List.length_cons]
    omega
  · simp

/-- The rest of a raw text, up to its ending. -/
def rawUntil (ending : List Char) : List Char → Found (List Char)
  | [] => none
  | c :: rest =>
    match after? ending (c :: rest) with
    | some after => some ([], after)
    | none => (rawUntil ending rest).mapResult (c :: ·)

/-- A raw text after its mark: number signs, and the text in quotes up to a
    quote with as many of them. -/
def raw (s : List Char) : Found (List Char) :=
  let signs := s.takeWhile (· == '#')
  match s.dropWhile (· == '#') with
  | c :: rest => if c = doubleQuote then rawUntil (doubleQuote :: signs) rest else none
  | [] => none

/-- A text in quotes, with escapes or raw. -/
def quoted (s : List Char) : Found String :=
  match s with
  | [] => none
  | c :: rest =>
    let found := if c = doubleQuote then escaped rest else if c = 'r' then raw rest else none
    found.mapResult String.ofList

/-- A character in single quotes, itself or as an escape. -/
def letter (s : List Char) : Found Char :=
  match s with
  | q :: c :: rest =>
    if q ≠ singleQuote ∨ c = singleQuote then none
    else
      match (if c = '\\' then escape? rest else some (c, rest)) with
      | some (d, e :: after) => if e = singleQuote then some (d, after) else none
      | _ => none
  | _ => none

end Ron

end SceneIndex
