import SceneIndex.Text.Escape
import SceneIndex.Text.Reading

/-!
# Quoted TOML texts

A text stands in double quotes, where a backslash starts an escape, or in
single quotes, where every character is itself. Tripled quotes let the text
run over several lines: a line break right after the opening is dropped, and
a backslash at the end of a line joins it with the next text.

Line breaks are single characters here; the document reader has made them so.

## Main definitions

* `Toml.Quoted.escape?`: The character that an escape stands for.
* `Toml.Quoted.basic`, `Toml.Quoted.literal`: The two quotes, on one line.
* `Toml.Quoted.longBasic`, `Toml.Quoted.longLiteral`: The two quotes, tripled.
* `Toml.Quoted.read`: The quoted text at the start of a text.
-/

namespace SceneIndex

namespace Toml

namespace Quoted

open Text

/-- A blank or a tab. -/
def isSpace (c : Char) : Bool := c == ' ' || c == '\t'

/-- The characters that may stand in any text or comment: all but the control
    characters, of which the tab alone is allowed. -/
def isPlain (c : Char) : Bool := c == '\t' || (0x20 ≤ c.toNat && c.toNat != 0x7f)

/-- The character that the letter of a short escape stands for. -/
def shortEscape? (c : Char) : Option Char :=
  if c = 'b' then some '\x08'
  else if c = 't' then some '\t'
  else if c = 'n' then some '\n'
  else if c = 'f' then some '\x0c'
  else if c = 'r' then some '\r'
  else if c = doubleQuote then some doubleQuote
  else if c = '\\' then some '\\'
  else none

/-- The character that an escape stands for, after its backslash, and what
    follows: a letter, or the code point in four or eight digits. -/
def escape? : List Char → Found Char
  | [] => none
  | c :: rest =>
    if c = 'u' then numbered 4 rest
    else if c = 'U' then numbered 8 rest
    else (shortEscape? c).map (·, rest)
where
  /-- The character named by a fixed count of digits. -/
  numbered (count : Nat) (s : List Char) : Found Char :=
    if s.length < count then none else (ofHex? (s.take count)).map (·, s.drop count)

/-- An escape is not empty. -/
theorem escape?_length {s rest : List Char} {c : Char} (h : escape? s = some (c, rest)) :
    rest.length < s.length := by
  cases s with
  | nil => cases h
  | cons d r =>
    have numbered (count : Nat) (h : escape?.numbered count r = some (c, rest)) :
        rest.length ≤ r.length := by
      simp only [escape?.numbered] at h
      split at h
      · cases h
      · obtain ⟨_, _, h⟩ := Option.map_eq_some_iff.mp h
        cases h
        simp
    simp only [escape?] at h
    split at h
    · exact Nat.lt_succ_of_le (numbered 4 h)
    · split at h
      · exact Nat.lt_succ_of_le (numbered 8 h)
      · obtain ⟨_, _, h⟩ := Option.map_eq_some_iff.mp h
        cases h
        simp

/-- The rest of a text in double quotes, up to its closing quote. -/
def basic (s : List Char) : Found (List Char) :=
  match s with
  | [] => none
  | c :: rest =>
    if c = doubleQuote then some ([], rest)
    else if c = '\\' then
      match _found : escape? rest with
      | some (d, after) => (basic after).mapResult (d :: ·)
      | none => none
    else if isPlain c then (basic rest).mapResult (c :: ·)
    else none
termination_by s.length
decreasing_by
  · have := escape?_length _found
    simp only [List.length_cons]
    omega
  · simp

/-- The rest of a text in single quotes, up to its closing quote. -/
def literal : List Char → Found (List Char)
  | [] => none
  | c :: rest =>
    if c = singleQuote then some ([], rest)
    else if isPlain c then (literal rest).mapResult (c :: ·)
    else none

/-- Closes a text in tripled quotes: three quotes close it, and up to two more
    in front of them belong to the text. -/
def close? (quote : Char) (s : List Char) : Found (List Char) :=
  let quotes := s.takeWhile (· == quote)
  if quotes.length < 3 then none
  else
    let inner := min (quotes.length - 3) 2
    some (List.replicate inner quote, s.drop (inner + 3))

/-- What follows a backslash that joins lines: blanks up to the end of the
    line are dropped, and with them all blanks and line breaks after it. -/
def joined? (s : List Char) : Option (List Char) :=
  match s.dropWhile isSpace with
  | '\n' :: rest => some (rest.dropWhile fun c => isSpace c || c == '\n')
  | _ => none

/-- Joining lines uses up the line break. -/
theorem joined?_length {s rest : List Char} (h : joined? s = some rest) :
    rest.length < s.length := by
  have hdrop : (s.dropWhile isSpace).length ≤ s.length :=
    (List.dropWhile_sublist isSpace).length_le
  simp only [joined?] at h
  split at h
  · rename_i after hafter
    cases h
    have : (after.dropWhile fun c => isSpace c || c == '\n').length ≤ after.length :=
      (List.dropWhile_sublist _).length_le
    rw [hafter, List.length_cons] at hdrop
    omega
  · cases h

/-- The rest of a text in tripled double quotes. -/
def longBasic (s : List Char) : Found (List Char) :=
  match s with
  | [] => none
  | c :: rest =>
    if c = doubleQuote then
      match close? doubleQuote (c :: rest) with
      | some found => some found
      | none => (longBasic rest).mapResult (c :: ·)
    else if c = '\\' then
      match _joined : joined? rest with
      | some after => longBasic after
      | none =>
        match _found : escape? rest with
        | some (d, after) => (longBasic after).mapResult (d :: ·)
        | none => none
    else if isPlain c || c == '\n' then (longBasic rest).mapResult (c :: ·)
    else none
termination_by s.length
decreasing_by
  · simp
  · have := joined?_length _joined
    simp only [List.length_cons]
    omega
  · have := escape?_length _found
    simp only [List.length_cons]
    omega
  · simp

/-- The rest of a text in tripled single quotes. -/
def longLiteral : List Char → Found (List Char)
  | [] => none
  | c :: rest =>
    match close? singleQuote (c :: rest) with
    | some found => some found
    | none => if isPlain c || c == '\n' then (longLiteral rest).mapResult (c :: ·) else none

/-- The text after an opening of three quotes, without a line break that
    follows the opening at once. -/
def opened : List Char → List Char
  | '\n' :: rest => rest
  | s => s

/-- Reads a quoted text on one line. -/
def readLine : List Char → Found String
  | [] => none
  | c :: rest =>
    if c = doubleQuote then (basic rest).mapResult String.ofList
    else if c = singleQuote then (literal rest).mapResult String.ofList
    else none

/-- Reads a quoted text, on one line or over several. -/
def read (s : List Char) : Found String :=
  match s with
  | a :: b :: c :: rest =>
    if a = doubleQuote ∧ b = doubleQuote ∧ c = doubleQuote then
      (longBasic (opened rest)).mapResult String.ofList
    else if a = singleQuote ∧ b = singleQuote ∧ c = singleQuote then
      (longLiteral (opened rest)).mapResult String.ofList
    else readLine s
  | _ => readLine s

end Quoted

end Toml

end SceneIndex
