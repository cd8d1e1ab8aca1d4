import SceneIndex.Toml.Quoted
import SceneIndex.Toml.Scalar
import SceneIndex.Toml.Table

/-!
# TOML documents

A document is a sequence of lines: entries, headers, comments and blank
lines. An entry belongs to the table that the latest header opened. Values
nest, arrays and tables in braces inside one another, up to a limit.

The loops over items, entries and lines are given the length of the text as
their fuel. Every round uses up a character at least, so the fuel never runs
out before the text does.

## Main definitions

* `Toml.keyPath`: The parts of a dotted key.
* `Toml.value`: A value of any kind.
* `Toml.Document`: The tables built so far and the header in force.
* `Toml.read?`: The root table of a document.
-/

namespace SceneIndex

namespace Toml

open Text (Found doubleQuote singleQuote separated)

open Quoted (isSpace isPlain)

/-- Drops blanks and tabs. -/
def skipSpace (s : List Char) : List Char := s.dropWhile isSpace

/-- Makes every line break a single character. A carriage return stands only
    in front of a line feed. -/
def unifyBreaks : List Char → Option (List Char)
  | [] => some []
  | '\r' :: '\n' :: rest => (unifyBreaks rest).map ('\n' :: ·)
  | c :: rest => if c = '\r' then none else (unifyBreaks rest).map (c :: ·)

/-- The characters of a key without quotes. -/
def isBareChar (c : Char) : Bool := c.isAlphanum || c == '_' || c == '-'

/-- One part of a key: quoted on one line, or bare. -/
def simpleKey (s : List Char) : Found String :=
  match s with
  | [] => none
  | c :: _ =>
    if c = doubleQuote ∨ c = singleQuote then Quoted.readLine s
    else if isBareChar c then
      some (String.ofList (s.takeWhile isBareChar), s.dropWhile isBareChar)
    else none

/-- The parts of a key with dots, blanks allowed around each. -/
def keyParts : Nat → List Char → Found (List String)
  | 0, _ => none
  | fuel + 1, s =>
    match simpleKey (skipSpace s) with
    | none => none
    | some (part, rest) =>
      match skipSpace rest with
      | '.' :: rest => (keyParts fuel rest).mapResult (part :: ·)
      | rest => some ([part], rest)

/-- Neither the parts of a key nor the values nested in one another may be so
    many. -/
def depthLimit : Nat := 80

/-- A key with dots, cut into the path to its last part and that part. -/
def keyPath (s : List Char) : Found (List String × String) :=
  match keyParts s.length s with
  | none => none
  | some (parts, rest) =>
    match parts.getLast? with
    | some key => if parts.length < depthLimit then some ((parts.dropLast, key), rest) else none
    | none => none

/-- Skips blanks, line breaks and comments, inside a comment or not. -/
def skipGaps : Bool → List Char → Option (List Char)
  | _, [] => some []
  | true, c :: rest =>
    if c = '\n' then skipGaps false rest
    else if isPlain c then skipGaps true rest
    else none
  | false, c :: rest =>
    if c = '#' then skipGaps true rest
    else if isSpace c || c == '\n' then skipGaps false rest
    else some (c :: rest)

/-- A key, the equals sign and a value. -/
def entry (item : List Char → Found Value) (s : List Char) :
    Found ((List String × String) × Value) :=
  match keyPath s with
  | some (path, '=' :: rest) =>
    (item (skipSpace rest)).mapResult (path, ·)
  | _ => none

/-- The entries of a table in braces, after its opening brace or a comma, up
    to its closing brace, added to the entries before them. -/
def inlineEntries (item : List Char → Found Value) :
    Nat → Table → List Char → Found Table
  | 0, _, _ => none
  | fuel + 1, t, s =>
    match entry item s with
    | none => none
    | some (((path, key), v), rest) =>
      match t.assign path key v .braces with
      | none => none
      | some t =>
        match skipSpace rest with
        | ',' :: rest => inlineEntries item fuel t rest
        | '\x7d' :: rest => some (t, rest)
        | _ => none

/-- The rest of a table in braces, which may be empty. -/
def inlineTable (item : List Char → Found Value) (s : List Char) : Found Table :=
  match skipSpace s with
  | '\x7d' :: rest => some ([], rest)
  | _ => inlineEntries item s.length [] s

/-- A value of any kind. Arrays and tables in braces are read with the reader
    for the values in them; where there is none, they are too deep. -/
def valueWith (nested : Option (List Char → Found Value)) (s : List Char) : Found Value :=
  match s with
  | [] => none
  | c :: rest =>
    if c = doubleQuote ∨ c = singleQuote then
      (Quoted.read s).mapResult .text
    else if c = '[' then
      match nested with
      | some item =>
        (separated (skipGaps false) ']' item rest.length rest).mapResult (.array false)
      | none => none
    else if c = '\x7b' then
      match nested with
      | some item => (inlineTable item rest).mapResult (.table .braces)
      | none => none
    else Scalar.read s

/-- A value with values nested in it up to a depth. -/
def value : Nat → List Char → Found Value
  | 0 => valueWith none
  | depth + 1 => valueWith (some (value depth))

/-- At every depth values are read alike, up to the reader for values in
    them. -/
theorem value_eq_valueWith (depth : Nat) : ∃ nested, value depth = valueWith nested := by
  cases depth with
  | zero => exact ⟨none, rfl⟩
  | succ depth => exact ⟨some (value depth), rfl⟩

/-- The tables built so far, and the path that the latest header named. -/
structure Document where
  root : Table := []
  current : List String := []
  deriving Inhabited

namespace Document

/-- The document with another entry under the latest header. -/
def assign (d : Document) (path : List String) (key : String) (v : Value) :
    Option Document :=
  (d.root.assignUnder d.current path key v).map fun root => { d with root := root }

/-- The document after the header of a table. -/
def openTable (d : Document) (path : List String) (key : String) : Option Document :=
  (d.root.openTable path key).map fun root => { root := root, current := path ++ [key] }

/-- The document after the header of an array element. -/
def openElement (d : Document) (path : List String) (key : String) : Option Document :=
  (d.root.openElement path key).map fun root => { root := root, current := path ++ [key] }

end Document

/-- Skips the end of a line: blanks, perhaps a comment, and the line break or
    the end of the text. -/
def lineEnd (s : List Char) : Option (List Char) :=
  let s := skipSpace s
  let after := match s with
    | '#' :: comment => comment.dropWhile isPlain
    | _ => s
  match after with
  | [] => some []
  | '\n' :: rest => some rest
  | _ => none

/-- A line that is not blank: an entry or a header, up to the end of what it
    says. -/
def statement (d : Document) (s : List Char) : Found Document :=
  match s with
  | '[' :: '[' :: rest =>
    match keyPath rest with
    | some ((path, key), ']' :: ']' :: rest) => (d.openElement path key).map (·, rest)
    | _ => none
  | '[' :: rest =>
    match keyPath rest with
    | some ((path, key), ']' :: rest) => (d.openTable path key).map (·, rest)
    | _ => none
  | _ =>
    match entry (value (depthLimit - 1)) s with
    | some (((path, key), v), rest) => (d.assign path key v).map (·, rest)
    | none => none

/-- Reads the lines of a document. Those that are not blank are read with the
    given reader. -/
def linesWith (line : Document → List Char → Found Document) :
    Nat → Document → List Char → Option Document
  | 0, _, _ => none
  | fuel + 1, d, s =>
    match skipSpace s with
    | [] => some d
    | '\n' :: rest => linesWith line fuel d rest
    | '#' :: rest =>
      match lineEnd ('#' :: rest) with
      | some rest => linesWith line fuel d rest
      | none => none
    | s =>
      match line d s with
      | none => none
      | some (d, rest) =>
        match lineEnd rest with
        | some rest => linesWith line fuel d rest
        | none => none

/-- The text without the mark that tells the order of bytes. -/
def withoutMark : List Char → List Char
  | '\ufeff' :: rest => rest
  | s => s

/-- The root table of a document, of which the lines are read with the given
    reader. -/
def readWith? (line : Document → List Char → Found Document) (text : String) : Option Table :=
  match unifyBreaks (withoutMark text.toList) with
  | some s => (linesWith line (s.length + 1) {} s).map (·.root)
  | none => none

/-- The root table of a document. -/
def read? (text : String) : Option Table := readWith? statement text

end Toml

end SceneIndex
