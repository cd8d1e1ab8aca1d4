import SceneIndex.Ron.Lexical

/-!
# RON documents

A document is one value, after directives that switch extensions on. Values
nest up to a limit: an option uses up one level, and every list, map, tuple
or record uses up two, one for itself and one for the values in it.

The loops over items and directives are given the length of the text as their
fuel. Every round uses up a character at least, so the fuel never runs out
before the text does.

## Main definitions

* `Ron.value`: A value of any kind.
* `Ron.directive`: The extensions that one directive switches on.
* `Ron.read?`: The value of a document and its extensions.
-/

namespace SceneIndex

namespace Ron

open Text (Found doubleQuote singleQuote separated)

/-- A colon with gaps around it. -/
def colon (s : List Char) : Option (List Char) :=
  match skipGaps s with
  | some (':' :: rest) => skipGaps rest
  | _ => none

/-- The name of a field, a colon and its value. -/
def field (item : List Char → Found Value) (s : List Char) : Found (String × Value) :=
  match identifier s with
  | none => none
  | some (name, rest) =>
    match colon rest with
    | some rest => (item rest).mapResult (name, ·)
    | none => none

/-- A key, a colon and its value. -/
def mapEntry (item : List Char → Found Value) (s : List Char) : Found (Value × Value) :=
  match item s with
  | none => none
  | some (key, rest) =>
    match colon rest with
    | some rest => (item rest).mapResult (key, ·)
    | none => none

/-- Whether what follows an opening parenthesis begins like a field. -/
def beginsField (s : List Char) : Bool :=
  match identifier s with
  | some (_, rest) =>
    match skipGaps rest with
    | some (':' :: _) => true
    | _ => false
  | none => false

/-- The rest of a tuple or a record after its opening parenthesis. It is a
    record if it begins like a field. -/
def parenthesised (name : Option String) (item : List Char → Found Value) (s : List Char) :
    Found Value :=
  match skipGaps s with
  | none => none
  | some s =>
    if beginsField s then
      (separated skipGaps ')' (field item) s.length s).mapResult (.record name)
    else
      (separated skipGaps ')' item s.length s).mapResult (.tuple name)

/-- The rest of an option after its name: a value in parentheses, perhaps
    followed by a comma. An extension lets the parentheses be left out. -/
def present (e : Extensions) (item : List Char → Found Value) (s : List Char) : Found Value :=
  match skipGaps s with
  | some ('(' :: rest) =>
    match (skipGaps rest).bind item with
    | none => none
    | some (v, rest) =>
      match skipGaps rest with
      | some (')' :: rest) => some (.present v, rest)
      | some (',' :: rest) =>
        match skipGaps rest with
        | some (')' :: rest) => some (.present v, rest)
        | _ => none
      | _ => none
  | some s => if e.implicitSome then (item s).mapResult .present else none
  | none => none

/-- The readers for values inside others: for the value of an option, and for
    the values in a list, map, tuple or record. -/
structure Nested where
  optional : List Char → Found Value
  item : List Char → Found Value

/-- A value that begins with an identifier: a name alone, or a name with a
    tuple or a record. -/
def named (nested : Option Nested) (name : String) (s : List Char) : Found Value :=
  match skipGaps s with
  | none => none
  | some ('(' :: rest) =>
    match nested with
    | some readers => parenthesised (some name) readers.item rest
    | none => none
  | some s => some (.word name, s)

/-- A value that begins with a mark, a digit or a quote. -/
def marked (nested : Option Nested) (s : List Char) : Found Value :=
  match s with
  | [] => none
  | c :: rest =>
    if c = '(' then
      match nested with
      | some readers => parenthesised none readers.item rest
      | none => none
    else if c = '[' then
      match nested with
      | some readers =>
        (separated skipGaps ']' readers.item rest.length rest).mapResult .list
      | none => none
    else if c = '\x7b' then
      match nested with
      | some readers =>
        (separated skipGaps '\x7d' (mapEntry readers.item) rest.length rest).mapResult .map
      | none => none
    else if c.isDigit ∨ c = '+' ∨ c = '-' then number s
    else if c = '.' then float s
    else if c = doubleQuote ∨ c = 'r' then (quoted s).mapResult .text
    else if c = singleQuote then (letter s).mapResult .letter
    else none

/-- One of the words for a number that is not finite. -/
def notFinite (s : List Char) : Found Value :=
  ["inf", "-inf", "NaN"].findSome? fun word =>
    (keyword word s).map fun rest => (.number word, rest)

/-- A value of any kind. Values inside others are read with the given readers;
    where there are none, they are too deep. -/
def valueWith (e : Extensions) (nested : Option Nested) (s : List Char) : Found Value :=
  match keyword "true" s with
  | some rest => some (.boolean true, rest)
  | none =>
  match keyword "false" s with
  | some rest => some (.boolean false, rest)
  | none =>
  match keyword "Some" s with
  | some rest => nested.bind fun readers => present e readers.optional rest
  | none =>
  match keyword "None" s with
  | some rest => some (.absent, rest)
  | none =>
  match Text.after? ['(', ')'] s with
  | some rest => some (.tuple none [], rest)
  | none =>
  match notFinite s with
  | some found => some found
  | none =>
  match identifier s with
  | some (name, rest) => named nested name rest
  | none => marked nested s

/-- The number of levels that values may use up. -/
def depthLimit : Nat := 128

/-- A value that may use up so many levels. -/
def value (e : Extensions) : Nat → List Char → Found Value
  | 0 => valueWith e none
  | 1 => valueWith e (some { optional := value e 0, item := fun _ => none })
  | depth + 2 =>
    valueWith e (some { optional := value e (depth + 1), item := value e depth })

/-- At every depth values are read alike, up to the readers for values in
    them. -/
theorem value_eq_valueWith (e : Extensions) (depth : Nat) :
    ∃ nested, value e depth = valueWith e nested := by
  match depth with
  | 0 => exact ⟨none, rfl⟩
  | 1 => exact ⟨_, rfl⟩
  | _ + 2 => exact ⟨_, rfl⟩

/-- Takes given texts off, skipping gaps after each. -/
def expectAll : List String → List Char → Option (List Char)
  | [], s => some s
  | text :: rest, s =>
    match Text.after? text.toList s with
    | some after => (skipGaps after).bind (expectAll rest)
    | none => none

/-- Switches on the extension of a name. -/
def Extensions.enable? (e : Extensions) (name : String) : Option Extensions :=
  if name = "unwrap_newtypes" then some { e with unwrapNewtypes := true }
  else if name = "implicit_some" then some { e with implicitSome := true }
  else if name = "unwrap_variant_newtypes" then some { e with unwrapVariantNewtypes := true }
  else none

/-- The names in a directive, at least one, up to its closing marks. -/
def enabled : Nat → Extensions → List Char → Found Extensions
  | 0, _, _ => none
  | fuel + 1, e, s =>
    match identifier s with
    | none => none
    | some (name, rest) =>
      match e.enable? name, skipGaps rest with
      | some e, some (',' :: rest) =>
        match skipGaps rest with
        | some (c :: rest) =>
          if isIdentifierChar c then enabled fuel e (c :: rest)
          else (expectAll [")", "]"] (c :: rest)).map (e, ·)
        | _ => none
      | some e, some rest => (expectAll [")", "]"] rest).map (e, ·)
      | _, _ => none

/-- The extensions that one directive switches on, besides others. -/
def directive (e : Extensions) (s : List Char) : Found Extensions :=
  (expectAll ["#", "!", "[", "enable", "("] s).bind fun rest => enabled rest.length e rest

/-- All directives at the start of a document. -/
def directives : Nat → Extensions → List Char → Found Extensions
  | 0, _, _ => none
  | fuel + 1, e, s =>
    match s with
    | '#' :: _ =>
      match directive e s with
      | some (e, rest) => directives fuel e rest
      | none => none
    | _ => some (e, s)

/-- The value of a document and its extensions. Nothing but gaps follows the
    value. -/
def read? (text : String) : Option Document :=
  match skipGaps text.toList with
  | none => none
  | some s =>
    match directives (s.length + 1) {} s with
    | none => none
    | some (extensions, s) =>
      match value extensions depthLimit s with
      | none => none
      | some (v, rest) =>
        if skipGaps rest = some [] then some { extensions := extensions, value := v } else none

end Ron

end SceneIndex
