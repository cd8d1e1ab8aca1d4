/-!
# Reading texts

A reader takes what it knows off the front of a text and leaves the rest to
others. What it gives is a result together with the rest, or nothing at all.

Lists are read the same way in every format: items between commas, gaps
around each, and a comma after the last item if one likes. A format only says
what a gap is and which mark closes the list.

## Main definitions

* `Found`: A result and the text that follows it.
* `after?`: What follows a given text, if it stands at the front.
* `separated`: Items between commas up to a closing mark.
-/

namespace SceneIndex

namespace Text

/-- What a reader gives: a result and the text that follows it. -/
abbrev Found (α : Type) := Option (α × List Char)

/-- Makes something of the result and leaves the rest as it is. -/
def Found.mapResult {α β : Type} (f : α → β) (found : Found α) : Found β :=
  found.map fun (a, rest) => (f a, rest)

/-- The double quote. -/
def doubleQuote : Char := '\x22'

/-- The single quote. -/
def singleQuote : Char := '\x27'

/-- What follows a given text at the front of another. -/
def after? : List Char → List Char → Option (List Char)
  | [], s => some s
  | _ :: _, [] => none
  | a :: front, c :: s => if a = c then after? front s else none

/-- Items between commas, after the opening mark or a comma, up to the closing
    mark. A comma may follow the last item, but none stands by itself. The
    fuel bounds the number of items. -/
def separated {α : Type} (skipGaps : List Char → Option (List Char)) (close : Char)
    (item : List Char → Found α) : Nat → List Char → Found (List α)
  | 0, _ => none
  | fuel + 1, s =>
    match skipGaps s with
    | none => none
    | some [] => none
    | some (c :: rest) =>
      if c = close then some ([], rest)
      else
        match item (c :: rest) with
        | none => none
        | some (a, rest) =>
          match skipGaps rest with
          | none => none
          | some [] => none
          | some (d :: rest) =>
            if d = ',' then
              (separated skipGaps close item fuel rest).mapResult (a :: ·)
            else if d = close then some ([a], rest)
            else none

end Text

end SceneIndex
