import SceneIndex.Flags.Basic
import SceneIndex.Text.Blank
import SceneIndex.Text.Numeral
import SceneIndex.Text.Outline

/-!
# The text of a set of flags

A set of flags is written as the names of its flags in the order of their
bits, separated by ` | `. All flags without a name follow as one hexadecimal
number. The empty set has the empty text.

Three readers share the grammar and differ only in what they make of a
hexadecimal piece: the full reader takes it, the strict one refuses it, and
the truncating one drops the bits that have no name.

## Main definitions

* `Flags.text`: The full text of a set.
* `Flags.strictText`, `Flags.knownText`: The text of its named flags.
* `Flags.ReadError`: The three ways in which a text can fail to be a set.
* `Flags.read`, `Flags.readStrict`, `Flags.readKnown`: The readers.
-/

namespace SceneIndex

namespace Flags

open Text

/-- Pieces of text joined by a bar between blanks. -/
def joinPieces (pieces : List (List Char)) : List Char :=
  [' ', '|', ' '].intercalate pieces

/-- The names of the flags that have one. -/
def namePieces (a : Flags) : List (List Char) :=
  a.flags.map fun flag => flag.name.toList

/-- The flags without a name as one hexadecimal piece, if there are any. -/
def restPieces (a : Flags) : List (List Char) :=
  if a.unnamed.isEmpty then [] else [['0', 'x'] ++ Numeral.write 16 a.unnamed.toNat]

/-- The characters of the full text of a set. -/
def write (a : Flags) : List Char :=
  joinPieces (a.namePieces ++ a.restPieces)

/-- The characters of the names alone. -/
def writeStrict (a : Flags) : List Char :=
  joinPieces a.namePieces

/-- The full text of a set. -/
def text (a : Flags) : String := String.ofList a.write

/-- The text of the names alone: flags without a name are left out. -/
def strictText (a : Flags) : String := String.ofList a.writeStrict

/-- The full text of the named flags. -/
def knownText (a : Flags) : String := a.truncate.text

/-- The debug text of a set; the empty set shows as the number zero. -/
def outline (a : Flags) : Outline :=
  .tuple "ItemKeyFlags" [.leaf (if a.isEmpty then "0x0" else a.text)]

/-- Why a text is not a set of flags. -/
inductive ReadError where
  | emptyPiece
  | badHexadecimal
  | unknownName
  deriving DecidableEq, Repr

/-- The message for a failed reading. -/
def ReadError.message : ReadError → String
  | emptyPiece => "encountered empty flag"
  | badHexadecimal => "invalid hex flag"
  | unknownName => "unrecognized named flag"

/-- The word that hexadecimal digits stand for, after an optional plus sign. -/
def hexWord? (s : List Char) : Option Flags :=
  let digits := match s with
    | '+' :: rest => rest
    | _ => s
  match Numeral.read? 16 digits with
  | some n => if n < UInt32.size then some ⟨BitVec.ofNat 32 n⟩ else none
  | none => none

/-- Reads one trimmed piece; `hex` decides about what follows `0x`. -/
def readPiece (hex : List Char → Except ReadError Flags) (piece : List Char) :
    Except ReadError Flags :=
  match piece with
  | [] => .error .emptyPiece
  | '0' :: 'x' :: digits => hex digits
  | _ =>
    match Flag.ofName? (String.ofList piece) with
    | some flag => .ok (single flag)
    | none => .error .unknownName

/-- Reads the pieces in turn and unites them with what was read before; the
    first piece that fails decides the error. -/
def readPieces (hex : List Char → Except ReadError Flags) :
    Flags → List (List Char) → Except ReadError Flags
  | a, [] => .ok a
  | a, piece :: rest =>
    match readPiece hex (trim piece) with
    | .ok b => readPieces hex (a.union b) rest
    | .error e => .error e

/-- Reads a text: a blank one is the empty set, any other is cut at its bars. -/
def readWith (hex : List Char → Except ReadError Flags) (s : List Char) :
    Except ReadError Flags :=
  let body := trim s
  if body.isEmpty then .ok empty else readPieces hex empty (body.splitOn '|')

/-- A hexadecimal piece as the full reader takes it. -/
def hexPiece (digits : List Char) : Except ReadError Flags :=
  match hexWord? digits with
  | some a => .ok a
  | none => .error .badHexadecimal

/-- The full reader: names and hexadecimal numbers. -/
def readChars (s : List Char) : Except ReadError Flags :=
  readWith hexPiece s

/-- The strict reader: names only. -/
def readStrictChars (s : List Char) : Except ReadError Flags :=
  readWith (fun _ => .error .badHexadecimal) s

/-- The truncating reader: bits without a name are dropped. -/
def readKnownChars (s : List Char) : Except ReadError Flags :=
  (readChars s).map truncate

/-- Reads a text with names and hexadecimal numbers. -/
def read (text : String) : Except ReadError Flags := readChars text.toList

/-- Reads a text of names alone. -/
def readStrict (text : String) : Except ReadError Flags := readStrictChars text.toList

/-- Reads a text and drops the bits that have no name. -/
def readKnown (text : String) : Except ReadError Flags := readKnownChars text.toList

end Flags

end SceneIndex
