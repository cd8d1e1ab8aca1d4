import SceneIndex.Text.Numeral

/-!
# Characters by number

Quoted texts name characters by their code points, in hexadecimal digits.

## Main definitions

* `ofCodePoint?`: The character of a code point.
* `ofHex?`: The character of hexadecimal digits.
-/

namespace SceneIndex

namespace Text

/-- The character of a code point. Surrogates and numbers past the last code
    point are no characters. -/
def ofCodePoint? (n : Nat) : Option Char :=
  if n.isValidChar then some (Char.ofNat n) else none

/-- The character that hexadecimal digits name. -/
def ofHex? (digits : List Char) : Option Char :=
  (Numeral.read? 16 digits).bind ofCodePoint?

end Text

end SceneIndex
