/-!
# White space

Flag texts are trimmed of white space before they are read, and white space
there means every character with the Unicode property White_Space, not only
the ASCII ones. The property is a table of ten ranges.

## Main definitions

* `isBlank`: The characters with the property.
* `trim`: A text without the blanks at its two ends.
-/

namespace SceneIndex

namespace Text

/-- The code points with the Unicode property White_Space, as ranges with
    both ends included, in ascending order. -/
def blankRanges : List (Nat × Nat) :=
  [(0x09, 0x0D), (0x20, 0x20), (0x85, 0x85), (0xA0, 0xA0), (0x1680, 0x1680),
   (0x2000, 0x200A), (0x2028, 0x2029), (0x202F, 0x202F), (0x205F, 0x205F),
   (0x3000, 0x3000)]

/-- Whether a character is white space. -/
def isBlank (c : Char) : Bool :=
  blankRanges.any fun range => range.1 ≤ c.toNat && c.toNat ≤ range.2

/-- The text without its leading blanks. -/
def trimStart (s : List Char) : List Char :=
  s.dropWhile isBlank

/-- The text without the blanks at either end. -/
def trim (s : List Char) : List Char :=
  (trimStart (trimStart s).reverse).reverse

end Text

end SceneIndex
