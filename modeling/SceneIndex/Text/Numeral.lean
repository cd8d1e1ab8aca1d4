/-!
# Numerals

Whole numbers as texts of digits, in any base up to sixteen. Writing uses
lower-case digits and no leading zeros; reading takes digits of either case.

## Main definitions

* `Numeral.digit?`: The value of one digit in a base.
* `Numeral.read?`: The number a text of digits stands for.
* `Numeral.write`: The digits of a number.
* `Numeral.decimal`, `Numeral.hex`, `Numeral.binary`: The three bases that
  are printed.

## Theorems

* `Numeral.read?_write`: What is written reads back.
-/

namespace SceneIndex

namespace Text

namespace Numeral

/-- The value of a character as a hexadecimal digit, in either letter case. -/
def hexValue? (c : Char) : Option Nat :=
  if '0' ≤ c ∧ c ≤ '9' then some (c.toNat - '0'.toNat)
  else if 'a' ≤ c ∧ c ≤ 'f' then some (c.toNat - 'a'.toNat + 10)
  else if 'A' ≤ c ∧ c ≤ 'F' then some (c.toNat - 'A'.toNat + 10)
  else none

/-- The value of a digit of a base up to sixteen, in either letter case. -/
def digit? (base : Nat) (c : Char) : Option Nat :=
  (hexValue? c).filter (· < base)

/-- Whether a character is a digit of the base. -/
def isDigit (base : Nat) (c : Char) : Bool :=
  (digit? base c).isSome

/-- The number that a text of digits stands for, continuing from the number
    that the digits before it stand for. -/
def readFrom? (base : Nat) : Nat → List Char → Option Nat
  | n, [] => some n
  | n, c :: rest =>
    match digit? base c with
    | some d => readFrom? base (base * n + d) rest
    | none => none

/-- The number that a text of digits stands for. A text with no digit, or
    with a character that is none, stands for no number. -/
def read? (base : Nat) (s : List Char) : Option Nat :=
  if s.isEmpty then none else readFrom? base 0 s

/-- The lower-case digit for a value below sixteen. -/
def digit (value : Nat) : Char :=
  ['0', '1', '2', '3', '4', '5', '6', '7', '8', '9', 'a', 'b', 'c', 'd', 'e', 'f'].getD value '0'

/-- The digits of a number, most significant first and without leading zeros;
    zero has the one digit zero. -/
def write (base n : Nat) : List Char :=
  if n < base ∨ base < 2 then [digit n]
  else write base (n / base) ++ [digit (n % base)]
termination_by n
decreasing_by exact Nat.div_lt_self (by omega) (by omega)

/-- The largest number of 64 bits with a sign. -/
def signedLimit : Nat := 0x7fffffffffffffff

/-- A number in base ten. -/
def decimal (n : Nat) : String :=
  String.ofList (write 10 n)

/-- A number in base sixteen, in lower case. -/
def hex (n : Nat) : String :=
  String.ofList (write 16 n)

/-- A number in base two. -/
def binary (n : Nat) : String :=
  String.ofList (write 2 n)

/-- A written digit has the value it was written for. -/
theorem digit?_digit {base value : Nat} (hbase : base ≤ 16) (hvalue : value < base) :
    digit? base (digit value) = some value := by
  have table : ∀ v < 16, hexValue? (digit v) = some v := by decide
  simp only [digit?, table value (by omega), Option.filter, hvalue, decide_true, if_true]

/-- Reading a text and one more digit multiplies by the base and adds. -/
theorem readFrom?_append (base n : Nat) (s t : List Char) :
    readFrom? base n (s ++ t) = (readFrom? base n s).bind (readFrom? base · t) := by
  induction s generalizing n with
  | nil => rfl
  | cons c rest ih =>
    simp only [List.cons_append, readFrom?]
    cases digit? base c with
    | none => rfl
    | some d => exact ih (base * n + d)

/-- A written number has at least one digit. -/
theorem write_ne_nil (base n : Nat) : write base n ≠ [] := by
  rw [write]
  split <;> simp

/-- The digits of a number stand for that number, whatever digits follow. -/
theorem readFrom?_write {base : Nat} (hlow : 2 ≤ base) (hhigh : base ≤ 16) (n : Nat) :
    readFrom? base 0 (write base n) = some n := by
  rw [write]
  by_cases hn : n < base
  · rw [if_pos (Or.inl hn)]
    simp only [readFrom?, digit?_digit hhigh hn, Nat.mul_zero, Nat.zero_add]
  · rw [if_neg (by omega), readFrom?_append, readFrom?_write hlow hhigh (n / base)]
    -- The last digit restores the remainder that the division left out.
    simp only [Option.bind_some, readFrom?, digit?_digit hhigh (Nat.mod_lt n (by omega)),
      Nat.div_add_mod]
termination_by n
decreasing_by exact Nat.div_lt_self (by omega) (by omega)

/-- What is written reads back. -/
theorem read?_write {base : Nat} (hlow : 2 ≤ base) (hhigh : base ≤ 16) (n : Nat) :
    read? base (write base n) = some n := by
  rw [read?, if_neg (by simp [write_ne_nil]), readFrom?_write hlow hhigh]

end Numeral

end Text

end SceneIndex
