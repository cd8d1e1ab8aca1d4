import SceneIndex.Text.Numeral
import SceneIndex.Text.Reading
import SceneIndex.Toml.Value

/-!
# Plain TOML scalars

Numbers, truth values, dates and times are written without quotes. Each is a
run of letters, digits and a few signs, and the run as a whole must have one
of the forms.

## Main definitions

* `Toml.Scalar.isTokenChar`: The characters of a run.
* `Toml.Scalar.integer?`: Whole numbers of 64 bits with a sign.
* `Toml.Scalar.isFloat`: Floating-point numbers.
* `Toml.Scalar.isMoment`: Dates, times, and dates with a time.
* `Toml.Scalar.read`: The scalar at the start of a text.
-/

namespace SceneIndex

namespace Toml

namespace Scalar

open Text

/-- The characters that a scalar without quotes is made of. -/
def isTokenChar (c : Char) : Bool :=
  c.isAlphanum || c == '+' || c == '-' || c == '_' || c == '.' || c == ':'

/-- Digits after which more digits may follow, each after an underscore or
    not; the digits without the underscores. -/
def moreDigits? (base : Nat) : List Char → Option (List Char)
  | [] => some []
  | '_' :: c :: rest =>
    if Numeral.isDigit base c then (moreDigits? base rest).map (c :: ·) else none
  | c :: rest =>
    if Numeral.isDigit base c then (moreDigits? base rest).map (c :: ·) else none

/-- Digits with single underscores between them, without the underscores. -/
def digits? (base : Nat) : List Char → Option (List Char)
  | [] => none
  | c :: rest =>
    if Numeral.isDigit base c then (moreDigits? base rest).map (c :: ·) else none

/-- Decimal digits without a leading zero, unless zero is all there is. -/
def plainDigits? (s : List Char) : Option (List Char) :=
  match digits? 10 s with
  | some ('0' :: _ :: _) => none
  | found => found

/-- The sign in front of a number, and the rest. -/
def sign : List Char → Bool × List Char
  | '-' :: rest => (true, rest)
  | '+' :: rest => (false, rest)
  | s => (false, s)

/-- A number within the range of 64 bits with a sign. -/
def inRange? (negative : Bool) (n : Nat) : Option Int :=
  if negative then (if n ≤ Numeral.signedLimit + 1 then some (-(n : Int)) else none)
  else if n ≤ Numeral.signedLimit then some n else none

/-- A whole number: decimal with an optional sign, or in base sixteen, eight
    or two after a mark. -/
def integer? (s : List Char) : Option Int :=
  match s with
  | '0' :: 'x' :: rest => based 16 rest
  | '0' :: 'o' :: rest => based 8 rest
  | '0' :: 'b' :: rest => based 2 rest
  | _ =>
    let (negative, rest) := sign s
    match plainDigits? rest with
    | some ds => (Numeral.read? 10 ds).bind (inRange? negative)
    | none => none
where
  /-- The number that digits of a base stand for. -/
  based (base : Nat) (s : List Char) : Option Int :=
    match digits? base s with
    | some ds => (Numeral.read? base ds).bind (inRange? false)
    | none => none

/-- Whether `n` times ten to the power `e` is rounded to infinity, as a number
    of double precision: it is not below the middle between the largest
    finite number and the next power of two. -/
def overflows (n : Nat) (e : Int) : Bool :=
  let bound := Nat.pow 2 1024 - Nat.pow 2 970
  let order := (Numeral.write 10 n).length + e
  if n = 0 ∨ order < 309 then false
  else if 309 < order then true
  else if 0 ≤ e then decide (bound ≤ n * Nat.pow 10 e.toNat)
  else decide (bound * Nat.pow 10 (-e).toNat ≤ n)

/-- The exponent of a number, with an optional sign. -/
def exponent? (s : List Char) : Option Int :=
  let (negative, rest) := sign s
  match digits? 10 rest with
  | some ds => (Numeral.read? 10 ds).map fun n => if negative then -(n : Int) else n
  | none => none

/-- Whether a text is a floating-point number: digits with a fraction, an
    exponent or both, or one of the words for infinity and for no number.
    Digits that stand for more than any finite number are refused, unless the
    sign is negative. -/
def isFloat (s : List Char) : Bool :=
  let (negative, unsigned) := sign s
  if unsigned = ['i', 'n', 'f'] ∨ unsigned = ['n', 'a', 'n'] then true
  else
    let isMark := fun c : Char => c == 'e' || c == 'E'
    let mantissa := unsigned.takeWhile (!isMark ·)
    let power := unsigned.dropWhile (!isMark ·)
    let whole := mantissa.takeWhile (· != '.')
    let part := mantissa.dropWhile (· != '.')
    if part.isEmpty ∧ power.isEmpty then false
    else
      let fraction := if part.isEmpty then some [] else digits? 10 (part.drop 1)
      let exponent := if power.isEmpty then some 0 else exponent? (power.drop 1)
      match plainDigits? whole, fraction, exponent with
      | some ws, some fs, some e =>
        match Numeral.read? 10 (ws ++ fs) with
        | some n => negative || !overflows n (e - fs.length)
        | none => false
      | _, _, _ => false

/-- The number of days of a month. -/
def daysIn (year month : Nat) : Nat :=
  if month = 2 then
    (if year % 4 = 0 ∧ (year % 100 ≠ 0 ∨ year % 400 = 0) then 29 else 28)
  else if month = 4 ∨ month = 6 ∨ month = 9 ∨ month = 11 then 30
  else 31

/-- Whether digits are a day of the calendar. -/
def isDay (year month day : List Char) : Bool :=
  match Numeral.read? 10 year, Numeral.read? 10 month, Numeral.read? 10 day with
  | some y, some m, some d => 1 ≤ m && m ≤ 12 && 1 ≤ d && d ≤ daysIn y m
  | _, _, _ => false

/-- Whether digits are a number up to a bound. -/
def isUpTo (bound : Nat) (s : List Char) : Bool :=
  match Numeral.read? 10 s with
  | some n => n ≤ bound
  | none => false

/-- Skips a time of day with whole or broken seconds; a leap second is
    allowed. -/
def skipTime? : List Char → Option (List Char)
  | h₁ :: h₂ :: ':' :: m₁ :: m₂ :: ':' :: s₁ :: s₂ :: rest =>
    if isUpTo 23 [h₁, h₂] && isUpTo 59 [m₁, m₂] && isUpTo 60 [s₁, s₂] then
      match rest with
      | '.' :: c :: rest =>
        if c.isDigit then some (rest.dropWhile Char.isDigit) else none
      | _ => some rest
    else none
  | _ => none

/-- Whether a text is the distance from universal time. -/
def isOffset : List Char → Bool
  | ['Z'] | ['z'] => true
  | [mark, h₁, h₂, ':', m₁, m₂] =>
    (mark == '+' || mark == '-') && isUpTo 23 [h₁, h₂] && isUpTo 59 [m₁, m₂]
  | _ => false

/-- Whether a text is a date, a time, or a date with a time and perhaps the
    distance from universal time. -/
def isMoment (s : List Char) : Bool :=
  match s with
  | y₁ :: y₂ :: y₃ :: y₄ :: '-' :: m₁ :: m₂ :: '-' :: d₁ :: d₂ :: rest =>
    isDay [y₁, y₂, y₃, y₄] [m₁, m₂] [d₁, d₂] &&
      match rest with
      | [] => true
      | mark :: rest =>
        (mark == 'T' || mark == 't' || mark == ' ') &&
          match skipTime? rest with
          | some offset => offset.isEmpty || isOffset offset
          | none => false
  | _ => skipTime? s == some []

/-- The scalar that a whole run stands for. -/
def ofToken? (token : List Char) : Option Value :=
  if token = ['t', 'r', 'u', 'e'] then some (.boolean true)
  else if token = ['f', 'a', 'l', 's', 'e'] then some (.boolean false)
  else
    match integer? token with
    | some n => some (.integer n)
    | none =>
      if isFloat token then some (.float (String.ofList token))
      else if isMoment token then some (.moment (String.ofList token))
      else none

/-- A run and what follows it. A date and a time may be separated by one
    blank, so a run of ten characters goes on after a blank if what follows
    begins like a time. -/
def token (s : List Char) : List Char × List Char :=
  let run := s.takeWhile isTokenChar
  let rest := s.dropWhile isTokenChar
  match rest with
  | ' ' :: h₁ :: h₂ :: ':' :: after =>
    if run.length = 10 ∧ h₁.isDigit ∧ h₂.isDigit then
      (run ++ ' ' :: h₁ :: h₂ :: ':' :: after.takeWhile isTokenChar,
       after.dropWhile isTokenChar)
    else (run, rest)
  | _ => (run, rest)

/-- Reads the scalar at the start of a text. -/
def read (s : List Char) : Found Value :=
  let (run, rest) := token s
  (ofToken? run).map (·, rest)

end Scalar

end Toml

end SceneIndex
