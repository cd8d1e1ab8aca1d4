/-!
# RON values

An object notation with records, tuples, lists, maps and options. Records and
tuples may carry a name, and a name alone is a value too. Numbers other than
whole ones without a sign are kept as they are written: nothing here asks for
more than that they are well formed.

## Main definitions

* `Ron.Value`: A value of any kind.
* `Ron.Extensions`: The extensions that a document switches on.
* `Ron.Document`: A value and the extensions in force.
-/

namespace SceneIndex

namespace Ron

/-- A value of a document. -/
inductive Value where
  | boolean (value : Bool)
  /-- A whole number of 64 bits, written without a sign. -/
  | whole (number : Nat)
  /-- Any other number. -/
  | number (written : String)
  | text (content : String)
  | letter (char : Char)
  /-- The option without a value. -/
  | absent
  /-- The option with a value. -/
  | present (value : Value)
  | list (items : List Value)
  | map (entries : List (Value × Value))
  | tuple (name : Option String) (items : List Value)
  | record (name : Option String) (fields : List (String × Value))
  /-- A name alone. -/
  | word (name : String)
  deriving Repr, Inhabited

/-- The extensions that a document may switch on. -/
structure Extensions where
  /-- A wrapper around one value is written as that value. -/
  unwrapNewtypes : Bool := false
  /-- An option with a value is written as that value. -/
  implicitSome : Bool := false
  /-- A variant around one record is written with the fields of the record. -/
  unwrapVariantNewtypes : Bool := false
  deriving DecidableEq, Repr, Inhabited

/-- A value and the extensions in force. -/
structure Document where
  extensions : Extensions := {}
  value : Value
  deriving Repr, Inhabited

end Ron

end SceneIndex
