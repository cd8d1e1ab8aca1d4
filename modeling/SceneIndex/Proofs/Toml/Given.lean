import SceneIndex.Proofs.Toml.Said

/-!
# What the text of a TOML document gives

A document in which a key is there twice has no table, and neither has one with a
number above 64 bits with a sign. It is clear all the same what the text gives:
the entries of the root table one after the other, the second one of a key too,
and numbers of any size.

The loop over lines is the same, with another reader for a line. That reader is
only asked where the first one refuses the line, so a document that is read gives
what it is read as (`given?_of_read?`).

## Main definitions

* `wholeNumber?`: A whole number of any size.
* `Document.again`: The document with an entry that its root table may not have.
* `given?`: The entries that a text gives to the root table.

## Theorems

* `linesWith_mono`: A loop with another reader that reads the same lines and more.
* `given?_of_read?`: What a document is read as is what its text gives.
-/

namespace SceneIndex

namespace Toml

open Text (Found Numeral.read?)

/-- A whole number of any size: decimal with an optional sign, or in base
    sixteen, eight or two after a mark. -/
def wholeNumber? (s : List Char) : Option Int :=
  match s with
  | '0' :: 'x' :: rest => (Scalar.digits? 16 rest).bind (natural? 16)
  | '0' :: 'o' :: rest => (Scalar.digits? 8 rest).bind (natural? 8)
  | '0' :: 'b' :: rest => (Scalar.digits? 2 rest).bind (natural? 2)
  | _ =>
    let (negative, rest) := Scalar.sign s
    ((Scalar.plainDigits? rest).bind (natural? 10)).map fun n => if negative then -n else n
where
  /-- The number that digits of a base stand for. -/
  natural? (base : Nat) (digits : List Char) : Option Int :=
    (Numeral.read? base digits).map Int.ofNat

/-- A line that gives the root table a whole number of any size. -/
def oversized (s : List Char) : Found Statement :=
  match keyPath s with
  | some (([], key), '=' :: rest) =>
    let (run, behind) := Scalar.token (skipSpace rest)
    (wholeNumber? run).map fun n => (.entry [] key (.integer n), behind)
  | _ => none

/-- The document with an entry of the root table at its end, whether there is
    one under the key or not. -/
def Document.again (d : Document) : Statement → Option Document
  | .entry [] key v => if d.current.isEmpty then some ⟨d.root ++ [(key, v)], []⟩ else none
  | .table [] key => some ⟨d.root ++ [(key, .table .header [])], [key]⟩
  | .element [] key => some ⟨d.root ++ [(key, .array true [.table .header []])], [key]⟩
  | _ => none

/-- A line that is not blank, or what it gives where it is refused. -/
def givenLine (d : Document) (s : List Char) : Found Document :=
  match statement d s with
  | some found => some found
  | none =>
    ((Statement.read s).or (oversized s)).bind fun (st, rest) => (d.again st).map (·, rest)

/-- The entries that a text gives to the root table. -/
def given? (text : String) : Option Table := readWith? givenLine text

section Mono

variable {line line' : Document → List Char → Found Document}
  (hline : ∀ d s found, line d s = some found → line' d s = some found)

include hline

/-- What a loop over lines comes to, it comes to with any reader that reads the
    same lines and more. -/
theorem linesWith_mono {fuel : Nat} {d final : Document} {s : List Char}
    (h : linesWith line fuel d s = some final) : linesWith line' fuel d s = some final := by
  induction fuel generalizing d s with
  | zero => cases h
  | succ fuel ih =>
      unfold linesWith at h ⊢
      split at h
      · exact h
      · exact ih h
      · split at h
        · exact ih h
        · cases h
      · split at h
        · cases h
        · rename_i hfound
          split at h
          · rename_i hend
            simp only [hline _ _ _ hfound, hend]
            exact ih h
          · cases h

theorem readWith?_mono {text : String} {t : Table} (h : readWith? line text = some t) :
    readWith? line' text = some t := by
  unfold readWith? at h ⊢
  split at h
  · obtain ⟨final, hfinal, rfl⟩ := Option.map_eq_some_iff.mp h
    rw [linesWith_mono hline hfinal, Option.map_some]
  · cases h

end Mono

/-- What a document is read as is what its text gives. -/
theorem given?_of_read? {text : String} {t : Table} (h : read? text = some t) :
    given? text = some t := by
  refine readWith?_mono (fun d s found hfound => ?_) h
  unfold givenLine
  rw [hfound]

end Toml

end SceneIndex
