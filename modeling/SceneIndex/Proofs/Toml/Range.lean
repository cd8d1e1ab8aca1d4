import SceneIndex.Toml.Document

/-!
# What values the reader of TOML makes

A whole number in a TOML document is one of 64 bits with a sign. The reader
refuses others where it meets them, in whatever base they are written
(`value_inRange`).

## Main definitions

* `Value.InRange`: The value is no number that is too large.
* `Table.InRange`: No entry is.

## Theorems

* `value_cases`: The four sorts of values.
* `value_inRange`: The reader refuses numbers that are too large.
-/

namespace SceneIndex

namespace Toml

open Text

/-- The value is not a whole number above the range of 64 bits with a sign. -/
def Value.InRange (v : Value) : Prop :=
  ∀ n, v = .integer n → n ≤ Numeral.signedLimit

/-- No entry of the table is such a number. Tables and arrays inside are not
    looked at. -/
def Table.InRange (t : Table) : Prop :=
  ∀ entry ∈ t, entry.2.InRange

section Values

theorem le_of_inRange? {negative : Bool} {n : Nat} {k : Int}
    (h : Scalar.inRange? negative n = some k) : k ≤ Numeral.signedLimit := by
  unfold Scalar.inRange? at h
  cases negative with
  | true =>
      simp only [if_true] at h
      split at h
      · have hk : -(n : Int) = k := Option.some.inj h
        omega
      · cases h
  | false =>
      simp only [Bool.false_eq_true, if_false] at h
      split at h
      · rename_i hn
        have hk : (n : Int) = k := Option.some.inj h
        omega
      · cases h

-- In every base the digits are read first, and the range is checked then.
theorem le_of_based {base : Nat} {s : List Char} {k : Int}
    (h : Scalar.integer?.based base s = some k) : k ≤ Numeral.signedLimit := by
  unfold Scalar.integer?.based at h
  split at h
  · obtain ⟨n, _, hn⟩ := Option.bind_eq_some_iff.mp h
    exact le_of_inRange? hn
  · cases h

theorem le_of_integer? {s : List Char} {k : Int} (h : Scalar.integer? s = some k) :
    k ≤ Numeral.signedLimit := by
  unfold Scalar.integer? at h
  split at h
  · exact le_of_based h
  · exact le_of_based h
  · exact le_of_based h
  · simp only at h
    split at h
    · obtain ⟨n, _, hn⟩ := Option.bind_eq_some_iff.mp h
      exact le_of_inRange? hn
    · cases h

-- A scalar is read as a whole number, or it is none.
theorem ofToken?_cases {token : List Char} {v : Value} (h : Scalar.ofToken? token = some v) :
    (∃ k, Scalar.integer? token = some k ∧ v = .integer k) ∨ ∀ k, v ≠ .integer k := by
  unfold Scalar.ofToken? at h
  split at h
  · rw [← Option.some.inj h]
    exact Or.inr fun k => Value.noConfusion
  · split at h
    · rw [← Option.some.inj h]
      exact Or.inr fun k => Value.noConfusion
    · split at h
      · rename_i k hk
        exact Or.inl ⟨k, hk, (Option.some.inj h).symm⟩
      · split at h
        · rw [← Option.some.inj h]
          exact Or.inr fun k => Value.noConfusion
        · split at h
          · rw [← Option.some.inj h]
            exact Or.inr fun k => Value.noConfusion
          · cases h

-- What a reader makes of the result of another.
theorem exists_of_mapResult {α : Type} {make : α → Value} {found : Found α} {v : Value}
    {rest : List Char} (h : found.mapResult make = some (v, rest)) : ∃ a, v = make a := by
  obtain ⟨⟨a, after⟩, _, heq⟩ := Option.map_eq_some_iff.mp h
  exact ⟨a, (Prod.mk.inj heq).1.symm⟩

theorem valueWith_cases {nested : Option (List Char → Found Value)} {s rest : List Char}
    {v : Value} (h : valueWith nested s = some (v, rest)) :
    (∃ content, v = .text content) ∨ (∃ items, v = .array false items) ∨
      (∃ entries, v = .table .braces entries) ∨ ∃ token, Scalar.ofToken? token = some v := by
  unfold valueWith at h
  split at h
  · cases h
  · split at h
    · exact Or.inl (exists_of_mapResult h)
    · split at h
      · split at h
        · exact Or.inr (Or.inl (exists_of_mapResult h))
        · cases h
      · split at h
        · split at h
          · exact Or.inr (Or.inr (Or.inl (exists_of_mapResult h)))
          · cases h
        · obtain ⟨scalar, hscalar, heq⟩ := Option.map_eq_some_iff.mp h
          rw [(Prod.mk.inj heq).1] at hscalar
          exact Or.inr (Or.inr (Or.inr ⟨_, hscalar⟩))

/-- What is written as a value is a text, an array in brackets, a table in
    braces, or a run that is a scalar. -/
theorem value_cases {depth : Nat} {s rest : List Char} {v : Value}
    (h : value depth s = some (v, rest)) :
    (∃ content, v = .text content) ∨ (∃ items, v = .array false items) ∨
      (∃ entries, v = .table .braces entries) ∨ ∃ token, Scalar.ofToken? token = some v := by
  obtain ⟨nested, hvalue⟩ := value_eq_valueWith depth
  rw [hvalue] at h
  exact valueWith_cases h

/-- The reader for values refuses numbers that are too large. -/
theorem value_inRange {depth : Nat} {s rest : List Char} {v : Value}
    (h : value depth s = some (v, rest)) : v.InRange := by
  rintro n rfl
  rcases value_cases h with ⟨content, heq⟩ | ⟨items, heq⟩ | ⟨entries, heq⟩ | ⟨token, htoken⟩
  · cases heq
  · cases heq
  · cases heq
  · rcases ofToken?_cases htoken with ⟨k, hk, heq⟩ | hother
    · rw [Value.integer.inj heq]
      exact le_of_integer? hk
    · exact absurd rfl (hother n)

end Values

end Toml

end SceneIndex
