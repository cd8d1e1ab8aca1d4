import SceneIndex.Proofs.Flags.Text
import SceneIndex.Proofs.Ron.Words
import SceneIndex.Proofs.Toml.Words
import SceneIndex.Sheet

/-!
# Plain sheets

Not every sheet can be written as it stands in both formats. A plain one can. Its
names are words that neither format would put in quotes, none of them is there
twice, and no text needs an escape.

## Main definitions

* `Sheet.Plain`: The sheet can be written as it stands.
* `Sheet.FitsToml`: Its numbers are in the range of TOML.

## Theorems

* `isBareKey_of_isPlainName`: A word of the one format is a key of the other.
-/

namespace SceneIndex

open Text

/-- A word that is a name in RON is a key in TOML. -/
theorem isBareKey_of_isPlainName {name : List Char} (h : Ron.IsPlainName name) :
    Toml.IsBareKey name where
  ne_nil := by
    obtain ⟨c, cs, rfl, _⟩ := h.exists_cons
    exact List.cons_ne_nil c cs
  all_bare := by
    refine List.all_eq_true.mpr fun c hc => ?_
    have hchar := List.all_eq_true.mp h.chars c hc
    unfold Ron.isIdentifierChar at hchar
    unfold Toml.isBareChar
    rw [hchar, Bool.true_or]

namespace Sheet

/-- The row has plain names, each of them once, and texts that need no escapes. -/
structure PlainRow (row : List (String × String)) : Prop where
  ne_nil : row ≠ []
  name : ∀ entry ∈ row, Ron.IsPlainName entry.1.toList
  nodup : (row.map Prod.fst).Nodup
  text : ∀ entry ∈ row, ∀ c ∈ entry.2.toList, Flags.isQuotable c = true

/-- The sheet has plain names, each of them once, and plain rows. -/
structure Plain (s : Sheet) : Prop where
  name : ∀ entry ∈ s.numbers, Ron.IsPlainName entry.1.toList
  list : Ron.IsPlainName s.list.toList
  nodup : (s.numbers.map Prod.fst ++ [s.list]).Nodup
  row : ∀ row ∈ s.rows, PlainRow row

/-- All numbers are in the range of 64 bits with a sign. -/
def FitsToml (s : Sheet) : Prop := ∀ entry ∈ s.numbers, entry.2.toNat ≤ Numeral.signedLimit

instance (s : Sheet) : Decidable s.FitsToml :=
  inferInstanceAs (Decidable (∀ entry ∈ s.numbers, _))

end Sheet

end SceneIndex
