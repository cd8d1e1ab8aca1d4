import SceneIndex.Text.Reading

/-!
# Runs and lists at the front of a text

Two things that readers of every format do. They take a run of characters of
one kind off a text, up to the first that is of another kind, and they go
through items between commas.

The loop over items has fuel. `Listed` says what it does without speaking of
it: it follows the items one by one to the closing mark. A loop that has more
fuel than there are items then reads them all (`separated_of_listed`), and a
text is never shorter than the number of the items in it
(`length_le_flatMap`).

## Main definitions

* `Listed`: Items between commas, read one by one.

## Theorems

* `takeWhile_run`, `dropWhile_run`: A run and what stands after it.
* `separated_of_listed`: The loop reads what is listed.
* `length_le_flatMap`: There are no more items than characters.
-/

namespace SceneIndex

namespace Text

section Runs

variable {p : Char → Bool} {run : List Char} {mark : Char}

theorem takeWhile_run (hrun : ∀ c ∈ run, p c = true) (hmark : p mark = false)
    (rest : List Char) : (run ++ mark :: rest).takeWhile p = run := by
  have hstop : ¬ p mark = true := by rw [hmark]; decide
  rw [List.takeWhile_append_of_pos hrun, List.takeWhile_cons_of_neg hstop, List.append_nil]

theorem dropWhile_run (hrun : ∀ c ∈ run, p c = true) (hmark : p mark = false)
    (rest : List Char) : (run ++ mark :: rest).dropWhile p = mark :: rest := by
  have hstop : ¬ p mark = true := by rw [hmark]; decide
  rw [List.dropWhile_append_of_pos hrun, List.dropWhile_cons_of_neg hstop]

end Runs

section Lists

variable {α β : Type} {skipGaps : List Char → Option (List Char)} {close : Char}
  {item : List Char → Found α}

variable (skipGaps close item) in
/-- Items between commas up to a closing mark, read one by one: the text, the
    items, and what follows the mark. -/
inductive Listed : List Char → List α → List Char → Prop
  | closed {s rest : List Char} (hclose : skipGaps s = some (close :: rest)) : Listed s [] rest
  | last {s after rest : List Char} {c : Char} {cs : List Char} {a : α}
      (hstart : skipGaps s = some (c :: cs)) (hc : c ≠ close)
      (hitem : item (c :: cs) = some (a, after))
      (hclose : skipGaps after = some (close :: rest)) : Listed s [a] rest
  | next {s after later rest : List Char} {c : Char} {cs : List Char} {a : α} {others : List α}
      (hstart : skipGaps s = some (c :: cs)) (hc : c ≠ close)
      (hitem : item (c :: cs) = some (a, after)) (hcomma : skipGaps after = some (',' :: later))
      (hothers : Listed later others rest) : Listed s (a :: others) rest

/-- The loop over items reads what is listed, if it has more fuel than there
    are items. -/
theorem separated_of_listed {s rest : List Char} {items : List α} (hmark : close ≠ ',')
    (h : Listed skipGaps close item s items rest) {fuel : Nat} (hfuel : items.length < fuel) :
    separated skipGaps close item fuel s = some (items, rest) := by
  induction h generalizing fuel with
  | closed hclose =>
      rcases Nat.exists_eq_add_one_of_ne_zero (Nat.ne_of_gt hfuel) with ⟨fuel, rfl⟩
      rw [separated, hclose]
      exact if_pos rfl
  | last hstart hc hitem hclose =>
      rcases Nat.exists_eq_add_one_of_ne_zero (Nat.ne_zero_of_lt hfuel) with ⟨fuel, rfl⟩
      rw [separated, hstart]
      simp only [if_neg hc, hitem, hclose, if_neg hmark, if_true]
  | next hstart hc hitem hcomma _ ih =>
      rcases Nat.exists_eq_add_one_of_ne_zero (Nat.ne_zero_of_lt hfuel) with ⟨fuel, rfl⟩
      have hothers := ih (Nat.lt_of_add_lt_add_right hfuel)
      rw [separated, hstart]
      simp only [if_neg hc, hitem, hcomma, if_true, hothers]
      rfl

-- Gaps in front of a text make no difference.
theorem Listed.of_skipGaps {s s' rest : List Char} {items : List α}
    (h : Listed skipGaps close item s items rest) (hgaps : skipGaps s' = skipGaps s) :
    Listed skipGaps close item s' items rest := by
  cases h with
  | closed hclose => exact Listed.closed (hgaps.trans hclose)
  | last hstart hc hitem hclose => exact Listed.last (hgaps.trans hstart) hc hitem hclose
  | next hstart hc hitem hcomma hothers =>
      exact Listed.next (hgaps.trans hstart) hc hitem hcomma hothers

theorem length_le_flatMap {text : β → List Char} (htext : ∀ b, text b ≠ []) (items : List β) :
    items.length ≤ (items.flatMap text).length := by
  induction items with
  | nil => exact Nat.le_refl 0
  | cons b others ih =>
      have hpos : 0 < (text b).length := List.length_pos_iff.mpr (htext b)
      rw [List.flatMap_cons, List.length_append, List.length_cons]
      omega

end Lists

end Text

end SceneIndex
