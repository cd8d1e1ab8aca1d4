import Mathlib.Data.List.TakeWhile
import SceneIndex.Text.Blank

/-!
# What trimming leaves

Trimming is defined by what it takes away. What it leaves is easier to say of
a text that is known to begin and end with something else than a blank: put
any blanks around it, and trimming gives it back.

## Main definitions

* `Text.IsBare`: The text begins and ends with a character that is not blank.

## Theorems

* `IsBare.append`: Two bare texts with anything between them.
* `trim_padded`: Blanks around a bare text are trimmed off.
* `trim_of_isBare`: There is nothing to trim from a bare text.
* `isBare_of_forall`: A text without blanks is bare, unless it is empty.
* `trim_append_left`, `trim_append_right`: More blanks make no difference.
* `exists_padding`: Every text is what trimming leaves of it, between blanks.
* `trim_ne_nil`: Trimming leaves something of a text that is not all blank.
-/

namespace SceneIndex

namespace Text

/-- The text begins and ends with a character that is not blank. -/
structure IsBare (s : List Char) : Prop where
  front : ∃ c, s.head? = some c ∧ isBlank c = false
  back : ∃ c, s.getLast? = some c ∧ isBlank c = false

theorem IsBare.ne_nil {s : List Char} (h : IsBare s) : s ≠ [] := by
  rintro rfl
  rcases h.front with ⟨c, hc, _⟩
  simp only [List.head?_nil, reduceCtorEq] at hc

theorem IsBare.append {s t : List Char} (hs : IsBare s) (ht : IsBare t) (between : List Char) :
    IsBare (s ++ between ++ t) := by
  rcases hs.front with ⟨c, hc, hblank⟩
  rcases ht.back with ⟨d, hd, hblank'⟩
  refine ⟨⟨c, ?_, hblank⟩, ⟨d, ?_, hblank'⟩⟩
  · rw [List.append_assoc, List.head?_append, hc]
    rfl
  · rw [List.getLast?_append, hd]
    rfl

theorem IsBare.reverse {s : List Char} (h : IsBare s) : IsBare s.reverse := by
  rcases h with ⟨hfront, hback⟩
  constructor
  · rw [List.head?_reverse]
    exact hback
  · rw [List.getLast?_reverse]
    exact hfront

-- A text without blanks is bare, unless it is empty.
theorem isBare_of_forall {s : List Char} (hne : s ≠ []) (h : ∀ c ∈ s, isBlank c = false) :
    IsBare s :=
  ⟨⟨s.head hne, List.head?_eq_some_head hne, h _ (List.head_mem hne)⟩,
    ⟨s.getLast hne, List.getLast?_eq_some_getLast hne, h _ (List.getLast_mem hne)⟩⟩

theorem trimStart_padded {s : List Char} (hs : IsBare s) (before after : List Char)
    (hbefore : ∀ c ∈ before, isBlank c = true) :
    trimStart (before ++ (s ++ after)) = s ++ after := by
  rcases hs.front with ⟨c, hc, hblank⟩
  rcases List.head?_eq_some_iff.mp hc with ⟨rest, rfl⟩
  unfold trimStart
  rw [List.dropWhile_append_of_pos hbefore, List.cons_append,
    List.dropWhile_cons_of_neg (by rw [hblank]; exact Bool.false_ne_true)]

/-- Blanks around a bare text are trimmed off, and nothing else is. -/
theorem trim_padded {s : List Char} (hs : IsBare s) (before after : List Char)
    (hbefore : ∀ c ∈ before, isBlank c = true) (hafter : ∀ c ∈ after, isBlank c = true) :
    trim (before ++ (s ++ after)) = s := by
  have hback : ∀ c ∈ after.reverse, isBlank c = true := by
    intro c hc
    exact hafter c (List.mem_reverse.mp hc)
  have hlast := trimStart_padded hs.reverse after.reverse [] hback
  rw [List.append_nil] at hlast
  unfold trim
  rw [trimStart_padded hs before after hbefore, List.reverse_append, hlast, List.reverse_reverse]

theorem trim_of_isBare {s : List Char} (hs : IsBare s) : trim s = s := by
  have hnone : ∀ c ∈ ([] : List Char), isBlank c = true := by
    intro c hc
    exact absurd hc List.not_mem_nil
  have htrim := trim_padded hs [] [] hnone hnone
  rw [List.nil_append, List.append_nil] at htrim
  exact htrim

theorem trimStart_append_left {before : List Char} (hbefore : ∀ c ∈ before, isBlank c = true)
    (s : List Char) : trimStart (before ++ s) = trimStart s :=
  List.dropWhile_append_of_pos hbefore

theorem trim_append_left {before : List Char} (hbefore : ∀ c ∈ before, isBlank c = true)
    (s : List Char) : trim (before ++ s) = trim s := by
  unfold trim
  rw [trimStart_append_left hbefore]

theorem trim_append_right {after : List Char} (hafter : ∀ c ∈ after, isBlank c = true)
    (s : List Char) : trim (s ++ after) = trim s := by
  have hback : ∀ c ∈ after.reverse, isBlank c = true := by
    intro c hc
    exact hafter c (List.mem_reverse.mp hc)
  unfold trim trimStart
  rw [List.dropWhile_append]
  split
  · -- Nothing is left of the text, so all of it was blank.
    rename_i hnone
    rw [List.dropWhile_eq_nil_iff.mpr hafter, List.isEmpty_iff.mp hnone]
  · rw [List.reverse_append, List.dropWhile_append_of_pos hback]

/-- Every text is what trimming leaves of it, with blanks on both sides. -/
theorem exists_padding (s : List Char) : ∃ before after : List Char,
    (∀ c ∈ before, isBlank c = true) ∧ (∀ c ∈ after, isBlank c = true) ∧
      s = before ++ (trim s ++ after) := by
  let back := (trimStart s).reverse
  refine ⟨s.takeWhile isBlank, (back.takeWhile isBlank).reverse, ?_, ?_, ?_⟩
  · exact fun c hc => List.mem_takeWhile_imp hc
  · exact fun c hc => List.mem_takeWhile_imp (List.mem_reverse.mp hc)
  · have hback : trim s ++ (back.takeWhile isBlank).reverse = trimStart s := by
      unfold trim
      rw [← List.reverse_append, trimStart, List.takeWhile_append_dropWhile]
      exact List.reverse_reverse (trimStart s)
    rw [hback, trimStart, List.takeWhile_append_dropWhile]

/-- Trimming leaves something of a text that is not all blank. -/
theorem trim_ne_nil {s : List Char} (h : ∃ c ∈ s, isBlank c = false) : trim s ≠ [] := by
  obtain ⟨c, hc, hblank⟩ := h
  obtain ⟨before, after, hbefore, hafter, hs⟩ := exists_padding s
  intro hnil
  rw [hs, hnil, List.nil_append, List.mem_append] at hc
  have hall : isBlank c = true := hc.elim (hbefore c) (hafter c)
  rw [hblank] at hall
  cases hall

end Text

end SceneIndex
