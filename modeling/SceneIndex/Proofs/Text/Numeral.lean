import SceneIndex.Text.Numeral

/-!
# How written numbers look

Readers take a number off the front of a text by its characters, before they
know what it stands for. So they rely on what the digits of a written number
look like: every one is a digit of the base, and there is no leading zero
except in zero itself. Whatever else is to be said of the characters of a
number has to be checked for the few digits of its base only
(`forall_mem_write`).

## Theorems

* `forall_mem_write`: What can be said of all characters of a number.
* `exists_write_cons`: The first of them.
* `isDigit_of_mem_write`: A written number has only digits of its base.
* `eq_zero_of_head_write`: Only zero begins with the digit zero.
-/

namespace SceneIndex

namespace Text

namespace Numeral

/-- What holds of all digits of a base holds of all characters of a written
    number. -/
theorem forall_mem_write {base : Nat} (hbase : 2 ≤ base) {P : Char → Prop}
    (h : ∀ value < base, P (digit value)) (n : Nat) : ∀ c ∈ write base n, P c := by
  intro c hc
  rw [write] at hc
  by_cases hn : n < base
  · rw [if_pos (Or.inl hn), List.mem_singleton] at hc
    rw [hc]
    exact h n hn
  · rw [if_neg (by omega), List.mem_append, List.mem_singleton] at hc
    rcases hc with hc | rfl
    · exact forall_mem_write hbase h (n / base) c hc
    · exact h _ (Nat.mod_lt n (by omega))
termination_by n
decreasing_by exact Nat.div_lt_self (by omega) (by omega)

/-- A written number begins with one of its characters. -/
theorem exists_write_cons (base n : Nat) :
    ∃ c cs, write base n = c :: cs ∧ c ∈ write base n := by
  rcases List.exists_cons_of_ne_nil (write_ne_nil base n) with ⟨c, cs, hwrite⟩
  exact ⟨c, cs, hwrite, by rw [hwrite]; exact List.mem_cons_self⟩

/-- A written number has only digits of its base. -/
theorem isDigit_of_mem_write {base : Nat} (hlow : 2 ≤ base) (hhigh : base ≤ 16) (n : Nat) :
    ∀ c ∈ write base n, isDigit base c = true := by
  have hone : ∀ value < base, isDigit base (digit value) = true := by
    intro value hvalue
    unfold isDigit
    rw [digit?_digit hhigh hvalue]
    rfl
  exact forall_mem_write (P := fun c => isDigit base c = true) hlow hone n

/-- Only zero begins with the digit zero. -/
theorem eq_zero_of_head_write {base : Nat} (hlow : 2 ≤ base) (hhigh : base ≤ 16) (n : Nat)
    (h : (write base n).head? = some '0') : n = 0 := by
  rw [write] at h
  by_cases hn : n < base
  · rw [if_pos (Or.inl hn), List.head?_cons, Option.some.injEq] at h
    have table : ∀ v < 16, digit v = '0' → v = 0 := by decide
    exact table n (by omega) h
  · have hhead : (write base (n / base) ++ [digit (n % base)]).head?
        = (write base (n / base)).head? := by
      rw [List.head?_append, List.head?_eq_some_head (write_ne_nil base _)]
      rfl
    rw [if_neg (by omega), hhead] at h
    have hquotient := eq_zero_of_head_write hlow hhigh (n / base) h
    -- A quotient of zero would make the number a single digit.
    have hpos : 0 < n / base := Nat.div_pos (by omega) (by omega)
    omega
termination_by n
decreasing_by exact Nat.div_lt_self (by omega) (by omega)

end Numeral

end Text

end SceneIndex
