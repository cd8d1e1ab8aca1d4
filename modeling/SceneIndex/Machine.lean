/-!
# Machines

What a scene cannot choose for itself is how the machine counts.

Numbers of slots are words of 64 bits, and a sum of two words need not be one.
A machine that checks its sums gives up on such a sum, and one that does not
goes on with what is left of it. Besides, there is a greatest number of slots
that can be asked for at all, far below the greatest word.

## Main definitions

* `Machine`: How sums are taken, and how many slots there can be.
* `Machine.add?`: The sum of two words.
* `Machine.standard`: Slots of 24 bytes, in a signed 64 bits of them.

## Theorems

* `add?_of_lt`: A sum that is a word.
* `add?_of_checked`: One that is not, on a machine that checks.
-/

namespace SceneIndex

/-- What is left to the machine. -/
structure Machine where
  /-- Whether a sum that is no word is given up on; it is cut to a word
      otherwise. -/
  checked : Bool
  /-- The greatest number of slots that can be asked for. -/
  maxSlots : Nat
  maxSlots_lt : maxSlots < UInt64.size
  deriving DecidableEq

namespace Machine

/-- The sum of two words, unless the machine gives up on it. -/
def add? (m : Machine) (a b : UInt64) : Option UInt64 :=
  if m.checked = true ∧ UInt64.size ≤ a.toNat + b.toNat then none else some (a + b)

/-- Slots of 24 bytes, and as many bytes in all as a signed word of 64 bits can
    count. -/
def standard (checked : Bool) : Machine where
  checked := checked
  maxSlots := 0x7fffffffffffffff / 24
  maxSlots_lt := by decide

theorem add?_of_lt (m : Machine) (a b : UInt64) (h : a.toNat + b.toNat < UInt64.size) :
    m.add? a b = some (a + b) ∧ (a + b).toNat = a.toNat + b.toNat := by
  refine ⟨if_neg fun hboth => absurd hboth.2 (Nat.not_le_of_lt h), ?_⟩
  rw [UInt64.toNat_add]
  exact Nat.mod_eq_of_lt h

theorem add?_of_checked (m : Machine) (a b : UInt64) (hm : m.checked = true)
    (h : UInt64.size ≤ a.toNat + b.toNat) : m.add? a b = none :=
  if_pos ⟨hm, h⟩

end Machine

end SceneIndex
