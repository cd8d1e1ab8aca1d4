/-!
# Shelves

Values under labels. A label that was not used yet holds a default value, so
every label can be read.

## Main definitions

* `Shelf`: A value for every label.
* `Shelf.put`: The shelf with another value under one label.

## Theorems

* `Shelf.get_put_self`, `Shelf.get_put_other`: What the labels hold
  afterwards.
-/

namespace SceneIndex

/-- A value for every label. -/
def Shelf (label value : Type) : Type := label → value

namespace Shelf

variable {label value : Type}

/-- The shelf with the default value under every label. -/
def initial [Inhabited value] : Shelf label value := fun _ => default

/-- The value under a label. -/
def get (s : Shelf label value) (k : label) : value := s k

/-- The shelf with another value under one label. -/
def put [DecidableEq label] (s : Shelf label value) (k : label) (v : value) : Shelf label value :=
  fun other => if other = k then v else s other

theorem get_put_self [DecidableEq label] (s : Shelf label value) (k : label) (v : value) :
    (s.put k v).get k = v := by
  simp only [get, put, if_true]

theorem get_put_other [DecidableEq label] (s : Shelf label value) {k other : label} (v : value)
    (h : other ≠ k) : (s.put k v).get other = s.get other := by
  simp only [get, put, if_neg h]

end Shelf

end SceneIndex
