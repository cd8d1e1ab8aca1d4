import SceneIndex.Config.Basic
import SceneIndex.Sheet

/-!
# Configurations as sheets

All settings of a configuration are written, in a fixed order. Flags are written
as their full text, which has no character that would need an escape.

## Main definitions

* `Config.sheet`: What is written of a configuration.
-/

namespace SceneIndex

namespace Config

/-- The row of a bucket. -/
def filterRow (f : Filter) : List (String × String) :=
  [("value", f.value.text), ("mask", f.mask.text)]

/-- What is written of a configuration. -/
def sheet (c : Config) : Sheet where
  numbers := [("initial_capacity", c.initialCapacity), ("growth_slack", c.growthSlack)]
  list := "extra_buckets"
  rows := c.extraBuckets.map filterRow

end Config

end SceneIndex
