import SceneIndex.Filter

/-!
# Configuration of a scene

How many slots a scene starts with, by how many spare slots its storage grows
at a time, and which buckets it has besides the two standard ones.

## Main definitions

* `Config`: The three settings, with their defaults.
* `Config.Error`: Why a configuration could not be used, read or written.
* `Config.validate`: Whether a scene can be built.
* `Config.withBucket`: The configuration with one more bucket.
-/

namespace SceneIndex

/-- The settings of a scene. -/
structure Config where
  /-- Slots at the start, the reserved slot included. -/
  initialCapacity : UInt64 := 101
  /-- Spare slots added at every growth. -/
  growthSlack : UInt64 := 100
  /-- Filters of the buckets besides the standard ones. -/
  extraBuckets : List Filter := []
  deriving DecidableEq

namespace Config

instance : Inhabited Config := ⟨{}⟩

/-- Why a file could not be read or written. -/
inductive FileError where
  | notFound
  | isDirectory
  | nameTooLong
  | nulInName
  | notUnicode
  deriving DecidableEq, Repr

/-- The message for a failed access to a file. -/
def FileError.message : FileError → String
  | notFound => "No such file or directory (os error 2)"
  | isDirectory => "Is a directory (os error 21)"
  | nameTooLong => "File name too long (os error 36)"
  | nulInName => "file name contained an unexpected NUL byte"
  | notUnicode => "stream did not contain valid UTF-8"

/-- Why a configuration could not be used, read or written. -/
inductive Error where
  /-- The file could not be accessed. -/
  | file (cause : FileError)
  /-- The text is not a configuration. -/
  | malformed
  /-- There is no text for it in the format. -/
  | unwritable (cause : String)
  /-- The name does not end in the extension of a format. -/
  | unsupportedFormat (name : String)
  /-- There is no room for the reserved slot. -/
  | noReservedSlot
  deriving DecidableEq, Repr

/-- The message for an unusable configuration. -/
def Error.message : Error → String
  | file cause => "IO error: " ++ cause.message
  | malformed => "Parse error: not a scene configuration"
  | unwritable cause => "Serialization error: " ++ cause
  | unsupportedFormat name => "Unsupported format: " ++ name
  | noReservedSlot =>
    "Invalid configuration: initial_capacity must reserve at least slot #0"

/-- A scene needs at least its reserved slot. -/
def validate (c : Config) : Except Error Unit :=
  if c.initialCapacity = 0 then .error .noReservedSlot else .ok ()

/-- The configuration with one more bucket, after all others. -/
def withBucket (c : Config) (f : Filter) : Config :=
  { c with extraBuckets := c.extraBuckets ++ [f] }

/-- The debug text of a configuration. -/
def outline (c : Config) : Text.Outline :=
  .record "SceneConfig"
    [("initial_capacity", .leaf (Text.Numeral.decimal c.initialCapacity.toNat)),
     ("growth_slack", .leaf (Text.Numeral.decimal c.growthSlack.toNat)),
     ("extra_buckets", .list (c.extraBuckets.map Filter.outline))]
    false

end Config

end SceneIndex
