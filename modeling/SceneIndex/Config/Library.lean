import SceneIndex.Ron.Document
import SceneIndex.Ron.Write
import SceneIndex.Toml.Document
import SceneIndex.Toml.Write

/-!
# Libraries for the two formats

Texts of either format are read and written by others. What a configuration file
comes to depends on them only through four functions: the readers, which give a
value or refuse the text, and the writers, which give a text or say why there is
none. Nothing is known of them here.

## Main definitions

* `Config.Library`: The readers and the writers.
* `Config.Library.standard`: Those of this development.
-/

namespace SceneIndex

namespace Config

/-- The readers and the writers of the two formats. -/
structure Library where
  /-- The root table of a TOML document. -/
  readToml : String → Option Toml.Table
  /-- The TOML document of a sheet, or why there is none. -/
  writeToml : Sheet → Except String String
  /-- The value of a RON document and its extensions. -/
  readRon : String → Option Ron.Document
  /-- The RON document of a sheet, or why there is none. -/
  writeRon : Sheet → Except String String

/-- The readers and writers of this development. -/
def Library.standard : Library where
  readToml := Toml.read?
  writeToml := Toml.write
  readRon := Ron.read?
  writeRon s := .ok (Ron.write s)

end Config

end SceneIndex
