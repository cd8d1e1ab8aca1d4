import SceneIndex.Config.Folder
import SceneIndex.Config.Library
import SceneIndex.Config.OfRon
import SceneIndex.Config.OfToml
import SceneIndex.Config.Write

/-!
# Configuration files

The format of a file is told by the extension of its name. A file is read
before its name is looked at, but nothing is written unless the name has an
extension and the text could be made. Texts are read and written by a library.

## Main definitions

* `Config.Format`: The two formats.
* `Config.decode`, `Config.encode`: Texts of configurations, by file name.
* `Config.Disk`: A place where files are, such as the working folder.
* `Config.loadFrom`, `Config.saveTo`: Loading and saving, anywhere.
* `Config.load`, `Config.save`: The same in the working folder.
-/

namespace SceneIndex

namespace Config

/-- The formats of configuration files. -/
inductive Format where
  | toml
  | ron
  deriving DecidableEq, Repr

namespace Format

/-- The extension of the file names of a format. -/
def extension : Format → String
  | toml => ".toml"
  | ron => ".ron"

/-- Whether a name ends in the extension of the format. -/
def matchesName (f : Format) (name : String) : Bool :=
  f.extension.toList.isSuffixOf name.toList

/-- The format that the extension of a name tells. -/
def ofName? (name : String) : Option Format :=
  if toml.matchesName name then some toml
  else if ron.matchesName name then some ron
  else none

end Format

section Texts

variable (lib : Library)

/-- The configuration in a text of a format. -/
def read? (format : Format) (text : String) : Option Config :=
  match format with
  | .toml => (lib.readToml text).bind ofToml
  | .ron => (lib.readRon text).bind ofRon

/-- The text of a configuration in a format. -/
def write (format : Format) (c : Config) : Except Error String :=
  let written := match format with
    | .toml => lib.writeToml c.sheet
    | .ron => lib.writeRon c.sheet
  written.mapError .unwritable

/-- The configuration in a text, of which the name of its file tells the
    format. -/
def decode (name text : String) : Except Error Config :=
  match Format.ofName? name with
  | none => .error (.unsupportedFormat name)
  | some format =>
    match read? lib format text with
    | some c => .ok c
    | none => .error .malformed

/-- The text of a configuration, in the format that the name of a file
    tells. -/
def encode (name : String) (c : Config) : Except Error String :=
  match Format.ofName? name with
  | none => .error (.unsupportedFormat name)
  | some format => write lib format c

end Texts

/-- A place where files are: how the file under a name is read as a text, and
    how a text is written into it. -/
structure Disk where
  State : Type
  read : State → String → Except FileError String
  write : State → String → String → Except FileError Unit × State

/-- The working folder, in which only one name is used. -/
def Disk.folder : Disk where
  State := Entry
  read entry name := readFile name entry
  write entry name text := writeFile name text entry

section Files

variable (lib : Library)

/-- Loads the configuration in the file under a name. -/
def loadFrom (disk : Disk) (files : disk.State) (name : String) : Except Error Config :=
  match disk.read files name with
  | .error e => .error (.file e)
  | .ok text => decode lib name text

/-- Saves a configuration into the file under a name. Nothing is written unless
    the text could be made. -/
def saveTo (disk : Disk) (files : disk.State) (name : String) (c : Config) :
    Except Error Unit × disk.State :=
  match encode lib name c with
  | .error e => (.error e, files)
  | .ok text =>
    match disk.write files name text with
    | (.error e, files) => (.error (.file e), files)
    | (.ok (), files) => (.ok (), files)

/-- The configuration in the file under a name of the working folder. -/
def load (name : String) (entry : Entry) : Except Error Config :=
  loadFrom lib .folder entry name

/-- The text of the file under a name after a configuration was saved into it,
    in an empty folder. -/
def save (name : String) (c : Config) : Except Error String :=
  match saveTo lib .folder .nothing name c with
  | (.error e, _) => .error e
  | (.ok (), entry) => (readFile name entry).mapError .file

/-- The outcome of loading what was written, compared with what was saved. -/
def reload (name : String) (c : Config) (text : String) : Except Error Bool :=
  match load lib name (.ofText text) with
  | .ok loaded => .ok (loaded == c)
  | .error e => .error e

end Files

end Config

end SceneIndex
