import SceneIndex.Config.Basic

/-!
# The working folder

Configurations are read from and written to a folder with at most one entry,
the one under the name in question. Which accesses fail, and how, follows from
the name and from that entry.

## Main definitions

* `Config.Entry`: What stands under a name.
* `Config.nameError?`: What is wrong with a name by itself.
* `Config.readFile`: The text of the file under a name.
* `Config.checkWritable`: Whether a file can be written under a name.
* `Config.writeFile`: The entry after a text was written into a file.
-/

namespace SceneIndex

namespace Config

/-- What stands under a name in the working folder. -/
inductive Entry where
  | nothing
  | directory
  | file (contents : ByteArray)

/-- The entry of a file that holds a text. -/
def Entry.ofText (text : String) : Entry := .file text.toUTF8

/-- The parts of a name between slashes. -/
def components (name : String) : List String :=
  (name.toList.splitOn '/').map String.ofList

/-- Whether a part of a name leads to no entry of the folder but stays where
    it is or goes up. -/
def isStep (component : String) : Bool :=
  component == "" || component == "." || component == ".."

/-- The parts of a name from the first that names an entry on. -/
def path (name : String) : List String := (components name).dropWhile isStep

/-- What is wrong with a name by itself. No name holds a character of code
    zero, is empty, or is too long as a whole or in the part that is looked up
    first. -/
def nameError? (name : String) : Option FileError :=
  if name.toList.contains '\x00' then some .nulInName
  else if name.isEmpty then some .notFound
  else if 4096 ≤ name.utf8ByteSize then some .nameTooLong
  else
    match path name with
    | [] => none
    | first :: _ => if 255 < first.utf8ByteSize then some .nameTooLong else none

/-- The text of the file under a name. A name whose parts only stay or go up
    is that of a folder. -/
def readFile (name : String) (entry : Entry) : Except FileError String :=
  match nameError? name with
  | some e => .error e
  | none =>
    if (path name).isEmpty then .error .isDirectory
    else
      match entry with
      | .nothing => .error .notFound
      | .directory => .error .isDirectory
      | .file contents =>
        match String.fromUTF8? contents with
        | some text => .ok text
        | none => .error .notUnicode

/-- Whether a file can be written under a name while the folder is empty:
    folders on the way do not exist. -/
def checkWritable (name : String) : Except FileError Unit :=
  match nameError? name with
  | some e => .error e
  | none =>
    match path name with
    | [] => .error .isDirectory
    | [_] => .ok ()
    | _ => .error .notFound

/-- Writes a text into the file under a name, over what it held before. -/
def writeFile (name text : String) (entry : Entry) : Except FileError Unit × Entry :=
  match checkWritable name, entry with
  | .error e, entry => (.error e, entry)
  | .ok (), .directory => (.error .isDirectory, .directory)
  | .ok (), _ => (.ok (), .ofText text)

end Config

end SceneIndex
