/-!
# Files

* `FileFault`: why a file cannot be read or written; `FileFault.message` words it;
* `Files`: what a run does with files, in any monad; `readFile`, `writeFile` are put together from it;
* `Place`, `Place.step`: where a path may lead, name by name;
* `Directory`: a directory as a value, with the folders in it; `Directory.follow` walks along a
  path, `Directory.target` finds the place of a file to be written, and `Directory.M` are the
  programs that work on a directory, an instance of `Files`.

A directory knows its regular files and folders. Of what lies outside of it only the folders above,
the root and what every system has there are known. A directory has room for whatever is written, and
nobody is denied anything but the devices; other instances of `Files` may be less generous.
-/

namespace Shader.CommandLine

/-- Why a file cannot be read or written. -/
inductive FileFault
  | missing
  | notFolder
  | isFolder
  | nameTooLong
  /-- The file holds something else than text. -/
  | notText
  /-- Any other fault that the system names and numbers. -/
  | system (words : String) (number : Nat)
deriving DecidableEq, Repr

/-- The wording of a fault that the system names and numbers. -/
def systemText (words : String) (number : Nat) : String :=
  words ++ " (os error " ++ toString number ++ ")"

/-- The wording of a fault. -/
def FileFault.message : FileFault → String
  | missing => systemText "No such file or directory" 2
  | notFolder => systemText "Not a directory" 20
  | isFolder => systemText "Is a directory" 21
  | nameTooLong => systemText "File name too long" 36
  | notText => "stream did not contain valid UTF-8"
  | system words number => systemText words number

/-- The fault of what is not allowed. -/
def FileFault.denied : FileFault := .system "Permission denied" 13

/-- What a run does with files. -/
class Files (m : Type → Type) where
  /-- Files that are open to be written. -/
  Handle : Type
  /-- The bytes of a file. -/
  read : String → m (Except FileFault ByteArray)
  /-- Open a file to be written, which need not exist before. What was in it is lost. -/
  create : String → m (Except FileFault Handle)
  /-- Write bytes into a file that was just opened, and close it. -/
  fill : Handle → ByteArray → m (Except FileFault Unit)

/-- The text that bytes hold. -/
def textOf (bytes : ByteArray) : Except FileFault String :=
  match String.fromUTF8? bytes with
  | some text => .ok text
  | none => .error .notText

section

variable {m : Type → Type} [Monad m] [Files m]

/-- The text of a file. -/
def readFile (path : String) : m (Except FileFault String) := do
  let bytes ← Files.read path
  return bytes.bind textOf

/-- Make the bytes the content of a file, which need not exist before. -/
def writeFile (path : String) (bytes : ByteArray) : m (Except FileFault Unit) := do
  match ← Files.create path with
  | .error f => return .error f
  | .ok h => Files.fill h bytes

end

/-! ## Places -/

/-- A folder that names are counted from. -/
inductive Base
  /-- The folder so many levels above the directory; with none, the directory itself. -/
  | above (levels : Nat)
  /-- The folder at the top of the system. -/
  | root
deriving DecidableEq, Repr

/-- Where a path may lead: a folder, and the names on the way down from it. -/
structure Place where
  base : Base := .above 0
  names : List String := []
deriving DecidableEq, Repr

namespace Place

/-- The folder around a place. Above the root there is the root. -/
def up (p : Place) : Place :=
  match p.names, p.base with
  | [], .above n => { base := .above (n + 1) }
  | [], .root => p
  | names, base => ⟨base, names.dropLast⟩

/-- Go on by one name of a path. -/
def step (p : Place) (name : String) : Place :=
  if name = "." then p else if name = ".." then p.up else { p with names := p.names ++ [name] }

end Place

/-! ## Paths -/

/-- The least number of bytes that is too much for a path. -/
def pathBound : Nat := 4096

/-- The longest name in bytes. -/
def longestName : Nat := 255

/-- The names of a path. -/
def namesOf (path : String) : List String :=
  ((path.toList.splitOn '/').filter (!·.isEmpty)).map String.ofList

/-- The place where a path begins. -/
def startOf (path : String) : Place :=
  { base := if path.toList.head? = some '/' then .root else .above 0 }

/-- Whether a path ends in a slash, and so asks for a folder. -/
def asksForFolder (path : String) : Bool := path.toList.getLast? = some '/'

/-- A path must not be empty or too long. -/
def checkPath (path : String) : Except FileFault Unit :=
  if path.isEmpty then .error .missing
  else if pathBound ≤ path.utf8ByteSize then .error .nameTooLong
  else .ok ()

/-! ## A directory as a value -/

/-- What is at a place. -/
inductive Entry
  /-- A regular file. -/
  | file (bytes : ByteArray)
  | folder
  /-- A device with nothing in it that takes everything and keeps nothing. -/
  | sink
  /-- Another device, or what the system tells of itself. It is out of bounds here: nothing is said
  about what it does when it is used. -/
  | device

/-- A directory: its files and folders, and those of its folders, by their places. The first entry
of a place counts. -/
abbrev Directory : Type := List (Place × Entry)

/-- The folders that every system has at its root. -/
def systemFolders : List String :=
  ["bin", "boot", "dev", "etc", "home", "lib", "media", "mnt", "opt", "proc", "root", "run", "sbin",
    "srv", "sys", "tmp", "usr", "var"]

/-- Those of them that have no regular files. -/
def deviceFolders : List String := ["dev", "proc", "sys"]

/-- The devices that keep nothing; the input of a run is one of them. -/
def sinks : List (List String) := [["dev", "null"], ["dev", "stdin"]]

/-- What every system has at a place. -/
def systemHolds? (p : Place) : Option Entry :=
  match p.base, p.names with
  | _, [] => some .folder
  | .root, [name] => if systemFolders.contains name then some .folder else none
  | .root, top :: rest =>
    if sinks.contains (top :: rest) then some .sink
    else if deviceFolders.contains top then some .device
    else none
  | .above _, _ :: _ => none

namespace Directory

/-- What is at a place. -/
def lookUp? (d : Directory) (p : Place) : Option Entry := (d.lookup p).or (systemHolds? p)

/-- A place that names are looked up in has to be a folder. -/
def checkFolder (d : Directory) (p : Place) : Except FileFault Unit :=
  match d.lookUp? p with
  | none => .error .missing
  | some .folder => .ok ()
  | some (.file _) | some .sink => .error .notFolder
  | some .device => .error .denied

/-- Follow names from a place on. The last one need not lead to anything. -/
def follow (d : Directory) (p : Place) : List String → Except FileFault Place
  | [] => .ok p
  | name :: rest => do
    d.checkFolder p
    if longestName < name.utf8ByteSize then throw .nameTooLong
    d.follow (p.step name) rest

/-- The bytes of a file. -/
def read (d : Directory) (path : String) : Except FileFault ByteArray := do
  checkPath path
  let place ← d.follow (startOf path) (namesOf path)
  match d.lookUp? place with
  | none => throw .missing
  | some .folder => throw .isFolder
  | some .device => throw .denied
  | some (.file bytes) => if asksForFolder path then throw .notFolder else return bytes
  | some .sink => if asksForFolder path then throw .notFolder else return .empty

/-- The place of the file that is to be written for a path. Its folder has to be there; a path that
asks for a folder is refused before its last name is looked at. -/
def target (d : Directory) (path : String) : Except FileFault Place := do
  checkPath path
  let names := namesOf path
  let folder ← d.follow (startOf path) names.dropLast
  d.checkFolder folder
  match names.getLast? with
  | none | some "." | some ".." => throw .isFolder
  | some name =>
    if asksForFolder path then throw .isFolder
    let place ← d.follow folder [name]
    match d.lookUp? place with
    | some .folder => throw .isFolder
    | some .device => throw .denied
    | _ => return place

/-- The directory with a file at a place. -/
def put (d : Directory) (p : Place) (bytes : ByteArray) : Directory :=
  (p, .file bytes) :: d.filter fun e => e.1 ≠ p

/-- The directory after bytes were written at a place. -/
def fill (d : Directory) (p : Place) (bytes : ByteArray) : Directory :=
  match d.lookUp? p with
  | some .sink => d
  | _ => d.put p bytes

/-- Programs that work on a directory as a value. -/
abbrev M : Type → Type := StateM Directory

instance : Files M where
  Handle := Place
  read path := do return (← get).read path
  create path := do
    match (← get).target path with
    | .error f => return .error f
    | .ok p =>
      modify (·.fill p .empty)
      return .ok p
  fill p bytes := do
    modify (·.fill p bytes)
    return .ok ()

end Directory

end Shader.CommandLine
