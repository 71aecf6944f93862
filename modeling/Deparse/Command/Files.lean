import Deparse.Text.Utf8

/-!
# Files

A path is a list of names between slashes.  Empty names and `.` say nothing (`Path.names`).
`Location.resolve` removes every `..` together with the name before it and so gives a place that
does not depend on what is there.

The files that the program reads and writes, as far as it can tell: at a place there is a file with
its bytes, a folder, or nothing.  Writing a text to a path first makes the folders on the way to
it, the outermost first.  A file is emptied before the text is encoded, so that a text that cannot
be encoded leaves an empty file.  Whatever was changed before a fault remains changed.
-/

namespace Deparse.Command

/-! ### Paths -/

/-- The names on the way from the root to a place. -/
abbrev Location := List Text

namespace Path

/-- The name of the folder itself. -/
def here : Text := "."

/-- The name of the folder around. -/
def up : Text := ".."

/-- The names of a path that say something. -/
def names (p : Text) : List Text :=
  (p.splitOn (.scalar '/')).filter fun n => !n.isEmpty && n ≠ here

/-- Where the names of a path start: at the root, or at the current folder. -/
def start (current : Location) : Text → Location
  | .scalar '/' :: _ => []
  | _ => current

/-- Whether a path can name anything: no name holds the character zero. -/
def isUsable (p : Text) : Bool :=
  !p.contains '\x00'

end Path

namespace Location

/-- The place that a name leads to: the folder around, or an entry of the folder. -/
def follow (l : Location) (name : Text) : Location :=
  if name = Path.up then l.dropLast else l ++ [name]

/-- The place that a path leads to, seen from the current folder. -/
def resolve (current : Location) (p : Text) : Location :=
  (Path.names p).foldl follow (Path.start current p)

/-- The spelling of a place, which starts at the root. -/
def text (l : Location) : Text :=
  "/" ++ Text.joined "/" l

end Location

/-! ### Entries -/

/-- What is at a place. -/
inductive Entry where
  | file (bytes : List UInt8)
  | folder
deriving DecidableEq

/-- The places where something is, apart from the root. -/
structure Files where
  entries : List (Location × Entry)
deriving DecidableEq

/-- Why nothing can be written to a path. -/
inductive StoreFault where
  /-- A folder on the way is a file. -/
  | fileInTheWay
  | throughFile
  /-- The way leads through a place where nothing is. -/
  | missing
  /-- There is a folder at the end of the path. -/
  | isAFolder
  | unusablePath
  | unencodable
deriving DecidableEq

namespace Files

/-- What is at a place, if anything is; the root is a folder. -/
def entry? (f : Files) (l : Location) : Option Entry :=
  if l.isEmpty then some .folder else f.entries.lookup l

/-- The files after something was put at a place. -/
def put (f : Files) (l : Location) (e : Entry) : Files :=
  ⟨(l, e) :: f.entries.filter fun p => p.1 ≠ l⟩

/-- The place that names lead to.  Each name is looked up in a folder. -/
def follow (f : Files) (l : Location) : List Text → Except StoreFault Location
  | [] => .ok l
  | name :: names =>
    match f.entry? l with
    | none => .error .missing
    | some (.file _) => .error .throughFile
    | some .folder => follow f (l.follow name) names

end Files

/-! ### Writing -/

/-- A change of files that may end with a fault. -/
abbrev FileAction := ExceptT StoreFault (StateM Files)

namespace FileAction

/-- Makes a folder inside another, or accepts one that is there already.  The result is false if the
folder that it should be made in is missing. -/
def makeFolder (l : Location) (names : List Text) : FileAction Bool := do
  let f ← get
  match f.follow l names with
  | .error .missing => return false
  | .error e => throw e
  | .ok place =>
    match f.entry? place with
    | some .folder => return true
    | some (.file _) => throw .fileInTheWay
    | none =>
      set (f.put place .folder)
      return true

/-- Makes a folder and those around it that are missing, the names being given from the last to
the first. -/
def makeFolders (l : Location) : List Text → FileAction Unit
  | [] => return
  | name :: names => do
    if ← makeFolder l (name :: names).reverse then return
    makeFolders l names
    if ← makeFolder l (name :: names).reverse then return
    throw .missing

/-- Writes a text to a path, seen from the current folder.  What is done before a fault stays done:
the folders are made first, then the file is emptied, and only then is the text encoded. -/
def store (current : Location) (path content : Text) : FileAction Unit := do
  let l := Path.start current path
  let names := Path.names path
  if !names.dropLast.all Path.isUsable then throw .unusablePath
  makeFolders l names.dropLast.reverse
  if !Path.isUsable path then throw .unusablePath
  let f ← get
  match f.follow l names with
  | .error e => throw e
  | .ok place =>
    if f.entry? place = some .folder then throw .isAFolder
    set (f.put place (.file []))
    match content.utf8? with
    | none => throw .unencodable
    | some bytes => set (f.put place (.file bytes))

end FileAction

end Deparse.Command
