import Deparse.Command.Run

/-!
# The program

The outermost layer: it looks up what the arguments name, has `Request.answer` decide what that
comes to, and prints or stores the result.  A crash ends the program with an error.
-/

namespace Deparse.Command

/-- The wording of the error that a crash ends the program with. -/
def Crash.message : Crash → String
  | undecodable => "the input is not encoded as UTF-8"
  | unencodable => "a surrogate cannot be encoded"
  | unusablePath => "a path holds the character zero"
  | longInteger => "an integer has too many digits"
  | malformed _ => "a node is not of the shape that its tag promises"
  | notStored _ => "the output cannot be written"

/-- Ends the program with the error of a crash. -/
def crash {α : Type} (c : Crash) : IO α :=
  throw (IO.userError c.message)

/-- The string of a text that is to leave the program. -/
def encoded (t : Text) : IO String :=
  match t.toString? with
  | some s => return s
  | none => crash .unencodable

/-- The place of the current folder. -/
def currentLocation : IO Location :=
  return Path.names (Text.ofString (← IO.currentDir).toString)

/-- What is at a place, with the bytes of a file. -/
def entryAt (place : Location) : IO (Option Entry) := do
  let path := (← IO.currentDir) / (← encoded place.text)
  if ← path.isDir then return some .folder
  if ← path.pathExists then return some (.file (← IO.FS.readBinFile path).toList)
  return none

/-- Writes a text to a path, which is emptied first. -/
def storeAt (path content : Text) : IO Unit := do
  let path := (← IO.currentDir) / (← encoded path)
  if let some parent := path.parent then IO.FS.createDirAll parent
  IO.FS.withFile path .write fun h => do h.putStr (← encoded content)

/-- Prints what the program has to say. -/
def say (o : Outcome) : IO UInt32 := do
  match o.printed with
  | .error c => crash c
  | .ok o =>
    (← IO.getStdout).putStr (← encoded o.stdout)
    (← IO.getStderr).putStr (← encoded o.stderr)
    return UInt32.ofNat o.code

/-- Does what a request asks for and returns the exit code. -/
def perform (r : Request) : IO UInt32 := do
  if !Path.isUsable r.input then crash .unusablePath
  let place := Location.resolve (← currentLocation) r.input
  match r.answer place.text (← entryAt place) with
  | .error c => crash c
  | .ok (.say o) => say o
  | .ok (.store path content) =>
    storeAt path content
    return 0

end Deparse.Command

/-- The entry point: prints what the arguments by themselves come to, or performs the request in
them. -/
def main (arguments : List String) : IO UInt32 :=
  match Deparse.Command.invocation (arguments.map Deparse.Text.ofString) with
  | .say code stdout stderr => Deparse.Command.say ⟨code, stdout, stderr⟩
  | .run r => Deparse.Command.perform r
