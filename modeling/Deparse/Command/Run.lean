import Deparse.Command.Arguments
import Deparse.Command.Files
import Deparse.Document.Load
import Deparse.Tree.Outline

/-!
# Running the program

`Request.answer` says what a request comes to, given what was found at the place of its input: a
message and an exit code, or a text to be stored.  `run` does all of it on files held as a value.
Faults that the program does not report itself end it, which is a *crash*.
-/

namespace Deparse.Command

/-- What the program leaves behind: its exit code and what it printed. -/
structure Outcome where
  code : Nat
  stdout : Text
  stderr : Text
deriving DecidableEq

/-- What ends the program before its time. -/
inductive Crash where
  | undecodable
  /-- A text that was to be printed or digested cannot be encoded. -/
  | unencodable
  /-- The path of the input can name nothing. -/
  | unusablePath
  /-- The input holds an integer of too many digits. -/
  | longInteger
  /-- A node is not of the shape that its tag promises. -/
  | malformed (m : Malformation)
  | notStored (f : StoreFault)
deriving DecidableEq

/-- What a request comes to. -/
inductive Answer where
  | say (o : Outcome)
  /-- To write a text to a path. -/
  | store (path content : Text)
deriving DecidableEq

namespace Answer

/-- The answer of a request that could not be fulfilled. -/
def fail (message : Text) : Answer :=
  say ⟨1, [], message⟩

/-- A text as the answer, on a line of its own. -/
def print (t : Text) : Answer :=
  say ⟨0, t ++ "\n", []⟩

end Answer

/-- The way a request wants its input loaded. -/
def Request.mode (r : Request) : Document.Mode :=
  if r.strict then .strict else .tolerant

/-- What a request comes to once its tree is there. -/
def Request.answerTree (r : Request) (place : Text) (tree : Value) : Except Crash Answer :=
  match r.verb with
  | .dump => .ok (.print (tree.outline 0))
  | .convert =>
    match tree.toSource with
    | .ok source =>
      match r.out with
      | none => .ok (.print source)
      | some path => .ok (.store path (source ++ "\n"))
    | .error (.refused e) =>
      .ok (.fail ("ERROR " ++ place ++ ": Conversion failed: " ++ e.message ++ "\n"))
    | .error (.malformed m) => .error (.malformed m)

/-- The line of an issue in the message of a failure. -/
def issueLine (i : Document.Issue) : Text :=
  "  " ++ i.description ++ "\n"

/-- What a request comes to once the text of its input is there. -/
def Request.answerText (r : Request) (place source : Text) : Except Crash Answer :=
  match Document.load r.mode place source with
  | .error .longInteger => .error .longInteger
  | .error .unencodable => .error .unencodable
  | .error (.rejected e) => .ok (.fail ("ERROR " ++ place ++ ": " ++ e.message ++ "\n"))
  | .ok report =>
    match report.tree with
    | some tree => r.answerTree place tree
    | none =>
      .ok (.fail ("ERROR: Loading failed; no AST produced.\n" ++
        report.issues.flatMap issueLine))

/-- What a request comes to, given the spelling of the place of its input and what is there. -/
def Request.answer (r : Request) (place : Text) : Option Entry → Except Crash Answer
  | none => .ok (.fail ("ERROR: Input file not found: " ++ place ++ "\n"))
  | some .folder =>
    .ok (.fail ("ERROR: Failed to read " ++ place ++ ": [Errno 21] Is a directory: " ++
      Diagnostic.quoted place ++ "\n"))
  | some (.file bytes) =>
    match Text.ofUtf8? bytes with
    | none => .error .undecodable
    | some source => r.answerText place source.unified

/-- What is printed of an outcome.  The output has to be encoded as it is, while messages are
printed whatever they quote. -/
def Outcome.printed (o : Outcome) : Except Crash Outcome :=
  if o.stdout.encodable then .ok { o with stderr := o.stderr.surrogatesEscaped }
  else .error .unencodable

/-- What a request leaves behind, and the files after it. -/
def Request.run (r : Request) (current : Location) (f : Files) : Except Crash Outcome × Files :=
  if !Path.isUsable r.input then (.error .unusablePath, f)
  else
    let place := Location.resolve current r.input
    match r.answer place.text (f.entry? place) with
    | .error c => (.error c, f)
    | .ok (.say o) => (o.printed, f)
    | .ok (.store path content) =>
      match (FileAction.store current path content).run f with
      | (.ok (), f) => (.ok ⟨0, [], []⟩, f)
      | (.error e, f) => (.error (.notStored e), f)

/-- What the program leaves behind when it is run with the given arguments, and the files after
it. -/
def run (current : Location) (arguments : List Text) (f : Files) : Except Crash Outcome × Files :=
  match invocation arguments with
  | .say code stdout stderr => (Outcome.printed ⟨code, stdout, stderr⟩, f)
  | .run r => r.run current f

end Deparse.Command
