import Deparse.Digest.Sha256
import Deparse.Document.Data
import Deparse.Json.Reader
import Deparse.Json.Writer
import Deparse.Source.Script
import Deparse.Text.Utf8

/-!
# Loading documents

A document is loaded by reading its data and the tree in the data.  Whatever is wrong with it is a
*rejection*: when loading is strict it is the outcome, and otherwise it is noted as the only issue
in a report without a tree.  Two documents have neither: one that holds an integer of too many
digits and one that cannot be encoded, so that it has no digest.

A report can be written as a document itself.  `Document.reload` writes the tree of a report and
loads what was written.
-/

namespace Deparse.Document

/-! ### Rejections -/

/-- What is wrong with a document. -/
inductive Rejection where
  /-- It is not of the grammar; the problem is on the given line. -/
  | unreadable (p : Json.Problem) (line : Nat)
  /-- Its data is not that of a tree. -/
  | notATree (f : DataFault)
deriving DecidableEq

namespace Rejection

/-- The wording of a rejection in a report. -/
def description : Rejection → Text
  | unreadable p line => "Invalid JSON: " ++ p.message ++ " at line " ++ Numeral.decimal line
  | notATree f => f.message Address.root

/-- The spelling of the place of a rejection, where it has one. -/
def path : Rejection → Option Text
  | unreadable .. => none
  | notATree f => some (f.address.text Address.root)

/-- The spelling of the place that a rejection by itself names: a problem of the grammar is then one
of the root. -/
def place (r : Rejection) : Text :=
  r.path.getD Address.root

/-- The wording of a rejection by itself; a problem of the grammar is then one of the root. -/
def message : Rejection → Text
  | unreadable p line => located (unreadable p line).description Address.root
  | notATree f => (notATree f).description

end Rejection

/-- Why loading a document gives no report. -/
inductive Failure where
  /-- It was rejected, and loading is strict. -/
  | rejected (r : Rejection)
  /-- It holds an integer of too many digits. -/
  | longInteger
  | unencodable
deriving DecidableEq

/-! ### Reports -/

/-- Something that is wrong with a document, and the spelling of its place if it has one. -/
structure Issue where
  description : Text
  path : Option Text
deriving DecidableEq

/-- What came of loading a document. -/
structure Report where
  tree : Option Value
  issues : List Issue
  digest : Text
  /-- The name that the document goes by. -/
  name : Text

/-- A text that may be missing, as data. -/
def textData : Option Text → Value
  | none => .nil
  | some t => .str t

/-- An issue as data. -/
def Issue.toData (i : Issue) : Value :=
  .object [("description", .str i.description), ("path", textData i.path)]

/-- A report as data: the tree, the issues, the digest of the document and its name. -/
def Report.toData (r : Report) : Value :=
  .object [("ast", (r.tree.map Value.toData).getD .nil),
    ("issues", .array (r.issues.map Issue.toData)), ("source_hash", .str r.digest),
    ("source_name", .str r.name)]

/-- A report as a document, one item or member on a line. -/
def Report.toJson (r : Report) : Text :=
  Json.write .indented r.toData

/-! ### Loading -/

/-- Whether loading is strict. -/
inductive Mode where
  /-- Whatever is wrong with the document is noted in the report. -/
  | tolerant
  /-- Whatever is wrong with the document is the outcome. -/
  | strict
deriving DecidableEq

/-- The tree of a document. -/
def parse (source : Text) : Except Failure Value :=
  match Json.read source with
  | .error .longInteger => .error .longInteger
  | .error (.malformed p line) => .error (.rejected (.unreadable p line))
  | .ok data =>
    match Value.ofNodeData data with
    | .error f => .error (.rejected (.notATree f))
    | .ok tree => .ok tree

/-- What comes of loading a document of the given name.  The digest is taken first, so that a
document without an encoding fails before anything in it is looked at; whatever is wrong with the
tree is then a matter of the mode. -/
def load (mode : Mode) (name source : Text) : Except Failure Report :=
  match source.utf8? with
  | none => .error .unencodable
  | some bytes =>
    let digest := Sha256.hexDigest bytes
    match parse source, mode with
    | .ok tree, _ => .ok ⟨some tree, [], digest, name⟩
    | .error (.rejected r), .tolerant => .ok ⟨none, [⟨r.description, r.path⟩], digest, name⟩
    | .error f, _ => .error f

/-! ### Writing a tree and loading it again -/

/-- A tree as a document on one line. -/
def ofTree (tree : Value) : Text :=
  Json.write .escaped tree.toData

/-- Whether the tree of a document comes back when it is written and loaded again, and the source
that the tree renders to. -/
def reload (source : Text) : Except Failure (Bool × Except Fault Text) := do
  let tree ← parse source
  let again ← parse (ofTree tree)
  return (tree = again, tree.toSource)

end Deparse.Document
