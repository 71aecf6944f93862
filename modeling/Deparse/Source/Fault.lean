import Deparse.Literal.Body
import Deparse.Value.Diagnostic
import Deparse.Value.Equality

/-!
# Why a tree cannot be rendered

A *refusal* says that a tree holds something that has no rendering, and has a wording that ends
with the line of the node in question if that is known.  A *malformation* says that a node is not
of the shape that its tag promises, so that its parts cannot even be looked at.
-/

namespace Deparse

/-- A tree holds something that has no rendering.  Every refusal comes with the line of the node
it is about, if there is such a node and its line is known. -/
inductive Refusal where
  /-- A node whose tag is unknown, or known only of nodes of the other origin. -/
  | unsupportedNode (tag : Text) (line : Option Int)
  /-- A value where a part of a program is expected. -/
  | invalidFragment (value : Value) (line : Option Int)
  /-- Something in an interpolated string that is neither text nor an interpolation. -/
  | unexpectedSegment (kind : Text) (line : Option Int)
  /-- An attribute assignment that is not an assignment to an element. -/
  | unsupportedOperator (operator : Text) (line : Option Int)
deriving DecidableEq

/-- A node is not of the shape that its tag promises. -/
inductive Malformation where
  /-- The children are wanted of something that is not a node. -/
  | notANode
  /-- A child is wanted where there is none. -/
  | noChild
  /-- The parameters of a block are not a table. -/
  | notATable
  /-- The value that stands for the body of a literal cannot be escaped. -/
  | badBody (fault : BodyFault)
deriving DecidableEq

/-- Why a tree cannot be rendered. -/
inductive Fault where
  | refused (refusal : Refusal)
  | malformed (malformation : Malformation)
deriving DecidableEq

namespace Refusal

/-- The line of the node that a refusal is about, if it is known. -/
def line : Refusal → Option Int
  | unsupportedNode _ line => line
  | invalidFragment _ line => line
  | unexpectedSegment _ line => line
  | unsupportedOperator _ line => line

/-- The wording of a refusal without the line. -/
def subject : Refusal → Text
  | unsupportedNode tag _ => "Could not convert " ++ tag ++ " node to ruby"
  | invalidFragment value _ => "Invalid fragment " ++ value.described
  | unexpectedSegment kind _ => "Unexpected node " ++ kind ++ " encountered in DSTR"
  | unsupportedOperator operator _ => "Unsupported ATTRASGN op " ++ operator

/-- The wording of a refusal, which ends with the line if that is known. -/
def message (r : Refusal) : Text :=
  match r.line with
  | none => r.subject
  | some n => r.subject ++ " (line " ++ Numeral.decimalInt n ++ ")"

end Refusal

end Deparse
