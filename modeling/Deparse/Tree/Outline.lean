import Deparse.Literal.Scalar

/-!
# Outlines of trees

The outline of a value has a line for each node and scalar and two lines, the brackets, for each
sequence; what belongs to a node or sequence stands below it, two spaces further to the right.
Scalars are written as literals, and those that have none as in diagnostics.
-/

namespace Deparse.Outline

/-- The indentation at a level; levels below zero are not indented. -/
def pad (level : Int) : Text :=
  Text.repeated level.toNat "  "

/-- The line number of a node, or a question mark. -/
def lineMark : Option Int → Text
  | none => "?"
  | some n => Numeral.decimalInt n

/-- The spelling of a scalar: its literal, or the description of a value that has none. -/
def scalar (v : Value) : Text :=
  match v.literal with
  | .ok t => t
  | .error _ => v.described

mutual

/-- The lines for a value at a level. -/
def lines (level : Int) : Value → List Text
  | .node tag cs line _ =>
    (pad level ++ tag ++ " (" ++ lineMark line ++ ")") :: linesAll (level + 1) cs
  | .seq xs => (pad level ++ "[") :: linesAll (level + 1) xs ++ [pad level ++ "]"]
  | .array xs => (pad level ++ "[") :: linesAll (level + 1) xs ++ [pad level ++ "]"]
  | v => [pad level ++ scalar v]

/-- The lines for several values, one after the other. -/
def linesAll (level : Int) : List Value → List Text
  | [] => []
  | v :: vs => lines level v ++ linesAll level vs

end

end Outline

/-- The outline of a value, starting at a level. -/
def Value.outline (v : Value) (level : Int) : Text :=
  Text.joined "\n" (Outline.lines level v)

end Deparse
