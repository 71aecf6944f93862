import Deparse.Literal.Scalar
import Deparse.Source.Piece
import Deparse.Tree.Tag

/-!
# The layout of a node

The *layout* of a value is one step of its rendering: the words that its tag asks for, in order,
and between them the values that have to be rendered in their turn.  A child slot is laid out by
`slot`, which tells by the kind of its content what becomes of it: a node is visited, a sequence is
a scope of visited nodes between line ends, a text stands for itself and an absent child for
nothing.

Everything a layout visits is smaller than the value itself (`size_lt_of_visit`), so that rendering
a tree ends.  A fault is a piece like any other and stands where it is met; parts of a
node that have to be looked at before anything of it is written put their fault in front.
-/

namespace Deparse

/-- A step of a rendering: a piece, or a value to be rendered in this place. -/
inductive Step where
  | put (p : Piece)
  | visit (v : Value)
deriving DecidableEq

namespace Layout

/-! ### Words and faults -/

/-- A text that is written as it is. -/
def word (t : Text) : List Step :=
  [.put (.text t)]

/-- A refusal in the place where rendering would go on. -/
def refuse (r : Refusal) : List Step :=
  [.put (.fault (.refused r))]

/-- A malformation in the place where rendering would go on. -/
def malformed (m : Malformation) : List Step :=
  [.put (.fault (.malformed m))]

/-! ### Slots -/

/-- A scope: the values that are present, between line ends. -/
def scope (vs : List Value) : List Step :=
  word "\n" ++ [.put .enter] ++ (vs.filter Value.isPresent).map .visit ++ [.put .leave] ++ word "\n"

/-- What becomes of the content of a child slot: a node is visited, a sequence is a scope, a text
stands for itself and an absent child for nothing.  Any other scalar is refused, without a line. -/
def slot : Value → List Step
  | .nil => []
  | .str t => word t
  | .seq xs => scope xs
  | .array xs => scope xs
  | .node tag cs line synthetic => [.visit (.node tag cs line synthetic)]
  | v => refuse (.invalidFragment v none)

/-- The child in a place, counted from zero; a missing child is an absent one. -/
def child (cs : List Value) (i : Nat) : Value :=
  cs.getD i .nil

/-- A layout that needs the first child. -/
def withFirst (cs : List Value) (layout : Value → List Step) : List Step :=
  match cs with
  | [] => malformed .noChild
  | c :: _ => layout c

/-- A layout that needs the children of a value. -/
def withChildren (v : Value) (layout : List Value → List Step) : List Step :=
  match v with
  | .node _ cs _ _ => layout cs
  | _ => malformed .notANode

/-! ### Lists -/

/-- Values separated by commas, absent ones left out. -/
def listed (vs : List Value) : List Step :=
  List.intercalate (word ", ") ((vs.filter Value.isPresent).map slot)

/-- A list without the absent value that a parser puts at its end. -/
def withoutSentinel (vs : List Value) : List Value :=
  match vs.getLast? with
  | some .nil => vs.dropLast
  | _ => vs

/-- The arguments of a call: the members of a list node, or any other value as the only one. -/
def arguments : Value → List Step
  | .node tag cs line synthetic =>
    if tag = Tag.list.label then listed cs else slot (.node tag cs line synthetic)
  | v => slot v

/-- The pairs in the flat list of a hash, up to the first absent key; a key that has no value after
it is paired with an absent one. -/
def pairs : List Value → List (Value × Value)
  | [] => []
  | .nil :: _ => []
  | [k] => [(k, .nil)]
  | k :: v :: vs => (k, v) :: pairs vs

/-- A pair of a hash: the key, the arrow and the value. -/
def pair (p : Value × Value) : List Step :=
  slot p.1 ++ word " => " ++ slot p.2

/-! ### Block parameters -/

/-- The entries of a parameter table, if it is one.  A blank table has none; a text is a table of
its characters, bytes of their numbers and an object of its keys. -/
def entries? (table : Value) : Option (List Value) :=
  if table.isBlank then some []
  else match table with
    | .seq xs => some xs
    | .array xs => some xs
    | .str t => some (t.map fun c => .str [c])
    | .bytes bs => some (bs.map fun b => .int b.toNat)
    | .object ms => some (ms.map fun m => .str m.1)
    | _ => none

/-- Whether a value is the number zero, or false. -/
def isZero : Value → Bool
  | .bool b => !b
  | .int n => n = 0
  | .float x => x.equalInt 0
  | _ => false

/-- The tag of an argument specification. -/
def specTag : Text := "ARGS"

/-- The number of leading parameters that an argument specification allows, if it allows nothing
else: its first child is an integer and the others are absent or zero. -/
def leadingCount? : Value → Option Int
  | .node tag (.int n :: others) _ _ =>
    if tag = specTag ∧ others.all (fun v => !v.isPresent || isZero v) then some n else none
  | _ => none

/-- The first `n` of a list; a negative `n` leaves out as many at its end. -/
def leading (n : Int) (ts : List Text) : List Text :=
  match n with
  | .ofNat n => ts.take n
  | .negSucc n => ts.take (ts.length - (n + 1))

/-- The names of the parameters of a block.  Without an argument specification the table holds
only locals; with one for leading parameters alone, the rest of the table does. -/
def parameters? (table spec : Value) : Option (List Text) :=
  if spec.isPresent then
    (entries? table).map fun vs =>
      let names := vs.map Value.displayed
      match leadingCount? spec with
      | some n => leading n names
      | none => names
  else some []

/-- A block from the parts of its scope.  The parameters stand between bars, and without any there
are no bars either.  Nothing of the block is written if its parameters are not a table. -/
def block (table spec body : Value) : List Step :=
  match parameters? table spec with
  | none => malformed .notATable
  | some names =>
    word " do" ++ (if names.isEmpty then [] else word (" |" ++ Text.joined ", " names ++ "|")) ++
      word "\n" ++ slot body ++ word "\nend"

/-! ### Strings with interpolations -/

/-- A segment of an interpolated string: a text node is escaped by itself, whatever comes before and
after it, and an interpolation is visited.  The origin of a text node is not looked at. -/
def segment : Value → List Step
  | .nil => []
  | .node tag cs line synthetic =>
    if tag = Tag.str.label then
      match child cs 0 with
      | .str t => word (Literal.escape t)
      | v => refuse (.invalidFragment v line)
    else if tag = Tag.evstr.label then [.visit (.node tag cs line synthetic)]
    else refuse (.unexpectedSegment tag line)
  | v => refuse (.unexpectedSegment v.kindWord none)

/-- The segments after the second child of an interpolated string. -/
def furtherSegments : Value → List Step
  | .nil => []
  | v => withChildren v fun cs => cs.flatMap segment

/-- The text that an interpolated string begins with; a blank value stands for none. -/
def opening (v : Value) : Except BodyFault Text :=
  if v.isBlank then .ok [] else v.escapedBody

/-! ### Operators -/

/-- An operator without the marks at its end that tell it from a binary one. -/
def unaryOperator (op : Text) : Text :=
  (op.reverse.dropWhile (· = CodePoint.scalar '@')).reverse

/-- An operator applied to its operands; the right one is wrapped in a list of arguments. -/
def operation (left : Value) (op : Text) (right : Value) : List Step :=
  if op = "!" then word "!(" ++ slot left ++ word ")"
  else match right with
    | .nil => word (unaryOperator op ++ "(") ++ slot left ++ word ")"
    | _ => withChildren right fun cs => withFirst cs fun operand =>
        slot left ++ word (" " ++ op ++ " ") ++ slot operand

/-- A condition with one or two branches. -/
def conditional (keyword : Text) (cs : List Value) : List Step :=
  word (keyword ++ " ") ++ slot (child cs 0) ++ word "\n" ++ slot (child cs 1) ++
    (if (child cs 2).isPresent then word "\nelse\n" ++ slot (child cs 2) else []) ++ word "\nend"

/-- A loop; a test that is said not to come first comes last. -/
def loop (test body first : Value) : List Step :=
  match first with
  | .bool false => word "begin\n" ++ slot body ++ word "\nend while " ++ slot test
  | _ => word "while " ++ slot test ++ word "\n" ++ slot body ++ word "\nend"

/-- The operator of an assignment to an element. -/
def elementAssignment : Text := "[]="

/-- An assignment to an element of the receiver: the last argument is the value and those before
it are the subscript. -/
def assignElement (receiver : Value) (op : Text) (args : Value) (line : Option Int) : List Step :=
  if op = elementAssignment then
    withChildren args fun cs =>
      match (withoutSentinel cs).getLast? with
      | none => malformed .noChild
      | some value =>
        slot receiver ++ word "[" ++ listed (withoutSentinel cs).dropLast ++ word "] = " ++
          slot value
  else refuse (.unsupportedOperator op line)

/-! ### Nodes -/

/-- The layout of a node with a known tag. -/
def ofTag (cs : List Value) (line : Option Int) : Tag → List Step
  | .scope => word "proc do" ++ scope [cs.getLast?.getD .nil] ++ word "end"
  | .block => List.intercalate (word "\n") (cs.map slot)
  | .iter =>
    withChildren (child cs 1) fun ds =>
      slot (child cs 0) ++ block (child ds 0) (child ds 1) (child ds 2)
  | .iterScope => block (child cs 0) (child cs 1) (child cs 2)
  | .const | .dvar | .lvar | .ivar => withFirst cs fun name => word name.displayed
  | .vcall => withFirst cs fun name => word (name.displayed ++ "()")
  | .colon2 => slot (child cs 0) ++ word ("::" ++ (child cs 1).displayed)
  | .call =>
    let method := (child cs 1).displayed
    if method = "[]" then slot (child cs 0) ++ word "[" ++ arguments (child cs 2) ++ word "]"
    else slot (child cs 0) ++ word ("." ++ method ++ "(") ++ arguments (child cs 2) ++ word ")"
  | .fcall => word ((child cs 0).displayed ++ "(") ++ arguments (child cs 1) ++ word ")"
  | .opcall => operation (child cs 0) (child cs 1).displayed (child cs 2)
  | .dasgnCurr | .dasgn | .lasgn | .iasgn =>
    word ((child cs 0).displayed ++ " = ") ++ slot (child cs 1)
  | .ifElse => conditional "if" cs
  | .unlessElse => conditional "unless" cs
  | .whileLoop => loop (child cs 0) (child cs 1) (child cs 2)
  | .lit => withFirst cs fun v =>
      match v.literal with
      | .ok t => word t
      | .error _ => refuse (.invalidFragment v line)
  | .str => withFirst cs fun v =>
      match v with
      | .str t => word (Literal.quoted t)
      | _ => refuse (.invalidFragment v line)
  | .nilWord => word "nil"
  | .trueWord => word "true"
  | .falseWord => word "false"
  | .dstr =>
    match opening (child cs 0) with
    | .error f => malformed (.badBody f)
    | .ok t =>
      word ("\"" ++ t) ++ segment (child cs 1) ++ furtherSegments (child cs 2) ++ word "\""
  | .evstr => withFirst cs fun v => word "#\x7b" ++ slot v ++ word "\x7d"
  | .conj => slot (child cs 0) ++ word " && " ++ slot (child cs 1)
  | .disj => slot (child cs 0) ++ word " || " ++ slot (child cs 1)
  | .list => word "[" ++ listed (withoutSentinel cs) ++ word "]"
  | .listEmbedded => listed cs
  | .hash =>
    match child cs 0 with
    | .nil => word "\x7b" ++ word "\x7d"
    | v => withChildren v fun ds =>
        word "\x7b" ++ List.intercalate (word ", ") ((pairs ds).map pair) ++ word "\x7d"
  | .attrasgn => assignElement (child cs 0) (child cs 1).displayed (child cs 2) line
  | .rescue =>
    withChildren (child cs 1) fun ds =>
      slot (child cs 0) ++ word " rescue " ++ slot (child ds 1)
  | .begin => slot (child cs 0)

end Layout

/-- The layout of a value.  A node must have a tag of its own origin; what is not a node has no
rendering of its own. -/
def Value.layout : Value → List Step
  | .node tag cs line synthetic =>
    match Tag.ofText? tag with
    | some g =>
      if g.isSynthetic = synthetic then Layout.ofTag cs line g
      else Layout.refuse (.unsupportedNode tag line)
    | none => Layout.refuse (.unsupportedNode tag line)
  | v => Layout.refuse (.invalidFragment v none)

end Deparse
