import Deparse.Value.Diagnostic
import Deparse.Value.Equality

/-!
# Trees as data

In the data of a document a node is an object with a `type`, a symbol an object with nothing but a
`sym`, a sequence an array, and every other scalar stands for itself.  `Value.toData` writes a tree
as data and `Value.ofData` reads it; reading stops at the first value that is none of these and
names its address.  A value is judged before those within it (`Form.ofValue`), and those from left
to right.

An address leads from the root of a document to a value in it: each step enters the children of a
node or the items of an array.
-/

namespace Deparse

/-! ### Addresses -/

/-- A step towards a value in a document. -/
inductive Address.Step where
  /-- To a child of a node. -/
  | child (index : Nat)
  /-- To an item of an array. -/
  | item (index : Nat)
deriving DecidableEq

/-- The steps to a value, the first one first. -/
abbrev Address := List Address.Step

namespace Address

/-- The spelling of a step. -/
def Step.text : Step → Text
  | child i => ".children[" ++ Numeral.decimal i ++ "]"
  | item i => "[" ++ Numeral.decimal i ++ "]"

/-- The spelling of an address after that of the root. -/
def text (root : Text) (a : Address) : Text :=
  root ++ a.flatMap Step.text

/-- The spelling of the root of a document. -/
def root : Text := "$"

end Address

/-! ### Faults -/

/-- What is wrong with a value in the data of a tree. -/
inductive DataProblem where
  /-- It should be a node and is not an object with a text for its type. -/
  | notANode
  | childrenNotArray
  | lineNotInteger
  | neitherNodeNorSymbol
  /-- It is of a kind that documents do not have. -/
  | unsupported (v : Value)
deriving DecidableEq

/-- The wording of a problem, without its place. -/
def DataProblem.message : DataProblem → Text
  | notANode => "Expected a node object with a string 'type'"
  | childrenNotArray => "Node 'children' must be an array"
  | lineNotInteger => "Node 'lineno' must be an integer"
  | neitherNodeNorSymbol => "Object is neither a node nor a symbol"
  | unsupported v => "Unsupported JSON value " ++ v.described

/-- The first problem in the data of a tree, and where it is. -/
structure DataFault where
  problem : DataProblem
  address : Address
deriving DecidableEq

/-- A wording followed by the spelling of a place. -/
def located (message place : Text) : Text :=
  message ++ " (at " ++ place ++ ")"

/-- The wording of a fault in data whose root is spelled as given. -/
def DataFault.message (root : Text) (f : DataFault) : Text :=
  located f.problem.message (f.address.text root)

/-! ### The form of a value -/

/-- The key of the tag of a node; an object that has it is a node. -/
def typeKey : Text := "type"

/-- The key of the children of a node. -/
def childrenKey : Text := "children"

/-- The key of the line of a node. -/
def lineKey : Text := "lineno"

/-- The only key of a symbol, which holds its name. -/
def symbolKey : Text := "sym"

/-- What a value in the data of a tree stands for, the values within it not yet read. -/
inductive Form where
  | scalar (v : Value)
  | items (vs : List Value)
  | node (tag : Text) (children : List Value) (line : Option Int)

namespace Form

/-- The children of a node, given its members.  A node without the key has none. -/
def children (ms : List (Text × Value)) : Except DataProblem (List Value) :=
  match ms.lookup childrenKey with
  | none => .ok []
  | some (.array vs) => .ok vs
  | some _ => .error .childrenNotArray

/-- The line of a node, given its members. -/
def line (ms : List (Text × Value)) : Except DataProblem (Option Int) :=
  match ms.lookup lineKey with
  | none => .ok none
  | some .nil => .ok none
  | some (.int n) => .ok (some n)
  | some _ => .error .lineNotInteger

/-- The form of a node, given its members. -/
def ofMembers (ms : List (Text × Value)) : Except DataProblem Form :=
  match ms.lookup typeKey with
  | some (.str tag) => do
    let cs ← children ms
    let n ← line ms
    return node tag cs n
  | _ => .error .notANode

/-- The form of a value that has to be a node. -/
def ofNode : Value → Except DataProblem Form
  | .object ms => ofMembers ms
  | _ => .error .notANode

/-- The form of a value that need not be a node.  An object with the key of a type has to be a node,
and any other object a symbol. -/
def ofValue : Value → Except DataProblem Form
  | .object ms =>
    if (ms.lookup typeKey).isSome then ofMembers ms
    else
      match ms with
      | [(k, .str name)] =>
        if k = symbolKey then .ok (scalar (.sym name)) else .error .neitherNodeNorSymbol
      | _ => .error .neitherNodeNorSymbol
  | .array vs => .ok (items vs)
  | .nil => .ok (scalar .nil)
  | .bool b => .ok (scalar (.bool b))
  | .int n => .ok (scalar (.int n))
  | .float x => .ok (scalar (.float x))
  | .str t => .ok (scalar (.str t))
  | v => .error (.unsupported v)

/-- The values that are still to be read. -/
def inner : Form → List Value
  | scalar _ => []
  | items vs => vs
  | node _ cs _ => cs

theorem size_lt_of_lookup {k : Text} {v : Value} {ms : List (Text × Value)}
    (h : ms.lookup k = some v) : v.size < Value.sizeMembers ms := by
  induction ms with
  | nil => simp at h
  | cons m ms ih =>
    obtain ⟨l, w⟩ := m
    simp only [List.lookup_cons] at h
    simp only [Value.sizeMembers]
    split at h
    · cases h
      omega
    · have := ih h
      omega

theorem sizeAll_inner_ofMembers {ms : List (Text × Value)} {f : Form}
    (h : ofMembers ms = .ok f) : Value.sizeAll f.inner ≤ Value.sizeMembers ms := by
  unfold ofMembers at h
  split at h
  · cases hc : children ms with
    | error e => simp [hc, bind, Except.bind] at h
    | ok cs =>
      cases hl : line ms with
      | error e => simp [hc, hl, bind, Except.bind] at h
      | ok n =>
        simp [hc, hl, bind, Except.bind, pure, Except.pure] at h
        subst h
        simp only [inner]
        unfold children at hc
        split at hc
        · cases hc
          simp [Value.sizeAll]
        · rename_i vs found
          cases hc
          have := size_lt_of_lookup found
          simp only [Value.size] at this
          omega
        · cases hc
  · cases h

/-- What is within a form that is no scalar is smaller than the value it is the form of. -/
theorem sizeAll_inner_lt {v : Value} {f : Form} (h : ofValue v = .ok f)
    (inside : ∀ s, f ≠ scalar s) : Value.sizeAll f.inner < v.size := by
  cases v with
  | object ms =>
    simp only [ofValue] at h
    split at h
    · exact Nat.lt_succ_of_le (sizeAll_inner_ofMembers h)
    · split at h
      · split at h
        · cases h
          exact absurd rfl (inside _)
        · cases h
      · cases h
  | array vs =>
    cases h
    exact Nat.lt_succ_self _
  | seq | sym | bytes | node => cases h
  | nil | bool | int | float | str =>
    cases h
    exact absurd rfl (inside _)

end Form

/-! ### Reading -/

namespace Value

mutual

/-- The value that data at an address stands for. -/
def ofDataAt (a : Address) (v : Value) : Except DataFault Value :=
  match _h : Form.ofValue v with
  | .error p => .error ⟨p, a⟩
  | .ok (.scalar s) => .ok s
  | .ok (.items vs) => (ofDataAll a .item 0 vs).map seq
  | .ok (.node tag cs line) => (ofDataAll a .child 0 cs).map fun cs => node tag cs line false
termination_by v.size
decreasing_by all_goals exact Form.sizeAll_inner_lt _h (by simp)

/-- The values that data side by side stand for, the first of them at step `i` from `a`. -/
def ofDataAll (a : Address) (step : Nat → Address.Step) (i : Nat) :
    List Value → Except DataFault (List Value)
  | [] => .ok []
  | v :: vs => do
    let w ← ofDataAt (a ++ [step i]) v
    let ws ← ofDataAll a step (i + 1) vs
    return w :: ws
termination_by vs => sizeAll vs
decreasing_by
  all_goals
    simp only [sizeAll]
    omega

end

/-- The value that data stand for. -/
def ofData (v : Value) : Except DataFault Value :=
  ofDataAt [] v

/-- The tree that data stand for; the root has to be a node, and is judged as such first. -/
def ofNodeData (v : Value) : Except DataFault Value :=
  match Form.ofNode v with
  | .error p => .error ⟨p, []⟩
  | .ok _ => ofData v

/-! ### Writing -/

/-- The members of a node, given its children as data. -/
def nodeMembers (tag : Text) (children : List Value) (line : Option Int) : List (Text × Value) :=
  [(typeKey, str tag), (childrenKey, array children)] ++
    match line with
    | none => []
    | some n => [(lineKey, int n)]

mutual

/-- The data of a value. -/
def toData : Value → Value
  | node tag cs line _ => object (nodeMembers tag (toDataAll cs) line)
  | sym name => object [(symbolKey, str name)]
  | seq xs => array (toDataAll xs)
  | array xs => array (toDataAll xs)
  | v => v

/-- The data of each value of a list. -/
def toDataAll : List Value → List Value
  | [] => []
  | v :: vs => toData v :: toDataAll vs

end

end Value

end Deparse
