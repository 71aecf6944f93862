import Deparse.Proofs.Tree.Real
import Deparse.Tree.Tag

/-!
# Trees with a hole

A tree with one *hole* in it is given by the frames around the hole, the outermost first: a node
without one of its children, or a sequence without one of its members.  `Hole.fill` puts a value
into the hole.

Each place in a tree has a *role*, which says what the layout of the node above does with its
content.  Most contents are rendered as they are (`Role.operand`); others are spelled as names, or
are taken apart, so that the places within them have roles of their own (`Role.within`).
-/

namespace Deparse

/-! ### Frames -/

/-- A node without one of its children, or a sequence without one of its members. -/
inductive Frame where
  | child (tag : Text) (before after : List Value) (line : Option Int)
  | member (before after : List Value)
deriving DecidableEq

namespace Frame

/-- The value in its place. -/
def plug : Frame → Value → Value
  | child tag before after line, v => .node tag (before ++ v :: after) line false
  | member before after, v => .seq (before ++ v :: after)

/-- Whether what stands beside the place is real. -/
def isReal : Frame → Bool
  | child _ before after _ | member before after =>
    Value.areReal before && Value.areReal after

end Frame

/-- The frames around a hole, the outermost first. -/
abbrev Hole := List Frame

namespace Hole

/-- The tree with the value in the hole. -/
def fill (h : Hole) (v : Value) : Value :=
  h.foldr Frame.plug v

/-- Whether all of the tree around the hole is real. -/
def isReal (h : Hole) : Bool :=
  h.all Frame.isReal

theorem fill_append (h k : Hole) (v : Value) : fill (h ++ k) v = h.fill (k.fill v) :=
  List.foldr_append

end Hole

/-! ### What stands around a hole -/

/-- A real value that is more than a scalar: a node, or a sequence with a member. -/
inductive Solid : Value → Prop where
  | node (tag : Text) (cs : List Value) (line : Option Int) (real : Value.areReal cs = true) :
    Solid (.node tag cs line false)
  | seq (xs : List Value) (hne : xs ≠ []) (real : Value.areReal xs = true) :
    Solid (.seq xs)

theorem Solid.isReal {v : Value} (h : Solid v) : v.isReal = true := by
  cases h with
  | node tag cs line real => exact real
  | seq xs hne real => exact real

theorem Solid.isPresent {v : Value} (h : Solid v) : v.isPresent = true := by
  cases h <;> rfl

/-- A frame around something solid is solid. -/
theorem Solid.plug {v : Value} (h : Solid v) {frame : Frame} (real : frame.isReal = true) :
    Solid (frame.plug v) := by
  -- what stands beside the place is real as well
  have members (before after : List Value)
      (sides : (Value.areReal before && Value.areReal after) = true) :
      Value.areReal (before ++ v :: after) = true := by
    obtain ⟨hb, ha⟩ := Bool.and_eq_true_iff.1 sides
    have tail : Value.areReal (v :: after) = true := Bool.and_eq_true_iff.2 ⟨h.isReal, ha⟩
    rw [Value.areReal_append, hb, tail, Bool.and_self]
  cases frame with
  | child tag before after line => exact .node _ _ _ (members before after real)
  | member before after => exact .seq _ (by simp) (members before after real)

/-- So is a tree around it. -/
theorem Solid.fill {v : Value} (h : Solid v) {hole : Hole} (real : hole.isReal = true) :
    Solid (hole.fill v) := by
  induction hole with
  | nil => exact h
  | cons frame hole ih =>
    obtain ⟨hframe, hhole⟩ := Bool.and_eq_true_iff.1 real
    exact (ih hhole).plug hframe

/-! ### Roles -/

/-- What the layout of a node does with the content of a place. -/
inductive Role where
  /-- It is rendered as a slot. -/
  | operand
  /-- It is spelled as a name. -/
  | name
  /-- It is rendered as the arguments of a call. -/
  | arguments
  /-- Its children are the parameters and the body of a block. -/
  | blockScope
  /-- It tells which of the entries of a table are the parameters of a block. -/
  | spec
  /-- Its first child is the right operand of an operator. -/
  | rightOperand
  /-- Its children are the subscript of an assignment to an element, and the value. -/
  | elementArguments
  /-- Its children are the keys and values of a hash. -/
  | pairList
  /-- Its second child is what a rescue falls back on. -/
  | clause
  /-- An interpolated string begins with it. -/
  | opening
  | segment
  /-- Its children are segments of an interpolated string. -/
  | segmentList
  /-- None of these. -/
  | other
deriving DecidableEq

namespace Role

/-- The roles of the children of a node, for the tags that have a use for some of them only. -/
def places : Tag → List Role
  | .iter => [operand, blockScope]
  | .const | .vcall | .dvar | .lvar | .ivar => [name]
  | .colon2 => [operand, name]
  | .call => [operand, name, arguments]
  | .fcall => [name, arguments]
  | .opcall => [operand, name, rightOperand]
  | .dasgnCurr | .dasgn | .lasgn | .iasgn => [name, operand]
  | .ifElse | .unlessElse => [operand, operand, operand]
  | .whileLoop | .conj | .disj => [operand, operand]
  | .dstr => [opening, segment, segmentList]
  | .evstr | .begin => [operand]
  | .hash => [pairList]
  | .attrasgn => [operand, name, elementArguments]
  | .rescue => [operand, clause]
  | _ => []

/-- The role of a child of a node with the given tag, from the number of children before it and
whether it is the last one. -/
def ofChild (i : Nat) (last : Bool) : Tag → Role
  | .scope => if last then operand else other
  | .block | .list => operand
  | g => (places g).getD i other

/-- The role of a child of a node that is rendered as its tag says. -/
def ofNode (tag : Text) (i : Nat) (last : Bool) : Role :=
  match Tag.ofText? tag with
  | some g => ofChild i last g
  | none => other

/-- The role of the place in a frame whose own place has the given role. -/
def within (r : Role) : Frame → Role
  | .child tag before after _ =>
    match r with
    | name => name
    | blockScope => [name, spec, operand].getD before.length other
    | rightOperand => [operand].getD before.length other
    | elementArguments | pairList => operand
    | clause => [other, operand].getD before.length other
    | segmentList => segment
    | operand | arguments | spec | opening | segment | other =>
      ofNode tag before.length after.isEmpty
  | .member .. =>
    match r with
    | name => name
    | operand | arguments => operand
    | _ => other

/-- Nothing within a name has a role of its own. -/
theorem foldl_within_name (h : Hole) : h.foldl within name = name := by
  induction h with
  | nil => rfl
  | cons frame h ih =>
    cases frame <;> exact ih

end Role

/-- The role of the place that a hole leaves open; the outermost value is an operand. -/
def Hole.role (h : Hole) : Role :=
  h.foldl Role.within .operand

end Deparse
