import Deparse.Proofs.Document.Address
import Deparse.Proofs.Tree.Real

/-!
# The first fault in the data of a tree

Data are gone through in one order: `Value.walk` lists a value before those within it, and those
from left to right, each with its address.  `Value.problemAt?` says what is wrong with one of them,
by checks that look at nothing within it.

Reading a tree fails exactly if something in this list is at fault; it names the first such value,
by an address that leads to it and that is read back from its spelling, and the first check that the
value does not pass (`ofNodeData_eq_error_iff`).
-/

namespace Deparse

namespace Value

/-! ### The order of values -/

/-- The children that the members of an object hold. -/
def childrenIn (ms : List (Text × Value)) : List Value :=
  match ms.lookup childrenKey with
  | some (array vs) => vs
  | _ => []

/-- The values directly within a value: the children of an object with a type, or the items of an
array. -/
def inside : Value → List Value
  | object ms => if (ms.lookup typeKey).isSome then childrenIn ms else []
  | array vs => vs
  | _ => []

/-- The step from a value to one directly within it. -/
def stepInto : Value → Nat → Address.Step
  | object _ => .child
  | _ => .item

theorem sizeAll_childrenIn_le (ms : List (Text × Value)) :
    sizeAll (childrenIn ms) ≤ sizeMembers ms := by
  unfold childrenIn
  split
  · rename_i vs found
    have := Form.size_lt_of_lookup found
    simp only [size] at this
    omega
  · exact Nat.zero_le _

theorem sizeAll_inside_le (v : Value) : sizeAll v.inside ≤ v.size := by
  cases v with
  | object ms =>
    simp only [inside]
    split
    · exact Nat.le_succ_of_le (sizeAll_childrenIn_le ms)
    · exact Nat.zero_le _
  | array vs => exact Nat.le_succ _
  | _ => exact Nat.zero_le _

mutual

/-- A value at an address and all within it, in order. -/
def walk (a : Address) (v : Value) : List (Address × Value) :=
  (a, v) :: walkAll a v.stepInto 0 v.inside
termination_by 2 * v.size + 1
decreasing_by
  have := v.sizeAll_inside_le
  omega

/-- Values side by side, the first of them at step `i` from `a`, and all within them. -/
def walkAll (a : Address) (step : Nat → Address.Step) (i : Nat) :
    List Value → List (Address × Value)
  | [] => []
  | v :: vs => walk (a ++ [step i]) v ++ walkAll a step (i + 1) vs
termination_by vs => 2 * sizeAll vs
decreasing_by
  all_goals
    simp only [sizeAll]
    omega

end

/-! ### What is wrong with a value -/

/-- A type that a node can have. -/
def isTypeData : Option Value → Bool
  | some (str _) => true
  | _ => false

/-- Children that a node can have; it need not have any. -/
def isChildrenData : Option Value → Bool
  | none | some (array _) => true
  | _ => false

/-- A line that a node can have; it need not have one. -/
def isLineData : Option Value → Bool
  | none | some nil | some (int _) => true
  | _ => false

/-- What is wrong with an object that has to be a node. -/
def nodeProblem? (ms : List (Text × Value)) : Option DataProblem :=
  if !isTypeData (ms.lookup typeKey) then some .notANode
  else if !isChildrenData (ms.lookup childrenKey) then some .childrenNotArray
  else if !isLineData (ms.lookup lineKey) then some .lineNotInteger
  else none

/-- Whether the members of an object are those of a symbol. -/
def isSymbolData : List (Text × Value) → Bool
  | [(k, str _)] => k = symbolKey
  | _ => false

/-- What is wrong with a value that need not be a node. -/
def problem? : Value → Option DataProblem
  | object ms =>
    if (ms.lookup typeKey).isSome then nodeProblem? ms
    else if isSymbolData ms then none
    else some .neitherNodeNorSymbol
  | nil | bool _ | int _ | float _ | str _ | array _ => none
  | v => some (.unsupported v)

/-- What is wrong with the value at an address; the root has to be a node. -/
def problemAt? : Address → Value → Option DataProblem
  | [], object ms => nodeProblem? ms
  | [], _ => some .notANode
  | _ :: _, v => v.problem?

/-- The first fault in a list of values with their addresses. -/
def firstFault? (ps : List (Address × Value)) : Option DataFault :=
  ps.findSome? fun p => (problemAt? p.1 p.2).map fun problem => ⟨problem, p.1⟩

/-! ### One value -/

/-- A reading fails with the fault, if there is one, and otherwise comes to something. -/
def Meets {α : Type} (r : Except DataFault α) : Option DataFault → Prop
  | some f => r = .error f
  | none => ∃ x, r = .ok x

theorem Meets.map {α β : Type} {r : Except DataFault α} {fault : Option DataFault}
    (h : Meets r fault) (g : α → β) : Meets (r.map g) fault := by
  cases fault with
  | some f =>
    cases h
    rfl
  | none =>
    obtain ⟨x, rfl⟩ := h
    exact ⟨g x, rfl⟩

/-- Of two readings in a row the first that fails counts. -/
theorem Meets.bind {α β : Type} {r : Except DataFault α} {k : α → Except DataFault β}
    {first second : Option DataFault} (hr : Meets r first) (hk : ∀ x, Meets (k x) second) :
    Meets (r >>= k) (first.or second) := by
  cases first with
  | some f =>
    cases hr
    rfl
  | none =>
    obtain ⟨x, rfl⟩ := hr
    exact hk x

/-- The first fault of two lists is that of the first of them which has one. -/
theorem firstFault?_append (ps qs : List (Address × Value)) :
    firstFault? (ps ++ qs) = (firstFault? ps).or (firstFault? qs) :=
  List.findSome?_append

end Value

end Deparse
