import Deparse.Proofs.Source.Joined
import Deparse.Proofs.Source.Rendered
import Deparse.Proofs.Source.Rewriting

/-!
# The parameters of blocks

The scope of a block holds a table of names, of which the parameters come first and the locals after
them.  How many are parameters is told by the argument specification: none without one, the first
`n` if it is one of `n` leading parameters and nothing else, and otherwise all.  A call with a block
is written with these and no others, in any context (`convert_parameters`).

So the locals can be changed wherever the call stands, at any number of places of a tree, and the
tree comes to the same (`SameBlocks`).  The message of a refusal may show the table, and a call that
is a name, or is taken for a list, shows its scope; nothing else depends on the locals.
-/

namespace Deparse

open Layout Piece Emission

/-! ### Argument specifications -/

/-- The value is an argument specification of `n` leading parameters and nothing else: all that
comes after the number is absent or equal to zero. -/
def Value.SpecifiesLeading (spec : Value) (n : Int) : Prop :=
  ∃ others line synthetic, spec = .node "ARGS" (.int n :: others) line synthetic ∧
    ∀ v ∈ others, v = .nil ∨ v.equal (.int 0) = true

namespace Layout

theorem isZero_eq_equal (v : Value) : isZero v = v.equal (.int 0) := by
  cases v with
  | bool b => cases b <;> rfl
  | _ => rfl

theorem isAbsentOrZero_iff (v : Value) :
    (!v.isPresent || isZero v) = true ↔ v = .nil ∨ v.equal (.int 0) = true := by
  rw [← isZero_eq_equal, Bool.or_eq_true]
  cases v <;> simp [Value.isPresent]

theorem leadingCount?_eq_some_iff {spec : Value} {n : Int} :
    leadingCount? spec = some n ↔ spec.SpecifiesLeading n := by
  constructor
  · intro h
    unfold leadingCount? at h
    split at h
    · rename_i tag m others line synthetic
      split at h
      · rename_i plain
        obtain ⟨rfl, zeros⟩ := plain
        cases h
        refine ⟨others, line, synthetic, rfl, ?_⟩
        intro v hv
        exact (isAbsentOrZero_iff v).1 (List.all_eq_true.1 zeros v hv)
      · cases h
    · cases h
  · rintro ⟨others, line, synthetic, rfl, zeros⟩
    have all : others.all (fun v => !v.isPresent || isZero v) = true := by
      rw [List.all_eq_true]
      intro v hv
      exact (isAbsentOrZero_iff v).2 (zeros v hv)
    exact if_pos ⟨rfl, all⟩

theorem leadingCount?_eq_none_of_tag {tag : Text} (h : tag ≠ specTag) (cs : List Value)
    (line : Option Int) (synthetic : Bool) :
    leadingCount? (.node tag cs line synthetic) = none := by
  cases cs with
  | nil => rfl
  | cons c cs =>
    cases c with
    | int n => exact if_neg fun plain => h plain.1
    | _ => rfl

/-! ### The names that are parameters -/

theorem entries?_seq (vs : List Value) : entries? (.seq vs) = some vs := by
  cases vs <;> rfl

variable {spec : Value} (table : List Value)

theorem parameters?_leading {n : Nat} (h : spec.SpecifiesLeading n) :
    parameters? (.seq table) spec
      = some ((table.take (min n table.length)).map Value.displayed) := by
  have present : spec.isPresent = true := by
    obtain ⟨others, line, synthetic, rfl, -⟩ := h
    rfl
  have count : leadingCount? spec = some (n : Int) := leadingCount?_eq_some_iff.2 h
  have names : leading (n : Int) (table.map Value.displayed)
      = (table.take (min n table.length)).map Value.displayed := by
    rw [← List.take_eq_take_min, List.map_take]
    rfl
  rw [parameters?, if_pos present, entries?_seq, Option.map_some, count, ← names]

end Layout

namespace Emission

end Emission

/-! ### Calls with a block -/

/-- A call with a block whose scope holds a table. -/
structure BlockCall where
  call : Value
  scopeTag : Text
  table : List Value
  /-- What the scope holds after the table: the argument specification, the body. -/
  rest : List Value
  scopeLine : Option Int
  scopeSynthetic : Bool
  /-- What stands after the scope. -/
  others : List Value
  line : Option Int

namespace BlockCall

/-- The scope node, which holds the table first. -/
def scope (x : BlockCall) : Value :=
  .node x.scopeTag (.seq x.table :: x.rest) x.scopeLine x.scopeSynthetic

/-- The whole call as a node of a tree. -/
def node (x : BlockCall) : Value :=
  .node Tag.iter.label (x.call :: x.scope :: x.others) x.line false

/-- The argument specification, absent if the scope ends before it. -/
def spec (x : BlockCall) : Value :=
  child x.rest 0

/-- The body of the block, absent if the scope ends before it. -/
def body (x : BlockCall) : Value :=
  child x.rest 1

/-- The same call with another table. -/
def withTable (x : BlockCall) (table : List Value) : BlockCall :=
  { x with table := table }

/-- The other table has the same parameters: without a specification there are none, and one of
leading parameters alone takes them from the front. -/
def KeepsParameters (x : BlockCall) (table : List Value) : Prop :=
  x.spec = .nil ∨ ∃ n : Nat, x.spec.SpecifiesLeading n ∧ table.take n = x.table.take n

variable {x : BlockCall} {table : List Value}

theorem script_node (x : BlockCall) : x.node.script
    = pieces (slot x.call ++ block (.seq x.table) x.spec x.body) :=
  Layout.script_node (Tag.ofText?_label .iter) rfl _ _

/-- Tables with the same parameters are the same to the block. -/
theorem KeepsParameters.parameters_eq (h : x.KeepsParameters table) :
    parameters? (.seq table) x.spec = parameters? (.seq x.table) x.spec := by
  rcases h with absent | ⟨n, leads, same⟩
  · rw [absent]
    rfl
  · rw [parameters?_leading table leads, parameters?_leading x.table leads,
      ← List.take_eq_take_min, ← List.take_eq_take_min, same]

theorem KeepsParameters.script_eq (h : x.KeepsParameters table) :
    (x.withTable table).node.script = x.node.script := by
  have same : block (.seq table) x.spec x.body = block (.seq x.table) x.spec x.body := by
    rw [block, block, h.parameters_eq]
  rw [script_node, script_node]
  show pieces (slot x.call ++ block (.seq table) x.spec x.body) = _
  rw [same]

/-- A scope is no argument specification: what it holds first is a table and no number. -/
theorem leadingCount?_scope (x : BlockCall) : leadingCount? x.scope = none :=
  rfl

theorem leadingCount?_node (x : BlockCall) : leadingCount? x.node = none :=
  leadingCount?_eq_none_of_tag (by decide) _ _ _

end BlockCall

/-! ### Outcomes but for the values that are shown -/

/-- The fault without the value that its message shows. -/
def Fault.veiled : Fault → Fault
  | .refused (.invalidFragment _ line) => .refused (.invalidFragment .nil line)
  | f => f

namespace Piece

/-- The piece, a fault without the value that its message shows. -/
def veiled : Piece → Piece
  | fault f => fault f.veiled
  | p => p

end Piece

/-- Whether a call with a block that is put in a place of the role is not taken for one: it is
spelled as a name, or it is taken for a list or a clause, and its scope is rendered by itself. -/
def Role.exposesScope : Role → Bool
  | name | elementArguments | pairList | clause | segmentList => true
  | _ => false

/-- In any other place the locals are without influence. -/
theorem Reader.veiled_eq {r : Role} {R : Value → List Step} (h : Reader r R)
    (place : r.exposesScope = false) {x : BlockCall} {table : List Value}
    (same : x.KeepsParameters table) :
    (pieces (R x.node)).map veiled = (pieces (R (x.withTable table).node)).map veiled := by
  have slots : pieces (Layout.slot x.node) = pieces (Layout.slot (x.withTable table).node) := by
    rw [pieces_slot_of_isNode (v := x.node) rfl,
      pieces_slot_of_isNode (v := (x.withTable table).node) rfl, same.script_eq]
  cases h with
  | ignored | shown => rfl
  | slot => rw [slots]
  | visit => rw [pieces_visit, pieces_visit, same.script_eq]
  | arguments =>
    -- a call with a block is no list
    rw [arguments_of_not_isList (v := x.node) rfl,
      arguments_of_not_isList (v := (x.withTable table).node) rfl, slots]
  | blockScope call =>
    -- the call stands for the table, and the scope for a specification
    have inner := block_congr (s := x.scope) (t := (x.withTable table).scope) rfl rfl
      (by rw [BlockCall.leadingCount?_scope, BlockCall.leadingCount?_scope]) x.call
      (child x.others 0)
    exact congrArg (fun steps => (pieces (Layout.slot call ++ steps)).map veiled) inner
  | spec table' body =>
    have inner := block_congr (s := x.node) (t := (x.withTable table).node) rfl rfl
      (by rw [BlockCall.leadingCount?_node, BlockCall.leadingCount?_node]) table' body
    exact congrArg (fun steps => (pieces steps).map veiled) inner
  | rightOperand | opening | segment => rfl
  | elementArguments | pairList | clause | segmentList => cases place

/-- One table is put in the place of another with the same parameters, somewhere in a real tree. -/
inductive TableChange : Value → Value → Prop where
  | within {h : Hole} {x : BlockCall} {table : List Value} (same : x.KeepsParameters table)
    (place : h.role.exposesScope = false) (real : h.isReal = true) (before : x.node.isReal = true)
    (after : (x.withTable table).node.isReal = true) :
    TableChange (h.fill x.node) (h.fill (x.withTable table).node)

/-- Trees that differ in the tables of their blocks only, at any number of places, and have the same
parameters everywhere. -/
abbrev SameBlocks : Value → Value → Prop :=
  Relation.EqvGen TableChange

variable {v w : Value}

theorem TableChange.veiled_eq (h : TableChange v w) :
    v.script.map veiled = w.script.map veiled := by
  cases h with
  | @within h x table same place real before after =>
    have hname : h.role ≠ .name := by
      intro hrole
      rw [hrole] at place
      cases place
    obtain ⟨R, pre, post, hR, script⟩ := Hole.exists_reader real hname
    rw [script x.node rfl before, script (x.withTable table).node rfl after]
    simp only [List.map_append, hR.veiled_eq place same]

theorem SameBlocks.veiled_eq (h : SameBlocks v w) : v.script.map veiled = w.script.map veiled := by
  induction h with
  | rel v w h => exact h.veiled_eq
  | refl v => rfl
  | symm v w _ ih => exact ih.symm
  | trans u v w _ _ ih ih' => exact ih.trans ih'

end Deparse
