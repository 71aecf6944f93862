import Deparse.Proofs.Source.Linear
import Mathlib.Logic.Relation

/-!
# Rewrites that leave the rendering alone

Parsing a source text again may give another tree than the one it was rendered from: a node comes in
parentheses, a name becomes a call or another sort of variable, a call gets a list of arguments with
nothing in it, or a list loses its absent members.  `Rule` has these rewrites of a node, and
`Rewrite` applies one of them at a place of a real tree.

What a rule leads to is rendered like what it starts from (`Rule.alike`).  So a rewrite does not
change the rendering of the tree around it, or changes the message of a refusal that shows the place
(`Rewrite.alike`), and trees that any number of rewrites lead from one to the other agree
(`agree_of_related`).
-/

namespace Deparse

open Layout Piece

/-! ### Rules -/

/-- Whether a value is a list node, which stands for its members as the arguments of a call. -/
def Value.isList : Value → Bool
  | node tag _ _ _ => tag = Tag.list.label
  | _ => false

/-- The tags of the nodes that are rendered as the name they hold. -/
def Tag.variables : List Tag :=
  [dvar, lvar, ivar, const]

/-- The tags of the nodes that are rendered as an assignment to the name they hold. -/
def Tag.assignments : List Tag :=
  [dasgnCurr, dasgn, lasgn, iasgn]

/-- The rewrites of a node.  A missing child counts as an absent one. -/
inductive Rule : Value → Value → Prop where
  | parentheses {x : Value} (isNode : x.isNode = true) (line : Option Int) :
    Rule x (.node Tag.begin.label [x] line false)
  | vcall (name : Value) (line : Option Int) :
    Rule (.node Tag.vcall.label [name] line false) (.node Tag.fcall.label [name, .nil] line false)
  | sort {g g' : Tag} (hg : g ∈ Tag.variables) (hg' : g' ∈ Tag.variables) (cs : List Value)
    (line : Option Int) : Rule (.node g.label cs line false) (.node g'.label cs line false)
  | assignment {g g' : Tag} (hg : g ∈ Tag.assignments) (hg' : g' ∈ Tag.assignments)
    (cs : List Value) (line : Option Int) :
    Rule (.node g.label cs line false) (.node g'.label cs line false)
  /-- A call without a list of arguments is given one that has only absent members. -/
  | fcall {cs ds xs : List Value} {listLine : Option Int} (name : child ds 0 = child cs 0)
    (without : child cs 1 = .nil) (list : child ds 1 = .node Tag.list.label xs listLine false)
    (absent : ∀ x ∈ xs, x = .nil) (line : Option Int) :
    Rule (.node Tag.fcall.label cs line false) (.node Tag.fcall.label ds line false)
  | call {cs ds xs : List Value} {listLine : Option Int} (receiver : child ds 0 = child cs 0)
    (method : child ds 1 = child cs 1) (without : child cs 2 = .nil)
    (list : child ds 2 = .node Tag.list.label xs listLine false) (absent : ∀ x ∈ xs, x = .nil)
    (line : Option Int) :
    Rule (.node Tag.call.label cs line false) (.node Tag.call.label ds line false)
  /-- Absent members are put into a list or left out of it. -/
  | list {xs ys : List Value}
    (present : xs.filter Value.isPresent = ys.filter Value.isPresent) (line : Option Int) :
    Rule (.node Tag.list.label xs line false) (.node Tag.list.label ys line false)

variable {x y : Value}

theorem Rule.isNode (h : Rule x y) : x.isNode = true ∧ y.isNode = true := by
  cases h with
  | parentheses isNode => exact ⟨isNode, rfl⟩
  | _ => exact ⟨rfl, rfl⟩

/-! ### What a rule leads to -/

namespace Layout

theorem arguments_of_isList {v : Value} (h : v.isList = true) :
    arguments v = listed v.children := by
  cases v with
  | node tag cs line synthetic => exact if_pos (of_decide_eq_true h)
  | _ => cases h

theorem arguments_of_not_isList {v : Value} (h : v.isList = false) : arguments v = slot v := by
  cases v with
  | node tag cs line synthetic => exact if_neg (of_decide_eq_false h)
  | _ => rfl

/-- A list of absent arguments is written like no list of arguments. -/
theorem arguments_of_absent {xs : List Value} (h : ∀ x ∈ xs, x = .nil) (line : Option Int) :
    arguments (.node Tag.list.label xs line false) = arguments .nil := by
  have none : xs.filter Value.isPresent = [].filter Value.isPresent := by
    rw [List.filter_nil, List.filter_eq_nil_iff]
    intro x hx
    rw [h x hx]
    decide
  have members : arguments (.node Tag.list.label xs line false) = listed xs :=
    arguments_of_isList rfl
  rw [members, listed_congr none]
  rfl

/-- The tags of variables share one layout. -/
theorem ofTag_variable {g : Tag} (hg : g ∈ Tag.variables) (cs : List Value) (line : Option Int) :
    ofTag cs line g = ofTag cs line .const := by
  simp only [Tag.variables, List.mem_cons, List.not_mem_nil, or_false] at hg
  rcases hg with rfl | rfl | rfl | rfl <;> rfl

/-- So do those of assignments. -/
theorem ofTag_assignment {g : Tag} (hg : g ∈ Tag.assignments) (cs : List Value)
    (line : Option Int) : ofTag cs line g = ofTag cs line .lasgn := by
  simp only [Tag.assignments, List.mem_cons, List.not_mem_nil, or_false] at hg
  rcases hg with rfl | rfl | rfl | rfl <;> rfl

end Layout

/-- Nodes with one layout are rendered alike. -/
theorem alike_of_ofTag_eq {g g' : Tag} (real : g.isSynthetic = false)
    (real' : g'.isSynthetic = false) {cs ds : List Value} {line : Option Int}
    (h : ofTag cs line g = ofTag ds line g') :
    Alike (Value.node g.label cs line false).script (Value.node g'.label ds line false).script := by
  rw [script_node (Tag.ofText?_label g) real, script_node (Tag.ofText?_label g') real', h]
  exact .refl _

/-- What a rule leads to is rendered like what it starts from. -/
theorem Rule.alike (h : Rule x y) : Alike x.script y.script := by
  cases h with
  | parentheses isNode line =>
    have inner : (Value.node Tag.begin.label [x] line false).script = pieces (slot x) :=
      script_node (Tag.ofText?_label .begin) rfl [x] line
    rw [inner, pieces_slot_of_isNode isNode]
    exact .refl _
  | vcall name line =>
    -- the parentheses are written with the name, or after it
    have once := yields_text (name.displayed ++ "()")
    have apart := (yields_text (name.displayed ++ "(")).append (yields_text ")")
    rw [script_node (Tag.ofText?_label .vcall) rfl, script_node (Tag.ofText?_label .fcall) rfl]
    refine once.alike ?_ rfl
    rw [List.append_assoc] at apart
    exact apart
  | sort hg hg' cs line =>
    have real : ∀ g ∈ Tag.variables, g.isSynthetic = false := by decide
    apply alike_of_ofTag_eq (real _ hg) (real _ hg')
    rw [ofTag_variable hg, ofTag_variable hg']
  | assignment hg hg' cs line =>
    have real : ∀ g ∈ Tag.assignments, g.isSynthetic = false := by decide
    apply alike_of_ofTag_eq (real _ hg) (real _ hg')
    rw [ofTag_assignment hg, ofTag_assignment hg']
  | fcall name without list absent line =>
    apply alike_of_ofTag_eq rfl rfl
    simp only [ofTag, name, without, list, arguments_of_absent absent]
  | call receiver method without list absent line =>
    apply alike_of_ofTag_eq rfl rfl
    simp only [ofTag, receiver, method, without, list, arguments_of_absent absent]
  | list present line =>
    apply alike_of_ofTag_eq rfl rfl
    simp only [ofTag, listed_withoutSentinel, listed_congr present]

/-- The only rule from a list to a list is the one of its absent members. -/
theorem Rule.filter_children (h : Rule x y) (hx : x.isList = true) (hy : y.isList = true) :
    x.children.filter Value.isPresent = y.children.filter Value.isPresent := by
  cases h with
  | list present line => exact present
  | parentheses isNode line => cases hy
  | vcall | fcall | call => cases hx
  | sort hg =>
    have other : ∀ g ∈ Tag.variables, g.label ≠ Tag.list.label := by decide
    exact absurd (of_decide_eq_true hx) (other _ hg)
  | assignment hg =>
    have other : ∀ g ∈ Tag.assignments, g.label ≠ Tag.list.label := by decide
    exact absurd (of_decide_eq_true hx) (other _ hg)

/-- What a rule leads to is rendered like what it starts from as the arguments of a call, too, if
both are lists or neither is. -/
theorem Rule.alike_arguments (h : Rule x y) (same : x.isList = y.isList) :
    Alike (pieces (arguments x)) (pieces (arguments y)) := by
  cases hx : x.isList with
  | true =>
    have hy : y.isList = true := same ▸ hx
    rw [arguments_of_isList hx, arguments_of_isList hy, listed_congr (h.filter_children hx hy)]
    exact .refl _
  | false =>
    have hy : y.isList = false := same ▸ hx
    rw [arguments_of_not_isList hx, arguments_of_not_isList hy,
      pieces_slot_of_isNode h.isNode.1, pieces_slot_of_isNode h.isNode.2]
    exact h.alike

/-! ### Rewrites of a tree -/

/-- Whether a node in the hole may be rewritten to another: the hole is an operand, or the arguments
of a call, as which a list and any other node are not the same. -/
def Hole.Admits (h : Hole) (x y : Value) : Prop :=
  h.role = .operand ∨ h.role = .arguments ∧ x.isList = y.isList

/-- A rule applied to a node in a real tree. -/
inductive Rewrite : Value → Value → Prop where
  | within {h : Hole} {x y : Value} (rule : Rule x y) (place : h.Admits x y)
    (real : h.isReal = true) (before : x.isReal = true) (after : y.isReal = true) :
    Rewrite (h.fill x) (h.fill y)

/-- Trees that any number of rewrites, each in either direction, lead from one to the other. -/
abbrev Related : Value → Value → Prop :=
  Relation.EqvGen Rewrite

variable {v w : Value}

/-- A rule changes nothing in any place that admits it. -/
theorem Rewrite.alike (h : Rewrite v w) : Alike v.script w.script := by
  cases h with
  | @within h x y rule place real before after =>
    have hname : h.role ≠ .name := by
      rcases place with hrole | ⟨hrole, -⟩ <;> rw [hrole] <;> decide
    obtain ⟨isNode, isNode'⟩ := rule.isNode
    obtain ⟨R, pre, post, hR, script⟩ := Hole.exists_reader real hname
    rw [script x isNode before, script y isNode' after]
    -- the node before and the node after are read in the same way
    apply Alike.between
    rcases place with hrole | ⟨hrole, same⟩
    · rw [hrole] at hR
      cases hR with
      | ignored => exact .refl _
      | shown => exact (yields_fault _).alike (yields_fault _) rfl
      | slot =>
        rw [pieces_slot_of_isNode isNode, pieces_slot_of_isNode isNode']
        exact rule.alike
      | visit =>
        rw [pieces_visit, pieces_visit]
        exact rule.alike
    · rw [hrole] at hR
      cases hR with
      | ignored => exact .refl _
      | shown => exact (yields_fault _).alike (yields_fault _) rfl
      | arguments => exact rule.alike_arguments same

theorem Related.alike (h : Related v w) : Alike v.script w.script := by
  induction h with
  | rel v w h => exact h.alike
  | refl v => exact .refl _
  | symm v w _ ih => exact ih.symm
  | trans u v w _ _ ih ih' => exact ih.trans ih'

/-- Related trees have the same source text, or come to faults of the same kind after the same
text. -/
theorem agree_of_related (h : Related v w) : v.Agree w :=
  Value.agree_of_alike (Related.alike h)

/-- A negation that is assigned. -/
def negation (operand : Value) : Value :=
  .node "IASGN" [.sym "@a", .node "OPCALL" [operand, .sym "!", .nil] none false] (some 1) false

/-- A literal of a block, which has none. -/
def blockLiteral (statement : Value) : Value :=
  .node "LIT" [.node "BLOCK" [statement] none false] (some 3) false

/-- A name that may be a call. -/
def bareName : Value :=
  .node "VCALL" [.sym "b"] none false

/-- A call of the name without arguments. -/
def plainCall : Value :=
  .node "FCALL" [.sym "b", .nil] none false

/-- The call in parentheses of its own. -/
def groupedCall : Value :=
  .node "BEGIN" [plainCall] none false

/-- The name may be the call in a rendered place, and in one whose refusal shows it. -/
theorem agree_of_related_groupedCall :
    (Related (negation bareName) (negation groupedCall) ∧
      (negation bareName).toSource = .ok "@a = !(b())" ∧
      (negation bareName).Agree (negation groupedCall)) ∧
    Related (blockLiteral bareName) (blockLiteral groupedCall) ∧
      (blockLiteral bareName).toSource ≠ (blockLiteral groupedCall).toSource ∧
      (blockLiteral bareName).Agree (blockLiteral groupedCall) := by
  have related {h : Hole} (operand : h.role = .operand) (real : h.isReal = true) :
      Related (h.fill bareName) (h.fill groupedCall) := by
    -- first the name becomes a call, and then the call a group
    have call : Rewrite (h.fill bareName) (h.fill plainCall) :=
      .within (.vcall (.sym "b") none) (.inl operand) real rfl rfl
    have group : Rewrite (h.fill plainCall) (h.fill groupedCall) :=
      .within (.parentheses rfl none) (.inl operand) real rfl rfl
    exact .trans _ _ _ (.rel _ _ call) (.rel _ _ group)
  have first : Related (negation bareName) (negation groupedCall) :=
    related (h := [.child "IASGN" [.sym "@a"] [] (some 1),
      .child "OPCALL" [] [.sym "!", .nil] none]) (by decide) (by decide)
  have second : Related (blockLiteral bareName) (blockLiteral groupedCall) :=
    related (h := [.child "LIT" [] [] (some 3), .child "BLOCK" [] [] none]) (by decide) (by decide)
  have text : (negation bareName).toSource = .ok "@a = !(b())" :=
    Value.renders_none_iff.1 ⟨by decide +kernel, by decide +kernel⟩
  -- a literal of a node is refused, and the message shows the node
  have fault (statement : Value) : (blockLiteral statement).toSource
      = .error (.refused (.invalidFragment (.node "BLOCK" [statement] none false) (some 3))) := by
    apply Value.renders_some_iff.1
    refine ⟨[], ?_⟩
    unfold Value.Renders
    have script : (blockLiteral statement).script = pieces _ :=
      script_node (Tag.ofText?_label .lit) rfl _ _
    rw [script]
    exact yields_fault _
  refine ⟨⟨first, text, agree_of_related first⟩, second, ?_, agree_of_related second⟩
  rw [fault, fault]
  intro same
  injection same with same
  exact absurd same (by decide)

end Deparse
