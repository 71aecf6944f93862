import Deparse.Proofs.Source.Faults
import Deparse.Proofs.Tree.EveryNode

/-!
# Which trees have a source text

`Convertible` says by the rules of the tags which real trees have a source text
(`toSource_isOk_iff_convertible`).  The content of a slot is a good *fragment* if it is absent, a
text, a convertible node, or a sequence of convertible nodes and absent members; what a layout takes
apart instead of rendering it may be a node of any tag, as long as its parts are good.

The one thing left out is an interpolated string that begins with a sequence that is not empty, in
place of a text: whether that can be escaped is not a question of trees.
-/

namespace Deparse

open Layout

/-! ### The rules -/

namespace Value

/-- Whether a value of a tree has a literal. -/
def isScalar : Value → Bool
  | nil | bool _ | int _ | float _ | str _ | sym _ => true
  | _ => false

/-- Whether a node is not an interpolated string that begins with a sequence, unless the sequence is
empty. -/
def hasPlainOpening : Value → Bool
  | node tag (seq (_ :: _) :: _) _ _ => tag ≠ Tag.dstr.label
  | _ => true

end Value

mutual

/-- The trees that have a source text. -/
inductive Convertible : Value → Prop
  | node {g : Tag} {cs : List Value} (h : Accepts g cs) (line : Option Int) :
    Convertible (.node g.label cs line false)

/-- The children that a node of a tag can be rendered with. -/
inductive Accepts : Tag → List Value → Prop
  | scope {cs : List Value}
    (body : (cs.getLast?.getD .nil).isPresent = true → Convertible (cs.getLast?.getD .nil)) :
    Accepts .scope cs
  | members {g : Tag} {cs : List Value} (hg : g = .block ∨ g = .list)
    (members : ∀ c ∈ cs, Fragment c) : Accepts g cs
  | iter {cs : List Value} (call : Fragment (child cs 0)) (isNode : (child cs 1).isNode = true)
    (table : child (child cs 1).children 1 = .nil ∨
      (child (child cs 1).children 0).isTable = true)
    (body : Fragment (child (child cs 1).children 2)) : Accepts .iter cs
  | name {g : Tag} {cs : List Value} (hg : g ∈ [Tag.const, .vcall, .dvar, .lvar, .ivar])
    (name : cs ≠ []) : Accepts g cs
  | colon2 {cs : List Value} (left : Fragment (child cs 0)) : Accepts .colon2 cs
  | call {cs : List Value} (receiver : Fragment (child cs 0)) (args : Fragment (child cs 2)) :
    Accepts .call cs
  | fcall {cs : List Value} (args : Fragment (child cs 1)) : Accepts .fcall cs
  | negation {cs : List Value} (op : (child cs 1).displayed = "!")
    (operand : Fragment (child cs 0)) : Accepts .opcall cs
  | unary {cs : List Value} (absent : child cs 2 = .nil) (operand : Fragment (child cs 0)) :
    Accepts .opcall cs
  | binary {cs ds : List Value} {right : Value} (left : Fragment (child cs 0))
    (wrapped : (child cs 2).children = right :: ds) (right : Fragment right) : Accepts .opcall cs
  | assignment {g : Tag} {cs : List Value}
    (hg : g ∈ [Tag.dasgnCurr, .dasgn, .lasgn, .iasgn]) (value : Fragment (child cs 1)) :
    Accepts g cs
  | conditional {g : Tag} {cs : List Value} (hg : g = .ifElse ∨ g = .unlessElse)
    (test : Fragment (child cs 0)) (branch : Fragment (child cs 1))
    (alternative : Fragment (child cs 2)) : Accepts g cs
  | whileLoop {cs : List Value} (test : Fragment (child cs 0)) (body : Fragment (child cs 1)) :
    Accepts .whileLoop cs
  | lit {v : Value} {cs : List Value} (scalar : v.isScalar = true) : Accepts .lit (v :: cs)
  | str (t : Text) (cs : List Value) : Accepts .str (.str t :: cs)
  | word {g : Tag} (hg : g ∈ [Tag.nilWord, .trueWord, .falseWord]) (cs : List Value) :
    Accepts g cs
  | dstr {cs : List Value} (opening : (child cs 0).isOpening = true)
    (first : Segment (child cs 1))
    (isNode : (child cs 2).isPresent = true → (child cs 2).isNode = true)
    (segments : ∀ c ∈ (child cs 2).children, Segment c) : Accepts .dstr cs
  | evstr {v : Value} (body : Fragment v) (cs : List Value) : Accepts .evstr (v :: cs)
  | connective {g : Tag} {cs : List Value} (hg : g = .conj ∨ g = .disj)
    (left : Fragment (child cs 0)) (right : Fragment (child cs 1)) : Accepts g cs
  | hash {cs : List Value} (isNode : (child cs 0).isPresent = true → (child cs 0).isNode = true)
    (keys : ∀ p ∈ pairs (child cs 0).children, Fragment p.1)
    (values : ∀ p ∈ pairs (child cs 0).children, Fragment p.2) : Accepts .hash cs
  | attrasgn {cs : List Value} (op : (child cs 1).displayed = elementAssignment)
    (receiver : Fragment (child cs 0))
    (value : withoutSentinel (child cs 2).children ≠ [])
    (args : ∀ c ∈ withoutSentinel (child cs 2).children, Fragment c) : Accepts .attrasgn cs
  | rescue {cs : List Value} (body : Fragment (child cs 0)) (isNode : (child cs 1).isNode = true)
    (recovery : Fragment (child (child cs 1).children 1)) : Accepts .rescue cs
  | begin {cs : List Value} (body : Fragment (child cs 0)) : Accepts .begin cs

/-- The contents that a slot can be rendered with. -/
inductive Fragment : Value → Prop
  | nil : Fragment .nil
  | str (t : Text) : Fragment (.str t)
  | node {v : Value} (h : Convertible v) : Fragment v
  | seq {vs : List Value} (h : ∀ v ∈ vs, v.isPresent = true → Convertible v) : Fragment (.seq vs)

/-- The segments that an interpolated string can be rendered with. -/
inductive Segment : Value → Prop
  | nil : Segment .nil
  | str (t : Text) (cs : List Value) (line : Option Int) (synthetic : Bool) :
    Segment (.node Tag.str.label (.str t :: cs) line synthetic)
  | evstr {cs : List Value} {line : Option Int} {synthetic : Bool}
    (h : Convertible (.node Tag.evstr.label cs line synthetic)) :
    Segment (.node Tag.evstr.label cs line synthetic)

end

theorem Tag.label_injective {g g' : Tag} (h : g.label = g'.label) : g = g' := by
  have same := ofText?_label g
  rw [h, ofText?_label] at same
  exact (Option.some.inj same).symm

theorem Convertible.exists_label {tag : Text} {cs : List Value} {line : Option Int}
    {synthetic : Bool} (h : Convertible (.node tag cs line synthetic)) :
    synthetic = false ∧ ∃ g : Tag, tag = g.label ∧ Accepts g cs := by
  cases h with
  | node h line => exact ⟨rfl, _, rfl, h⟩

theorem Fragment.convertible {tag : Text} {cs : List Value} {line : Option Int}
    {synthetic : Bool} (h : Fragment (.node tag cs line synthetic)) :
    Convertible (.node tag cs line synthetic) := by
  cases h with
  | node h => exact h

theorem Accepts.isSynthetic_eq {g : Tag} {cs : List Value} (h : Accepts g cs) :
    g.isSynthetic = false := by
  cases h with
  | members hg | conditional hg | connective hg => rcases hg with rfl | rfl <;> rfl
  | name hg | assignment hg | word hg =>
    revert g
    decide
  | _ => rfl

theorem accepts_list_iff {cs : List Value} : Accepts .list cs ↔ ∀ c ∈ cs, Fragment c := by
  constructor
  · intro h
    cases h with
    | members _ members => exact members
    | name hg | assignment hg | word hg => simp at hg
    | conditional hg | connective hg => simp at hg
  · exact .members (.inr rfl)

/-! ### Layouts without a fault

What a layout takes apart instead of visiting it has to be there; for the rest it is a matter of the
slots.  Each of these lemmas serves both directions below. -/

namespace Layout

/-- Steps without a fault, which visit convertible trees only. -/
abbrev Faultless (steps : List Step) : Prop :=
  Permits (fun _ => False) Convertible steps

theorem not_faultless_refuse (r : Refusal) : ¬ Faultless (refuse r) :=
  (permits_refuse r).1

theorem not_faultless_malformed (m : Malformation) : ¬ Faultless (malformed m) :=
  (permits_malformed m).1

/-- What is taken apart has to be a node. -/
theorem faultless_withChildren (v : Value) (layout : List Value → List Step) :
    Faultless (withChildren v layout) ↔ v.isNode = true ∧ Faultless (layout v.children) := by
  by_cases isNode : v.isNode = true
  · rw [withChildren_of_isNode isNode, isNode]
    simp
  · cases v with
    | node => exact absurd rfl isNode
    | _ => simp [withChildren, Value.isNode]

/-- A first child has to be there. -/
theorem faultless_withFirst (cs : List Value) (layout : Value → List Step) :
    Faultless (withFirst cs layout) ↔ ∃ c ds, cs = c :: ds ∧ Faultless (layout c) := by
  cases cs with
  | nil => simp [withFirst]
  | cons c cs => simp [withFirst]

/-- The parameters of a block have to be told from its table. -/
theorem faultless_block (table spec body : Value) :
    Faultless (block table spec body) ↔
      (∃ names, parameters? table spec = some names) ∧ Faultless (slot body) := by
  cases names : parameters? table spec with
  | none => simp [block, names]
  | some ts => simp [permits_block names]

/-- Further segments have to be in a node, if they are there. -/
theorem faultless_furtherSegments (v : Value) :
    Faultless (furtherSegments v) ↔
      (v.isPresent = true → v.isNode = true) ∧ ∀ c ∈ v.children, Faultless (Layout.segment c) := by
  cases v with
  | nil => simp [furtherSegments, Value.isPresent, Value.children]
  | node tag cs line synthetic =>
    have whole : furtherSegments (.node tag cs line synthetic) = cs.flatMap Layout.segment := rfl
    rw [whole, Faultless, permits_flatMap]
    exact (and_iff_right fun _ => rfl).symm
  | _ => simp [furtherSegments, withChildren, Value.isPresent, Value.isNode]

/-- A negation is told by its operator alone, and a unary operator by the absent right operand. -/
theorem faultless_operation (left : Value) (op : Text) (right : Value) :
    Faultless (operation left op right) ↔ Faultless (slot left) ∧
      (op = "!" ∨ right = .nil ∨
        ∃ operand ds, right.children = operand :: ds ∧ Faultless (slot operand)) := by
  by_cases negation : op = "!"
  · simp [operation, negation]
  · by_cases absent : right = .nil
    · simp [operation, negation, absent]
    · have binary : operation left op right = withChildren right fun cs =>
          withFirst cs fun operand => slot left ++ word (" " ++ op ++ " ") ++ slot operand := by
        cases right with
        | nil => exact absurd rfl absent
        | _ => simp only [operation, if_neg negation]
      rw [binary, faultless_withChildren, faultless_withFirst]
      simp only [Faultless, permits_append, permits_word, and_true]
      constructor
      · rintro ⟨-, operand, ds, wrapped, hleft, hoperand⟩
        exact ⟨hleft, .inr (.inr ⟨operand, ds, wrapped, hoperand⟩)⟩
      · rintro ⟨hleft, negated | none | ⟨operand, ds, wrapped, hoperand⟩⟩
        · exact absurd negated negation
        · exact absurd none absent
        · have isNode : right.isNode = true := Value.isNode_of_children (by simp [wrapped])
          exact ⟨isNode, operand, ds, wrapped, hleft, hoperand⟩

theorem forall_mem_iff_of_getLast? {P : Value → Prop} {vs : List Value} {last : Value}
    (h : vs.getLast? = some last) : (∀ v ∈ vs, P v) ↔ (∀ v ∈ vs.dropLast, P v) ∧ P last := by
  obtain ⟨init, rfl⟩ := List.getLast?_eq_some_iff.1 h
  rw [List.dropLast_concat, List.forall_mem_append, List.forall_mem_singleton]

/-- The last argument is the value that is assigned, and there has to be one. -/
theorem faultless_assignElement (receiver args : Value) (op : Text) (line : Option Int) :
    Faultless (assignElement receiver op args line) ↔
      op = elementAssignment ∧ Faultless (slot receiver) ∧ withoutSentinel args.children ≠ [] ∧
        ∀ c ∈ withoutSentinel args.children, Faultless (slot c) := by
  unfold assignElement
  split
  · rename_i assignment
    rw [faultless_withChildren]
    cases last : (withoutSentinel args.children).getLast? with
    | none => simp [List.getLast?_eq_none_iff.1 last]
    | some value =>
      have present : withoutSentinel args.children ≠ [] :=
        List.ne_nil_of_mem (List.mem_of_getLast? last)
      have isNode : args.isNode = true := by
        apply Value.isNode_of_children
        intro none
        rw [none] at present
        exact present rfl
      simp only [Faultless, permits_append, permits_word, permits_listed, and_true,
        forall_mem_iff_of_getLast? last, isNode, assignment, present, ne_eq, not_false_eq_true,
        true_and, and_assoc]
  · rename_i other
    exact iff_of_false (not_faultless_refuse _) fun h => other h.1

/-- The list of pairs has to be a node, if it is there. -/
theorem faultless_hash (cs : List Value) (line : Option Int) :
    Faultless (ofTag cs line .hash) ↔
      ((child cs 0).isPresent = true → (child cs 0).isNode = true) ∧
        ∀ p ∈ pairs (child cs 0).children, Faultless (slot p.1) ∧ Faultless (slot p.2) := by
  simp only [ofTag]
  split
  · rename_i absent
    simp [absent, Value.isPresent, Value.children, pairs]
  · rename_i present
    rw [faultless_withChildren]
    simp only [Faultless, permits_append, permits_word, permits_pairs, true_and, and_true,
      Value.isPresent_iff.2 present, forall_const]

end Layout

/-! ### Convertible trees have a source text -/

/-- A good fragment fills a slot without a fault. -/
theorem Fragment.faultless {v : Value} (h : Fragment v) : Faultless (slot v) := by
  cases h with
  | nil => exact permits_nil
  | str t => exact permits_word t
  | node h =>
    cases h with
    | node h line => exact (permits_visit _).2 (.node h line)
  | seq h => exact (permits_scope _).2 h

theorem Fragment.faultless_arguments {v : Value} (h : Fragment v) : Faultless (arguments v) := by
  unfold arguments
  split
  · rename_i tag cs line synthetic
    split
    · rename_i htag
      subst htag
      obtain ⟨-, g, hg, accepts⟩ := h.convertible.exists_label
      cases Tag.label_injective hg
      have elements := accepts_list_iff.1 accepts
      exact (permits_listed cs).2 fun c hc => (elements c hc).faultless
    · exact h.faultless
  · exact h.faultless

theorem Segment.faultless {v : Value} (h : Segment v) : Faultless (Layout.segment v) := by
  cases h with
  | nil => exact permits_nil
  | str t cs line synthetic => simp [Layout.segment, child]
  | evstr h =>
    have notText : Tag.evstr.label ≠ Tag.str.label := by decide
    simp [Layout.segment, notText, h]

theorem exists_literal {v : Value} (h : v.isScalar = true) : ∃ t, v.literal = .ok t := by
  cases v with
  | bool b => cases b <;> exact ⟨_, rfl⟩
  | nil | int | float | str | sym => exact ⟨_, rfl⟩
  | _ => cases h

/-- With children that its tag accepts, a node has a layout without a fault. -/
theorem Accepts.faultless {g : Tag} {cs : List Value} (h : Accepts g cs) (line : Option Int) :
    Faultless (ofTag cs line g) := by
  cases h with
  | scope body =>
    simp only [ofTag, Faultless, permits_append, permits_word, permits_scope, true_and, and_true]
    -- the last child is the only member of the scope
    intro v hv present
    cases List.mem_singleton.1 hv
    exact body present
  | members hg members =>
    rcases hg with rfl | rfl
    · show Faultless (List.intercalate _ _)
      rw [Faultless, permits_intercalate, permits_map_slot]
      exact fun c hc => (members c hc).faultless
    · have elements : Faultless (listed cs) :=
        (permits_listed _).2 fun c hc => (members c hc).faultless
      simp only [ofTag, listed_withoutSentinel, Faultless, permits_append, permits_word, elements,
        and_self]
  | iter call isNode table body =>
    have block := (faultless_block _ _ _).2 ⟨exists_parameters table, body.faultless⟩
    exact (faultless_withChildren _ _).2 ⟨isNode, (permits_append _ _).2 ⟨call.faultless, block⟩⟩
  | name hg name =>
    obtain ⟨c, ds, rfl⟩ := List.exists_cons_of_ne_nil name
    simp only [List.mem_cons, List.not_mem_nil, or_false] at hg
    rcases hg with rfl | rfl | rfl | rfl | rfl <;> exact permits_word _
  | colon2 left => simp [ofTag, left.faultless]
  | call receiver args =>
    simp only [ofTag]
    split <;> simp [receiver.faultless, args.faultless_arguments]
  | fcall args => simp [ofTag, args.faultless_arguments]
  -- the three kinds of operations share one layout
  | negation op operand =>
    exact (faultless_operation _ _ _).2 ⟨operand.faultless, .inl op⟩
  | unary absent operand =>
    exact (faultless_operation _ _ _).2 ⟨operand.faultless, .inr (.inl absent)⟩
  | binary left wrapped right =>
    exact (faultless_operation _ _ _).2
      ⟨left.faultless, .inr (.inr ⟨_, _, wrapped, right.faultless⟩)⟩
  | assignment hg value =>
    simp only [List.mem_cons, List.not_mem_nil, or_false] at hg
    rcases hg with rfl | rfl | rfl | rfl <;> simp [ofTag, value.faultless]
  | conditional hg test branch alternative =>
    have slots (keyword : Text) : Faultless (Layout.conditional keyword cs) :=
      (permits_conditional _ _).2 ⟨test.faultless, branch.faultless, alternative.faultless⟩
    rcases hg with rfl | rfl <;> exact slots _
  | whileLoop test body => exact (permits_loop _ _ _).2 ⟨test.faultless, body.faultless⟩
  | lit scalar =>
    obtain ⟨t, ht⟩ := exists_literal scalar
    simp [ofTag, withFirst, ht]
  | str t cs => exact permits_word _
  | word hg cs =>
    simp only [List.mem_cons, List.not_mem_nil, or_false] at hg
    rcases hg with rfl | rfl | rfl <;> exact permits_word _
  | dstr opening first isNode segments =>
    obtain ⟨t, ht⟩ := exists_opening opening
    have further : Faultless (furtherSegments (child cs 2)) :=
      (faultless_furtherSegments _).2 ⟨isNode, fun c hc => (segments c hc).faultless⟩
    simp [ofTag, ht, first.faultless, further]
  | evstr body cs => simp [ofTag, withFirst, body.faultless]
  | connective hg left right =>
    rcases hg with rfl | rfl <;> simp [ofTag, left.faultless, right.faultless]
  | hash isNode keys values =>
    exact (faultless_hash cs line).2
      ⟨isNode, fun p hp => ⟨(keys p hp).faultless, (values p hp).faultless⟩⟩
  | attrasgn op receiver value args =>
    exact (faultless_assignElement _ _ _ line).2
      ⟨op, receiver.faultless, value, fun c hc => (args c hc).faultless⟩
  | rescue body isNode recovery =>
    refine (faultless_withChildren _ _).2 ⟨isNode, ?_⟩
    simp [body.faultless, recovery.faultless]
  | begin body => exact body.faultless

theorem Convertible.faultsOnly {v : Value} (h : Convertible v) : v.FaultsOnly fun _ => False := by
  refine Value.faultsOnly_of_permits (fun w hw => ?_) v h
  cases hw with
  | @node g cs accepts line =>
    rw [layout_node (Tag.ofText?_label g) accepts.isSynthetic_eq]
    exact accepts.faultless line

/-! ### Trees with a source text are convertible -/

/-- A real value that fills a slot without a fault is a good fragment. -/
theorem fragment_of_faultless {v : Value} (real : v.isReal = true) (h : Faultless (slot v)) :
    Fragment v := by
  cases v with
  | nil => exact .nil
  | str t => exact .str t
  | seq vs => exact .seq ((permits_scope vs).1 h)
  | node => exact .node ((permits_visit _).1 h)
  | bool | int | float | sym => exact absurd h (not_faultless_refuse _)
  | bytes | array | object => cases real

theorem fragments_of_faultless {vs : List Value} (real : ∀ v ∈ vs, v.isReal = true)
    (h : Faultless (listed vs)) : ∀ v ∈ vs, Fragment v := fun v hv =>
  fragment_of_faultless (real v hv) ((permits_listed vs).1 h v hv)

theorem fragment_of_arguments {v : Value} (real : v.isReal = true)
    (h : Faultless (arguments v)) : Fragment v := by
  unfold arguments at h
  split at h
  · rename_i tag cs line synthetic
    split at h
    · rename_i htag
      subst htag
      have elements := fragments_of_faultless
        (fun c hc => Value.hereditary_isReal.part real hc) h
      have made : synthetic = false := by simpa using (Bool.and_eq_true_iff.1 real).1
      subst made
      -- a list of arguments has the elements that an array could have
      exact .node (.node (accepts_list_iff.2 elements) line)
    · exact fragment_of_faultless real h
  · exact fragment_of_faultless real h

/-- A segment without a fault is a text node with a text, or an interpolation. -/
theorem segment_of_faultless {v : Value} (h : Faultless (Layout.segment v)) : Segment v := by
  unfold Layout.segment at h
  split at h
  · exact .nil
  · rename_i tag cs line synthetic
    split at h
    · rename_i htag
      subst htag
      split at h
      · rename_i t ht
        cases cs with
        | nil => cases ht
        | cons c cs =>
          cases ht
          exact .str t cs line synthetic
      · exact absurd h (not_faultless_refuse _)
    · split at h
      · rename_i htag
        subst htag
        exact .evstr ((permits_visit _).1 h)
      · exact absurd h (not_faultless_refuse _)
  · exact absurd h (not_faultless_refuse _)

/-- The parameters of a block can be told only from a table, unless nobody asks for them. -/
theorem isTable_of_parameters {table spec : Value} (real : table.isReal = true)
    (h : ∃ names, parameters? table spec = some names) : spec = .nil ∨ table.isTable = true := by
  obtain ⟨names, hnames⟩ := h
  by_cases present : spec.isPresent = true
  · right
    unfold parameters? at hnames
    rw [if_pos present] at hnames
    obtain ⟨entries, hentries, -⟩ := Option.map_eq_some_iff.1 hnames
    unfold entries? at hentries
    split at hentries
    · rename_i blank
      simp [Value.isTable, blank]
    · cases table with
      | str | seq => simp [Value.isTable]
      | bytes | array | object => cases real
      | _ => cases hentries
  · left
    simpa [Value.isPresent_iff] using present

/-- What a string is begun with is a text or nothing, unless it is a sequence. -/
theorem isOpening_of_eq_ok {v : Value} {t : Text} (real : v.isReal = true)
    (plain : ∀ xs, v = .seq xs → xs = []) (h : opening v = .ok t) : v.isOpening = true := by
  unfold opening at h
  split at h
  · rename_i blank
    simp [Value.isOpening, blank]
  · rename_i notBlank
    cases v with
    | str => simp [Value.isOpening]
    | seq xs =>
      cases plain xs rfl
      exact absurd rfl notBlank
    | bytes | array | object => cases real
    | _ => cases h

theorem isScalar_of_eq_ok {v : Value} {t : Text} (h : v.literal = .ok t) : v.isScalar = true := by
  cases v with
  | nil | bool | int | float | str | sym => rfl
  | _ => cases h

/-! Nodes whose children are real, so that a slot without a fault holds a good fragment. -/

section RealChildren

variable {cs : List Value} (real : ∀ c ∈ cs, c.isReal = true)
include real

theorem fragment_child {i : Nat} (h : Faultless (slot (child cs i))) : Fragment (child cs i) :=
  fragment_of_faultless (of_child Value.hereditary_isReal real i) h

/-- What a layout takes apart has real children as well. -/
theorem isReal_within (i : Nat) : ∀ d ∈ (child cs i).children, d.isReal = true := fun _ hd =>
  Value.hereditary_isReal.part (of_child Value.hereditary_isReal real i)
    (Value.mem_parts_of_mem_children hd)

theorem fragment_within {i j : Nat} (h : Faultless (slot (child (child cs i).children j))) :
    Fragment (child (child cs i).children j) :=
  fragment_child (isReal_within real i) h

theorem accepts_iter {line : Option Int} (h : Faultless (ofTag cs line .iter)) :
    Accepts .iter cs := by
  obtain ⟨isNode, h⟩ := (faultless_withChildren _ _).1 h
  obtain ⟨call, h⟩ := (permits_append _ _).1 h
  obtain ⟨parameters, body⟩ := (faultless_block _ _ _).1 h
  have realTable := of_child Value.hereditary_isReal (isReal_within real 1) 0
  exact .iter (fragment_child real call) isNode (isTable_of_parameters realTable parameters)
    (fragment_within real body)

theorem accepts_call {line : Option Int} (h : Faultless (ofTag cs line .call)) :
    Accepts .call cs := by
  have parts : Faultless (slot (child cs 0)) ∧ Faultless (arguments (child cs 2)) := by
    simp only [ofTag] at h
    -- an element is looked up in brackets, and any other method is called by its name
    split at h <;> simp only [Faultless, permits_append] at h <;> exact ⟨h.1.1.1, h.1.2⟩
  exact .call (fragment_child real parts.1)
    (fragment_of_arguments (of_child Value.hereditary_isReal real 2) parts.2)

theorem accepts_opcall {line : Option Int} (h : Faultless (ofTag cs line .opcall)) :
    Accepts .opcall cs := by
  obtain ⟨left, right⟩ := (faultless_operation _ _ _).1 h
  have left := fragment_child real left
  rcases right with op | absent | ⟨operand, ds, wrapped, right⟩
  · exact .negation op left
  · exact .unary absent left
  · have realRight := isReal_within real 2 operand (by simp [wrapped])
    exact .binary left wrapped (fragment_of_faultless realRight right)

theorem accepts_dstr {line : Option Int} (plain : ∀ xs, child cs 0 = .seq xs → xs = [])
    (h : Faultless (ofTag cs line .dstr)) : Accepts .dstr cs := by
  simp only [ofTag] at h
  split at h
  · exact absurd h (not_faultless_malformed _)
  · rename_i t opened
    simp only [Faultless, permits_append] at h
    obtain ⟨isNode, segments⟩ := (faultless_furtherSegments _).1 h.1.2
    have starts := isOpening_of_eq_ok (of_child Value.hereditary_isReal real 0) plain opened
    exact .dstr starts (segment_of_faultless h.1.1.2) isNode
      fun c hc => segment_of_faultless (segments c hc)

theorem accepts_hash {line : Option Int} (h : Faultless (ofTag cs line .hash)) :
    Accepts .hash cs := by
  obtain ⟨isNode, parts⟩ := (faultless_hash cs line).1 h
  have realPair (p : Value × Value) (hp : p ∈ pairs (child cs 0).children) :
      p.1.isReal = true ∧ p.2.isReal = true :=
    of_mem_pairs Value.hereditary_isReal (isReal_within real 0) hp
  exact .hash isNode
    (fun p hp => fragment_of_faultless (realPair p hp).1 (parts p hp).1)
    (fun p hp => fragment_of_faultless (realPair p hp).2 (parts p hp).2)

theorem accepts_attrasgn {line : Option Int} (h : Faultless (ofTag cs line .attrasgn)) :
    Accepts .attrasgn cs := by
  obtain ⟨op, receiver, value, args⟩ := (faultless_assignElement _ _ _ line).1 h
  refine .attrasgn op (fragment_child real receiver) value fun c hc => ?_
  exact fragment_of_faultless (isReal_within real 2 c (mem_of_mem_withoutSentinel hc)) (args c hc)

/-- Without a fault in its layout, a node has children that its tag can be rendered with. -/
theorem accepts_of_faultless {g : Tag} {line : Option Int} (known : g.isSynthetic = false)
    (plain : g = .dstr → ∀ xs, child cs 0 = .seq xs → xs = [])
    (h : Faultless (ofTag cs line g)) : Accepts g cs := by
  cases g with
  | scope =>
    simp only [ofTag, Faultless, permits_append, permits_scope] at h
    exact .scope (h.1.2 _ (List.mem_singleton_self _))
  | block =>
    have slots := (permits_map_slot cs).1 ((permits_intercalate _ _).1 h)
    exact .members (.inl rfl) fun c hc => fragment_of_faultless (real c hc) (slots c hc)
  | list =>
    simp only [ofTag, listed_withoutSentinel, Faultless, permits_append] at h
    exact .members (.inr rfl) (fragments_of_faultless real h.1.2)
  | iter => exact accepts_iter real h
  | const | vcall | dvar | lvar | ivar =>
    -- a name may be anything, but it has to be there
    obtain ⟨c, ds, rfl, -⟩ := (faultless_withFirst _ _).1 h
    exact .name (by decide) (by simp)
  | colon2 =>
    simp only [ofTag, Faultless, permits_append] at h
    exact .colon2 (fragment_child real h.1)
  | call => exact accepts_call real h
  | fcall =>
    simp only [ofTag, Faultless, permits_append] at h
    exact .fcall (fragment_of_arguments (of_child Value.hereditary_isReal real 1) h.1.2)
  | opcall => exact accepts_opcall real h
  | dasgnCurr | dasgn | lasgn | iasgn =>
    simp only [ofTag, Faultless, permits_append] at h
    exact .assignment (by decide) (fragment_child real h.2)
  | ifElse | unlessElse =>
    obtain ⟨test, branch, alternative⟩ := (permits_conditional _ _).1 h
    exact .conditional (by decide) (fragment_child real test) (fragment_child real branch)
      (fragment_child real alternative)
  | whileLoop =>
    obtain ⟨test, body⟩ := (permits_loop _ _ _).1 h
    exact .whileLoop (fragment_child real test) (fragment_child real body)
  | lit =>
    obtain ⟨c, ds, rfl, literal⟩ := (faultless_withFirst _ _).1 h
    split at literal
    · rename_i t written
      exact .lit (isScalar_of_eq_ok written)
    · exact absurd literal (not_faultless_refuse _)
  | str =>
    obtain ⟨c, ds, rfl, literal⟩ := (faultless_withFirst _ _).1 h
    split at literal
    · exact .str _ ds
    · exact absurd literal (not_faultless_refuse _)
  | nilWord | trueWord | falseWord => exact .word (by decide) cs
  | dstr => exact accepts_dstr real (plain rfl) h
  | evstr =>
    obtain ⟨c, ds, rfl, splice⟩ := (faultless_withFirst _ _).1 h
    simp only [Faultless, permits_append] at splice
    exact .evstr (fragment_of_faultless (real c (by simp)) splice.1.2) ds
  | conj | disj =>
    simp only [ofTag, Faultless, permits_append] at h
    exact .connective (by decide) (fragment_child real h.1.1) (fragment_child real h.2)
  | hash => exact accepts_hash real h
  | attrasgn => exact accepts_attrasgn real h
  | rescue =>
    obtain ⟨isNode, h⟩ := (faultless_withChildren _ _).1 h
    simp only [Faultless, permits_append] at h
    exact .rescue (fragment_child real h.1.1) isNode (fragment_within real h.2)
  | begin => exact .begin (fragment_child real h)
  | listEmbedded | iterScope => cases known

end RealChildren

/-- A real node is convertible if its layout has no fault and visits convertible nodes only. -/
theorem convertible_of_permits {v : Value} (real : v.isReal = true)
    (plain : v.hasPlainOpening = true) (h : Faultless v.layout) : Convertible v := by
  cases v with
  | node tag cs line synthetic =>
    have made : synthetic = false := by simpa using (Bool.and_eq_true_iff.1 real).1
    subst made
    simp only [Value.layout] at h
    split at h
    · rename_i g htag
      split at h
      · rename_i known
        rw [Tag.ofText?_eq_some_iff] at htag
        subst htag
        have realChildren : ∀ c ∈ cs, c.isReal = true := fun c hc =>
          Value.hereditary_isReal.part real hc
        refine .node (accepts_of_faultless realChildren known ?_ h) line
        -- a string that begins with a sequence of something is left out
        rintro rfl xs hxs
        cases cs with
        | nil => cases hxs
        | cons c cs =>
          cases hxs
          cases xs with
          | nil => rfl
          | cons => simp [Value.hasPlainOpening] at plain
      · exact absurd h (not_faultless_refuse _)
    · exact absurd h (not_faultless_refuse _)
  | _ => exact absurd h (not_faultless_refuse _)

theorem convertible_of_faultsOnly (v : Value) (real : v.isReal = true)
    (plain : v.everyNode Value.hasPlainOpening = true) (h : v.FaultsOnly fun _ => False) :
    Convertible v := by
  have hereditary :=
    Value.hereditary_isReal.and (Value.hereditary_everyNode Value.hasPlainOpening)
  have plainTop : v.hasPlainOpening = true := by
    cases v with
    | node => exact (Bool.and_eq_true_iff.1 plain).1
    | _ => rfl
  apply convertible_of_permits real plainTop
  -- what the layout visits is made of parts of the value, and is smaller
  refine ((Value.faultsOnly_iff v).1 h).mono fun w visited hw => ?_
  have parts := (built_layout hereditary fun u hu => hereditary.part ⟨real, plain⟩ hu).of_visit
    w visited
  have smaller := size_lt_of_visit visited
  exact convertible_of_faultsOnly w parts.1 parts.2 hw
termination_by v.size

/-- A real tree has a source text exactly if it is convertible. -/
theorem toSource_isOk_iff_convertible {v : Value} (real : v.isReal = true)
    (plain : v.everyNode Value.hasPlainOpening = true) :
    (∃ t, v.toSource = .ok t) ↔ Convertible v := by
  rw [Value.toSource_isOk_iff]
  exact ⟨convertible_of_faultsOnly v real plain, Convertible.faultsOnly⟩

/-- A block with an argument specification and the given table of parameters, whose body is a hash
of an interpolated string and a list of expressions. -/
def countedBlock (table : Value) : Value :=
  .node "ITER" [.node "CALL" [.nil, .sym "each", .nil] (some 1) false,
    .node "SCOPE" [table, .node "ARGS" [.int 1, .nil, .int 0] none false,
      .node "HASH" [.node "LIST" [
        .node "DSTR" [.str "a", .node "EVSTR" [.node "DVAR" [.sym "x"] none false] none false]
          none false,
        .seq [.node "NIL" [] none false, .nil]] none false] none false] none false] (some 1) false

/-- A table of one name is a table, and a number other than zero is not. -/
theorem toSource_isOk_iff_convertible_block :
    ((countedBlock (.seq [.sym "x"])).isReal = true ∧
      (countedBlock (.seq [.sym "x"])).everyNode Value.hasPlainOpening = true ∧
      Convertible (countedBlock (.seq [.sym "x"]))) ∧
    (countedBlock (.int 1)).isReal = true ∧
      (countedBlock (.int 1)).everyNode Value.hasPlainOpening = true ∧
      ¬ Convertible (countedBlock (.int 1)) := by
  have text : (countedBlock (.seq [.sym "x"])).toSource
      = .ok ".each() do |x|\n\x7b\"a#\x7bx\x7d\" => \nnil\n\x7d\nend" :=
    Value.renders_none_iff.1 ⟨by decide +kernel, by decide +kernel⟩
  have fault : (countedBlock (.int 1)).toSource = .error (.malformed .notATable) :=
    Value.renders_some_iff.1 ⟨".each()", by decide +kernel, by decide +kernel⟩
  refine ⟨⟨by decide, by decide, ?_⟩, by decide, by decide, ?_⟩
  · exact (toSource_isOk_iff_convertible (by decide) (by decide)).1 ⟨_, text⟩
  · intro convertible
    obtain ⟨t, ht⟩ := (toSource_isOk_iff_convertible (by decide) (by decide)).2 convertible
    rw [fault] at ht
    cases ht

end Deparse
