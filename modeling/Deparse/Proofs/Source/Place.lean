import Deparse.Proofs.Source.Outcome
import Deparse.Proofs.Tree.Hole

/-!
# What a layout does with the content of a place

For each role of a place there are a few ways in which the content of the place is read, for
instance as a slot, or as a list of arguments (`Reader`).  The layout of a node that is given up to
one child reads that child in one of the ways of its role, once, and the rest of the layout does
not depend on it (`reads_ofTag`).

Some layouts ask whether a content is there, or whether it is the value false or an absent key.  A
solid content is there and is none of these, and nothing else is asked of a content but by reading
it.
-/

namespace Deparse

open Layout

/-! ### Ways of reading -/

/-- An interpolated string from what it begins with and the steps after that. -/
def Layout.begun (start : Except BodyFault Text) (rest : List Step) : List Step :=
  match start with
  | .error f => malformed (.badBody f)
  | .ok t => word ("\"" ++ t) ++ rest

/-- The ways in which the content of a place is read. -/
inductive Reader : Role → (Value → List Step) → Prop where
  /-- It has no influence. -/
  | ignored (r : Role) (steps : List Step) : Reader r fun _ => steps
  /-- It is part of a value that is refused and shown. -/
  | shown (r : Role) (h : Hole) (line : Option Int) :
    Reader r fun v => refuse (.invalidFragment (h.fill v) line)
  | slot : Reader .operand slot
  | visit : Reader .operand fun v => [.visit v]
  | arguments : Reader .arguments arguments
  | blockScope (call : Value) :
    Reader .blockScope fun v => withChildren v fun ds =>
      slot call ++ block (child ds 0) (child ds 1) (child ds 2)
  | spec (table body : Value) : Reader .spec fun v => block table v body
  | rightOperand (left : Value) (op : Text) : Reader .rightOperand (operation left op)
  | elementArguments (receiver : Value) (op : Text) (line : Option Int) :
    Reader .elementArguments fun v => assignElement receiver op v line
  | pairList :
    Reader .pairList fun v => withChildren v fun ds =>
      word "\x7b" ++ List.intercalate (word ", ") ((pairs ds).map pair) ++ word "\x7d"
  | clause (body : Value) :
    Reader .clause fun v => withChildren v fun ds =>
      slot body ++ word " rescue " ++ slot (child ds 1)
  | opening (rest : List Step) : Reader .opening fun v => begun (opening v) rest
  | segment : Reader .segment segment
  | segmentList : Reader .segmentList furtherSegments

/-- The steps read a solid content once, in one of the ways of the role. -/
def Reads (r : Role) (steps : Value → List Step) : Prop :=
  ∃ R pre post, Reader r R ∧
    ∀ v, Solid v → pieces (steps v) = pre ++ pieces (R v) ++ post

namespace Reads

variable {r : Role} {f g : Value → List Step}

theorem of_reader (h : Reader r f) : Reads r f := by
  refine ⟨f, [], [], h, ?_⟩
  intro v _
  rw [List.nil_append, List.append_nil]

theorem const (r : Role) (steps : List Step) : Reads r fun _ => steps :=
  of_reader (.ignored r steps)

theorem congr_pieces (h : Reads r f) (heq : ∀ v, Solid v → pieces (g v) = pieces (f v)) :
    Reads r g := by
  obtain ⟨R, pre, post, hR, hf⟩ := h
  refine ⟨R, pre, post, hR, ?_⟩
  intro v hv
  rw [heq v hv, hf v hv]

theorem congr (h : Reads r f) (heq : ∀ v, Solid v → g v = f v) : Reads r g :=
  h.congr_pieces fun v hv => congrArg pieces (heq v hv)

/-- Steps that are the same for all solid contents. -/
theorem of_forall_eq (r : Role) (steps : List Step) (h : ∀ v, Solid v → f v = steps) :
    Reads r f :=
  (const r steps).congr h

theorem append (h : Reads r f) (steps : List Step) : Reads r fun v => f v ++ steps := by
  obtain ⟨R, pre, post, hR, hf⟩ := h
  refine ⟨R, pre, post ++ pieces steps, hR, ?_⟩
  intro v hv
  rw [pieces_append, hf v hv, List.append_assoc]

theorem prepend (steps : List Step) (h : Reads r f) : Reads r fun v => steps ++ f v := by
  obtain ⟨R, pre, post, hR, hf⟩ := h
  refine ⟨R, pieces steps ++ pre, post, hR, ?_⟩
  intro v hv
  rw [pieces_append, hf v hv]
  simp only [List.append_assoc]

theorem slot : Reads .operand slot :=
  of_reader .slot

end Reads

/-! ### Lists with a place in them -/

namespace Layout

theorem intercalate_insert {α : Type} (separator : List α) (before after : List (List α)) :
    ∃ pre post, ∀ l, List.intercalate separator (before ++ l :: after) = pre ++ l ++ post := by
  induction before with
  | nil =>
    -- the place is the first of the list, with a separator behind it if another follows
    cases after with
    | nil =>
      refine ⟨[], [], ?_⟩
      intro l
      simp [List.intercalate_singleton]
    | cons a after =>
      refine ⟨[], separator ++ List.intercalate separator (a :: after), ?_⟩
      intro l
      rw [List.nil_append, List.intercalate_cons_of_ne_nil (by simp)]
      simp
  | cons a before ih =>
    obtain ⟨pre, post, h⟩ := ih
    refine ⟨a ++ separator ++ pre, post, ?_⟩
    intro l
    rw [List.cons_append, List.intercalate_cons_of_ne_nil (by simp), h l]
    simp

/-- Slots side by side read each of their contents as a slot. -/
theorem reads_intercalate (before after : List (List Step)) {f : Value → List Step} {r : Role}
    (h : Reads r f) :
    Reads r fun v => List.intercalate (word ", ") (before ++ f v :: after) := by
  obtain ⟨pre, post, heq⟩ := intercalate_insert (word ", ") before after
  apply ((h.prepend pre).append post).congr
  intro v _
  exact heq (f v)

/-- A block reads each of its children as a slot. -/
theorem reads_lines (before after : List Value) :
    Reads .operand fun v => List.intercalate (word "\n") ((before ++ v :: after).map slot) := by
  obtain ⟨pre, post, heq⟩ :=
    intercalate_insert (word "\n") (before.map slot) (after.map slot)
  apply ((Reads.slot.prepend pre).append post).congr
  intro v _
  rw [List.map_append, List.map_cons, heq]

theorem filter_insert (before after : List Value) {v : Value} (h : Solid v) :
    (before ++ v :: after).filter Value.isPresent
      = before.filter Value.isPresent ++ v :: after.filter Value.isPresent := by
  rw [List.filter_append, List.filter_cons_of_pos h.isPresent]

/-- An absent value is left out of a list, and anything solid is not. -/
theorem reads_listed (before after : List Value) :
    Reads .operand fun v => listed (before ++ v :: after) := by
  apply (reads_intercalate ((before.filter Value.isPresent).map slot)
    ((after.filter Value.isPresent).map slot) Reads.slot).congr
  intro v hv
  rw [listed, filter_insert before after hv, List.map_append, List.map_cons]

theorem reads_scope (before after : List Value) :
    Reads .operand fun v => scope (before ++ v :: after) := by
  have visit : Reads .operand fun v => [.visit v] := .of_reader .visit
  apply ((visit.prepend
    (word "\n" ++ [.put .enter] ++ (before.filter Value.isPresent).map .visit)).append
    ((after.filter Value.isPresent).map .visit ++ [.put .leave] ++ word "\n")).congr
  intro v hv
  rw [scope, filter_insert before after hv]
  simp

theorem getLast?_insert (before init : List Value) (v w : Value) :
    (before ++ v :: (init ++ [w])).getLast? = some w := by
  rw [← List.cons_append, ← List.append_assoc, List.getLast?_concat]

theorem dropLast_insert (before init : List Value) (v w : Value) :
    (before ++ v :: (init ++ [w])).dropLast = before ++ v :: init := by
  rw [← List.cons_append, ← List.append_assoc, List.dropLast_concat]

/-- A content before the end stays when the list loses the absent value at its end. -/
theorem withoutSentinel_insert (before after : List Value) {v : Value} (h : Solid v) :
    withoutSentinel (before ++ v :: after) = before ++ v :: withoutSentinel after := by
  rcases List.eq_nil_or_concat after with rfl | ⟨init, w, rfl⟩
  · -- the content is at the end itself, and is not absent
    have hlast : (before ++ [v]).getLast? = some v := List.getLast?_concat
    unfold withoutSentinel
    rw [hlast]
    cases h <;> rfl
  · rw [List.concat_eq_append]
    unfold withoutSentinel
    rw [getLast?_insert, List.getLast?_concat, dropLast_insert, List.dropLast_concat]
    cases w <;> rfl

theorem pairs_cons_cons {k : Value} (hk : k.isPresent = true) (v : Value) (vs : List Value) :
    pairs (k :: v :: vs) = (k, v) :: pairs vs := by
  cases k with
  | nil => cases hk
  | _ => rfl

/-- A place in the list of a hash is without influence, or it is that of a key or of a value. -/
theorem reads_pairs (before after : List Value) :
    Reads .operand fun v =>
      List.intercalate (word ", ") ((pairs (before ++ v :: after)).map pair) := by
  -- the induction is on the pairs before the place, with the pairs already met in front
  have main (met : List (Value × Value)) : Reads .operand fun v =>
      List.intercalate (word ", ") ((met ++ pairs (before ++ v :: after)).map pair) := by
    fun_induction pairs before generalizing met with
    | case1 =>
      -- the place is that of a key, and its value is the next in the list, or absent
      cases after with
      | nil =>
        have key : Reads .operand fun v => pair (v, .nil) :=
          (Reads.slot.append (word " => ")).append (slot .nil)
        apply (reads_intercalate (met.map pair) [] key).congr
        intro v hv
        have single : pairs [v] = [(v, .nil)] := by cases hv <;> rfl
        rw [List.nil_append, single, List.map_append]
        rfl
      | cons w after =>
        have key : Reads .operand fun v => pair (v, w) :=
          (Reads.slot.append (word " => ")).append (slot w)
        apply (reads_intercalate (met.map pair) ((pairs after).map pair) key).congr
        intro v hv
        rw [List.nil_append, pairs_cons_cons hv.isPresent, List.map_append, List.map_cons]
    | case2 before =>
      -- an absent key ends the pairs before the place is reached
      exact .const _ (List.intercalate (word ", ") ((met ++ []).map pair))
    | case3 k hk =>
      have present : k.isPresent = true := Value.isPresent_iff.2 hk
      -- the place is that of the value of the last key before it
      have value : Reads .operand fun v => pair (k, v) :=
        Reads.slot.prepend (slot k ++ word " => ")
      apply (reads_intercalate (met.map pair) ((pairs after).map pair) value).congr
      intro v _
      rw [List.singleton_append, pairs_cons_cons present, List.map_append, List.map_cons]
    | case4 k w before hk ih =>
      have present : k.isPresent = true := Value.isPresent_iff.2 hk
      apply (ih (met ++ [(k, w)])).congr
      intro v _
      rw [List.cons_append, List.cons_append, pairs_cons_cons present, List.append_assoc,
        List.singleton_append]
  exact main []

/-- A place among the arguments of an assignment is that of a subscript or of the value. -/
theorem reads_assignElement (receiver : Value) (op : Text) (tag : Text) (before after : List Value)
    (line line' : Option Int) :
    Reads .operand fun v =>
      assignElement receiver op (.node tag (before ++ v :: after) line' false) line := by
  by_cases hop : op = elementAssignment
  · -- the place is that of the value if nothing is left after it
    rcases List.eq_nil_or_concat (withoutSentinel after) with hnil | ⟨init, w, hw⟩
    · apply (Reads.slot.prepend (slot receiver ++ word "[" ++ listed before ++ word "] = ")).congr
      intro v hv
      have hlast : (before ++ [v]).getLast? = some v := List.getLast?_concat
      simp only [assignElement, if_pos hop, withChildren]
      rw [withoutSentinel_insert before after hv, hnil, hlast, List.dropLast_concat]
    · apply (((reads_listed before init).prepend (slot receiver ++ word "[")).append
        (word "] = " ++ slot w)).congr
      intro v hv
      simp only [assignElement, if_pos hop, withChildren]
      rw [withoutSentinel_insert before after hv, hw, List.concat_eq_append, getLast?_insert,
        dropLast_insert]
      simp only [List.append_assoc]
  · apply Reads.of_forall_eq .operand (refuse (.unsupportedOperator op line))
    intro v _
    exact if_neg hop

theorem reads_segments (before after : List Value) :
    Reads .segment fun v => (before ++ v :: after).flatMap segment := by
  have read : Reads .segment segment := .of_reader .segment
  apply ((read.prepend (before.flatMap segment)).append (after.flatMap segment)).congr
  intro v _
  rw [List.flatMap_append, List.flatMap_cons, List.append_assoc]

/-! ### Nodes with a place for a child -/

theorem reads_withChildren {r : Role} (w : Value) {layout : List Value → Value → List Step}
    (h : ∀ ds, Reads r (layout ds)) : Reads r fun v => withChildren w fun ds => layout ds v := by
  cases w with
  | node tag ds line synthetic => exact h ds
  | _ => exact .const r (malformed .notANode)

theorem reads_scopeBody (before after : List Value) (line : Option Int) :
    Reads (Role.ofChild before.length after.isEmpty .scope)
      fun v => ofTag (before ++ v :: after) line .scope := by
  rcases List.eq_nil_or_concat after with rfl | ⟨init, w, rfl⟩
  · -- the last child is the body
    have body : Reads .operand fun v => word "proc do" ++ scope [v] ++ word "end" :=
      ((reads_scope [] []).prepend (word "proc do")).append (word "end")
    apply body.congr
    intro v _
    have hlast : (before ++ [v]).getLast? = some v := List.getLast?_concat
    simp only [ofTag]
    rw [hlast]
    rfl
  · -- a child before the last is not looked at
    apply Reads.of_forall_eq _ (word "proc do" ++ scope [w] ++ word "end")
    intro v _
    simp only [ofTag]
    rw [List.concat_eq_append, getLast?_insert]
    rfl

/-- An array reads each of its elements as a slot. -/
theorem reads_elements (before after : List Value) (line : Option Int) :
    Reads .operand fun v => ofTag (before ++ v :: after) line .list := by
  apply (((reads_listed before (withoutSentinel after)).prepend (word "[")).append (word "]")).congr
  intro v hv
  simp only [ofTag]
  rw [withoutSentinel_insert before after hv]

/-- The left operand is written by each kind of operator. -/
theorem reads_operation_left (op : Text) (right : Value) :
    Reads .operand fun v => operation v op right := by
  by_cases hop : op = "!"
  · apply ((Reads.slot.prepend (word "!(")).append (word ")")).congr
    intro v _
    exact if_pos hop
  · have binary : Reads .operand fun v => withChildren right fun cs => withFirst cs fun operand =>
        Layout.slot v ++ word (" " ++ op ++ " ") ++ Layout.slot operand := by
      apply reads_withChildren
      intro cs
      cases cs with
      | nil => exact .const _ (malformed .noChild)
      | cons c cs => exact (Reads.slot.append _).append _
    cases right with
    | nil =>
      -- the operator is unary
      apply ((Reads.slot.prepend (word (unaryOperator op ++ "("))).append (word ")")).congr
      intro v _
      exact if_neg hop
    | _ =>
      apply binary.congr
      intro v _
      exact if_neg hop

theorem reads_receiver (op : Text) (args : Value) (line : Option Int) :
    Reads .operand fun v => assignElement v op args line := by
  by_cases hop : op = elementAssignment
  · -- what the receiver stands in front of does not depend on it
    cases args with
    | node tag cs line' synthetic =>
      cases hlast : (withoutSentinel cs).getLast? with
      | none =>
        apply Reads.of_forall_eq _ (malformed .noChild)
        intro v _
        simp only [assignElement, if_pos hop, withChildren, hlast]
      | some value =>
        apply ((((Reads.slot.append (word "[")).append
          (listed (withoutSentinel cs).dropLast)).append (word "] = ")).append (slot value)).congr
        intro v _
        simp only [assignElement, if_pos hop, withChildren, hlast]
    | _ =>
      apply Reads.of_forall_eq _ (malformed .notANode)
      intro v _
      exact if_pos hop
  · apply Reads.of_forall_eq .operand (refuse (.unsupportedOperator op line))
    intro v _
    exact if_neg hop

/-! A condition with its test, its first or its second branch in the place. -/

theorem reads_conditional_test (keyword : Text) (after : List Value) :
    Reads .operand fun v => conditional keyword (v :: after) := by
  show Reads .operand fun v => word (keyword ++ " ") ++ slot v ++ word "\n" ++
    slot (child after 0) ++
    (if (child after 1).isPresent then word "\nelse\n" ++ slot (child after 1) else []) ++
    word "\nend"
  exact ((((Reads.slot.prepend _).append _).append _).append _).append _

theorem reads_conditional_branch (keyword : Text) (test : Value) (after : List Value) :
    Reads .operand fun v => conditional keyword (test :: v :: after) := by
  show Reads .operand fun v => word (keyword ++ " ") ++ slot test ++ word "\n" ++ slot v ++
    (if (child after 0).isPresent then word "\nelse\n" ++ slot (child after 0) else []) ++
    word "\nend"
  exact ((Reads.slot.prepend _).append _).append _

theorem reads_conditional_alternative (keyword : Text) (test branch : Value)
    (after : List Value) :
    Reads .operand fun v => conditional keyword (test :: branch :: v :: after) := by
  have read : Reads .operand fun v => word (keyword ++ " ") ++ slot test ++ word "\n" ++
      slot branch ++ (word "\nelse\n" ++ slot v) ++ word "\nend" :=
    ((Reads.slot.prepend _).prepend _).append _
  apply read.congr
  intro v hv
  show _ ++ (if v.isPresent then word "\nelse\n" ++ slot v else []) ++ _ = _
  rw [if_pos hv.isPresent]
  rfl

theorem reads_loop_test (body first : Value) :
    Reads .operand fun v => loop v body first := by
  have before : Reads .operand fun v =>
      word "while " ++ slot v ++ word "\n" ++ slot body ++ word "\nend" :=
    (((Reads.slot.prepend _).append _).append _).append _
  have last : Reads .operand fun v =>
      word "begin\n" ++ slot body ++ word "\nend while " ++ slot v := Reads.slot.prepend _
  -- the loop is written the other way round if the third child is the value false
  rcases first with _ | (_ | _) | _ | _ | _ | _ | _ | _ | _ | _ | _
  case bool.false => exact last
  all_goals exact before

theorem reads_loop_body (test first : Value) :
    Reads .operand fun v => loop test v first := by
  have before : Reads .operand fun v =>
      word "while " ++ slot test ++ word "\n" ++ slot v ++ word "\nend" :=
    (Reads.slot.prepend _).append _
  have last : Reads .operand fun v =>
      word "begin\n" ++ slot v ++ word "\nend while " ++ slot test :=
    ((Reads.slot.prepend _).append _).append _
  rcases first with _ | (_ | _) | _ | _ | _ | _ | _ | _ | _ | _ | _
  case bool.false => exact last
  all_goals exact before

theorem reads_begun {r : Role} {f : Value → List Step} (start : Except BodyFault Text)
    (h : Reads r f) : Reads r fun v => begun start (f v) := by
  cases start with
  | error fault => exact .const r (malformed (.badBody fault))
  | ok t => exact h.prepend (word ("\"" ++ t))

/-- The layout of an interpolated string, by what it begins with. -/
theorem ofTag_dstr (cs : List Value) (line : Option Int) :
    ofTag cs line .dstr
      = begun (opening (child cs 0))
          (segment (child cs 1) ++ furtherSegments (child cs 2) ++ word "\"") := by
  simp only [ofTag]
  cases opening (child cs 0) with
  | error f => rfl
  | ok t => simp only [begun, List.append_assoc]

/-- The layout of a node reads its first child in a way of the role of that place. -/
theorem reads_first {g : Tag} (real : g.isSynthetic = false) (after : List Value)
    (line : Option Int) (hname : Role.ofChild 0 after.isEmpty g ≠ .name) :
    Reads (Role.ofChild 0 after.isEmpty g) fun v => ofTag (v :: after) line g := by
  cases g with
  | scope => exact reads_scopeBody [] after line
  | block => exact reads_lines [] after
  | list => exact reads_elements [] after line
  | const | vcall | dvar | lvar | ivar | fcall | dasgnCurr | dasgn | lasgn | iasgn =>
    exact absurd rfl hname
  | iter =>
    show Reads .operand fun v => withChildren (child after 0) fun ds =>
      slot v ++ block (child ds 0) (child ds 1) (child ds 2)
    apply reads_withChildren
    intro ds
    exact Reads.slot.append _
  | colon2 =>
    show Reads .operand fun v => slot v ++ word ("::" ++ (child after 0).displayed)
    exact Reads.slot.append _
  | call =>
    by_cases hm : (child after 0).displayed = "[]"
    · apply (((Reads.slot.append (word "[")).append (arguments (child after 1))).append
        (word "]")).congr
      intro v _
      exact if_pos hm
    · apply (((Reads.slot.append (word ("." ++ (child after 0).displayed ++ "("))).append
        (arguments (child after 1))).append (word ")")).congr
      intro v _
      exact if_neg hm
  | opcall => exact reads_operation_left (child after 0).displayed (child after 1)
  | ifElse | unlessElse => exact reads_conditional_test _ after
  | whileLoop => exact reads_loop_test (child after 0) (child after 1)
  | lit | str =>
    -- nothing solid has a literal
    apply Reads.congr (.of_reader (.shown _ [] line))
    intro v hv
    cases hv <;> rfl
  | nilWord | trueWord | falseWord => exact .const _ _
  | dstr =>
    apply Reads.congr (.of_reader (.opening
      (segment (child after 0) ++ furtherSegments (child after 1) ++ word "\"")))
    intro v _
    exact ofTag_dstr (v :: after) line
  | evstr =>
    show Reads .operand fun v => word "#\x7b" ++ slot v ++ word "\x7d"
    exact (Reads.slot.prepend _).append _
  | conj =>
    show Reads .operand fun v => slot v ++ word " && " ++ slot (child after 0)
    exact (Reads.slot.append _).append _
  | disj =>
    show Reads .operand fun v => slot v ++ word " || " ++ slot (child after 0)
    exact (Reads.slot.append _).append _
  | hash =>
    -- the list of pairs is there
    apply Reads.congr (.of_reader .pairList)
    intro v hv
    cases hv <;> rfl
  | attrasgn => exact reads_receiver (child after 0).displayed (child after 1) line
  | rescue =>
    show Reads .operand fun v => withChildren (child after 0) fun ds =>
      slot v ++ word " rescue " ++ slot (child ds 1)
    apply reads_withChildren
    intro ds
    exact (Reads.slot.append _).append _
  | begin => exact Reads.slot
  | listEmbedded | iterScope => cases real

/-- The layout of a node reads its second child in a way of the role of that place. -/
theorem reads_second {g : Tag} (real : g.isSynthetic = false) (a : Value) (after : List Value)
    (line : Option Int) (hname : Role.ofChild 1 after.isEmpty g ≠ .name) :
    Reads (Role.ofChild 1 after.isEmpty g) fun v => ofTag (a :: v :: after) line g := by
  have unread (h : ∀ v, ofTag (a :: v :: after) line g = ofTag [a] line g) :
      Reads (Role.ofChild 1 after.isEmpty g) fun v => ofTag (a :: v :: after) line g :=
    .of_forall_eq _ _ fun v _ => h v
  cases g with
  | scope => exact reads_scopeBody [a] after line
  | block => exact reads_lines [a] after
  | list => exact reads_elements [a] after line
  | colon2 | call | opcall | attrasgn => exact absurd rfl hname
  | iter => exact .of_reader (.blockScope a)
  | fcall =>
    show Reads .arguments fun v => word (a.displayed ++ "(") ++ arguments v ++ word ")"
    exact (Reads.prepend _ (.of_reader .arguments)).append _
  | dasgnCurr | dasgn | lasgn | iasgn =>
    show Reads .operand fun v => word (a.displayed ++ " = ") ++ slot v
    exact Reads.slot.prepend _
  | ifElse | unlessElse => exact reads_conditional_branch _ a after
  | whileLoop => exact reads_loop_body a (child after 0)
  | dstr =>
    have read : Reads .segment segment := .of_reader .segment
    apply (reads_begun (opening a)
      ((read.append (furtherSegments (child after 0))).append (word "\""))).congr
    intro v _
    exact ofTag_dstr (a :: v :: after) line
  | conj =>
    show Reads .operand fun v => slot a ++ word " && " ++ slot v
    exact Reads.slot.prepend _
  | disj =>
    show Reads .operand fun v => slot a ++ word " || " ++ slot v
    exact Reads.slot.prepend _
  | rescue => exact .of_reader (.clause a)
  | const | vcall | dvar | lvar | ivar | lit | str | nilWord | trueWord | falseWord | evstr | hash |
    begin =>
    -- the layout of these looks at the first child only
    exact unread fun _ => rfl
  | listEmbedded | iterScope => cases real

/-- The layout of a node reads its third child in a way of the role of that place. -/
theorem reads_third {g : Tag} (real : g.isSynthetic = false) (a b : Value) (after : List Value)
    (line : Option Int) :
    Reads (Role.ofChild 2 after.isEmpty g) fun v => ofTag (a :: b :: v :: after) line g := by
  have unread (h : ∀ v, ofTag (a :: b :: v :: after) line g = ofTag [a, b] line g) :
      Reads (Role.ofChild 2 after.isEmpty g) fun v => ofTag (a :: b :: v :: after) line g :=
    .of_forall_eq _ _ fun v _ => h v
  cases g with
  | scope => exact reads_scopeBody [a, b] after line
  | block => exact reads_lines [a, b] after
  | list => exact reads_elements [a, b] after line
  | call =>
    have read : Reads .arguments arguments := .of_reader .arguments
    by_cases hm : b.displayed = "[]"
    · apply ((read.prepend (slot a ++ word "[")).append (word "]")).congr
      intro v _
      exact if_pos hm
    · apply ((read.prepend (slot a ++ word ("." ++ b.displayed ++ "("))).append (word ")")).congr
      intro v _
      exact if_neg hm
  | opcall => exact .of_reader (.rightOperand a b.displayed)
  | ifElse | unlessElse => exact reads_conditional_alternative _ a b after
  | whileLoop =>
    -- the third child counts only if it is the value false
    apply Reads.of_forall_eq _ (loop a b .nil)
    intro v hv
    cases hv <;> rfl
  | dstr =>
    have read : Reads .segmentList furtherSegments := .of_reader .segmentList
    apply (reads_begun (opening a) ((read.prepend (segment b)).append (word "\""))).congr
    intro v _
    exact ofTag_dstr (a :: b :: v :: after) line
  | attrasgn => exact .of_reader (.elementArguments a b.displayed line)
  | iter | const | colon2 | fcall | vcall | dvar | lvar | ivar | dasgnCurr | dasgn | lasgn | iasgn |
    lit | str | nilWord | trueWord | falseWord | evstr | conj | disj | hash | rescue | begin =>
    -- the layout of these looks at the first two children at most
    exact unread fun _ => rfl
  | listEmbedded | iterScope => cases real

/-- From the fourth child on only the lists of values look at their children. -/
theorem reads_later {g : Tag} (real : g.isSynthetic = false) (a b c : Value)
    (before after : List Value) (line : Option Int) :
    Reads (Role.ofChild (before.length + 3) after.isEmpty g)
      fun v => ofTag (a :: b :: c :: before ++ v :: after) line g := by
  have unread (h : ∀ v, ofTag (a :: b :: c :: before ++ v :: after) line g
        = ofTag [a, b, c] line g) :
      Reads (Role.ofChild (before.length + 3) after.isEmpty g)
        fun v => ofTag (a :: b :: c :: before ++ v :: after) line g :=
    .of_forall_eq _ _ fun v _ => h v
  cases g with
  | scope => exact reads_scopeBody (a :: b :: c :: before) after line
  | block => exact reads_lines (a :: b :: c :: before) after
  | list => exact reads_elements (a :: b :: c :: before) after line
  | listEmbedded | iterScope => cases real
  | _ =>
    -- the layout of all others looks at the first three children at most
    exact unread fun _ => rfl

/-- The layout of a node reads a child in one of the ways of the role of its place. -/
theorem reads_ofTag {g : Tag} (real : g.isSynthetic = false) (before after : List Value)
    (line : Option Int) (hname : Role.ofChild before.length after.isEmpty g ≠ .name) :
    Reads (Role.ofChild before.length after.isEmpty g)
      fun v => ofTag (before ++ v :: after) line g := by
  rcases before with _ | ⟨a, _ | ⟨b, _ | ⟨c, before⟩⟩⟩
  · exact reads_first real after line hname
  · exact reads_second real a after line hname
  · exact reads_third real a b after line
  · exact reads_later real a b c before after line

end Layout

end Deparse
