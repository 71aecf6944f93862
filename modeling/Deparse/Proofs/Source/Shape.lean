import Deparse.Proofs.Source.Faults
import Deparse.Proofs.Tree.EveryNode

/-!
# Trees of the shape that their tags promise

Each tag promises something of the children of a node (`Shape.ofTag`), and most tags promise
nothing.  If every node of a real tree keeps the promise of its tag, then nothing in its rendering
can be malformed: the tree has a source text or is refused
(`Value.toSource_of_wellShaped`).
-/

namespace Deparse

open Layout

namespace Shape

/-- Whether a value is absent or a text. -/
def isText : Value → Bool
  | .nil | .str _ => true
  | _ => false

/-- Whether a value is absent, a text or a sequence. -/
def isTable : Value → Bool
  | .nil | .str _ | .seq _ => true
  | _ => false

/-- Whether the children are as the tag promises. -/
def ofTag (cs : List Value) : Tag → Bool
  | .const | .vcall | .dvar | .lvar | .ivar | .lit | .str | .evstr => !cs.isEmpty
  | .iter => (child cs 1).isNode && isTable (child (child cs 1).children 0)
  | .opcall => !(child cs 2).isPresent || !(child cs 2).children.isEmpty
  | .attrasgn => !(withoutSentinel (child cs 2).children).isEmpty
  | .dstr => isText (child cs 0) && (!(child cs 2).isPresent || (child cs 2).isNode)
  | .hash => !(child cs 0).isPresent || (child cs 0).isNode
  | .rescue => (child cs 1).isNode
  | _ => true

theorem isOpening_of_isText {v : Value} (h : isText v = true) : v.isOpening = true := by
  cases v with
  | nil => rfl
  | str => simp [Value.isOpening]
  | _ => cases h

theorem isTable_of_isTable {v : Value} (h : isTable v = true) : v.isTable = true := by
  cases v with
  | nil => rfl
  | str | seq => simp [Value.isTable]
  | _ => cases h

end Shape

/-- Whether a node is of the shape that its tag promises; a node of an unknown tag is. -/
def Value.isShaped : Value → Bool
  | node tag cs _ _ => ((Tag.ofText? tag).map (Shape.ofTag cs)).getD true
  | _ => true

/-- A fault that is a refusal. -/
def Fault.IsRefusal (f : Fault) : Prop :=
  ∃ r, f = .refused r

namespace Layout

variable {F : Fault → Prop} {V : Value → Prop}

@[simp] theorem isRefusal_refused (r : Refusal) : Fault.IsRefusal (.refused r) :=
  ⟨r, rfl⟩

/-- The only faults that layouts of slots permit are refusals. -/
abbrev Refusing (steps : List Step) : Prop :=
  Permits Fault.IsRefusal (fun _ => True) steps

@[simp] theorem refusing_slot (v : Value) : Refusing (slot v) := by
  cases v <;> simp [slot]

@[simp] theorem refusing_arguments (v : Value) : Refusing (arguments v) := by
  unfold arguments
  split
  · split <;> simp
  · simp

@[simp] theorem refusing_segment (v : Value) : Refusing (Layout.segment v) := by
  unfold Layout.segment
  split
  · simp
  · split
    · split <;> simp
    · split <;> simp
  · simp

/-- A first child that is there can only be refused. -/
theorem refusing_withFirst {cs : List Value} {layout : Value → List Step}
    (hne : cs.isEmpty = false) (h : ∀ c, Refusing (layout c)) : Refusing (withFirst cs layout) := by
  cases cs with
  | nil => cases hne
  | cons c cs => exact h c

/-- A block with a table of parameters is written, or its body is refused. -/
theorem refusing_block {table : Value} (spec body : Value) (h : table.isTable = true) :
    Refusing (block table spec body) := by
  obtain ⟨ts, hts⟩ : ∃ ts, parameters? table spec = some ts := exists_parameters (.inr h)
  exact (permits_block hts body).2 (refusing_slot body)

/-- So are the further segments, if they are in a node. -/
theorem refusing_furtherSegments {v : Value} (h : v.isPresent = true → v.isNode = true) :
    Refusing (furtherSegments v) := by
  cases v with
  | nil => exact permits_nil
  | node tag cs line synthetic =>
    exact (permits_flatMap Layout.segment cs).2 fun c _ => refusing_segment c
  | _ => cases h rfl

theorem refusing_operation (left : Value) (op : Text) {right : Value}
    (h : right.isPresent = true → right.children.isEmpty = false) :
    Refusing (operation left op right) := by
  unfold operation
  split
  · simp
  · split
    · simp
    · rename_i notNil
      -- neither a negation nor unary, so the right operand is in a list that is there
      have present : right.isPresent = true := Value.isPresent_iff.2 notNil
      have isNode := Value.isNode_of_children (List.isEmpty_eq_false_iff.1 (h present))
      rw [withChildren_of_isNode isNode]
      refine refusing_withFirst (h present) fun c => ?_
      simp

/-- An assignment with a value to assign is written, or refused for its operator. -/
theorem refusing_assignElement (receiver args : Value) (op : Text) (line : Option Int)
    (h : (withoutSentinel args.children).isEmpty = false) :
    Refusing (assignElement receiver op args line) := by
  have isNode : args.isNode = true := by
    apply Value.isNode_of_children
    intro none
    rw [none] at h
    cases h
  unfold assignElement
  split
  · rw [withChildren_of_isNode isNode]
    split
    · rename_i none
      rw [List.getLast?_eq_none_iff.1 none] at h
      cases h
    · simp
  · simp

/-- If the children of a node are as its tag promises, then nothing in its layout is malformed. -/
theorem refusing_ofTag {cs : List Value} (line : Option Int) {g : Tag}
    (real : g.isSynthetic = false) (h : Shape.ofTag cs g = true) : Refusing (ofTag cs line g) := by
  cases g with
  | scope | colon2 | fcall | dasgnCurr | dasgn | lasgn | iasgn | ifElse | unlessElse | whileLoop |
    nilWord | trueWord | falseWord | conj | disj | list | begin =>
    -- words and slots
    simp [ofTag]
  | block =>
    show Refusing (List.intercalate _ _)
    rw [Refusing, permits_intercalate, permits_map_slot]
    intro c _
    exact refusing_slot c
  | iter =>
    obtain ⟨hnode, htable⟩ := Bool.and_eq_true_iff.1 h
    simp only [ofTag, withChildren_of_isNode hnode, Refusing, permits_append]
    exact ⟨refusing_slot _, refusing_block _ _ (Shape.isTable_of_isTable htable)⟩
  | const | vcall | dvar | lvar | ivar =>
    exact refusing_withFirst (by simpa [Shape.ofTag] using h) fun c => permits_word _
  | call =>
    simp only [ofTag]
    split <;> simp
  | opcall =>
    refine refusing_operation _ _ fun present => ?_
    simpa [Shape.ofTag, present] using h
  | lit | str =>
    refine refusing_withFirst (by simpa [Shape.ofTag] using h) fun c => ?_
    split <;> simp
  | dstr =>
    obtain ⟨hopening, hfurther⟩ := Bool.and_eq_true_iff.1 h
    have further : Refusing (furtherSegments (child cs 2)) := by
      refine refusing_furtherSegments fun present => ?_
      simpa [present] using hfurther
    obtain ⟨t, ht⟩ := exists_opening (Shape.isOpening_of_isText hopening)
    simp [ofTag, ht, further]
  | evstr =>
    refine refusing_withFirst (by simpa [Shape.ofTag] using h) fun c => ?_
    simp
  | hash =>
    simp only [ofTag]
    split
    · simp
    · rename_i notNil
      have hnode : (child cs 0).isNode = true := by
        simpa [Shape.ofTag, Value.isPresent_iff.2 notNil] using h
      simp only [withChildren_of_isNode hnode, Refusing, permits_append, permits_word,
        permits_pairs, true_and, and_true]
      exact fun p _ => ⟨refusing_slot p.1, refusing_slot p.2⟩
  | attrasgn => exact refusing_assignElement _ _ _ line (by simpa [Shape.ofTag] using h)
  | rescue =>
    have hnode : (child cs 1).isNode = true := h
    simp [ofTag, withChildren_of_isNode hnode]
  | listEmbedded | iterScope => cases real

end Layout

namespace Value

/-- The layout of a real node of the right shape is without malformations. -/
theorem refusing_layout {v : Value} (real : v.isReal = true) (h : v.isShaped = true) :
    Refusing v.layout := by
  cases v with
  | node tag cs line synthetic =>
    have hsyn : synthetic = false := by
      have := (Bool.and_eq_true_iff.1 real).1
      simpa using this
    subst hsyn
    simp only [layout]
    split
    · rename_i g htag
      split
      · rename_i hg
        have shape : Shape.ofTag cs g = true := by simpa [isShaped, htag] using h
        exact refusing_ofTag line hg shape
      · simp
    · simp
  | _ => simp [layout]

/-- A real tree in which every node is of the shape that its tag promises has a source text or is
refused. -/
theorem toSource_of_wellShaped {v : Value} (real : v.isReal = true)
    (h : v.everyNode isShaped = true) :
    (∃ t, v.toSource = .ok t) ∨ ∃ r, v.toSource = .error (.refused r) := by
  have hereditary := hereditary_isReal.and (hereditary_everyNode isShaped)
  -- what the layout of a well shaped value visits is well shaped too
  have permits (w : Value) (hw : w.isReal = true ∧ w.everyNode isShaped = true) :
      Permits Fault.IsRefusal (fun u => u.isReal = true ∧ u.everyNode isShaped = true)
        w.layout := by
    have shaped : w.isShaped = true := by
      cases w with
      | node => exact (Bool.and_eq_true_iff.1 hw.2).1
      | _ => rfl
    exact (refusing_layout hw.1 shaped).of_built
      (built_layout hereditary fun u hu => hereditary.part hw hu)
  have faults := faultsOnly_of_permits permits v ⟨real, h⟩
  cases hv : v.toSource with
  | ok t => exact .inl ⟨t, rfl⟩
  | error f =>
    obtain ⟨r, rfl⟩ := faults.of_toSource hv
    exact .inr ⟨r, rfl⟩

/-- A block with a parameter and a local, whose body assigns an element with the help of a text
that no tag is known for. -/
def shapedBlock : Value :=
  .node "ITER" [.node "FCALL" [.sym "f", .nil] (some 1) false,
    .node "SCOPE" [.seq [.sym "x", .sym "y"], .node "ARGS" [.int 1, .nil, .int 0] none false,
      .node "ATTRASGN" [.node "DVAR" [.sym "x"] none false, .sym "[]=",
        .node "LIST" [
          .node "DSTR" [.str "a", .nil,
            .node "LIST" [.node "XSTR" [] (some 3) false] none false] none false,
          .nil] none false] none false] none false] none false

theorem toSource_of_wellShaped_block :
    shapedBlock.isReal = true ∧ shapedBlock.everyNode isShaped = true ∧
      ((∃ t, shapedBlock.toSource = .ok t) ∨ ∃ r, shapedBlock.toSource = .error (.refused r)) := by
  have real : shapedBlock.isReal = true := by decide
  have shaped : shapedBlock.everyNode isShaped = true := by decide
  exact ⟨real, shaped, toSource_of_wellShaped real shaped⟩

end Value

end Deparse
