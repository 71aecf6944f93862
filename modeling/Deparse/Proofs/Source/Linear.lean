import Deparse.Proofs.Source.Place

/-!
# Rendering a tree with a hole

A real tree with a hole in the place of an operand is rendered in one of three ways, whatever node
is put into the hole (`renders_fill`):

* its source text is that of the node between two fixed texts, and a fault in the node is the fault
  of the tree, met after the first of the two texts and what the node wrote;
* the node has no influence on the rendering;
* the rendering ends with the refusal of a part of the tree in which the node is shown.

The frames around the hole are gone through from the outside.  A content that has a place in it is
read by reading the place in one of the ways of its role (`reads_within`), so the same holds of a
content with a hole in it (`reads_fill`), and in the end the hole is a slot, or is not looked at.
-/

namespace Deparse

open Layout Piece

/-! ### Contents with a place in them -/

namespace Layout

theorem reads_node (tag : Text) (before after : List Value) (line : Option Int)
    (hname : Role.ofNode tag before.length after.isEmpty ≠ .name) :
    Reads (Role.ofNode tag before.length after.isEmpty)
      fun v => [.visit (.node tag (before ++ v :: after) line false)] := by
  have refused (r : Role) (h : ∀ cs, (Value.node tag cs line false).layout
        = refuse (.unsupportedNode tag line)) :
      Reads r fun v => [.visit (.node tag (before ++ v :: after) line false)] := by
    apply (Reads.const r (refuse (.unsupportedNode tag line))).congr_pieces
    intro v _
    rw [pieces_visit, script_eq_pieces, h]
  cases htag : Tag.ofText? tag with
  | none =>
    apply refused
    intro cs
    simp only [Value.layout, htag]
  | some g =>
    have hrole : Role.ofNode tag before.length after.isEmpty
        = Role.ofChild before.length after.isEmpty g := by
      simp only [Role.ofNode, htag]
    rw [hrole] at hname ⊢
    cases hg : g.isSynthetic with
    | true =>
      apply refused
      intro cs
      simp [Value.layout, htag, hg]
    | false =>
      apply (reads_ofTag hg before after line hname).congr_pieces
      intro v _
      rw [pieces_visit, script_node htag hg]

/-- An argument specification with anything solid in it is not one of leading parameters alone. -/
theorem leadingCount?_plug (frame : Frame) {v : Value} (h : Solid v) :
    leadingCount? (frame.plug v) = none := by
  cases frame with
  | member before after => rfl
  | child tag before after line =>
    have notZero : (!v.isPresent || isZero v) = false := by
      cases h <;> rfl
    -- the first child has to be a number, and all others absent or zero
    cases before with
    | nil => cases h <;> rfl
    | cons a before =>
      cases a with
      | int n =>
        have others : (before ++ v :: after).all (fun w => !w.isPresent || isZero w) = false := by
          rw [List.all_append, List.all_cons, notZero, Bool.false_and, Bool.and_false]
        simp [Frame.plug, leadingCount?, others]
      | _ => rfl

/-- Of a specification that is there only the number of leading parameters counts. -/
theorem block_congr {s t : Value} (hs : s.isPresent = true) (ht : t.isPresent = true)
    (count : leadingCount? s = leadingCount? t) (table body : Value) :
    block table s body = block table t body := by
  have names : parameters? table s = parameters? table t := by
    rw [parameters?, parameters?, if_pos hs, if_pos ht, count]
  rw [block, block, names]

/-- So only the presence of one with anything solid in it matters. -/
theorem reads_spec (r : Role) (table body : Value) (frame : Frame) :
    Reads r fun v => block table (frame.plug v) body := by
  apply Reads.of_forall_eq _ (block table (.seq []) body)
  intro v hv
  have present : (frame.plug v).isPresent = true := by
    cases frame <;> rfl
  exact block_congr (t := .seq []) present rfl (leadingCount?_plug frame hv) table body

theorem reads_blockScope (call : Value) (before after : List Value) (line : Option Int)
    (tag : Text) (hname : Role.within .blockScope (.child tag before after line) ≠ .name) :
    Reads (Role.within .blockScope (.child tag before after line)) fun v =>
      withChildren (.node tag (before ++ v :: after) line false) fun ds =>
        slot call ++ block (child ds 0) (child ds 1) (child ds 2) := by
  rcases before with _ | ⟨a, _ | ⟨b, _ | ⟨c, before⟩⟩⟩
  · exact absurd rfl hname
  · show Reads .spec fun v => slot call ++ block a v (child after 0)
    exact Reads.prepend _ (.of_reader (.spec a (child after 0)))
  · show Reads .operand fun v => slot call ++ block a b v
    have body : Reads .operand fun v => block a b v := by
      cases hnames : parameters? a b with
      | none =>
        apply Reads.of_forall_eq _ (malformed .notATable)
        intro v _
        simp only [block, hnames]
      | some names =>
        apply (((Reads.slot.prepend (word " do" ++ (if names.isEmpty then [] else
          word (" |" ++ Text.joined ", " names ++ "|")) ++ word "\n")).append
          (word "\nend"))).congr
        intro v _
        simp only [block, hnames]
    exact body.prepend _
  · exact .const _ (slot call ++ block a b c)

theorem reads_rightOperand (left : Value) (op : Text) (before after : List Value)
    (line : Option Int) (tag : Text) :
    Reads (Role.within .rightOperand (.child tag before after line)) fun v =>
      operation left op (.node tag (before ++ v :: after) line false) := by
  by_cases hop : op = "!"
  · apply Reads.of_forall_eq _ (word "!(" ++ slot left ++ word ")")
    intro v _
    exact if_pos hop
  · cases before with
    | nil =>
      apply (Reads.slot.prepend (slot left ++ word (" " ++ op ++ " "))).congr
      intro v _
      exact if_neg hop
    | cons a before =>
      apply Reads.of_forall_eq _ (slot left ++ word (" " ++ op ++ " ") ++ slot a)
      intro v _
      exact if_neg hop

theorem reads_clause (body : Value) (before after : List Value) (line : Option Int) (tag : Text) :
    Reads (Role.within .clause (.child tag before after line)) fun v =>
      withChildren (.node tag (before ++ v :: after) line false) fun ds =>
        slot body ++ word " rescue " ++ slot (child ds 1) := by
  rcases before with _ | ⟨a, _ | ⟨b, before⟩⟩
  · exact .const _ (slot body ++ word " rescue " ++ slot (child after 0))
  · exact Reads.slot.prepend (slot body ++ word " rescue ")
  · exact .const _ (slot body ++ word " rescue " ++ slot b)

/-- Among the pieces of a body, anything solid is at fault in the same way. -/
theorem escapedPieces_insert (before after : List Value) :
    ∃ e, ∀ v, Solid v →
      Value.escapedPieces Value.followerOpensSplice (before ++ v :: after) = e := by
  have fault (follower : Except BodyFault Bool) {v : Value} (h : Solid v) :
      Value.escapedPiece follower v = .error .pieceNotText := by
    have comparable := Value.isComparable_of_isReal v h.isReal
    cases h <;> simp [Value.escapedPiece, comparable]
  induction before with
  | nil =>
    refine ⟨.error .pieceNotText, ?_⟩
    intro v hv
    show (do
      let t ← Value.escapedPiece _ v
      let rest ← Value.escapedPieces Value.followerOpensSplice after
      return t ++ rest) = _
    rw [fault _ hv]
    rfl
  | cons a before ih =>
    obtain ⟨e, he⟩ := ih
    -- a piece looks at the next one, which may be the solid one
    cases before with
    | nil =>
      refine ⟨do
        let t ← Value.escapedPiece (.error .followerNotText) a
        let rest ← e
        return t ++ rest, ?_⟩
      intro v hv
      rw [← he v hv]
      cases hv <;> rfl
    | cons b before =>
      refine ⟨do
        let t ← Value.escapedPiece (Value.followerOpensSplice b) a
        let rest ← e
        return t ++ rest, ?_⟩
      intro v hv
      rw [← he v hv]
      rfl

theorem reads_opening_member (rest : List Step) (before after : List Value) :
    Reads .other fun v => begun (opening (.seq (before ++ v :: after))) rest := by
  obtain ⟨e, he⟩ := escapedPieces_insert before after
  apply Reads.of_forall_eq _ (begun e rest)
  intro v hv
  have notBlank : (Value.seq (before ++ v :: after)).isBlank = false := by
    cases before <;> rfl
  have body : opening (.seq (before ++ v :: after)) = e := by
    rw [← he v hv]
    simp only [opening, notBlank]
    rfl
  rw [body]

theorem reads_segment_child (tag : Text) (before after : List Value) (line : Option Int)
    (hname : Role.ofNode tag before.length after.isEmpty ≠ .name) :
    Reads (Role.ofNode tag before.length after.isEmpty)
      fun v => segment (.node tag (before ++ v :: after) line false) := by
  by_cases hstr : tag = Tag.str.label
  · cases before with
    | nil =>
      -- a text node has to hold a text
      apply Reads.congr (.of_reader (.shown _ [] line))
      intro v hv
      simp only [segment, if_pos hstr]
      cases hv <;> rfl
    | cons a before =>
      apply Reads.of_forall_eq _ (segment (.node tag [a] line false))
      intro v _
      simp only [segment, if_pos hstr]
      rfl
  · by_cases hev : tag = Tag.evstr.label
    · apply (reads_node tag before after line hname).congr
      intro v _
      simp only [segment, if_neg hstr, if_pos hev]
    · apply Reads.of_forall_eq _ (refuse (.unexpectedSegment tag line))
      intro v _
      simp only [segment, if_neg hstr, if_neg hev]

theorem reads_arguments_child (tag : Text) (before after : List Value) (line : Option Int)
    (hname : Role.ofNode tag before.length after.isEmpty ≠ .name) :
    Reads (Role.ofNode tag before.length after.isEmpty)
      fun v => arguments (.node tag (before ++ v :: after) line false) := by
  by_cases hlist : tag = Tag.list.label
  · subst hlist
    have hrole : Role.ofNode Tag.list.label before.length after.isEmpty = .operand := by
      unfold Role.ofNode
      rw [Tag.ofText?_label]
      rfl
    rw [hrole]
    apply (reads_listed before after).congr
    intro v _
    simp only [arguments, if_true]
  · apply (reads_node tag before after line hname).congr
    intro v _
    exact if_neg hlist

/-! What stands in a place of each role, with a place in it. -/

theorem reads_within_child {r : Role} {R : Value → List Step} (h : Reader r R) (tag : Text)
    (before after : List Value) (line : Option Int)
    (hname : r.within (.child tag before after line) ≠ .name) :
    Reads (r.within (.child tag before after line))
      fun v => R (.node tag (before ++ v :: after) line false) := by
  cases h with
  | ignored r steps => exact .const _ steps
  | shown r hole line' =>
    apply Reads.congr (.of_reader (.shown _ (hole ++ [.child tag before after line]) line'))
    intro v _
    rw [Hole.fill_append]
    rfl
  | slot | visit => exact reads_node tag before after line hname
  | arguments => exact reads_arguments_child tag before after line hname
  | blockScope call => exact reads_blockScope call before after line tag hname
  | spec table body => exact reads_spec _ table body (.child tag before after line)
  | rightOperand left op => exact reads_rightOperand left op before after line tag
  | elementArguments receiver op line' =>
    exact reads_assignElement receiver op tag before after line' line
  | pairList => exact ((reads_pairs before after).prepend _).append _
  | clause body => exact reads_clause body before after line tag
  | opening rest => exact .const _ (begun (.error .noPieces) rest)
  | segment => exact reads_segment_child tag before after line hname
  | segmentList => exact reads_segments before after

theorem reads_within_member {r : Role} {R : Value → List Step} (h : Reader r R)
    (before after : List Value) :
    Reads (r.within (.member before after)) fun v => R (.seq (before ++ v :: after)) := by
  cases h with
  | ignored r steps => exact .const _ steps
  | shown r hole line =>
    apply Reads.congr (.of_reader (.shown _ (hole ++ [.member before after]) line))
    intro v _
    rw [Hole.fill_append]
    rfl
  | slot | arguments => exact reads_scope before after
  | visit =>
    -- a sequence within a sequence is refused as a whole
    apply Reads.congr_pieces (.of_reader (.shown _ [.member before after] none))
    intro v _
    rw [pieces_visit, script_eq_pieces]
    rfl
  | spec table body => exact reads_spec _ table body (.member before after)
  | elementArguments receiver op line =>
    exact .const _ (assignElement receiver op .nil line)
  | rightOperand left op =>
    apply Reads.of_forall_eq _ (if op = "!" then word "!(" ++ slot left ++ word ")"
      else malformed .notANode)
    intro v _
    rfl
  | blockScope | pairList | clause | segmentList => exact .const _ (malformed .notANode)
  | opening rest => exact reads_opening_member rest before after
  | segment =>
    apply Reads.of_forall_eq _ (segment (.seq []))
    intro v _
    rfl

/-- A content that has a place in it is read by reading the place. -/
theorem reads_within {r : Role} {R : Value → List Step} (h : Reader r R) (frame : Frame)
    (hname : r.within frame ≠ .name) : Reads (r.within frame) fun v => R (frame.plug v) := by
  cases frame with
  | child tag before after line => exact reads_within_child h tag before after line hname
  | member before after => exact reads_within_member h before after

/-- A content that has a hole in it is read by reading the hole. -/
theorem reads_fill {r : Role} {R : Value → List Step} (h : Reader r R) {hole : Hole}
    (real : hole.isReal = true) (hrole : hole.foldl Role.within r ≠ .name) :
    Reads (hole.foldl Role.within r) fun v => R (hole.fill v) := by
  induction hole generalizing r R with
  | nil => exact .of_reader h
  | cons frame hole ih =>
    have hname : r.within frame ≠ .name := by
      intro hname
      rw [List.foldl_cons, hname] at hrole
      exact hrole (Role.foldl_within_name hole)
    have hreal : Hole.isReal hole = true := (Bool.and_eq_true_iff.1 real).2
    -- the outermost frame leaves a way of reading what is in it, and the others lead to the hole
    obtain ⟨R', pre, post, hR', houter⟩ := reads_within h frame hname
    obtain ⟨R'', pre', post', hR'', hinner⟩ := ih hR' hreal hrole
    refine ⟨R'', pre ++ pre', post' ++ post, hR'', ?_⟩
    intro v hv
    have outer : pieces (R (frame.plug (Hole.fill hole v)))
        = pre ++ pieces (R' (Hole.fill hole v)) ++ post := houter _ (hv.fill hreal)
    have inner : pieces (R' (Hole.fill hole v)) = pre' ++ pieces (R'' v) ++ post' := hinner v hv
    show pieces (R (frame.plug (Hole.fill hole v))) = _
    rw [outer, inner]
    simp only [List.append_assoc]

end Layout

/-! ### Trees with a hole -/

namespace Hole

/-- The node in the hole is rendered between two texts.  Its fault is that of the tree, and if it
has none, the fault of the tree, if any, is always the same and is met after the second text. -/
def Passes (h : Hole) (p q : Text) (late : Option Fault) : Prop :=
  ∀ x : Value, x.isNode = true → x.isReal = true →
    (∀ t, x.Renders t none → (h.fill x).Renders (p ++ t ++ q) late) ∧
      ∀ t f, x.Renders t (some f) → (h.fill x).Renders (p ++ t) (some f)

/-- The tree is rendered in the same way whatever node is in the hole. -/
def Ignores (h : Hole) (t : Text) (fault : Option Fault) : Prop :=
  ∀ x : Value, x.isNode = true → x.isReal = true → (h.fill x).Renders t fault

/-- The rendering ends with the refusal of a part of the tree that has the hole in it. -/
def Refuses (h : Hole) (p : Text) (part : Hole) (line : Option Int) : Prop :=
  ∀ x : Value, x.isNode = true → x.isReal = true →
    (h.fill x).Renders p (some (.refused (.invalidFragment (part.fill x) line)))

/-- A source text of the node is part of that of the tree. -/
theorem Passes.toSource_eq {h : Hole} {p q t : Text} (passes : h.Passes p q none) {x : Value}
    (hnode : x.isNode = true) (hreal : x.isReal = true) (hx : x.toSource = .ok t) :
    (h.fill x).toSource = .ok (p ++ t ++ q) := by
  have filled := (passes x hnode hreal).1 t (Value.renders_none_iff.2 hx)
  exact Value.renders_none_iff.1 filled

/-- A fault of the node is that of the tree. -/
theorem Passes.toSource_eq_error {h : Hole} {p q : Text} {late : Option Fault} {f : Fault}
    (passes : h.Passes p q late) {x : Value} (hnode : x.isNode = true) (hreal : x.isReal = true)
    (hx : x.toSource = .error f) : (h.fill x).toSource = .error f := by
  obtain ⟨t, ht⟩ := Value.renders_some_iff.2 hx
  have filled := (passes x hnode hreal).2 t f ht
  exact Value.renders_some_iff.1 ⟨_, filled⟩

/-- A node in a hole that is not in a name is read once, in one of the ways of its role. -/
theorem exists_reader {h : Hole} (real : h.isReal = true) (hrole : h.role ≠ .name) :
    ∃ R pre post, Reader h.role R ∧ ∀ x : Value, x.isNode = true → x.isReal = true →
      (h.fill x).script = pre ++ pieces (R x) ++ post := by
  have solid (x : Value) (hnode : x.isNode = true) (hreal : x.isReal = true) : Solid x := by
    cases x with
    | node tag cs line synthetic =>
      obtain ⟨hsyn, hcs⟩ := Bool.and_eq_true_iff.1 hreal
      cases synthetic with
      | false => exact .node tag cs line hcs
      | true => cases hsyn
    | _ => cases hnode
  obtain ⟨R, pre, post, hR, heq⟩ := reads_fill .visit real hrole
  refine ⟨R, pre, post, hR, ?_⟩
  intro x hnode hreal
  rw [← pieces_visit]
  exact heq x (solid x hnode hreal)

/-- What stands in the hole of an operand is a part of the script of the tree, or is shown in a
refusal, or is not looked at. -/
theorem script_fill {h : Hole} (real : h.isReal = true) (hrole : h.role = .operand) :
    (∃ pre post, ∀ x : Value, x.isNode = true → x.isReal = true →
      (h.fill x).script = pre ++ x.script ++ post) ∨
    (∃ ps, ∀ x : Value, x.isNode = true → x.isReal = true → (h.fill x).script = ps) ∨
    ∃ pre, ∃ part : Hole, ∃ line post, ∀ x : Value, x.isNode = true → x.isReal = true →
      (h.fill x).script
        = pre ++ [.fault (.refused (.invalidFragment (part.fill x) line))] ++ post := by
  have hname : h.role ≠ .name := by
    rw [hrole]
    decide
  obtain ⟨R, pre, post, hR, script⟩ := exists_reader real hname
  have hoperand : Reader .operand R := hrole ▸ hR
  cases hoperand with
  | ignored r steps => exact .inr (.inl ⟨_, script⟩)
  | shown r part line => exact .inr (.inr ⟨pre, part, line, post, script⟩)
  | visit =>
    refine .inl ⟨pre, post, ?_⟩
    intro x hnode hreal
    rw [script x hnode hreal, pieces_visit]
  | slot =>
    refine .inl ⟨pre, post, ?_⟩
    intro x hnode hreal
    rw [script x hnode hreal, pieces_slot_of_isNode hnode]

/-- A fault in front of what depends on the hole is met first. -/
theorem ignores_of_fault {h : Hole} {pre : List Piece} {f : Fault}
    (hpre : firstFault? pre = some f)
    (script : ∀ x : Value, x.isNode = true → x.isReal = true →
      ∃ rest, (h.fill x).script = pre ++ rest) : h.Ignores (written pre) (some f) := by
  have before : Yields pre (written pre) (some f) := ⟨rfl, hpre⟩
  intro x hnode hreal
  obtain ⟨rest, hrest⟩ := script x hnode hreal
  unfold Value.Renders
  rw [hrest]
  exact before.append_of_some rest

/-- A real tree with a hole in the place of an operand passes on what is in the hole, or ignores it,
or refuses a part of the tree with it. -/
theorem renders_fill (h : Hole) (real : h.isReal = true) (hrole : h.role = .operand) :
    (∃ p q late, h.Passes p q late) ∨ (∃ t fault, h.Ignores t fault) ∨
      ∃ p part line, h.Refuses p part line := by
  rcases script_fill real hrole with ⟨pre, post, script⟩ | ⟨ps, script⟩ |
    ⟨pre, part, line, post, script⟩
  · cases hpre : firstFault? pre with
    | some f =>
      refine .inr (.inl ⟨written pre, some f, ignores_of_fault hpre ?_⟩)
      intro x hnode hreal
      exact ⟨x.script ++ post, by rw [script x hnode hreal, List.append_assoc]⟩
    | none =>
      have before : Yields pre (written pre) none := ⟨rfl, hpre⟩
      refine .inl ⟨written pre, written post, firstFault? post, ?_⟩
      intro x hnode hreal
      unfold Value.Renders
      rw [script x hnode hreal]
      constructor
      · -- what comes after the hole is the same for all nodes, its fault included
        intro t hx
        exact (before.append hx).append (yields_self post)
      · intro t f hx
        exact (before.append hx).append_of_some post
  · refine .inr (.inl ⟨written ps, firstFault? ps, ?_⟩)
    intro x hnode hreal
    unfold Value.Renders
    rw [script x hnode hreal]
    exact yields_self ps
  · cases hpre : firstFault? pre with
    | some f =>
      refine .inr (.inl ⟨written pre, some f, ignores_of_fault hpre ?_⟩)
      intro x hnode hreal
      exact ⟨_, by rw [script x hnode hreal, List.append_assoc]⟩
    | none =>
      have before : Yields pre (written pre) none := ⟨rfl, hpre⟩
      refine .inr (.inr ⟨written pre, part, line, ?_⟩)
      intro x hnode hreal
      unfold Value.Renders
      rw [script x hnode hreal, List.append_assoc]
      have refusal := (yields_fault (.refused (.invalidFragment (part.fill x) line))).append_of_some
        post
      have both := before.append refusal
      rw [List.append_nil] at both
      exact both

/-- The only argument of a call as a hole. -/
def argument : Hole :=
  [.child Tag.fcall.label [.sym "f"] [] none, .child Tag.list.label [] [.nil] none]

/-- An argument of a call is passed on. -/
theorem renders_fill_argument : ∃ p q late, argument.Passes p q late := by
  have hnil : (argument.fill (.node "NIL" [] none false)).Renders "f(nil)" none :=
    ⟨by decide +kernel, by decide +kernel⟩
  have htrue : (argument.fill (.node "TRUE" [] none false)).Renders "f(true)" none :=
    ⟨by decide +kernel, by decide +kernel⟩
  rcases renders_fill argument rfl (by decide) with passes | ⟨t, fault, ignores⟩ |
    ⟨p, part, line, refuses⟩
  · exact passes
  · obtain ⟨h, -⟩ := (ignores (.node "NIL" [] none false) rfl rfl).unique hnil
    obtain ⟨h', -⟩ := (ignores (.node "TRUE" [] none false) rfl rfl).unique htrue
    exact absurd (h.symm.trans h') (by decide)
  · obtain ⟨-, h⟩ := (refuses (.node "NIL" [] none false) rfl rfl).unique hnil
    cases h

end Hole

end Deparse
