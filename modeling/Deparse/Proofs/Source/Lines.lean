import Deparse.Proofs.Source.Linear

/-!
# Lines are for messages only

The line of a node has a part in its rendering in two ways: the message of a refusal ends with it,
or shows the whole of a value with the lines in it.  And a node that stands for a name is spelled
with its line.  Everywhere else the line of one node can be changed without changing what the tree
comes to (`alike_of_line`), so that all of them can be left out (`alike_unlined`).

`Value.unlined` leaves out the lines of a value but those in names.  Two trees that differ only in
what it leaves out agree (`agree_of_unlined_eq`).
-/

namespace Deparse

open Layout Piece

namespace Value

/-! ### Leaving out lines -/

mutual

/-- The value, in a place of the given role, without the lines of the nodes in it.  Names keep their
lines. -/
def unlined (r : Role) : Value → Value
  | node tag cs line synthetic =>
    if r = .name then node tag cs line synthetic
    else
      node tag (unlinedIn r (fun before after => .child tag before after none) [] cs) none synthetic
  | seq xs => seq (unlinedIn r .member [] xs)
  | v => v

/-- Values side by side without lines.  What stands around the place of one of them is given by
those before it, which are without lines already, and those after it. -/
def unlinedIn (r : Role) (frame : List Value → List Value → Frame) (before : List Value) :
    List Value → List Value
  | [] => []
  | v :: vs =>
    let w := unlined (r.within (frame before vs)) v
    w :: unlinedIn r frame (before ++ [w]) vs

end

mutual

/-- A real value is real without its lines. -/
theorem isReal_unlined : ∀ (r : Role) (v : Value), v.isReal = true → (v.unlined r).isReal = true
  | r, node tag cs line synthetic, h => by
    obtain ⟨plain, real⟩ := Bool.and_eq_true_iff.1 h
    rw [unlined]
    split
    · exact h
    · exact Bool.and_eq_true_iff.2 ⟨plain, areReal_unlinedIn r _ [] cs real⟩
  | r, seq xs, h => areReal_unlinedIn r .member [] xs h
  | _, nil, h | _, bool _, h | _, int _, h | _, float _, h | _, str _, h | _, sym _, h
  | _, bytes _, h | _, array _, h | _, object _, h => h

theorem areReal_unlinedIn : ∀ (r : Role) (frame : List Value → List Value → Frame)
    (before vs : List Value), areReal vs = true → areReal (unlinedIn r frame before vs) = true
  | _, _, _, [], _ => rfl
  | r, frame, before, v :: vs, h => by
    obtain ⟨hv, hvs⟩ := Bool.and_eq_true_iff.1 h
    exact Bool.and_eq_true_iff.2 ⟨isReal_unlined _ v hv, areReal_unlinedIn r frame _ vs hvs⟩

end

end Value

/-! ### The line of one node -/

/-- Faults of the same kind come to the same. -/
theorem Piece.alike_fault {f g : Fault} (h : f.kind = g.kind) : Alike [.fault f] [.fault g] :=
  (yields_fault f).alike (yields_fault g) (congrArg some h)

section Line

variable (tag : Text) (cs : List Value) (line line' : Option Int)

/-- Of what a node is laid out as, only refusals have its line. -/
theorem alike_ofTag_line (g : Tag) :
    Alike (pieces (ofTag cs line g)) (pieces (ofTag cs line' g)) := by
  cases g with
  -- a literal, a text or an assignment is refused with its line, and all else has none
  | lit =>
    cases cs with
    | nil => exact .refl _
    | cons c cs =>
      simp only [ofTag, withFirst]
      split
      · exact .refl _
      · exact alike_fault rfl
  | str =>
    cases cs with
    | nil => exact .refl _
    | cons c cs =>
      simp only [ofTag, withFirst]
      split
      · exact .refl _
      · exact alike_fault rfl
  | attrasgn =>
    simp only [ofTag, assignElement]
    split
    · exact .refl _
    · exact alike_fault rfl
  | _ => exact .refl _

/-- A node of an unknown tag is refused with its line. -/
theorem alike_script_line :
    Alike (Value.node tag cs line false).script (Value.node tag cs line' false).script := by
  rw [script_eq_pieces, script_eq_pieces, Value.layout, Value.layout]
  split
  · split
    · exact alike_ofTag_line cs line line' _
    · exact alike_fault rfl
  · exact alike_fault rfl

theorem alike_slot_line :
    Alike (pieces (slot (.node tag cs line false))) (pieces (slot (.node tag cs line' false))) := by
  rw [pieces_slot_node, pieces_slot_node]
  exact alike_script_line tag cs line line'

/-- A segment is shown in a refusal by its tag and line. -/
theorem alike_segment_line :
    Alike (pieces (segment (.node tag cs line false)))
      (pieces (segment (.node tag cs line' false))) := by
  simp only [Layout.segment]
  split
  · split
    · exact .refl _
    · exact alike_fault rfl
  · split
    · exact alike_slot_line tag cs line line'
    · exact alike_fault rfl

/-- An argument specification says the same whatever its line. -/
theorem block_line (table body : Value) :
    block table (.node tag cs line false) body = block table (.node tag cs line' false) body := by
  have count : leadingCount? (.node tag cs line false)
      = leadingCount? (.node tag cs line' false) := by
    cases cs with
    | nil => rfl
    | cons c cs => cases c <;> rfl
  exact block_congr rfl rfl count table body

/-- A node is read alike whatever its line, in a place that is not a name. -/
theorem Reader.alike_of_line {r : Role} {R : Value → List Step} (h : Reader r R) :
    Alike (pieces (R (.node tag cs line false))) (pieces (R (.node tag cs line' false))) := by
  cases h with
  | ignored => exact .refl _
  | shown => exact alike_fault rfl
  | slot => exact alike_slot_line tag cs line line'
  | visit => exact alike_slot_line tag cs line line'
  | arguments =>
    simp only [Layout.arguments]
    split
    · exact .refl _
    · exact alike_slot_line tag cs line line'
  | spec table body =>
    simp only [block_line tag cs line line']
    exact .refl _
  | segment => exact alike_segment_line tag cs line line'
  | blockScope | rightOperand | elementArguments | pairList | clause | opening | segmentList =>
    exact .refl _

end Line

/-- The line of a node that is not in a name can be changed. -/
theorem alike_of_line {h : Hole} (real : h.isReal = true) (place : h.role ≠ .name) {tag : Text}
    {cs : List Value} (parts : Value.areReal cs = true) (line line' : Option Int) :
    Alike (h.fill (.node tag cs line false)).script (h.fill (.node tag cs line' false)).script := by
  obtain ⟨R, pre, post, hR, script⟩ := Hole.exists_reader real place
  have left := script (.node tag cs line false) rfl parts
  have right := script (.node tag cs line' false) rfl parts
  rw [left, right]
  exact (hR.alike_of_line tag cs line line').between pre post

/-! ### All lines -/

/-- The role of an inner place is found from that of the outer one. -/
theorem Hole.role_concat (h : Hole) (frame : Frame) :
    (h ++ [frame]).role = h.role.within frame := by
  rw [Hole.role, List.foldl_append]
  rfl

theorem Hole.fill_concat (h : Hole) (frame : Frame) (v : Value) :
    (h ++ [frame]).fill v = h.fill (frame.plug v) :=
  Hole.fill_append h [frame] v

theorem Hole.isReal_concat {h : Hole} {frame : Frame} (real : h.isReal = true)
    (sides : frame.isReal = true) : (h ++ [frame]).isReal = true := by
  rw [Hole.isReal, List.all_append, List.all_cons, List.all_nil, Bool.and_true]
  exact Bool.and_eq_true_iff.2 ⟨real, sides⟩

namespace Value

mutual

/-- The lines of a value in a hole can be left out. -/
theorem alike_unlined : ∀ (v : Value) (h : Hole), h.isReal = true → v.isReal = true →
    Alike (h.fill v).script (h.fill (v.unlined h.role)).script
  | node tag cs line synthetic, h, real, hv => by
    obtain ⟨plain, parts⟩ := Bool.and_eq_true_iff.1 hv
    obtain rfl : synthetic = false := by simpa using plain
    rw [unlined]
    split
    · exact .refl _
    · rename_i place
      -- the line of the node itself goes first, and then those of its children
      have children := alike_unlinedIn cs [] h (fun before after => .child tag before after none)
        (fun cs => node tag cs none false) (fun _ _ _ => rfl) (fun _ _ => rfl) real rfl parts
      exact (alike_of_line real place parts line none).trans children
  | seq xs, h, real, hv =>
    alike_unlinedIn xs [] h .member seq (fun _ _ _ => rfl) (fun _ _ => rfl) real rfl hv
  | nil, _, _, _ | bool _, _, _, _ | int _, _, _, _ | float _, _, _, _ | str _, _, _, _
  | sym _, _, _, _ => .refl _

/-- So can those of values side by side, from left to right. -/
theorem alike_unlinedIn : ∀ (vs before : List Value) (h : Hole)
    (frame : List Value → List Value → Frame) (whole : List Value → Value),
    (∀ before v after, (frame before after).plug v = whole (before ++ v :: after)) →
    (∀ before after, (frame before after).isReal = (areReal before && areReal after)) →
    h.isReal = true → areReal before = true → areReal vs = true →
    Alike (h.fill (whole (before ++ vs))).script
      (h.fill (whole (before ++ unlinedIn h.role frame before vs))).script
  | [], _, _, _, _, _, _, _, _, _ => .refl _
  | v :: vs, before, h, frame, whole, plug, sides, real, done, hvs => by
    obtain ⟨hv, rest⟩ := Bool.and_eq_true_iff.1 hvs
    have around : (frame before vs).isReal = true := by rw [sides, done, rest, Bool.and_self]
    obtain ⟨w, hw⟩ : ∃ w, v.unlined (h.role.within (frame before vs)) = w := ⟨_, rfl⟩
    have realw : w.isReal = true := hw ▸ isReal_unlined _ v hv
    have done' : areReal (before ++ [w]) = true := by
      simp only [areReal_append, done, areReal, realw, Bool.and_self]
    -- the first value loses its lines, and then those after it, with the first one beside them
    have first := alike_unlined v (h ++ [frame before vs]) (Hole.isReal_concat real around) hv
    have others := alike_unlinedIn vs (before ++ [w]) h frame whole plug sides real done' rest
    rw [Hole.role_concat, hw, Hole.fill_concat, Hole.fill_concat, plug, plug] at first
    rw [List.append_assoc, List.append_assoc] at others
    rw [unlinedIn, hw]
    exact first.trans others

end

/-- **Lines are for messages only**: real trees that differ only in lines, and not in a name, have
the same source text, or come to faults of the same kind after the same text. -/
theorem agree_of_unlined_eq {v w : Value} (hv : v.isReal = true) (hw : w.isReal = true)
    (same : v.unlined .operand = w.unlined .operand) : v.Agree w := by
  have left : Alike v.script (v.unlined .operand).script := alike_unlined v [] rfl hv
  have right : Alike w.script (w.unlined .operand).script := alike_unlined w [] rfl hw
  rw [← same] at right
  exact agree_of_alike (left.trans right.symm)

/-- A call with a block, on lines that may be known. -/
def callOnLines (call scope spec : Option Int) (body : Value) : Value :=
  node "ITER" [node "FCALL" [sym "f", nil] call false,
    node "SCOPE" [seq [sym "x", sym "y"], node "ARGS" [int 1, nil] spec false, body] scope false]
    call false

/-- A name on a line. -/
def nameOnLine (line : Option Int) : Value :=
  node "DVAR" [sym "x"] line false

/-- A literal of a name, which has none. -/
def literalOnLine (line : Option Int) : Value :=
  node "LIT" [nameOnLine line] line false

/-- The call as it is found on the first line. -/
def callOnFirst (body : Value) : Value :=
  callOnLines (some 1) (some 1) none body

/-- The call as it is found further below, where its own line is not known. -/
def callBelow (body : Value) : Value :=
  callOnLines none (some 7) (some 8) body

/-- Two trees that differ only in lines have the same source text, or are refused in other words:
the message shows the lines. -/
theorem agree_of_unlined_eq_block :
    (((callOnFirst (nameOnLine (some 2))).isReal = true ∧
          (callBelow (nameOnLine none)).isReal = true ∧
          (callOnFirst (nameOnLine (some 2))).unlined .operand =
            (callBelow (nameOnLine none)).unlined .operand) ∧
        (callOnFirst (nameOnLine (some 2))).toSource = .ok "f() do |x|\nx\nend" ∧
        (callOnFirst (nameOnLine (some 2))).Agree (callBelow (nameOnLine none))) ∧
      ((callOnFirst (literalOnLine (some 2))).isReal = true ∧
          (callBelow (literalOnLine (some 9))).isReal = true ∧
          (callOnFirst (literalOnLine (some 2))).unlined .operand =
            (callBelow (literalOnLine (some 9))).unlined .operand) ∧
        (callOnFirst (literalOnLine (some 2))).toSource =
          .error (.refused (.invalidFragment (nameOnLine (some 2)) (some 2))) ∧
        (callBelow (literalOnLine (some 9))).toSource =
          .error (.refused (.invalidFragment (nameOnLine (some 9)) (some 9))) ∧
        (callOnFirst (literalOnLine (some 2))).Agree (callBelow (literalOnLine (some 9))) := by
  have same : (callOnFirst (nameOnLine (some 2))).unlined .operand =
      (callBelow (nameOnLine none)).unlined .operand := by decide +kernel
  have same' : (callOnFirst (literalOnLine (some 2))).unlined .operand =
      (callBelow (literalOnLine (some 9))).unlined .operand := by decide +kernel
  have text : (callOnFirst (nameOnLine (some 2))).toSource = .ok "f() do |x|\nx\nend" :=
    renders_none_iff.1 ⟨by decide +kernel, by decide +kernel⟩
  have fault : (callOnFirst (literalOnLine (some 2))).toSource =
      .error (.refused (.invalidFragment (nameOnLine (some 2)) (some 2))) :=
    renders_some_iff.1 ⟨"f() do |x|\n", by decide +kernel, by decide +kernel⟩
  have fault' : (callBelow (literalOnLine (some 9))).toSource =
      .error (.refused (.invalidFragment (nameOnLine (some 9)) (some 9))) :=
    renders_some_iff.1 ⟨"f() do |x|\n", by decide +kernel, by decide +kernel⟩
  exact ⟨⟨⟨rfl, rfl, same⟩, text, agree_of_unlined_eq rfl rfl same⟩, ⟨rfl, rfl, same'⟩, fault,
    fault', agree_of_unlined_eq rfl rfl same'⟩

end Value

end Deparse
