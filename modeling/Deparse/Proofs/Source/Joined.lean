import Deparse.Proofs.Source.Outcome
import Deparse.Source.Session

/-!
# Separated lists

What is emitted is a text, and perhaps the fault that ended it (`Emission`).  Emissions follow one
another until there is a fault.  They are *joined* by separators in the same way: the members up to
the first that fails are written with separators between them, the last of them as far as it got,
and its fault is the fault of all (`joined_of_faultless`, `joined_of_fault`).

The statements of a block, the elements of an array, the arguments of a call, the subscripts of an
assignment and the pairs of a hash are all such lists (`convert_joined`).
-/

namespace Deparse

open Layout Piece

/-- What was emitted, and the fault that ended it, if there was one. -/
structure Emission where
  text : Text
  fault : Option Fault
deriving DecidableEq

namespace Emission

/-- The emission of a text alone. -/
def words (t : Text) : Emission :=
  ⟨t, none⟩

/-- Nothing is emitted after a fault. -/
def append (a b : Emission) : Emission :=
  match a.fault with
  | none => ⟨a.text ++ b.text, b.fault⟩
  | some _ => a

/-- Emissions are put one after the other by `append`. -/
instance : Append Emission := ⟨append⟩

/-- The members up to the first one that fails, with it. -/
def reached : List Emission → List Emission
  | [] => []
  | e :: es => if e.fault.isSome then [e] else e :: reached es

/-- Members with separators between them. -/
def joined (separator : Text) (es : List Emission) : Emission :=
  ⟨Text.joined separator ((reached es).map text), es.findSome? fault⟩

/-! ### Members that fail, and members that do not -/

variable {a e : Emission} {es : List Emission} {f : Fault} {separator : Text}

theorem append_of_none (h : a.fault = none) (b : Emission) :
    a ++ b = ⟨a.text ++ b.text, b.fault⟩ := by
  show append a b = _
  rw [append, h]

theorem append_of_some (h : a.fault = some f) (b : Emission) : a ++ b = a := by
  show append a b = _
  rw [append, h]

theorem reached_append (h : ∀ e ∈ es, e.fault = none) (others : List Emission) :
    reached (es ++ others) = es ++ reached others := by
  induction es with
  | nil => rfl
  | cons e es ih =>
    have first : e.fault = none := h e (List.mem_cons_self ..)
    rw [List.cons_append, reached, first, ih fun d hd => h d (List.mem_cons_of_mem _ hd)]
    rfl

theorem findSome?_fault_eq_none (h : ∀ e ∈ es, e.fault = none) : es.findSome? fault = none :=
  List.findSome?_eq_none_iff.2 h

/-- Members without a fault are written in full, and there is no fault. -/
theorem joined_of_faultless (h : ∀ e ∈ es, e.fault = none) (separator : Text) :
    joined separator es = ⟨Text.joined separator (es.map text), none⟩ := by
  have all : reached es = es := by simpa [reached] using reached_append h []
  rw [joined, all, findSome?_fault_eq_none h]

/-- Of members with a fault those before the first that fails are written in full, and that one as
far as it got. -/
theorem joined_of_fault (h : ∀ e ∈ es, e.fault = none) (failed : a.fault = some f)
    (separator : Text) (others : List Emission) :
    joined separator (es ++ a :: others)
      = ⟨Text.joined separator (es.map text ++ [a.text]), some f⟩ := by
  have stop : reached (a :: others) = [a] := by rw [reached, failed]; rfl
  rw [joined, reached_append h, stop, List.findSome?_append, findSome?_fault_eq_none h]
  simp [failed]

/-! ### One member after the other -/

theorem reached_ne_nil (a : Emission) (es : List Emission) : reached (a :: es) ≠ [] := by
  rw [reached]
  split <;> exact List.cons_ne_nil _ _

theorem joined_singleton (separator : Text) (a : Emission) : joined separator [a] = a := by
  obtain ⟨t, _ | f⟩ := a <;> simp [joined, reached, Text.joined]

theorem joined_cons_cons (separator : Text) (a b : Emission) (es : List Emission) :
    joined separator (a :: b :: es) = a ++ words separator ++ joined separator (b :: es) := by
  obtain ⟨t, _ | f⟩ := a
  · -- the first member does not fail, so the others are reached as before
    have first : reached (⟨t, none⟩ :: b :: es) = ⟨t, none⟩ :: reached (b :: es) := rfl
    obtain ⟨c, cs, others⟩ := List.exists_cons_of_ne_nil (reached_ne_nil b es)
    have written : Text.joined separator (t :: c.text :: cs.map text)
        = t ++ separator ++ Text.joined separator (c.text :: cs.map text) := by
      simp [Text.joined, List.intercalate]
    rw [append_of_none rfl, append_of_none rfl, joined, joined, first, others]
    simp only [List.map_cons, written]
    rfl
  · -- nothing is reached after the first member, not even the separator
    rw [append_of_some rfl, append_of_some rfl]
    have before : ∀ e ∈ ([] : List Emission), e.fault = none := by simp
    have failed : (⟨t, some f⟩ : Emission).fault = some f := rfl
    simpa [Text.joined] using joined_of_fault before failed separator (b :: es)

/-! ### The emissions of layouts -/

/-- What the steps of a layout emit. -/
def ofSteps (steps : List Step) : Emission :=
  ⟨written (pieces steps), firstFault? (pieces steps)⟩

theorem ofSteps_word (t : Text) : ofSteps (word t) = words t := by
  obtain ⟨text, fault⟩ := yields_text t
  rw [ofSteps, pieces_word, text, fault, words]

theorem ofSteps_append (a b : List Step) : ofSteps (a ++ b) = ofSteps a ++ ofSteps b := by
  have first := yields_self (pieces a)
  have later := yields_self (pieces b)
  cases fault : firstFault? (pieces a) with
  | none =>
    rw [fault] at first
    obtain ⟨text, fault'⟩ := first.append later
    rw [append_of_none fault, ofSteps, pieces_append, text, fault']
    rfl
  | some f =>
    rw [fault] at first
    obtain ⟨text, fault'⟩ := first.append_of_some (pieces b)
    rw [append_of_some fault, ofSteps, pieces_append, text, fault', ofSteps, fault]

theorem ofSteps_intercalate (separator : Text) (ls : List (List Step)) :
    ofSteps (List.intercalate (word separator) ls) = joined separator (ls.map ofSteps) := by
  induction ls with
  | nil => rfl
  | cons l ls ih =>
    cases ls with
    | nil => rw [List.intercalate_singleton, List.map_singleton, joined_singleton]
    | cons m ls =>
      rw [List.intercalate_cons_cons, ofSteps_append, ofSteps_append, ofSteps_word, ih]
      exact (joined_cons_cons separator (ofSteps l) (ofSteps m) (ls.map ofSteps)).symm

end Emission

open Emission

/-! ### Values -/

/-- What emitting a value comes to in an empty context. -/
def Value.emitted (v : Value) : Emission :=
  let (after, outcome) := Session.step {} (.emit [v])
  ⟨after.buffer, match outcome with
    | .ok _ => none
    | .error f => some f⟩

theorem Emission.ofSteps_slot (v : Value) : ofSteps (slot v) = v.emitted := by
  have alone : Value.fragments [v] = pieces (slot v) := by simp [Value.fragments, pieces]
  simp only [Value.emitted, Session.step, Session.outcome, alone, Context.play, ofSteps,
    List.nil_append]
  cases firstFault? (pieces (slot v)) <;> rfl

/-- What a value is converted to in a context: the emission is added to its text, and the answer is
the whole text or the fault. -/
def Context.Converts (c : Context) (v : Value) (e : Emission) : Prop :=
  (Session.step c (.convert v)).1.buffer = c.buffer ++ e.text ∧
    (Session.step c (.convert v)).2 = match e.fault with
      | none => .ok (some (c.buffer ++ e.text))
      | some f => .error f

variable (c : Context)

/-- A node is converted to what its layout emits. -/
theorem Context.converts_of_layout {tag : Text} {g : Tag} (known : Tag.ofText? tag = some g)
    (real : g.isSynthetic = false) (cs : List Value) (line : Option Int) :
    c.Converts (.node tag cs line false) (ofSteps (ofTag cs line g)) := by
  rw [Converts, Session.step, script_node known real]
  refine ⟨rfl, ?_⟩
  simp only [Session.outcome, ofSteps]
  cases firstFault? (pieces (ofTag cs line g)) <;> rfl

/-! ### Lists of values -/

/-- The values that are there. -/
def present (vs : List Value) : List Value :=
  vs.filter Value.isPresent

theorem Emission.ofSteps_listed (vs : List Value) :
    ofSteps (listed vs) = joined ", " ((present vs).map Value.emitted) := by
  rw [listed, ofSteps_intercalate, List.map_map, present]
  congr 1
  exact List.map_congr_left fun v _ => ofSteps_slot v

/-- The first two values, the next two and so on, up to a pair of which the first is absent.  A
value that is left over is paired with an absent one. -/
def consecutivePairs (vs : List Value) : List (Value × Value) :=
  let pairAt (i : Nat) := (child vs (2 * i), child vs (2 * i + 1))
  ((List.range ((vs.length + 1) / 2)).map pairAt).takeWhile fun p => p.1.isPresent

/-- The pairs that are taken from the list one by one are those that stand there. -/
theorem pairs_eq (vs : List Value) : pairs vs = consecutivePairs vs := by
  fun_induction pairs vs with
  | case1 => rfl
  | case2 vs =>
    -- there is a first pair, and it ends the others as its key is absent
    have more : ((Value.nil :: vs).length + 1) / 2 = vs.length / 2 + 1 := by
      simp only [List.length_cons]
      omega
    rw [consecutivePairs, more, List.range_succ_eq_map, List.map_cons]
    rfl
  | case3 k other =>
    -- a key without a value
    have present : k.isPresent = true := Value.isPresent_iff.2 other
    rw [consecutivePairs]
    simp [child, present]
  | case4 k v vs other ih =>
    have first : (fun p : Value × Value => p.1.isPresent) (k, v) = true :=
      Value.isPresent_iff.2 other
    have more : ((k :: v :: vs).length + 1) / 2 = (vs.length + 1) / 2 + 1 := by
      simp only [List.length_cons]
      omega
    -- what stands two places further on are the pairs of the rest
    have shifted : ((fun i => (child (k :: v :: vs) (2 * i), child (k :: v :: vs) (2 * i + 1))) ∘
        Nat.succ) = fun i => (child vs (2 * i), child vs (2 * i + 1)) := rfl
    rw [consecutivePairs, more, List.range_succ_eq_map, List.map_cons, List.map_map, shifted, ih]
    exact (List.takeWhile_cons_of_pos (p := fun p : Value × Value => p.1.isPresent) first).symm

theorem Emission.ofSteps_pair (p : Value × Value) :
    ofSteps (pair p) = p.1.emitted ++ words " => " ++ p.2.emitted := by
  rw [pair, ofSteps_append, ofSteps_append, ofSteps_word, ofSteps_slot, ofSteps_slot]

theorem Emission.ofSteps_pairs (vs : List Value) :
    ofSteps (List.intercalate (word ", ") ((pairs vs).map pair))
      = joined ", " ((consecutivePairs vs).map fun p =>
          p.1.emitted ++ words " => " ++ p.2.emitted) := by
  rw [ofSteps_intercalate, List.map_map, pairs_eq]
  congr 1
  exact List.map_congr_left fun p _ => ofSteps_pair p

/-- What is left of the arguments of an assignment without the absent one at their end. -/
theorem withoutSentinel_concat_nil (vs : List Value) : withoutSentinel (vs ++ [.nil]) = vs := by
  rw [withoutSentinel, List.getLast?_concat]
  exact List.dropLast_concat

theorem withoutSentinel_concat {last : Value} (h : last.isPresent = true) (vs : List Value) :
    withoutSentinel (vs ++ [last]) = vs ++ [last] := by
  rw [withoutSentinel, List.getLast?_concat]
  split
  · rename_i absent
    cases absent
    cases h
  · rfl

/-! ### Separated lists -/

section Lists

variable (vs : List Value) (line line' : Option Int) (tag : Text) (synthetic : Bool)
  (rest : List Value)

theorem Emission.ofSteps_block :
    ofSteps (ofTag vs line .block) = joined "\n" (vs.map Value.emitted) := by
  rw [ofTag, ofSteps_intercalate, List.map_map]
  congr 1
  exact List.map_congr_left fun v _ => ofSteps_slot v

theorem Emission.ofSteps_list : ofSteps (ofTag vs line .list)
    = words "[" ++ joined ", " ((present vs).map Value.emitted) ++ words "]" := by
  simp only [ofTag, listed_withoutSentinel, ofSteps_append, ofSteps_word, ofSteps_listed]

/-- A list node as the arguments of a call is rendered without its brackets. -/
theorem Emission.ofSteps_arguments :
    ofSteps (arguments (.node Tag.list.label vs line' synthetic))
      = joined ", " ((present vs).map Value.emitted) := by
  rw [arguments, if_pos rfl, ofSteps_listed]

theorem Emission.ofSteps_fcall (name : Value) :
    ofSteps (ofTag (name :: .node Tag.list.label vs line' synthetic :: rest) line .fcall)
      = words (name.displayed ++ "(") ++ joined ", " ((present vs).map Value.emitted) ++
        words ")" := by
  simp only [ofTag, child, List.getD_cons_zero, List.getD_cons_succ, ofSteps_append, ofSteps_word,
    ofSteps_arguments]

theorem Emission.ofSteps_call (receiver method : Value) :
    ofSteps (ofTag (receiver :: method :: .node Tag.list.label vs line' synthetic :: rest) line
        .call)
      = if method.displayed = "[]" then
          receiver.emitted ++ words "[" ++ joined ", " ((present vs).map Value.emitted) ++ words "]"
        else
          receiver.emitted ++ words ("." ++ method.displayed ++ "(") ++
            joined ", " ((present vs).map Value.emitted) ++ words ")" := by
  simp only [ofTag, child, List.getD_cons_zero, List.getD_cons_succ]
  split <;> simp only [ofSteps_append, ofSteps_word, ofSteps_slot, ofSteps_arguments]

theorem Emission.ofSteps_attrasgn (receiver : Value) {op : Value} (assigns : op.displayed = "[]=")
    {init : List Value} {last : Value} (members : withoutSentinel vs = init ++ [last]) :
    ofSteps (ofTag (receiver :: op :: .node tag vs line' synthetic :: rest) line .attrasgn)
      = receiver.emitted ++ words "[" ++ joined ", " ((present init).map Value.emitted) ++
        words "] = " ++ last.emitted := by
  have known : op.displayed = elementAssignment := assigns
  have layout : ofTag (receiver :: op :: .node tag vs line' synthetic :: rest) line .attrasgn
      = slot receiver ++ word "[" ++ listed init ++ word "] = " ++ slot last := by
    simp only [ofTag, child, List.getD_cons_zero, List.getD_cons_succ, assignElement, known,
      withChildren, members, List.getLast?_concat, List.dropLast_concat, if_true]
  rw [layout]
  simp only [ofSteps_append, ofSteps_word, ofSteps_slot, ofSteps_listed]

theorem Emission.ofSteps_hash :
    ofSteps (ofTag (.node tag vs line' synthetic :: rest) line .hash)
      = words "\x7b" ++ joined ", " ((consecutivePairs vs).map fun p =>
          p.1.emitted ++ words " => " ++ p.2.emitted) ++ words "\x7d" := by
  simp only [ofTag, child, List.getD_cons_zero, withChildren, ofSteps_append, ofSteps_word,
    ofSteps_pairs]

end Lists

/-- **Separators are exactly a join.**  In any context a block is converted to its children joined
by line ends.  An array is converted to its elements in brackets, joined by commas, where the absent
elements are left out.  So are the arguments of a call between its parentheses or, if the method is
`[]`, between brackets right behind the receiver; and the subscripts of an assignment to an element,
which are its arguments but the last, an absent one at the end not counted.  A hash is converted to
its pairs up to the first without a key, joined by commas in braces.  If a member fails, conversion
ends there with its fault, and the text ends with what the member had written. -/
theorem convert_joined :
    (∀ vs line, c.Converts (.node Tag.block.label vs line false)
        (joined "\n" (vs.map Value.emitted))) ∧
      (∀ vs line, c.Converts (.node Tag.list.label vs line false)
        (words "[" ++ joined ", " ((present vs).map Value.emitted) ++ words "]")) ∧
      (∀ name vs line' synthetic rest line,
        c.Converts (.node Tag.fcall.label
            (name :: .node Tag.list.label vs line' synthetic :: rest) line false)
          (words (name.displayed ++ "(") ++ joined ", " ((present vs).map Value.emitted) ++
            words ")")) ∧
      (∀ receiver method vs line' synthetic rest line,
        c.Converts (.node Tag.call.label
            (receiver :: method :: .node Tag.list.label vs line' synthetic :: rest) line false)
          (if method.displayed = "[]" then
            receiver.emitted ++ words "[" ++ joined ", " ((present vs).map Value.emitted) ++
              words "]"
          else
            receiver.emitted ++ words ("." ++ method.displayed ++ "(") ++
              joined ", " ((present vs).map Value.emitted) ++ words ")")) ∧
      (∀ (receiver op : Value) init last sentinel tag line' synthetic rest line,
        op.displayed = "[]=" → sentinel = [Value.nil] ∨ sentinel = [] ∧ last.isPresent = true →
        c.Converts (.node Tag.attrasgn.label
            (receiver :: op :: .node tag (init ++ [last] ++ sentinel) line' synthetic :: rest)
            line false)
          (receiver.emitted ++ words "[" ++ joined ", " ((present init).map Value.emitted) ++
            words "] = " ++ last.emitted)) ∧
      ∀ vs tag line' synthetic rest line,
        c.Converts (.node Tag.hash.label (.node tag vs line' synthetic :: rest) line false)
          (words "\x7b" ++ joined ", " ((consecutivePairs vs).map fun p =>
            p.1.emitted ++ words " => " ++ p.2.emitted) ++ words "\x7d") := by
  refine ⟨fun vs line => ?_, fun vs line => ?_, fun name vs line' synthetic rest line => ?_,
    fun receiver method vs line' synthetic rest line => ?_, ?_,
    fun vs tag line' synthetic rest line => ?_⟩
  · rw [← ofSteps_block vs line]
    exact c.converts_of_layout (Tag.ofText?_label .block) rfl _ line
  · rw [← ofSteps_list vs line]
    exact c.converts_of_layout (Tag.ofText?_label .list) rfl _ line
  · rw [← ofSteps_fcall vs line line' synthetic rest name]
    exact c.converts_of_layout (Tag.ofText?_label .fcall) rfl _ line
  · rw [← ofSteps_call vs line line' synthetic rest receiver method]
    exact c.converts_of_layout (Tag.ofText?_label .call) rfl _ line
  · intro receiver op init last sentinel tag line' synthetic rest line assigns dropped
    -- whether or not there is a sentinel, the subscripts and the value are left
    have members : withoutSentinel (init ++ [last] ++ sentinel) = init ++ [last] := by
      rcases dropped with rfl | ⟨rfl, present⟩
      · exact withoutSentinel_concat_nil _
      · rw [List.append_nil, withoutSentinel_concat present]
    rw [← ofSteps_attrasgn _ line line' tag synthetic rest receiver assigns members]
    exact c.converts_of_layout (Tag.ofText?_label .attrasgn) rfl _ line
  · rw [← ofSteps_hash vs line line' tag synthetic rest]
    exact c.converts_of_layout (Tag.ofText?_label .hash) rfl _ line

/-- A variable of the given name. -/
def named (name : Text) : Value :=
  .node "LVAR" [.sym name] none false

/-- An assignment to an element by two subscripts, with an absent one between them and an absent
argument at the end; and an array of which the second element fails. -/
theorem convert_joined_assignment :
    (Value.sym "[]=").displayed = "[]=" ∧
      ([Value.nil] = [Value.nil] ∨ [Value.nil] = [] ∧ (named "v").isPresent = true) ∧
      Context.Converts ⟨"x; ", 0⟩
        (.node "ATTRASGN" [named "a", .sym "[]=",
          .node "LIST" [named "i", .nil, named "j", named "v", .nil] none false] none false)
        ⟨"a[i, j] = v", none⟩ ∧
      Context.Converts ⟨"x; ", 0⟩
        (.node "LIST" [named "i", .node "ZSUPER" [] (some 2) false, named "j"] none false)
        ⟨"[i, ", some (.refused (.unsupportedNode "ZSUPER" (some 2)))⟩ := by
  have assigned : (named "a").emitted ++ words "[" ++
      joined ", " ((present [named "i", .nil, named "j"]).map Value.emitted) ++ words "] = " ++
        (named "v").emitted = ⟨"a[i, j] = v", none⟩ := by decide +kernel
  have failed : words "[" ++ joined ", " ((present
      [named "i", .node "ZSUPER" [] (some 2) false, named "j"]).map Value.emitted) ++ words "]"
        = ⟨"[i, ", some (.refused (.unsupportedNode "ZSUPER" (some 2)))⟩ := by decide +kernel
  refine ⟨rfl, .inl rfl, ?_, ?_⟩
  · rw [← assigned]
    exact (convert_joined ⟨"x; ", 0⟩).2.2.2.2.1 (named "a") (.sym "[]=")
      [named "i", .nil, named "j"] (named "v") [.nil] "LIST" none false [] none rfl (.inl rfl)
  · rw [← failed]
    exact (convert_joined ⟨"x; ", 0⟩).2.1 _ none

end Deparse
