import Mathlib.Data.List.Chain
import Deparse.Proofs.Literal.Brackets
import Deparse.Proofs.Source.InterpolatedString
import Deparse.Proofs.Source.Rendered
import Deparse.Proofs.Tree.EveryNode

/-!
# Source texts are well nested

Brackets and quotes are opened by one word of a layout and closed by another, with all that is
rendered between them.  `Layout.Leads` says where reading what the steps of a layout write leads,
given that what they visit leads back to where it starts from; its lemmas go along with the ways in
which layouts are put together.

A node is *neat* if the names it is written with are tame, no text stands bare in one of its slots,
and the texts of an interpolated string are kept apart by its interpolations (`Value.isNeat`).  The
source text of a value is well nested if all nodes that are rendered are neat
(`read_of_toSource`).
-/

namespace Deparse

open Layout Piece

/-! ### Neat nodes -/

namespace Layout

/-- The names that a node is written with. -/
def names (cs : List Value) : Tag → List Text
  | .const | .vcall | .dvar | .lvar | .ivar | .fcall | .dasgnCurr | .dasgn | .lasgn | .iasgn =>
    [(child cs 0).displayed]
  | .colon2 | .call | .opcall | .attrasgn => [(child cs 1).displayed]
  | .iter =>
    (parameters? (child (child cs 1).children 0) (child (child cs 1).children 1)).getD []
  | .iterScope => (parameters? (child cs 0) (child cs 1)).getD []
  | _ => []

/-- The contents of the slots that the arguments of a call are rendered in. -/
def argumentSlots : Value → List Value
  | .node tag cs line synthetic =>
    if tag = Tag.list.label then cs else [.node tag cs line synthetic]
  | v => [v]

/-- The contents of the slots of a node. -/
def slots (cs : List Value) : Tag → List Value
  | .block | .list | .listEmbedded => cs
  | .iter => [child cs 0, child (child cs 1).children 2]
  | .iterScope => [child cs 2]
  | .colon2 | .evstr | .begin => [child cs 0]
  | .call => child cs 0 :: argumentSlots (child cs 2)
  | .fcall => argumentSlots (child cs 1)
  | .opcall =>
    child cs 0 ::
      if (child cs 1).displayed = "!" then [] else (child cs 2).children.take 1
  | .dasgnCurr | .dasgn | .lasgn | .iasgn => [child cs 1]
  | .ifElse | .unlessElse => [child cs 0, child cs 1, child cs 2]
  | .whileLoop | .conj | .disj => [child cs 0, child cs 1]
  | .hash => (pairs (child cs 0).children).flatMap fun p => [p.1, p.2]
  | .attrasgn => child cs 0 :: withoutSentinel (child cs 2).children
  | .rescue => [child cs 0, child (child cs 1).children 1]
  | _ => []

/-- What an interpolated string is made of: what it begins with, and its segments. -/
def stringPieces (cs : List Value) : List Value :=
  (child cs 0 :: child cs 1 :: (child cs 2).children).filter Value.isPresent

end Layout

namespace Value

/-- Whether a value is a text, which a slot would write without quotes. -/
def isBareText : Value → Bool
  | str _ => true
  | _ => false

/-- Whether a piece of an interpolated string is a text. -/
def isTextPiece : Value → Bool
  | str _ => true
  | node tag _ _ _ => tag = Tag.str.label
  | _ => false

/-- Whether an interpolated string begins with a text, if with anything, and has no two texts side
by side. -/
def isSpacedString (cs : List Value) : Bool :=
  Deparse.isOpening (child cs 0) &&
    decide ((stringPieces cs).IsChain fun v w => (v.isTextPiece && w.isTextPiece) = false)

/-- Whether the names, slots and texts of a node do not disturb the brackets and quotes around
them. -/
def isNeat : Value → Bool
  | node tag cs _ _ =>
    match Tag.ofText? tag with
    | some g =>
      (names cs g).all Brackets.isTame && !(slots cs g).any isBareText &&
        (g ≠ .dstr || isSpacedString cs)
    | none => true
  | _ => true

/-- Whether a value is a node of an interpolation. -/
def isSplice : Value → Bool
  | node tag _ _ _ => tag = Tag.evstr.label
  | _ => false

/-- The source text of the value leads back to where it starts from: in code, and in a string if
the value is an interpolation. -/
def Nests (v : Value) : Prop :=
  ∀ t s, v.Renders t none → Brackets.Leads (.code, s) t (.code, s) ∧
    (v.isSplice = true → Brackets.Leads (.string, s) t (.string, s))

end Value

/-! ### Steps -/

namespace Layout

/-- If what the steps visit is well nested, then what they write leads from the one state to the
other. -/
def Leads (a : Brackets.State) (steps : List Step) (b : Brackets.State) : Prop :=
  (∀ w, .visit w ∈ steps → w.Nests) →
    ∀ t, Yields (pieces steps) t none → Brackets.Leads a t b

variable {a b c : Brackets.State} {s : List Brackets.Opener}

theorem leads_nil (a : Brackets.State) : Leads a [] a := by
  intro _ t ht
  obtain ⟨rfl, -⟩ := yields_nil.unique ht
  exact Brackets.leads_nil a

theorem Leads.append {x y : List Step} (hx : Leads a x b) (hy : Leads b y c) :
    Leads a (x ++ y) c := by
  intro nested t ht
  rw [pieces_append] at ht
  obtain ⟨u, v, hu, hv, rfl⟩ := ht.of_append_none
  exact (hx (fun w hw => nested w (List.mem_append_left _ hw)) u hu).append
    (hy (fun w hw => nested w (List.mem_append_right _ hw)) v hv)

theorem leads_word {t : Text} (h : Brackets.Leads a t b) : Leads a (word t) b := by
  intro _ u hu
  obtain ⟨rfl, -⟩ := (yields_text _).unique hu
  exact h

/-- A word without brackets leads back. -/
theorem leads_tame {t : Text} (h : Brackets.isTame t = true) :
    Leads (.code, s) (word t) (.code, s) :=
  leads_word (Brackets.leads_of_isTame s h)

theorem leads_fault (f : Fault) : Leads a [.put (.fault f)] b := by
  intro _ t ht
  cases ((yields_fault f).unique ht).2

theorem leads_refuse (r : Refusal) : Leads a (refuse r) b :=
  leads_fault _

theorem leads_malformed (m : Malformation) : Leads a (malformed m) b :=
  leads_fault _

theorem leads_visit (v : Value) : Leads (.code, s) [.visit v] (.code, s) := by
  intro nested t ht
  rw [pieces_visit] at ht
  exact (nested v (List.mem_singleton_self _) t s ht).1

/-- A mark of a scope writes nothing. -/
theorem leads_mark {p : Piece} (h : Yields [p] [] none) : Leads a [.put p] a := by
  intro _ t ht
  obtain ⟨rfl, -⟩ := h.unique ht
  exact Brackets.leads_nil a

theorem leads_visits (vs : List Value) : Leads (.code, s) (vs.map .visit) (.code, s) := by
  induction vs with
  | nil => exact leads_nil _
  | cons v vs ih => exact (leads_visit v).append ih

theorem leads_scope (vs : List Value) : Leads (.code, s) (scope vs) (.code, s) := by
  have lineEnd : Leads (.code, s) (word "\n") (.code, s) := leads_tame (by decide)
  have enter : Leads (.code, s) [.put .enter] (.code, s) := leads_mark ⟨rfl, rfl⟩
  have leave : Leads (.code, s) [.put .leave] (.code, s) := leads_mark ⟨rfl, rfl⟩
  exact (((lineEnd.append enter).append (leads_visits _)).append leave).append lineEnd

/-- A slot leads back, if no text stands bare in it. -/
theorem leads_slot {v : Value} (h : v.isBareText = false) :
    Leads (.code, s) (slot v) (.code, s) := by
  cases v with
  | nil => exact leads_nil _
  | str => cases h
  | seq vs | array vs => exact leads_scope vs
  | node => exact leads_visit _
  | _ => exact leads_refuse _

/-- Separators without brackets keep what leads back apart. -/
theorem leads_intercalate {separator : Text} (hsep : Brackets.isTame separator = true)
    {ls : List (List Step)} (h : ∀ l ∈ ls, Leads (.code, s) l (.code, s)) :
    Leads (.code, s) (List.intercalate (word separator) ls) (.code, s) :=
  closed_intercalate (leads_nil _) Leads.append (leads_tame hsep) h

theorem leads_listed {vs : List Value} (h : ∀ v ∈ vs, v.isBareText = false) :
    Leads (.code, s) (listed vs) (.code, s) := by
  apply leads_intercalate (by decide)
  intro l hl
  obtain ⟨v, hv, rfl⟩ := List.mem_map.1 hl
  exact leads_slot (h v (List.mem_filter.1 hv).1)

theorem leads_withChildren {v : Value} {layout : List Value → List Step}
    (h : Leads a (layout v.children) b) : Leads a (withChildren v layout) b := by
  cases v with
  | node => exact h
  | _ => exact leads_malformed _

theorem leads_withFirst {cs : List Value} {layout : Value → List Step}
    (h : Leads a (layout (child cs 0)) b) : Leads a (withFirst cs layout) b := by
  cases cs with
  | nil => exact leads_malformed _
  | cons v vs => exact h

/-! ### Words with a bracket -/

theorem leads_open (o : Brackets.Opener) :
    Leads (o.outside, s) (word o.opening) (.code, o :: s) :=
  leads_word (Brackets.leads_opening o s)

theorem leads_close (o : Brackets.Opener) :
    Leads (.code, o :: s) (word o.closing) (o.outside, s) :=
  leads_word (Brackets.leads_closing o s)

/-- The parenthesis that the arguments of a method stand in. -/
theorem leads_callee {t : Text} (h : Brackets.Leads (.code, s) t (.code, s)) :
    Leads (.code, s) (word (t ++ "(")) (.code, .paren :: s) :=
  leads_word (h.append (Brackets.leads_opening .paren s))

/-! ### Parts of layouts -/

theorem leads_arguments {v : Value} (h : ∀ w ∈ argumentSlots v, w.isBareText = false) :
    Leads (.code, s) (arguments v) (.code, s) := by
  cases v with
  | node tag cs line synthetic =>
    simp only [argumentSlots] at h
    simp only [arguments]
    split
    · rename_i list
      rw [if_pos list] at h
      exact leads_listed h
    · exact leads_visit _
  | _ => exact leads_slot (h _ (List.mem_singleton_self _))

theorem leads_pairs {ps : List (Value × Value)}
    (h : ∀ v ∈ ps.flatMap fun p => [p.1, p.2], v.isBareText = false) :
    Leads (.code, s) (List.intercalate (word ", ") (ps.map pair)) (.code, s) := by
  apply leads_intercalate (by decide)
  intro l hl
  obtain ⟨p, hp, rfl⟩ := List.mem_map.1 hl
  have plain (v : Value) (hv : v ∈ [p.1, p.2]) : v.isBareText = false :=
    h v (List.mem_flatMap.2 ⟨p, hp, hv⟩)
  exact ((leads_slot (plain _ (by simp))).append (leads_tame (by decide))).append
    (leads_slot (plain _ (by simp)))

/-- The parameters of a block are names, and its keywords have no brackets. -/
theorem leads_block {table spec body : Value}
    (hnames : ∀ t ∈ (parameters? table spec).getD [], Brackets.isTame t = true)
    (hbody : body.isBareText = false) : Leads (.code, s) (block table spec body) (.code, s) := by
  unfold block
  split
  · exact leads_malformed _
  · rename_i names found
    rw [found] at hnames
    refine ((Leads.append (Leads.append (leads_tame (by decide)) ?_)
      (leads_tame (by decide))).append (leads_slot hbody)).append (leads_tame (by decide))
    -- no bars are written without parameters
    split
    · exact leads_nil _
    · have bar : Brackets.Leads (.code, s) "|" (.code, s) := Brackets.leads_of_isTame s (by decide)
      have start : Brackets.Leads (.code, s) " |" (.code, s) :=
        Brackets.leads_of_isTame s (by decide)
      exact leads_word ((start.append (Brackets.leads_joined s (by decide) hnames)).append bar)

/-- A unary operator loses marks at its end, which are no brackets. -/
theorem isTame_unaryOperator {op : Text} (h : Brackets.isTame op = true) :
    Brackets.isTame (unaryOperator op) = true := by
  obtain ⟨marks, whole, dropped⟩ : ∃ marks : Text, unaryOperator op ++ marks = op ∧
      ∀ c ∈ marks, c = CodePoint.scalar '@' := by
    refine ⟨(op.reverse.takeWhile (· = CodePoint.scalar '@')).reverse, ?_, fun c hc => ?_⟩
    · rw [unaryOperator, ← List.reverse_append, List.takeWhile_append_dropWhile,
        List.reverse_reverse]
    · simpa using List.all_eq_true.1 List.all_takeWhile c (List.mem_reverse.1 hc)
  rw [← whole] at h
  refine Brackets.isTame_of_append h fun c hc => ?_
  rw [dropped c hc]
  rfl

/-- An operation leads back by each of its ways of being written. -/
theorem leads_operation {left right : Value} {op : Text} (hop : Brackets.isTame op = true)
    (hleft : left.isBareText = false)
    (hright : op ≠ "!" → ∀ v ∈ right.children.take 1, v.isBareText = false) :
    Leads (.code, s) (operation left op right) (.code, s) := by
  have applied {t : Text} (ht : Brackets.isTame t = true) :
      Leads (.code, s) (word (t ++ "(") ++ slot left ++ word ")") (.code, s) :=
    ((leads_callee (Brackets.leads_of_isTame s ht)).append (leads_slot hleft)).append
      (leads_close .paren)
  unfold operation
  split
  · exact applied (t := "!") (by decide)
  · rename_i binary
    split
    · exact applied (isTame_unaryOperator hop)
    · apply leads_withChildren
      cases hcs : right.children with
      | nil => exact leads_malformed _
      | cons operand cs =>
        rw [hcs] at hright
        have space : Brackets.Leads (.code, s) " " (.code, s) :=
          Brackets.leads_of_isTame s (by decide)
        exact ((leads_slot hleft).append
            (leads_word ((space.append (Brackets.leads_of_isTame s hop)).append space))).append
          (leads_slot (hright binary operand (by simp)))

theorem leads_conditional {keyword : Text} {cs : List Value}
    (hkeyword : Brackets.isTame (keyword ++ " ") = true)
    (h : ∀ v ∈ [child cs 0, child cs 1, child cs 2], v.isBareText = false) :
    Leads (.code, s) (conditional keyword cs) (.code, s) := by
  have branch (i : Nat) (hi : child cs i ∈ [child cs 0, child cs 1, child cs 2]) :
      Leads (.code, s) (slot (child cs i)) (.code, s) := leads_slot (h _ hi)
  refine (((((leads_tame hkeyword).append (branch 0 (by simp))).append
    (leads_tame (by decide))).append (branch 1 (by simp))).append ?_).append (leads_tame (by decide))
  split
  · exact (leads_tame (by decide)).append (branch 2 (by simp))
  · exact leads_nil _

theorem leads_loop {test body : Value} (first : Value) (htest : test.isBareText = false)
    (hbody : body.isBareText = false) : Leads (.code, s) (loop test body first) (.code, s) := by
  unfold loop
  split
  · exact (((leads_tame (by decide)).append (leads_slot hbody)).append
      (leads_tame (by decide))).append (leads_slot htest)
  · exact ((((leads_tame (by decide)).append (leads_slot htest)).append
      (leads_tame (by decide))).append (leads_slot hbody)).append (leads_tame (by decide))

theorem leads_assignElement {receiver args : Value} (op : Text) (line : Option Int)
    (hreceiver : receiver.isBareText = false)
    (hargs : ∀ v ∈ withoutSentinel args.children, v.isBareText = false) :
    Leads (.code, s) (assignElement receiver op args line) (.code, s) := by
  unfold assignElement
  split
  · apply leads_withChildren
    split
    · exact leads_malformed _
    · rename_i value last
      have subscript : ∀ v ∈ (withoutSentinel args.children).dropLast, v.isBareText = false :=
        fun v hv => hargs v ((List.dropLast_sublist _).mem hv)
      have close : Leads (.code, .bracket :: s) (word "] = ") (.code, s) :=
        leads_word ((Brackets.leads_closing .bracket s).append
          (Brackets.leads_of_isTame s (t := " = ") (by decide)))
      exact ((((leads_slot hreceiver).append (leads_open .bracket)).append
        (leads_listed subscript)).append close).append
          (leads_slot (hargs value (List.mem_of_getLast? last)))
  · exact leads_refuse _

/-! ### Strings with interpolations -/

/-- Segments lead back to the string that they stand in, if no brace follows.  Neither do they
begin with a brace, unless the first of them is a text. -/
theorem read_segments {vs : List Value}
    (spaced : (vs.filter Value.isPresent).IsChain fun v w =>
      (v.isTextPiece && w.isTextPiece) = false)
    (nested : ∀ w, .visit w ∈ vs.flatMap segment → w.Nests) {t rest : Text}
    (ht : Yields (pieces (vs.flatMap segment)) t none)
    (follow : rest.head? ≠ some (.scalar '\x7b')) :
    Brackets.read (.string, s) (t ++ rest) = Brackets.read (.string, s) rest ∧
      ((∀ w ∈ (vs.filter Value.isPresent).head?, w.isTextPiece = false) →
        (t ++ rest).head? ≠ some (.scalar '\x7b')) := by
  -- the induction is on the segments, with the text of what is left of them in front of the rest
  induction vs generalizing t with
  | nil =>
    obtain ⟨rfl, -⟩ := yields_nil.unique ht
    exact ⟨rfl, fun _ => follow⟩
  | cons v vs ih =>
    rw [List.flatMap_cons] at nested ht
    rw [pieces_append] at ht
    obtain ⟨a, b, ha, hb, rfl⟩ := ht.of_append_none
    have nestedRest : ∀ w, .visit w ∈ vs.flatMap segment → w.Nests := fun w hw =>
      nested w (List.mem_append_right _ hw)
    rw [List.append_assoc]
    cases v with
    | nil =>
      obtain ⟨rfl, -⟩ := yields_nil.unique ha
      exact ih spaced nestedRest hb
    | node tag cs line synthetic =>
      have present : (Value.node tag cs line synthetic).isPresent = true := rfl
      rw [List.filter_cons_of_pos present, List.isChain_cons] at spaced
      obtain ⟨apart, spacedRest⟩ := spaced
      obtain ⟨read, head⟩ := ih spacedRest nestedRest hb
      by_cases text : tag = Tag.str.label
      · -- a text, which ends where no brace follows, since what follows it is none
        subst text
        have next : (b ++ rest).head? ≠ some (.scalar '\x7b') := by
          refine head fun w hw => ?_
          simpa [Value.isTextPiece] using apart w hw
        simp only [Layout.segment, ↓reduceIte] at ha
        split at ha
        · obtain ⟨rfl, -⟩ := (yields_text _).unique ha
          refine ⟨by rw [Brackets.read_escape s _ next, read], fun noText => ?_⟩
          have := noText (.node Tag.str.label cs line synthetic)
            (by rw [List.filter_cons_of_pos present]; rfl)
          simp [Value.isTextPiece] at this
        · cases ((yields_fault _).unique ha).2
      · by_cases splice : tag = Tag.evstr.label
        · subst splice
          simp only [Layout.segment, text, ↓reduceIte] at nested ha
          rw [pieces_visit] at ha
          obtain ⟨u, rfl⟩ := startsSplice_of_evstr (Value.renders_none_iff.1 ha)
          have back := (nested _ (List.mem_append_left _ (List.mem_singleton_self _)) _ s ha).2
            (by simp [Value.isSplice])
          exact ⟨(back _).trans read, fun _ => by simp [Text.ofString]⟩
        · simp only [Layout.segment, text, splice, ↓reduceIte] at ha
          cases ((yields_fault _).unique ha).2
    | _ => cases ((yields_fault _).unique ha).2

theorem furtherSegments_eq (v : Value) :
    furtherSegments v = v.children.flatMap segment ∨ furtherSegments v = malformed .notANode := by
  cases v with
  | nil | node => exact .inl rfl
  | _ => exact .inr rfl

/-- What a string begins with leads back to the string, unless it is a text and a brace follows. -/
theorem read_opening {v : Value} (starts : Deparse.isOpening v = true) {t : Text}
    (h : opening v = .ok t) {rest : Text}
    (follow : v.isPresent = true → rest.head? ≠ some (.scalar '\x7b')) :
    Brackets.read (.string, s) (t ++ rest) = Brackets.read (.string, s) rest := by
  rw [opening_written starts] at h
  cases v with
  | nil =>
    cases h
    rfl
  | str u =>
    have escaped : t = Literal.escape u := by
      cases h
      simp [openingParts, Literal.Part.written]
    rw [escaped, Brackets.read_escape s u (follow rfl)]
  | _ => cases starts

/-- In a spaced string the segments are spaced as well, and after a text at the beginning the first
of them is no text. -/
theorem spaced_segments {cs : List Value} (spaced : Value.isSpacedString cs = true) :
    let segments := (child cs 1 :: (child cs 2).children).filter Value.isPresent
    (segments.IsChain fun v w => (v.isTextPiece && w.isTextPiece) = false) ∧
      ((child cs 0).isPresent = true → ∀ w ∈ segments.head?, w.isTextPiece = false) := by
  intro segments
  obtain ⟨starts, chain⟩ := Bool.and_eq_true_iff.1 spaced
  have chain := of_decide_eq_true chain
  rw [stringPieces, List.filter_cons] at chain
  split at chain
  · refine ⟨chain.tail, fun present w hw => ?_⟩
    rw [List.isChain_cons] at chain
    have text : (child cs 0).isTextPiece = true := by
      cases hfirst : child cs 0 with
      | str => rfl
      | nil => simp [hfirst, Value.isPresent] at present
      | _ => simp [hfirst, Deparse.isOpening] at starts
    simpa [text] using chain.1 w hw
  · rename_i absent
    exact ⟨chain, fun present => absurd present absent⟩

/-- An interpolated string leads from code through its body to code again. -/
theorem leads_string {cs : List Value} (spaced : Value.isSpacedString cs = true) {t : Text}
    (hopening : opening (child cs 0) = .ok t) :
    Leads (.code, s) (word ("\"" ++ t) ++ segment (child cs 1) ++ furtherSegments (child cs 2) ++
      word "\"") (.code, s) := by
  intro nested u hu rest
  simp only [pieces_append, pieces_word] at hu
  obtain ⟨abc, d, habc, hd, rfl⟩ := hu.of_append_none
  obtain ⟨ab, c, hab, hc, rfl⟩ := habc.of_append_none
  obtain ⟨a, b, ha, hb, rfl⟩ := hab.of_append_none
  obtain ⟨rfl, -⟩ := (yields_text _).unique ha
  obtain ⟨rfl, -⟩ := (yields_text _).unique hd
  rcases furtherSegments_eq (child cs 2) with further | further
  · rw [further] at nested hc
    -- the segments make up one list, and a quote follows them
    have segments : Yields (pieces ((child cs 1 :: (child cs 2).children).flatMap segment))
        (b ++ c) none := by
      rw [List.flatMap_cons, pieces_append]
      exact hb.append hc
    have nestedSegments : ∀ w,
        .visit w ∈ (child cs 1 :: (child cs 2).children).flatMap segment → w.Nests := by
      intro w hw
      refine nested w (List.mem_append_left _ ?_)
      rw [List.append_assoc]
      exact List.mem_append_right _ hw
    have noBrace : (("\"" : Text) ++ rest).head? ≠ some (.scalar '\x7b') := by simp [Text.ofString]
    obtain ⟨chain, first⟩ := spaced_segments spaced
    -- a text at the beginning must not meet a brace either, so no text may come next
    obtain ⟨read, head⟩ := read_segments chain nestedSegments segments noBrace
    have follow (present : (child cs 0).isPresent = true) :
        (b ++ c ++ (("\"" : Text) ++ rest)).head? ≠ some (.scalar '\x7b') := head (first present)
    have starts : Deparse.isOpening (child cs 0) = true := (Bool.and_eq_true_iff.1 spaced).1
    calc Brackets.read (.code, s) (("\"" : Text) ++ t ++ b ++ c ++ ("\"" : Text) ++ rest)
        = Brackets.read (.string, s) (t ++ (b ++ c ++ (("\"" : Text) ++ rest))) := by
          simp only [List.append_assoc]
          rfl
      _ = Brackets.read (.string, s) (("\"" : Text) ++ rest) := by
          rw [read_opening starts hopening follow, read]
      _ = Brackets.read (.code, s) rest := Brackets.read_quote s rest
  · rw [further] at hc
    cases ((yields_fault _).unique hc).2

/-! ### Nodes -/

/-- The layout of a neat node leads back to where it starts from. -/
theorem leads_ofTag {cs : List Value} (line : Option Int) {g : Tag}
    (hnames : ∀ t ∈ names cs g, Brackets.isTame t = true)
    (hslots : ∀ v ∈ slots cs g, v.isBareText = false)
    (spaced : g = .dstr → Value.isSpacedString cs = true) :
    Leads (.code, s) (ofTag cs line g) (.code, s) := by
  have slotAt {v : Value} (hv : v ∈ slots cs g) : Leads (.code, s) (slot v) (.code, s) :=
    leads_slot (hslots v hv)
  have nameAt {t : Text} (ht : t ∈ names cs g) : Brackets.Leads (.code, s) t (.code, s) :=
    Brackets.leads_of_isTame s (hnames t ht)
  have tame {t : Text} (h : Brackets.isTame t = true) :
      Brackets.Leads (.code, s) t (.code, s) := Brackets.leads_of_isTame s h
  have first (name : Text → Text) (h : Leads (.code, s) (word (name (child cs 0).displayed))
      (.code, s)) : Leads (.code, s) (withFirst cs fun v => word (name v.displayed)) (.code, s) :=
    leads_withFirst h
  -- a case for each tag: its names are tame, and what its slots write leads back
  cases g with
  | scope =>
    exact ((leads_tame (by decide)).append (leads_scope _)).append (leads_tame (by decide))
  | block =>
    apply leads_intercalate (by decide)
    intro l hl
    obtain ⟨v, hv, rfl⟩ := List.mem_map.1 hl
    exact slotAt hv
  | iter =>
    apply leads_withChildren
    exact (slotAt (by simp [slots])).append (leads_block hnames (hslots _ (by simp [slots])))
  | iterScope => exact leads_block hnames (hslots _ (by simp [slots]))
  | const | dvar | lvar | ivar =>
    exact first id (leads_word (nameAt (by simp [names])))
  | vcall =>
    have brackets : Brackets.Leads (.code, s) "()" (.code, s) := fun _ => rfl
    exact first (· ++ "()") (leads_word ((nameAt (by simp [names])).append brackets))
  | colon2 =>
    exact (slotAt (by simp [slots])).append
      (leads_word ((tame (t := "::") (by decide)).append (nameAt (by simp [names]))))
  | call =>
    have receiver : Leads (.code, s) (slot (child cs 0)) (.code, s) := slotAt (by simp [slots])
    have args (s : List Brackets.Opener) : Leads (.code, s) (arguments (child cs 2)) (.code, s) :=
      leads_arguments fun v hv => hslots v (List.mem_cons_of_mem _ hv)
    simp only [ofTag]
    split
    · exact ((receiver.append (leads_open .bracket)).append (args _)).append
        (leads_close .bracket)
    · have dotted := (tame (t := ".") (by decide)).append (nameAt (t := (child cs 1).displayed)
        (by simp [names]))
      exact ((receiver.append (leads_callee dotted)).append (args _)).append (leads_close .paren)
  | fcall =>
    exact ((leads_callee (nameAt (by simp [names]))).append
      (leads_arguments hslots)).append (leads_close .paren)
  | opcall =>
    refine leads_operation (hnames _ (by simp [names])) (hslots _ (by simp [slots])) ?_
    intro binary v hv
    exact hslots v (by simp [slots, binary, hv])
  | dasgnCurr | dasgn | lasgn | iasgn =>
    exact (leads_word ((nameAt (by simp [names])).append (tame (t := " = ") (by decide)))).append
      (slotAt (by simp [slots]))
  | ifElse | unlessElse => exact leads_conditional (by decide) hslots
  | whileLoop => exact leads_loop _ (hslots _ (by simp [slots])) (hslots _ (by simp [slots]))
  | lit =>
    apply leads_withFirst
    split
    · rename_i written
      exact leads_word (Brackets.leads_literal s written)
    · exact leads_refuse _
  | str =>
    apply leads_withFirst
    split
    · exact leads_word (Brackets.leads_quoted s _)
    · exact leads_refuse _
  | nilWord | trueWord | falseWord => exact leads_tame (by decide)
  | dstr =>
    simp only [ofTag]
    split
    · exact leads_malformed _
    · rename_i opened
      exact leads_string (spaced rfl) opened
  | evstr =>
    apply leads_withFirst
    -- outside of a string the `#` is a character like any other
    have enter : Leads (.code, s) (word "#\x7b") (.code, .brace :: s) :=
      leads_word ((tame (t := "#") (by decide)).append (Brackets.leads_opening .brace s))
    exact (enter.append (leads_slot (hslots _ (by simp [slots])))).append (leads_close .brace)
  | conj | disj =>
    exact ((slotAt (by simp [slots])).append (leads_tame (by decide))).append
      (slotAt (by simp [slots]))
  | list =>
    exact ((leads_open .bracket).append
      (leads_listed fun v hv => hslots v (mem_of_mem_withoutSentinel hv))).append
        (leads_close .bracket)
  | listEmbedded => exact leads_listed hslots
  | hash =>
    simp only [ofTag]
    split
    · exact (leads_open .brace).append (leads_close .brace)
    · apply leads_withChildren
      exact ((leads_open .brace).append (leads_pairs hslots)).append (leads_close .brace)
  | attrasgn =>
    exact leads_assignElement _ line (hslots _ (by simp [slots]))
      fun v hv => hslots v (List.mem_cons_of_mem _ hv)
  | rescue =>
    apply leads_withChildren
    exact ((slotAt (by simp [slots])).append (leads_tame (by decide))).append
      (slotAt (by simp [slots]))
  | begin => exact slotAt (by simp [slots])

/-- In a string an interpolation opens code and closes it again. -/
theorem leads_splice {cs : List Value} (line : Option Int)
    (plain : (child cs 0).isBareText = false) :
    Leads (.string, s) (ofTag cs line .evstr) (.string, s) := by
  apply leads_withFirst
  exact ((leads_open .splice).append (leads_slot plain)).append (leads_close .splice)

end Layout

namespace Value

variable {s : List Brackets.Opener}

/-- The layout of a neat value is well nested if all that it visits is. -/
theorem leads_layout {v : Value} (neat : v.isNeat = true) :
    Layout.Leads (.code, s) v.layout (.code, s) := by
  cases v with
  | node tag cs line synthetic =>
    simp only [isNeat] at neat
    simp only [layout]
    split
    · rename_i g known
      rw [known] at neat
      simp only [Bool.and_eq_true, List.all_eq_true, Bool.not_eq_true', List.any_eq_false,
        Bool.or_eq_true, decide_eq_true_eq] at neat
      obtain ⟨⟨names, slots⟩, string⟩ := neat
      split
      · refine leads_ofTag line names (fun v hv => by simpa using slots v hv) fun dstr => ?_
        exact string.resolve_left fun other => other dstr
      · exact leads_refuse _
    · exact leads_refuse _
  | _ => exact leads_refuse _

/-- An interpolation in a string leads back to the string. -/
theorem leads_layout_splice {v : Value} (neat : v.isNeat = true) (splice : v.isSplice = true) :
    Layout.Leads (.string, s) v.layout (.string, s) := by
  cases v with
  | node tag cs line synthetic =>
    obtain rfl : tag = Tag.evstr.label := of_decide_eq_true splice
    simp only [isNeat, Tag.ofText?_label] at neat
    simp only [layout, Tag.ofText?_label]
    split
    · have plain : (child cs 0).isBareText = false := by simpa [names, slots] using neat
      exact leads_splice line plain
    · exact leads_refuse _
  | _ => cases splice

/-- It is enough that every node of a tree is neat. -/
theorem isNeat_of_mem_rendered {v w : Value} (neat : v.everyNode isNeat = true)
    (hw : w ∈ v.rendered) : w.isNeat = true := by
  have inner : w.everyNode isNeat = true := (hereditary_everyNode isNeat).of_mem_rendered neat hw
  cases w with
  | node => exact (Bool.and_eq_true_iff.1 inner).1
  | _ => rfl

/-- A value is well nested if all nodes that are rendered are neat. -/
theorem nests_of_isNeat (v : Value) (neat : ∀ w ∈ v.rendered, w.isNeat = true) : v.Nests := by
  have visited : ∀ w, .visit w ∈ v.layout → w.Nests := by
    intro w hw
    have := size_lt_of_visit hw
    exact w.nests_of_isNeat fun u hu => neat u (mem_rendered_of_visit hw hu)
  have neatSelf := neat v v.self_mem_rendered
  intro t s ht
  unfold Renders at ht
  rw [script_eq_pieces] at ht
  exact ⟨leads_layout neatSelf visited t ht, fun splice =>
    leads_layout_splice neatSelf splice visited t ht⟩
termination_by v.size

end Value

/-- **Source texts are well nested.**  If every node that is rendered is neat, then reading the
source text from code, whatever is open around it, ends in code with the same open: each bracket,
quote and interpolation of it is closed by its own end. -/
theorem read_of_toSource {v : Value} {t : Text} (neat : ∀ w ∈ v.rendered, w.isNeat = true)
    (h : v.toSource = .ok t) (s : List Brackets.Opener) :
    Brackets.read (.code, s) t = some (.code, s) :=
  (v.nests_of_isNeat neat t s (Value.renders_none_iff.2 h)).1.read_eq

/-! A string in which all sorts of brackets stand, as the argument of a call. -/

namespace Nested

/-- The element of a string with a brace under a name with a blank. -/
def element : Value :=
  .node "CALL" [.node "STR" [.str "\x7d"] none false, .sym "[]",
    .node "LIST" [.node "LIT" [.sym "a b"] none false, .nil] none false] none false

/-- A string with the element in an interpolation, between texts with brackets of their own. -/
def argument : Value :=
  .node "DSTR" [.str "(\"[#", .node "EVSTR" [element] none false,
    .node "LIST" [.node "STR" [.str "#\x7b"] none false, .nil] none false] none false

/-- A call with the string for its argument. -/
def call : Value :=
  .node "FCALL" [.sym "puts", .node "LIST" [argument, .nil] none false] none false

/-- The source text of the call. -/
def source : Text := "puts(\"(\\\"[##\x7b\"\x7d\"[:\"a b\"]\x7d\\#\x7b\")"

end Nested

open Nested in
theorem read_of_toSource_argument :
    ((∀ w ∈ call.rendered, w.isNeat = true) ∧ call.toSource = .ok source) ∧
      Brackets.read (.code, [.brace]) source = some (.code, [.brace]) := by
  have neat : ∀ w ∈ call.rendered, w.isNeat = true := fun w =>
    Value.isNeat_of_mem_rendered (by decide)
  have ok : call.toSource = .ok source :=
    Value.renders_none_iff.1 ⟨by decide +kernel, by decide +kernel⟩
  exact ⟨⟨neat, ok⟩, read_of_toSource neat ok _⟩

end Deparse
