import Deparse.Tree.Outline
import Deparse.Proofs.Document.TreeData
import Deparse.Proofs.Literal.Scalar

/-!
# Outlines lose nothing

The outline of a *legible* tree (`Value.Legible`) tells the tree: different trees have different
outlines at every level (`outline_eq_iff`).

A line consists of its indentation, which says how deep the line stands
(`Outline.depth_pad_append`), and of a title, from which everything of the value is read but its
parts (`Outline.readTitle_title`).  The parts are the lines that follow as long as they stand
deeper, which is why the lines of a value can be told from what comes after them
(`Outline.eq_of_lines_append`).  Nothing in a line is a line break, so that the outline falls into
its lines (`Outline.splitOn_outline`).
-/

namespace Deparse

open Literal

namespace Outline

/-! ### Legible trees -/

/-- Whether a tag is a word: it is not empty and holds no space and no line break. -/
def isWord (tag : Text) : Bool :=
  !tag.isEmpty && tag.all fun c => c ≠ ' ' && c ≠ '\n'

/-- Whether a value is a node with a word for its tag, or no node at all. -/
def isNamed : Value → Bool
  | .node tag _ _ _ => isWord tag
  | _ => true

end Outline

/-- A tree as it is read from a document, without floats, and with words for its tags. -/
structure Value.Legible (v : Value) : Prop where
  real : v.isReal = true
  floatFree : v.isFloatFree = true
  named : v.everyNode Outline.isNamed = true

namespace Value.Legible

variable {v : Value} {tag : Text} {cs xs : List Value} {line : Option Int} {synthetic : Bool}

theorem of_mem_seq (h : (seq xs).Legible) (hv : v ∈ xs) : v.Legible :=
  ⟨isReal_of_mem h.real hv, isFloatFree_of_mem h.floatFree hv, everyNode_of_mem h.named hv⟩

theorem of_mem_children (h : (node tag cs line synthetic).Legible) (hv : v ∈ cs) : v.Legible :=
  ⟨isReal_of_mem (Bool.and_eq_true_iff.1 h.real).2 hv, isFloatFree_of_mem h.floatFree hv,
    everyNode_of_mem (Bool.and_eq_true_iff.1 h.named).2 hv⟩

theorem isWord (h : (node tag cs line synthetic).Legible) : Outline.isWord tag = true :=
  (Bool.and_eq_true_iff.1 h.named).1

theorem synthetic_eq (h : (node tag cs line synthetic).Legible) : synthetic = false := by
  simpa using (Bool.and_eq_true_iff.1 h.real).1

end Value.Legible

namespace Outline

/-! ### Titles -/

/-- What stands on the first line of a value, behind the indentation. -/
def title : Value → Text
  | .node tag _ line _ => tag ++ " (" ++ lineMark line ++ ")"
  | .seq _ | .array _ => "["
  | v => scalar v

/-- The lines of a value after the first one. -/
def below (level : Int) : Value → List Text
  | .node _ cs _ _ => linesAll (level + 1) cs
  | .seq xs | .array xs => linesAll (level + 1) xs ++ [pad level ++ "]"]
  | _ => []

theorem lines_eq (level : Int) (v : Value) :
    lines level v = (pad level ++ title v) :: below level v := by
  cases v <;> simp [lines, title, below]

/-- A value without its parts. -/
def bare : Value → Value
  | .node tag _ line synthetic => .node tag [] line synthetic
  | .seq _ => .seq []
  | v => v

/-- The node that a title names, without its children. -/
def readNode (t : Text) : Value :=
  let tag := t.takeWhile (· ≠ CodePoint.scalar ' ')
  let mark := ((t.dropWhile (· ≠ CodePoint.scalar ' ')).drop 2).dropLast
  .node tag [] (integer? mark) false

/-- What a title tells of its value. -/
def readTitle (t : Text) : Option Value :=
  if t = "[" then some (.seq [])
  else if .scalar ' ' ∈ t ∧ t.getLast? ≠ some (.scalar '"') then some (readNode t)
  else readScalar t

theorem isWord_iff {tag : Text} :
    isWord tag = true ↔ tag ≠ [] ∧ ∀ c ∈ tag, c ≠ ' ' ∧ c ≠ '\n' := by
  simp [isWord]

theorem integer?_lineMark (line : Option Int) : integer? (lineMark line) = line := by
  cases line with
  | none => rfl
  | some n => exact integer?_decimalInt n

/-- A word comes apart from a space behind it. -/
theorem span_word {tag : Text} (h : isWord tag = true) (t : Text) :
    (tag ++ .scalar ' ' :: t).takeWhile (· ≠ CodePoint.scalar ' ') = tag ∧
      (tag ++ .scalar ' ' :: t).dropWhile (· ≠ CodePoint.scalar ' ') = .scalar ' ' :: t := by
  have noSpace : ∀ c ∈ tag, decide (c ≠ CodePoint.scalar ' ') = true := fun c hc =>
    decide_eq_true ((isWord_iff.1 h).2 c hc).1
  rw [List.takeWhile_append_of_pos noSpace, List.dropWhile_append_of_pos noSpace]
  simp

theorem title_node (tag : Text) (cs : List Value) (line : Option Int) (synthetic : Bool) :
    title (.node tag cs line synthetic) =
      tag ++ .scalar ' ' :: .scalar '(' :: (lineMark line ++ [.scalar ')']) := by
  simp [title, Text.ofString]

/-- The title of a node tells its tag and its line. -/
theorem readNode_title {tag : Text} (h : isWord tag = true) (cs : List Value) (line : Option Int) :
    readNode (title (.node tag cs line false)) = .node tag [] line false := by
  obtain ⟨before, after⟩ := span_word h (.scalar '(' :: (lineMark line ++ [.scalar ')']))
  rw [title_node, readNode]
  simp only [before, after, List.drop_succ_cons, List.drop_zero, List.dropLast_concat,
    integer?_lineMark]

/-- The title of a node holds a space and does not end with a quote, unlike that of a scalar. -/
theorem spaced_title_node (tag : Text) (cs : List Value) (line : Option Int) (synthetic : Bool) :
    .scalar ' ' ∈ title (.node tag cs line synthetic) ∧
      (title (.node tag cs line synthetic)).getLast? ≠ some (.scalar '"') := by
  have last : (title (.node tag cs line synthetic)).getLast? = some (.scalar ')') :=
    List.getLast?_concat ..
  constructor
  · simp [title_node]
  · simp [last]

/-- A legible value is a node, a sequence, or a scalar with a literal for its title. -/
theorem legible_cases {v : Value} (h : v.Legible) :
    (∃ tag cs line, v = .node tag cs line false ∧ isWord tag = true) ∨ (∃ xs, v = .seq xs) ∨
      ((∀ x, v ≠ .float x) ∧ v.literal = .ok (title v) ∧ bare v = v) := by
  cases v with
  | node tag cs line synthetic =>
    obtain rfl := h.synthetic_eq
    exact .inl ⟨tag, cs, line, rfl, h.isWord⟩
  | seq xs => exact .inr (.inl ⟨xs, rfl⟩)
  | float => cases h.floatFree
  | bytes | array | object => cases h.real
  | bool b => cases b <;> exact .inr (.inr ⟨by simp, rfl, rfl⟩)
  -- a scalar is its own literal, and has no parts to lose
  | nil | int | str | sym => exact .inr (.inr ⟨by simp, rfl, rfl⟩)

/-- The title of a value tells everything of it but its parts. -/
theorem readTitle_title {v : Value} (h : v.Legible) : readTitle (title v) = some (bare v) := by
  -- a bracket is the title of a sequence and of nothing else, and a space without a quote after it
  -- is that of a node
  rcases legible_cases h with ⟨tag, cs, line, rfl, word⟩ | ⟨xs, rfl⟩ | ⟨notFloat, literal, same⟩
  · have spaced := spaced_title_node tag cs line false
    have notBracket : title (.node tag cs line false) ≠ "[" := by
      intro bracket
      rw [bracket] at spaced
      exact absurd spaced.1 (by decide)
    rw [readTitle, if_neg notBracket, if_pos spaced, readNode_title word]
    rfl
  · rfl
  · have read : readScalar (title v) = some v := readScalar_literal literal notFloat
    have inline : Inline (title v) := inline_literal literal notFloat
    have notBracket : title v ≠ "[" := by
      intro bracket
      rw [bracket] at read
      cases read
    have notSpaced : ¬ (.scalar ' ' ∈ title v ∧ (title v).getLast? ≠ some (.scalar '"')) :=
      fun spaced => spaced.2 (inline.last spaced.1)
    rw [readTitle, if_neg notBracket, if_neg notSpaced, read, same]

/-! ### Indentation -/

/-- The depth that the indentation of a line shows. -/
def depth (line : Text) : Nat :=
  (line.takeWhile (· = CodePoint.scalar ' ')).length / 2

theorem pad_eq (n : Nat) : pad n = List.replicate (2 * n) (.scalar ' ') := by
  induction n with
  | zero => rfl
  | succ n ih =>
    have step : pad (n + 1 : Nat) = "  " ++ pad n := by
      simp [pad, Text.repeated, List.replicate_succ]
    rw [step, ih, Nat.mul_succ, Nat.add_comm, List.replicate_add]
    rfl

/-- A line is as deep as it is indented, if its title does not start with a space. -/
theorem depth_pad_append (n : Nat) {t : Text} (h : t.head? ≠ some (.scalar ' ')) :
    depth (pad n ++ t) = n := by
  have indented : (pad n ++ t).takeWhile (· = CodePoint.scalar ' ') = pad n := by
    -- the spaces end where the title starts
    have spaces : ∀ c ∈ pad n, decide (c = CodePoint.scalar ' ') = true := by
      rw [pad_eq]
      exact fun c hc => decide_eq_true (List.eq_of_mem_replicate hc)
    rw [List.takeWhile_append_of_pos spaces]
    cases t with
    | nil => simp
    | cons c t =>
      have first : c ≠ CodePoint.scalar ' ' := by simpa using h
      simp [first]
  rw [depth, indented, pad_eq, List.length_replicate]
  omega

theorem newline_notMem_pad (n : Nat) : CodePoint.scalar '\n' ∉ pad n := by
  rw [pad_eq]
  intro newline
  cases List.eq_of_mem_replicate newline

/-! ### Lines -/

/-- A title starts with no space and holds no line break, so that it can stand on a line. -/
theorem title_start {v : Value} (h : v.Legible) :
    (title v).head? ≠ some (.scalar ' ') ∧ CodePoint.scalar '\n' ∉ title v := by
  rcases legible_cases h with ⟨tag, cs, line, rfl, word⟩ | ⟨xs, rfl⟩ | ⟨notFloat, literal, -⟩
  · obtain ⟨present, plain⟩ := isWord_iff.1 word
    -- the tag is a word, and the mark of the line a numeral or a question mark
    obtain ⟨c, t, rfl⟩ := List.exists_cons_of_ne_nil present
    have mark : CodePoint.scalar '\n' ∉ lineMark line := by
      cases line with
      | none => decide
      | some n => exact fun newline => absurd (isInk_of_mem_decimalInt newline) (by decide)
    have newline : CodePoint.scalar '\n' ∉ c :: t := fun newline => (plain _ newline).2 rfl
    rw [title_node]
    constructor
    · simpa using (plain c (List.mem_cons_self ..)).1
    · simpa [mark] using newline
  · have bracket : ("[" : Text).head? ≠ some (.scalar ' ') ∧
        CodePoint.scalar '\n' ∉ ("[" : Text) := by decide
    exact bracket
  · have inline : Inline (title v) := inline_literal literal notFloat
    exact ⟨inline.head, fun newline => absurd (inline.printable _ newline) (by decide)⟩

end Outline

namespace Value

mutual

/-- How deep the lines of a value stand, that itself stands at depth `n`: a node and a scalar have a
line, a sequence has two, and what belongs to a node or a sequence stands one step deeper. -/
def depths (n : Nat) : Value → List Nat
  | node _ cs _ _ => n :: depthsAll (n + 1) cs
  | seq xs => n :: depthsAll (n + 1) xs ++ [n]
  | array xs => n :: depthsAll (n + 1) xs ++ [n]
  | _ => [n]

/-- How deep the lines of several values stand. -/
def depthsAll (n : Nat) : List Value → List Nat
  | [] => []
  | v :: vs => depths n v ++ depthsAll n vs

end

end Value

namespace Outline

/-- Whether lines stand at certain depths, and none of them is broken. -/
structure Stands (ls : List Text) (ds : List Nat) : Prop where
  depth_eq : ls.map depth = ds
  unbroken : ∀ l ∈ ls, CodePoint.scalar '\n' ∉ l

theorem stands_nil : Stands [] [] := ⟨rfl, by simp⟩

theorem Stands.append {ls ms : List Text} {ds es : List Nat} (h : Stands ls ds)
    (h' : Stands ms es) : Stands (ls ++ ms) (ds ++ es) :=
  ⟨by rw [List.map_append, h.depth_eq, h'.depth_eq],
    fun l hl => (List.mem_append.1 hl).elim (h.unbroken l) (h'.unbroken l)⟩

theorem stands_line (n : Nat) {t : Text} (start : t.head? ≠ some (.scalar ' '))
    (newline : CodePoint.scalar '\n' ∉ t) : Stands [pad n ++ t] [n] := by
  refine ⟨by rw [List.map_singleton, depth_pad_append n start], fun l hl => ?_⟩
  rw [List.mem_singleton.1 hl]
  intro broken
  exact (List.mem_append.1 broken).elim (newline_notMem_pad n) newline

theorem stands_title {v : Value} (h : v.Legible) (n : Nat) : Stands [pad n ++ title v] [n] :=
  stands_line n (title_start h).1 (title_start h).2

theorem stands_close (n : Nat) : Stands [pad n ++ "]"] [n] :=
  stands_line n (by decide) (by decide)

mutual

/-- The lines of a value stand as deep as the value says. -/
theorem stands_lines : ∀ (v : Value) (n : Nat), v.Legible → Stands (lines n v) (v.depths n)
  | .node _ cs _ _, n, h => by
    rw [lines_eq]
    exact (stands_title h n).append (stands_linesAll cs (n + 1) fun _ hv => h.of_mem_children hv)
  | .seq xs, n, h =>
    ((stands_title h n).append (stands_linesAll xs (n + 1) fun _ hv => h.of_mem_seq hv)).append
      (stands_close n)
  | .float _, _, h => by cases h.floatFree
  | .bytes _, _, h | .array _, _, h | .object _, _, h => by cases h.real
  | .nil, n, h | .bool _, n, h | .int _, n, h | .str _, n, h | .sym _, n, h => stands_title h n

theorem stands_linesAll : ∀ (vs : List Value) (n : Nat), (∀ v ∈ vs, v.Legible) →
    Stands (linesAll n vs) (Value.depthsAll n vs)
  | [], _, _ => stands_nil
  | v :: vs, n, h =>
    (stands_lines v n (h v (List.mem_cons_self ..))).append
      (stands_linesAll vs n fun w hw => h w (List.mem_cons_of_mem _ hw))

end

/-! ### Lines read back -/

/-- Whether the first line, if there is one, stands less deep than `n`. -/
def Shallow (n : Nat) (ls : List Text) : Prop :=
  ∀ l ∈ ls.head?, depth l < n

/-- A value at a depth ends what stands deeper. -/
theorem shallow_lines_append {v : Value} (h : v.Legible) (n : Nat) (r : List Text) :
    Shallow (n + 1) (lines n v ++ r) := by
  intro l hl
  rw [lines_eq, List.cons_append, List.head?_cons, Option.mem_some_iff] at hl
  rw [← hl, depth_pad_append n (title_start h).1]
  exact Nat.lt_succ_self n

theorem shallow_linesAll_append {vs : List Value} (h : ∀ v ∈ vs, v.Legible) {n : Nat}
    {r : List Text} (hr : Shallow n r) : Shallow (n + 1) (linesAll n vs ++ r) := by
  cases vs with
  | nil => exact fun l hl => Nat.lt_succ_of_lt (hr l hl)
  | cons v vs =>
    rw [linesAll, List.append_assoc]
    exact shallow_lines_append (h v (List.mem_cons_self ..)) n _

theorem shallow_close (n : Nat) (r : List Text) : Shallow (n + 1) ((pad n ++ "]") :: r) := by
  intro l hl
  rw [List.head?_cons, Option.mem_some_iff] at hl
  rw [← hl, depth_pad_append n (by decide)]
  exact Nat.lt_succ_self n

/-- Lines that stand less deep do not start with those of a value. -/
theorem not_shallow_lines_append {v : Value} (h : v.Legible) (n : Nat) (r : List Text) :
    ¬ Shallow n (lines n v ++ r) := by
  intro shallow
  have first := shallow (pad n ++ title v) (by rw [lines_eq]; rfl)
  rw [depth_pad_append n (title_start h).1] at first
  exact Nat.lt_irrefl n first

/-- The first line tells a value but for its parts. -/
theorem bare_eq_of_lines_append {v w : Value} (hv : v.Legible) (hw : w.Legible) {n : Nat}
    {r s : List Text} (h : lines n v ++ r = lines n w ++ s) :
    bare v = bare w ∧ below n v ++ r = below n w ++ s := by
  rw [lines_eq, lines_eq, List.cons_append, List.cons_append] at h
  obtain ⟨first, rest⟩ := List.cons.inj h
  have titles : title v = title w := List.append_cancel_left first
  have read := readTitle_title hv
  rw [titles, readTitle_title hw] at read
  exact ⟨(Option.some.inj read).symm, rest⟩

mutual

/-- The lines of a value are told from what comes after them, if that does not stand deeper.  The
induction is on one of the values; the other is of the same kind by its first line. -/
theorem eq_of_lines_append : ∀ (v w : Value) (n : Nat) {r s : List Text}, v.Legible → w.Legible →
    Shallow (n + 1) r → Shallow (n + 1) s → lines n v ++ r = lines n w ++ s → v = w ∧ r = s
  | .node _ cs _ _, w, n, r, s, hv, hw, hr, hs, h => by
    obtain ⟨same, rest⟩ := bare_eq_of_lines_append hv hw h
    cases w with
    | node _ ds _ _ =>
      cases same
      obtain ⟨rfl, rfl⟩ := eq_of_linesAll_append cs ds (n + 1)
        (fun _ hv' => hv.of_mem_children hv') (fun _ hw' => hw.of_mem_children hw') hr hs rest
      exact ⟨rfl, rfl⟩
    | _ => cases same
  | .seq xs, w, n, r, s, hv, hw, hr, hs, h => by
    obtain ⟨same, rest⟩ := bare_eq_of_lines_append hv hw h
    cases w with
    | seq ys =>
      -- the closing bracket stands less deep than the items, and so ends them
      simp only [below, List.append_assoc] at rest
      obtain ⟨rfl, after⟩ := eq_of_linesAll_append xs ys (n + 1)
        (fun _ hv' => hv.of_mem_seq hv') (fun _ hw' => hw.of_mem_seq hw')
        (shallow_close n r) (shallow_close n s) rest
      exact ⟨rfl, (List.cons.inj after).2⟩
    | _ => cases same
  | .float _, _, _, _, _, hv, _, _, _, _ => by cases hv.floatFree
  | .bytes _, _, _, _, _, hv, _, _, _, _ | .array _, _, _, _, _, hv, _, _, _, _
  | .object _, _, _, _, _, hv, _, _, _, _ => by cases hv.real
  | .nil, w, n, r, s, hv, hw, _, _, h | .bool _, w, n, r, s, hv, hw, _, _, h
  | .int _, w, n, r, s, hv, hw, _, _, h | .str _, w, n, r, s, hv, hw, _, _, h
  | .sym _, w, n, r, s, hv, hw, _, _, h => by
    obtain ⟨same, rest⟩ := bare_eq_of_lines_append hv hw h
    cases w <;> cases same
    exact ⟨rfl, rest⟩

/-- So are the lines of several values, which also tell how many there are. -/
theorem eq_of_linesAll_append : ∀ (vs ws : List Value) (n : Nat) {r s : List Text},
    (∀ v ∈ vs, v.Legible) → (∀ w ∈ ws, w.Legible) → Shallow n r → Shallow n s →
    linesAll n vs ++ r = linesAll n ws ++ s → vs = ws ∧ r = s
  | [], [], _, _, _, _, _, _, _, h => ⟨rfl, h⟩
  | [], w :: ws, n, r, s, _, hws, hr, _, h => by
    rw [linesAll, linesAll, List.nil_append, List.append_assoc] at h
    -- one list is longer, and its next value would stand too shallow
    exact absurd (h ▸ hr) (not_shallow_lines_append (hws w (List.mem_cons_self ..)) n _)
  | v :: vs, [], n, r, s, hvs, _, _, hs, h => by
    rw [linesAll, linesAll, List.nil_append, List.append_assoc] at h
    exact absurd (h ▸ hs) (not_shallow_lines_append (hvs v (List.mem_cons_self ..)) n _)
  | v :: vs, w :: ws, n, r, s, hvs, hws, hr, hs, h => by
    have hvs' : ∀ u ∈ vs, u.Legible := fun u hu => hvs u (List.mem_cons_of_mem _ hu)
    have hws' : ∀ u ∈ ws, u.Legible := fun u hu => hws u (List.mem_cons_of_mem _ hu)
    rw [linesAll, linesAll, List.append_assoc, List.append_assoc] at h
    obtain ⟨rfl, rest⟩ := eq_of_lines_append v w n (hvs v (List.mem_cons_self ..))
      (hws w (List.mem_cons_self ..)) (shallow_linesAll_append hvs' hr)
      (shallow_linesAll_append hws' hs) h
    obtain ⟨rfl, rfl⟩ := eq_of_linesAll_append vs ws n hvs' hws' hr hs rest
    exact ⟨rfl, rfl⟩

end

/-- An outline falls into the lines that it was joined from. -/
theorem splitOn_outline {v : Value} (h : v.Legible) (n : Nat) :
    (v.outline n).splitOn (.scalar '\n') = lines n v := by
  refine List.splitOn_intercalate _ (stands_lines v n h).unbroken ?_
  rw [lines_eq]
  exact List.cons_ne_nil _ _

end Outline

/-- **Outlines lose nothing.**  Two legible trees have the same outline exactly if they are the same
tree, outlined at the same level.  The lines of an outline stand as deep as the tree says, and their
indentation shows how deep that is. -/
theorem Value.outline_eq_iff {v w : Value} (hv : v.Legible) (hw : w.Legible) (m n : Nat) :
    (v.outline m = w.outline n ↔ m = n ∧ v = w) ∧
      ((v.outline m).splitOn (.scalar '\n')).map Outline.depth = v.depths m := by
  have lines_eq_iff : v.outline m = w.outline n ↔ Outline.lines m v = Outline.lines n w := by
    constructor
    · intro h
      rw [← Outline.splitOn_outline hv m, h, Outline.splitOn_outline hw n]
    · intro h
      rw [Value.outline, h, Value.outline]
  refine ⟨lines_eq_iff.trans ⟨fun h => ?_, ?_⟩, ?_⟩
  · -- the first lines stand at the two levels
    have level : m = n := by
      have first := h
      rw [Outline.lines_eq, Outline.lines_eq] at first
      rw [← Outline.depth_pad_append m (Outline.title_start hv).1, (List.cons.inj first).1,
        Outline.depth_pad_append n (Outline.title_start hw).1]
    subst level
    have ended : Outline.Shallow (m + 1) [] := fun l hl => by cases hl
    exact ⟨rfl, (Outline.eq_of_lines_append v w m hv hw ended ended (by rw [h])).1⟩
  · rintro ⟨rfl, rfl⟩
    rfl
  · rw [Outline.splitOn_outline hv m]
    exact (Outline.stands_lines v m hv).depth_eq

/-! Two trees that differ in where a sequence ends; one of the texts in them looks like an end. -/

namespace Bracketed

/-- A list whose last text stands inside the sequence before it. -/
def inside : Value :=
  .node "LIST" [.seq [.seq [], .str "]\n]"], .node "DVAR" [.sym "a b"] (some 2) false] none false

/-- The same list with the text behind the sequence. -/
def outside : Value :=
  .node "LIST" [.seq [.seq []], .str "]\n]", .node "DVAR" [.sym "a b"] (some 2) false] none false

end Bracketed

theorem Value.outline_eq_iff_brackets : Bracketed.inside.Legible ∧ Bracketed.outside.Legible ∧
    Bracketed.inside.outline (3 : Nat) ≠ Bracketed.outside.outline (3 : Nat) ∧
      ((Bracketed.inside.outline (3 : Nat)).splitOn (.scalar '\n')).map Outline.depth =
        [3, 4, 5, 5, 5, 4, 4, 5] := by
  have hin : Bracketed.inside.Legible := ⟨by decide, by decide, by decide⟩
  have hout : Bracketed.outside.Legible := ⟨by decide, by decide, by decide⟩
  obtain ⟨same, depths⟩ := outline_eq_iff hin hout 3 3
  refine ⟨hin, hout, fun h => ?_, depths⟩
  have equal : Bracketed.inside = Bracketed.outside := (same.1 h).2
  injection equal with tags children
  cases children

end Deparse
