import Deparse.Proofs.Source.Outcome

/-!
# Expressions without parentheses

An expression of names, binary operators and the two connectives is rendered from left to right, and
parentheses are not written: neither for a group that the tree marks, nor where an operand is an
expression itself.  So the source text of an expression is its names and operators in order
(`Expresses.toSource_eq`), whatever the grouping.

`toSource_eq_iff_words` draws the conclusion: two expressions have the same source text exactly if
they have the same names and operators in the same order, and the source text of an expression tells
its grouping exactly if there is at most one operator in it.  With two of them there is another
expression of the same source text (`exists_regrouped`), for instance `toSource_regrouped`.
-/

namespace Deparse

open Layout Piece

/-! ### Groupings -/

/-- The binary operators that are written between their operands. -/
inductive Operator where
  | plus | minus | times | divide | modulo | power
  | equal | less | greater | lessEqual | greaterEqual
  | shiftLeft | shiftRight
  | bitAnd | bitOr | bitXor
deriving DecidableEq

/-- The spelling of an operator. -/
def Operator.spelling : Operator → Text
  | plus => "+"
  | minus => "-"
  | times => "*"
  | divide => "/"
  | modulo => "%"
  | power => "**"
  | equal => "=="
  | less => "<"
  | greater => ">"
  | lessEqual => "<="
  | greaterEqual => ">="
  | shiftLeft => "<<"
  | shiftRight => ">>"
  | bitAnd => "&"
  | bitOr => "|"
  | bitXor => "^"

/-- What stands between two operands. -/
inductive Connective where
  | operator (op : Operator)
  | conj
  | disj
deriving DecidableEq

/-- The spelling of a connective. -/
def Connective.spelling : Connective → Text
  | operator op => op.spelling
  | conj => "&&"
  | disj => "||"

/-- A name that is a word by itself. -/
def Identifier := { t : Text // Literal.isIdentifier t = true }
deriving DecidableEq

/-- An expression by the way its operands are grouped. -/
inductive Grouping where
  | name (n : Identifier)
  | join (left : Grouping) (c : Connective) (right : Grouping)
deriving DecidableEq

namespace Grouping

/-- The names and the spellings of the connectives, from left to right. -/
def words : Grouping → List Text
  | name n => [n.val]
  | join l c r => l.words ++ c.spelling :: r.words

/-- The number of connectives. -/
def joins : Grouping → Nat
  | name _ => 0
  | join l _ r => l.joins + 1 + r.joins

theorem words_ne_nil (g : Grouping) : g.words ≠ [] := by
  cases g <;> simp [words]

theorem length_words (g : Grouping) : g.words.length = 2 * g.joins + 1 := by
  induction g with
  | name n => rfl
  | join l c r hl hr =>
    simp only [words, joins, List.length_append, List.length_cons]
    omega

end Grouping

/-- A connective is told by its spelling. -/
theorem Connective.spelling_injective {c d : Connective} (h : c.spelling = d.spelling) :
    c = d := by
  revert h
  rcases c with op | - | - <;> rcases d with op' | - | -
  -- the table of spellings is gone through
  case operator.operator =>
    cases op <;> cases op' <;> decide
  case conj.conj | disj.disj => exact fun _ => rfl
  case operator.conj | operator.disj => cases op <;> decide
  case conj.operator | disj.operator => cases op' <;> decide
  all_goals decide

/-! ### Expressions -/

/-- The node of a tree with the given tag and children. -/
abbrev treeNode (g : Tag) (cs : List Value) (line : Option Int) : Value :=
  .node g.label cs line false

/-- The value is an expression of the given grouping.  Any operand, and the whole, may be marked as
a group once or more often, and an operator has its right operand in a list. -/
inductive Expresses : Value → Grouping → Prop where
  | name (n : Identifier) (line : Option Int) :
    Expresses (treeNode .dvar [.sym n.val] line) (.name n)
  | operation {left right : Value} {l r : Grouping} (op : Operator) (line line' : Option Int)
    {rest : List Value} (hrest : rest = [] ∨ rest = [.nil])
    (hl : Expresses left l) (hr : Expresses right r) :
    Expresses
      (treeNode .opcall [left, .sym op.spelling, treeNode .list (right :: rest) line'] line)
      (.join l (.operator op) r)
  | conj {left right : Value} {l r : Grouping} (line : Option Int)
    (hl : Expresses left l) (hr : Expresses right r) :
    Expresses (treeNode .conj [left, right] line) (.join l .conj r)
  | disj {left right : Value} {l r : Grouping} (line : Option Int)
    (hl : Expresses left l) (hr : Expresses right r) :
    Expresses (treeNode .disj [left, right] line) (.join l .disj r)
  | group {v : Value} {g : Grouping} (line : Option Int) (h : Expresses v g) :
    Expresses (treeNode .begin [v] line) g

/-- Every grouping has an expression. -/
theorem exists_expresses (g : Grouping) : ∃ v, Expresses v g := by
  induction g with
  | name n => exact ⟨_, .name n none⟩
  | join l c r hl hr =>
    obtain ⟨left, hl⟩ := hl
    obtain ⟨right, hr⟩ := hr
    cases c with
    | operator op => exact ⟨_, .operation op none none (.inl rfl) hl hr⟩
    | conj => exact ⟨_, .conj none hl hr⟩
    | disj => exact ⟨_, .disj none hl hr⟩

theorem Expresses.slot_eq {v : Value} {g : Grouping} (h : Expresses v g) :
    pieces (slot v) = v.script := by
  cases h <;> exact pieces_slot_node ..

/-! ### Source texts -/

/-- Two lists are joined with a separator between them. -/
theorem joined_append (separator : Text) {ts us : List Text} (hts : ts ≠ []) (hus : us ≠ []) :
    Text.joined separator (ts ++ us)
      = Text.joined separator ts ++ separator ++ Text.joined separator us := by
  unfold Text.joined
  induction ts with
  | nil => exact absurd rfl hts
  | cons t ts ih =>
    by_cases h : ts = []
    · subst h
      simp [List.intercalate_cons_of_ne_nil hus]
    · -- the separator after the first text is there with and without the other list
      have hne : ts ++ us ≠ [] := by simp [h]
      rw [List.cons_append, List.intercalate_cons_of_ne_nil hne, ih h,
        List.intercalate_cons_of_ne_nil h]
      simp only [List.append_assoc]

/-- The words of two operands are joined around their connective. -/
theorem Grouping.joined_words (l r : Grouping) (c : Connective) :
    Text.joined " " (Grouping.join l c r).words
      = Text.joined " " l.words ++ (" " ++ c.spelling ++ " ") ++ Text.joined " " r.words := by
  have cons : Text.joined " " (c.spelling :: r.words)
      = c.spelling ++ " " ++ Text.joined " " r.words :=
    List.intercalate_cons_of_ne_nil r.words_ne_nil
  rw [words, joined_append " " l.words_ne_nil (by simp), cons]
  simp only [List.append_assoc]

/-- An expression is rendered as its names and connectives in order, with spaces between them. -/
theorem Expresses.renders {v : Value} {g : Grouping} (h : Expresses v g) :
    v.Renders (Text.joined " " g.words) none := by
  unfold Value.Renders
  -- two operands with a connective between them
  have joined {left right : Value} {l r : Grouping} (c : Connective)
      (ihl : Yields left.script (Text.joined " " l.words) none)
      (ihr : Yields right.script (Text.joined " " r.words) none) :
      Yields (left.script ++ [.text (" " ++ c.spelling ++ " ")] ++ right.script)
        (Text.joined " " (Grouping.join l c r).words) none := by
    rw [Grouping.joined_words]
    exact (ihl.append (yields_text _)).append ihr
  induction h with
  | name n line =>
    have layout : pieces (ofTag [.sym n.val] line .dvar) = [.text n.val] := rfl
    have single : Text.joined " " (Grouping.name n).words = n.val := List.intercalate_singleton
    rw [script_node (Tag.ofText?_label .dvar) rfl, layout, single]
    exact yields_text _
  | @operation left right l r op line line' rest hrest hl hr ihl ihr =>
    -- the negation would drop the right operand
    have notNegation : op.spelling ≠ "!" := by cases op <;> decide
    have layout : pieces (ofTag [left, .sym op.spelling, treeNode .list (right :: rest) line'] line
        .opcall) = left.script ++ [.text (" " ++ op.spelling ++ " ")] ++ right.script := by
      rw [← hl.slot_eq, ← hr.slot_eq]
      simp [ofTag, child, Layout.operation, Value.displayed, notNegation, withChildren, withFirst]
    rw [script_node (Tag.ofText?_label .opcall) rfl, layout]
    exact joined (.operator op) ihl ihr
  | @conj left right l r line hl hr ihl ihr =>
    have layout : pieces (ofTag [left, right] line .conj)
        = left.script ++ [.text " && "] ++ right.script := by
      rw [← hl.slot_eq, ← hr.slot_eq]
      simp [ofTag, child]
    rw [script_node (Tag.ofText?_label .conj) rfl, layout]
    exact joined .conj ihl ihr
  | @disj left right l r line hl hr ihl ihr =>
    have layout : pieces (ofTag [left, right] line .disj)
        = left.script ++ [.text " || "] ++ right.script := by
      rw [← hl.slot_eq, ← hr.slot_eq]
      simp [ofTag, child]
    rw [script_node (Tag.ofText?_label .disj) rfl, layout]
    exact joined .disj ihl ihr
  | @group v g line h ih =>
    have layout : pieces (ofTag [v] line .begin) = v.script := h.slot_eq
    rw [script_node (Tag.ofText?_label .begin) rfl, layout]
    exact ih

theorem Expresses.toSource_eq {v : Value} {g : Grouping} (h : Expresses v g) :
    v.toSource = .ok (Text.joined " " g.words) :=
  Value.renders_none_iff.1 h.renders

/-! ### What a source text tells -/

theorem Identifier.space_notMem (n : Identifier) : CodePoint.scalar ' ' ∉ n.val := by
  obtain ⟨t, ht⟩ := n
  cases t with
  | nil => simp
  | cons c t =>
    simp only [Literal.isIdentifier, Bool.and_eq_true, List.all_eq_true] at ht
    obtain ⟨hc, ht⟩ := ht
    intro hmem
    rcases List.mem_cons.1 hmem with rfl | hmem
    · exact absurd hc (by decide)
    · exact absurd (ht _ hmem) (by decide)

theorem Connective.space_notMem (c : Connective) : CodePoint.scalar ' ' ∉ c.spelling := by
  cases c with
  | operator op => cases op <;> decide
  | conj | disj => decide

namespace Grouping

theorem space_notMem (g : Grouping) : ∀ w ∈ g.words, CodePoint.scalar ' ' ∉ w := by
  induction g with
  | name n =>
    intro w hw
    rw [List.mem_singleton.1 hw]
    exact n.space_notMem
  | join l c r hl hr =>
    intro w hw
    rcases List.mem_append.1 hw with hw | hw
    · exact hl w hw
    · rcases List.mem_cons.1 hw with rfl | hw
      · exact c.space_notMem
      · exact hr w hw

/-- No word has a space in it, so the words can be told apart. -/
theorem joined_words_inj {g h : Grouping} :
    Text.joined " " g.words = Text.joined " " h.words ↔ g.words = h.words := by
  constructor
  · intro heq
    have split (k : Grouping) : (Text.joined " " k.words).splitOn (.scalar ' ') = k.words :=
      List.splitOn_intercalate _ k.space_notMem k.words_ne_nil
    rw [← split g, heq, split h]
  · intro heq
    rw [heq]

/-- The number of words tells the number of connectives. -/
theorem joins_eq_of_words_eq {g h : Grouping} (heq : g.words = h.words) : g.joins = h.joins := by
  have hg := g.length_words
  rw [heq, h.length_words] at hg
  omega

/-- At most one connective can be grouped in one way only. -/
theorem eq_of_words_eq {g h : Grouping} (heq : g.words = h.words) (hg : g.joins ≤ 1) : g = h := by
  have hh : h.joins ≤ 1 := joins_eq_of_words_eq heq ▸ hg
  -- the operands of the only connective are names
  have name_of_joins (k : Grouping) (hk : k.joins = 0) : ∃ n, k = name n := by
    cases k with
    | name n => exact ⟨n, rfl⟩
    | join l c r => simp [joins] at hk
  cases g with
  | name n =>
    cases h with
    | name m =>
      have hval : n.val = m.val := by simpa [words] using heq
      rw [Subtype.ext hval]
    | join l c r =>
      have : 0 = l.joins + 1 + r.joins := joins_eq_of_words_eq heq
      omega
  | join l c r =>
    cases h with
    | name m =>
      have : l.joins + 1 + r.joins = 0 := joins_eq_of_words_eq heq
      omega
    | join l' c' r' =>
      -- both have their only connective outermost
      simp only [joins] at hg hh
      obtain ⟨n, rfl⟩ := name_of_joins l (by omega)
      obtain ⟨m, rfl⟩ := name_of_joins r (by omega)
      obtain ⟨n', rfl⟩ := name_of_joins l' (by omega)
      obtain ⟨m', rfl⟩ := name_of_joins r' (by omega)
      have hvals : n.val = n'.val ∧ c.spelling = c'.spelling ∧ m.val = m'.val := by
        simpa [words] using heq
      obtain ⟨hn, hc, hm⟩ := hvals
      rw [Subtype.ext hn, Connective.spelling_injective hc, Subtype.ext hm]

/-- Two connectives can be grouped in another way. -/
theorem exists_regrouped {g : Grouping} (hg : 2 ≤ g.joins) :
    ∃ h : Grouping, h.words = g.words ∧ h ≠ g := by
  cases g with
  | name n => simp [joins] at hg
  | join l c r =>
    cases l with
    | join a d b =>
      -- the first connective becomes the outermost
      refine ⟨join a d (join b c r), by simp [words], ?_⟩
      intro heq
      injection heq with hl
      have : a.joins = (join a d b).joins := congrArg joins hl
      simp only [joins] at this
      omega
    | name n =>
      cases r with
      | join a d b =>
        -- and here the second one does
        refine ⟨join (join (name n) c a) d b, by simp [words], ?_⟩
        intro heq
        injection heq with hl
        cases hl
      | name m => simp [joins] at hg

end Grouping

/-- Two expressions have the same source text exactly if they have the same words, and the source
text of an expression tells its grouping exactly if there is at most one connective in it. -/
theorem toSource_eq_iff_words {a b : Value} {g h : Grouping} (ha : Expresses a g)
    (hb : Expresses b h) :
    (a.toSource = b.toSource ↔ g.words = h.words) ∧
      ((∀ v k, Expresses v k → v.toSource = a.toSource → k = g) ↔ g.joins ≤ 1) := by
  have same {v w : Value} {k l : Grouping} (hv : Expresses v k) (hw : Expresses w l) :
      v.toSource = w.toSource ↔ k.words = l.words := by
    rw [hv.toSource_eq, hw.toSource_eq, Except.ok.injEq]
    exact Grouping.joined_words_inj
  constructor
  · exact same ha hb
  · constructor
    · -- the words of two connectives are those of another grouping, which has an expression too
      intro determined
      by_cases hg : g.joins ≤ 1
      · exact hg
      · obtain ⟨k, hwords, hne⟩ := Grouping.exists_regrouped (by omega : 2 ≤ g.joins)
        obtain ⟨v, hv⟩ := exists_expresses k
        exact absurd (determined v k hv ((same hv ha).2 hwords)) hne
    · intro hg v k hv heq
      exact (Grouping.eq_of_words_eq ((same hv ha).1 heq).symm hg).symm

/-! Differences of three variables. -/

namespace Difference

/-- The first of three variables. -/
def a : Identifier := ⟨"a", by decide⟩

/-- The second of three variables. -/
def b : Identifier := ⟨"b", by decide⟩

/-- The third of three variables. -/
def c : Identifier := ⟨"c", by decide⟩

/-- A variable as a node. -/
def read (n : Identifier) : Value :=
  treeNode .dvar [.sym n.val] none

/-- The difference of two values, with the right one wrapped in a list. -/
def difference (left right : Value) : Value :=
  treeNode .opcall [left, .sym "-", treeNode .list [right] none] none

/-- The difference of `a` and a group, the difference of `b` and `c`. -/
def ofGroup : Value :=
  difference (read a) (treeNode .begin [difference (read b) (read c)] none)

/-- The difference of the difference of `a` and `b` and `c`. -/
def ofDifference : Value :=
  difference (difference (read a) (read b)) (read c)

/-- The minus between two operands. -/
def minus : Connective := .operator .minus

theorem expresses_ofGroup :
    Expresses ofGroup (.join (.name a) minus (.join (.name b) minus (.name c))) := by
  apply Expresses.operation .minus none none (.inl rfl) (.name a none)
  apply Expresses.group none
  exact .operation .minus none none (.inl rfl) (.name b none) (.name c none)

theorem expresses_ofDifference :
    Expresses ofDifference (.join (.join (.name a) minus (.name b)) minus (.name c)) := by
  refine Expresses.operation .minus none none (.inl rfl) ?_ (.name c none)
  exact .operation .minus none none (.inl rfl) (.name a none) (.name b none)

end Difference

open Difference in
/-- The group makes no difference to the source text, which does not tell it. -/
theorem toSource_eq_iff_words_difference :
    ofGroup.toSource = ofDifference.toSource ∧
      ¬∀ v k, Expresses v k → v.toSource = ofGroup.toSource →
        k = .join (.name a) minus (.join (.name b) minus (.name c)) := by
  obtain ⟨same, determined⟩ := toSource_eq_iff_words expresses_ofGroup expresses_ofDifference
  constructor
  · exact same.2 rfl
  · intro h
    exact absurd (determined.1 h) (by decide)

open Difference in
/-- Two expressions of one source text that are grouped differently. -/
theorem toSource_regrouped :
    ∃ v w g h, Expresses v g ∧ Expresses w h ∧ v.toSource = .ok "a - b - c" ∧
      w.toSource = .ok "a - b - c" ∧ g ≠ h :=
  ⟨_, _, _, _, expresses_ofGroup, expresses_ofDifference, expresses_ofGroup.toSource_eq,
    expresses_ofDifference.toSource_eq, by decide⟩

end Deparse
