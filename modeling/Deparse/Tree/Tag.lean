import Deparse.Text.CodePoint

/-!
# Node tags

A node carries its tag as a text, which may be anything.  `Tag` lists the tags that can be
rendered, `Tag.label` spells them, and `Tag.ofText?` recognises the spelling
(`ofText?_eq_some_iff`).  Two tags are *synthetic*: they are given only to nodes made up to render
a part of another node, and all other tags only to nodes of a tree.
-/

namespace Deparse

/-- The tags of the nodes that can be rendered. -/
inductive Tag where
  | scope | block | iter | const | colon2
  | call | fcall | vcall | opcall
  | dvar | lvar | ivar
  | dasgnCurr | dasgn | lasgn | iasgn
  | ifElse | unlessElse | whileLoop
  | lit | str | nilWord | trueWord | falseWord
  | dstr | evstr
  | conj | disj
  | list | hash
  | attrasgn | rescue | begin
  | listEmbedded | iterScope
deriving DecidableEq

namespace Tag

/-- All tags, in the order of their declaration. -/
def all : List Tag :=
  [scope, block, iter, const, colon2, call, fcall, vcall, opcall, dvar, lvar, ivar, dasgnCurr,
    dasgn, lasgn, iasgn, ifElse, unlessElse, whileLoop, lit, str, nilWord, trueWord, falseWord,
    dstr, evstr, conj, disj, list, hash, attrasgn, rescue, begin, listEmbedded, iterScope]

/-- The spelling of a tag. -/
def label : Tag → Text
  | scope => "SCOPE"
  | block => "BLOCK"
  | iter => "ITER"
  | const => "CONST"
  | colon2 => "COLON2"
  | call => "CALL"
  | fcall => "FCALL"
  | vcall => "VCALL"
  | opcall => "OPCALL"
  | dvar => "DVAR"
  | lvar => "LVAR"
  | ivar => "IVAR"
  | dasgnCurr => "DASGN_CURR"
  | dasgn => "DASGN"
  | lasgn => "LASGN"
  | iasgn => "IASGN"
  | ifElse => "IF"
  | unlessElse => "UNLESS"
  | whileLoop => "WHILE"
  | lit => "LIT"
  | str => "STR"
  | nilWord => "NIL"
  | trueWord => "TRUE"
  | falseWord => "FALSE"
  | dstr => "DSTR"
  | evstr => "EVSTR"
  | conj => "AND"
  | disj => "OR"
  | list => "LIST"
  | hash => "HASH"
  | attrasgn => "ATTRASGN"
  | rescue => "RESCUE"
  | begin => "BEGIN"
  | listEmbedded => "LIST_EMBEDDED"
  | iterScope => "ITER_SCOPE"

/-- The tags of nodes that are made up for rendering. -/
def isSynthetic : Tag → Bool
  | listEmbedded | iterScope => true
  | _ => false

/-- The tag that a text spells, if it spells one. -/
def ofText? (t : Text) : Option Tag :=
  all.find? fun g => g.label = t

theorem mem_all (g : Tag) : g ∈ all := by
  cases g <;> decide

theorem ofText?_label (g : Tag) : ofText? g.label = some g := by
  cases g <;> decide

/-- A text is recognised as a tag exactly if it is the spelling of the tag. -/
theorem ofText?_eq_some_iff {t : Text} {g : Tag} : ofText? t = some g ↔ t = g.label := by
  constructor
  · intro h
    have found := List.find?_some h
    exact (of_decide_eq_true found).symm
  · rintro rfl
    exact ofText?_label g

/-- A text is no tag exactly if no tag is spelled like it. -/
theorem ofText?_eq_none_iff {t : Text} : ofText? t = none ↔ ∀ g : Tag, g.label ≠ t := by
  simp [ofText?, mem_all]

end Tag

end Deparse
