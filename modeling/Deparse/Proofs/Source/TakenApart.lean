import Deparse.Proofs.Source.Linear
import Deparse.Proofs.Source.Rendered

/-!
# Nodes that are taken apart

Some places hold a node that is not rendered itself: the layout of the node above takes its children
and renders these.  A tag is meant for each such place (`Role.meant?`), but the layout does not look
at it, so that a node of any other tag gets through, also one of a tag that has no rendering
(`agree_of_takenApart`).  Of the nodes that are rendered, none gets through without a tag that has a
rendering.
-/

namespace Deparse

open Layout Piece

/-- The tag of the clause of a rescue. -/
def clauseTag : Text := "RESBODY"

/-- The tag that is meant for a node in a place where it is taken apart. -/
def Role.meant? : Role → Option Text
  | rightOperand | elementArguments | pairList | segmentList => some Tag.list.label
  | blockScope => some Tag.scope.label
  | clause => some clauseTag
  | _ => none

/-- Where a node is taken apart, its tag and its line have no part in the rendering, except that the
refusal of a value around it shows them. -/
theorem Reader.alike_of_meant {r : Role} {R : Value → List Step} (h : Reader r R)
    (apart : r.meant?.isSome = true) (cs : List Value) (tag tag' : Text) (line line' : Option Int) :
    Alike (pieces (R (.node tag cs line false))) (pieces (R (.node tag' cs line' false))) := by
  cases h with
  | ignored => exact .refl _
  | shown => exact (yields_fault _).alike (yields_fault _) rfl
  | blockScope | rightOperand | elementArguments | pairList | clause | segmentList => exact .refl _
  | slot | visit | arguments | spec | opening | segment => cases apart

/-- What becomes of a value that is rendered: it is a supported node, or else it writes nothing and
the rendering of the whole fails. -/
theorem Value.isSupported_or_fails {v u : Value} (h : u ∈ v.rendered) :
    u.isSupported = true ∨
      (∃ f, v.toSource = .error f) ∧ ∃ r, u.Renders [] (some (.refused r)) := by
  cases hu : u.isSupported with
  | true => exact .inl rfl
  | false =>
    refine .inr ⟨?_, renders_nil_of_not_isSupported hu⟩
    cases hv : v.toSource with
    | error f => exact ⟨f, rfl⟩
    | ok t =>
      rw [isSupported_of_mem_rendered hv h] at hu
      cases hu

/-- **A node that is taken apart gets through with any tag**: in a real tree it can have one tag or
another, and the tree comes to the same.  **A node that is rendered does not**, in any tree: its tag
has a rendering, or it writes nothing and the tree has no source text. -/
theorem agree_of_takenApart {h : Hole} (real : h.isReal = true)
    (apart : h.role.meant?.isSome = true) {cs : List Value} (parts : Value.areReal cs = true)
    (tag tag' : Text) (line line' : Option Int) :
    (h.fill (.node tag cs line false)).Agree (h.fill (.node tag' cs line' false)) ∧
      ∀ v u : Value, u ∈ v.rendered → u.isSupported = true ∨
        (∃ f, v.toSource = .error f) ∧ ∃ r, u.Renders [] (some (.refused r)) := by
  have hname : h.role ≠ .name := by
    intro hrole
    rw [hrole] at apart
    cases apart
  obtain ⟨R, pre, post, hR, script⟩ := Hole.exists_reader real hname
  constructor
  · apply Value.agree_of_alike
    rw [script (.node tag cs line false) rfl parts, script (.node tag' cs line' false) rfl parts]
    exact (hR.alike_of_meant apart cs tag tag' line line').between pre post
  · intro v u hu
    exact Value.isSupported_or_fails hu

/-- The right operand of a sum of two variables, as a hole. -/
def addend : Hole :=
  [.child Tag.opcall.label [.node Tag.dvar.label [.sym "a"] none false, .sym "+"] [] none]

/-- A splat of a variable, which has no rendering. -/
def splatted : Value :=
  .node "SPLAT" [.node Tag.dvar.label [.sym "b"] none false] (some 4) false

/-- A splat has no rendering, but as the right operand it is taken for a list. -/
theorem toSource_splatted :
    (addend.fill splatted).isReal = true ∧ addend.role.meant? = some Tag.list.label ∧
      splatted.toSource = .error (.refused (.unsupportedNode "SPLAT" (some 4))) ∧
      (addend.fill splatted).toSource = .ok "a + b" := by
  refine ⟨by decide, by decide, ?_, ?_⟩
  · exact Value.renders_some_iff.1 ⟨[], by decide +kernel, by decide +kernel⟩
  · exact Value.renders_none_iff.1 ⟨by decide +kernel, by decide +kernel⟩

theorem agree_of_takenApart_splatted :
    (addend.isReal = true ∧ addend.role.meant?.isSome = true ∧
      Value.areReal splatted.children = true) ∧
    (addend.fill splatted).Agree (addend.fill (.node Tag.list.label splatted.children none false)) ∧
    ∀ v u : Value, u ∈ v.rendered → u.isSupported = true ∨
      (∃ f, v.toSource = .error f) ∧ ∃ r, u.Renders [] (some (.refused r)) :=
  ⟨⟨by decide, by decide, by decide⟩, agree_of_takenApart (by decide) (by decide) (by decide) ..⟩

end Deparse
