import Deparse.Proofs.Source.Faults
import Deparse.Proofs.Source.Outcome

/-!
# What is rendered on the way

Rendering a value renders further values on the way, each as a node of its own.  `Value.rendered`
lists them, the value itself first.  The script of each of them is a part of that of the value
(`script_infix_of_mem_rendered`).  If the value has a source text, then so has each of them
(`exists_toSource_of_mem_rendered`), and each is a node whose tag is known of the nodes of a tree
(`isSupported_of_mem_rendered`).  A value that is not writes nothing
(`renders_nil_of_not_isSupported`).
-/

namespace Deparse

namespace Value

/-- The values that are rendered when the value is, itself first. -/
def rendered (v : Value) : List Value :=
  v :: v.layout.attach.flatMap fun
    | ⟨.put _, _⟩ => []
    | ⟨.visit w, _⟩ => w.rendered
termination_by v.size
decreasing_by exact size_lt_of_visit (by assumption)

theorem self_mem_rendered (v : Value) : v ∈ v.rendered := by
  rw [rendered]
  exact List.mem_cons_self ..

theorem mem_rendered_of_visit {v w u : Value} (visited : .visit w ∈ v.layout)
    (h : u ∈ w.rendered) : u ∈ v.rendered := by
  rw [rendered]
  refine List.mem_cons_of_mem _ (List.mem_flatMap.2 ⟨⟨.visit w, visited⟩, ?_, h⟩)
  exact List.mem_attach _ _

/-- What is rendered is the value itself, or is rendered when something its layout visits is. -/
theorem eq_or_exists_visit_of_mem_rendered {v u : Value} (h : u ∈ v.rendered) :
    u = v ∨ ∃ w, .visit w ∈ v.layout ∧ u ∈ w.rendered := by
  rw [rendered, List.mem_cons] at h
  rcases h with rfl | h
  · exact .inl rfl
  · obtain ⟨⟨s, hs⟩, -, hu⟩ := List.mem_flatMap.1 h
    cases s with
    | put p => cases hu
    | visit w => exact .inr ⟨w, hs, hu⟩

/-- What is rendered is part of the value, at some depth. -/
theorem Hereditary.of_mem_rendered {V : Value → Prop} (hV : Hereditary V) {v u : Value} (h : V v)
    (hu : u ∈ v.rendered) : V u := by
  rcases eq_or_exists_visit_of_mem_rendered hu with rfl | ⟨w, visited, hu⟩
  · exact h
  · have smaller := size_lt_of_visit visited
    have hw : V w := (Layout.built_layout hV fun u hu => hV.part h hu).of_visit w visited
    exact hV.of_mem_rendered hw hu
termination_by v.size

/-- The faults in the rendering of a value are among those in the rendering of all of it. -/
theorem FaultsOnly.of_mem_rendered {F : Fault → Prop} {v u : Value} (h : v.FaultsOnly F)
    (hu : u ∈ v.rendered) : u.FaultsOnly F := by
  rcases eq_or_exists_visit_of_mem_rendered hu with rfl | ⟨w, visited, hu⟩
  · exact h
  · have smaller := size_lt_of_visit visited
    have hw : w.FaultsOnly F := (faultsOnly_iff v).1 h _ visited
    exact hw.of_mem_rendered hu
termination_by v.size

/-- All that is rendered has a source text if the whole has. -/
theorem exists_toSource_of_mem_rendered {v u : Value} {t : Text} (h : v.toSource = .ok t)
    (hu : u ∈ v.rendered) : ∃ s, u.toSource = .ok s := by
  rw [toSource_isOk_iff]
  exact ((toSource_isOk_iff v).1 ⟨t, h⟩).of_mem_rendered hu

/-- Whether a value is a node with a tag that is known of nodes of its origin. -/
def isSupported : Value → Bool
  | node tag _ _ synthetic =>
    match Tag.ofText? tag with
    | some g => g.isSynthetic = synthetic
    | none => false
  | _ => false

/-- What is not a supported node is refused as a whole. -/
theorem layout_of_not_isSupported {v : Value} (h : v.isSupported = false) :
    ∃ r, v.layout = Layout.refuse r := by
  cases v with
  | node tag cs line synthetic =>
    simp only [isSupported] at h
    simp only [layout]
    cases known : Tag.ofText? tag with
    | some g =>
      rw [known] at h
      exact ⟨_, if_neg (of_decide_eq_false h)⟩
    | none => exact ⟨_, rfl⟩
  | _ => exact ⟨_, rfl⟩

/-- What is not a supported node writes nothing before it is refused. -/
theorem renders_nil_of_not_isSupported {v : Value} (h : v.isSupported = false) :
    ∃ r, v.Renders [] (some (.refused r)) := by
  obtain ⟨r, hr⟩ := layout_of_not_isSupported h
  refine ⟨r, ?_⟩
  unfold Renders
  rw [Layout.script_eq_pieces, hr]
  exact Piece.yields_fault _

/-- In a rendering that comes to a source text only supported nodes are rendered. -/
theorem isSupported_of_mem_rendered {v u : Value} {t : Text} (h : v.toSource = .ok t)
    (hu : u ∈ v.rendered) : u.isSupported = true := by
  cases hs : u.isSupported with
  | true => rfl
  | false =>
    obtain ⟨r, hr⟩ := renders_nil_of_not_isSupported hs
    obtain ⟨s, ok⟩ := exists_toSource_of_mem_rendered h hu
    have refused : u.toSource = .error (.refused r) := renders_some_iff.1 ⟨[], hr⟩
    rw [refused] at ok
    cases ok

end Value

end Deparse
