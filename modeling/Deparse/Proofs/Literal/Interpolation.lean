import Deparse.Proofs.Literal.RoundTrip

/-!
# Interpolated strings

An interpolated string is written part by part: its texts are escaped one at a time, and each
interpolation stands between them with its own source.  The question is whether the whole literal is
read as these parts again, the interpolations passed over as units.

It is, unless a text that ends with a `#` is followed by one that starts with `{`, `$` or `@`, with
nothing or only empty texts between them.  Neither of the two is escaped at that place, since
escaping looks at one text only, and together they open an interpolation that is none of the parts
(`Stray`, `readLiteral_interpolated`).
-/

namespace Deparse.Literal

/-! ### Parts -/

/-- A part of an interpolated string: a text, or an interpolation with its source. -/
inductive Part where
  | text (t : Text)
  | splice (source : Text)
deriving DecidableEq

namespace Part

/-- The marks that a part is written with. -/
def written : Part → List Mark
  | text t => marks (escape t)
  | splice t => [.splice t]

/-- The marks that a part stands for. -/
def content : Part → List Mark
  | text t => marks t
  | splice t => [.splice t]

end Part

/-- The literal of the parts. -/
def interpolated (ps : List Part) : List Mark :=
  .point '"' :: (ps.flatMap Part.written ++ [.point '"'])

/-- After empty texts comes one that starts with a character that opens an interpolation. -/
def Opening (ps : List Part) : Prop :=
  ∃ gap u after, ps = gap ++ .text u :: after ∧ (∀ p ∈ gap, p = .text []) ∧ opensSplice u = true

/-- Two texts with nothing or only empty texts between them open an interpolation together. -/
def Stray (ps : List Part) : Prop :=
  ∃ before t after, ps = before ++ .text t :: after ∧ t.getLast? = some (.scalar '#') ∧
    Opening after

/-! The two notions by recursion on the parts. -/

theorem not_opening_nil : ¬ Opening [] := by
  rintro ⟨gap, u, after, h, -⟩
  cases gap <;> cases h

theorem not_opening_splice (t : Text) (ps : List Part) : ¬ Opening (.splice t :: ps) := by
  rintro ⟨gap, u, after, h, hgap, -⟩
  cases gap with
  | nil => cases h
  | cons p gap =>
    cases h
    cases hgap _ (List.mem_cons_self ..)

theorem opening_text_nil (ps : List Part) : Opening (.text [] :: ps) ↔ Opening ps := by
  constructor
  · rintro ⟨gap, u, after, h, hgap, hu⟩
    -- the empty text is the first of the gap, or there is no gap and it would have to open
    cases gap with
    | nil =>
      cases h
      cases hu
    | cons p gap =>
      cases h
      exact ⟨gap, u, after, rfl, fun q hq => hgap q (List.mem_cons_of_mem _ hq), hu⟩
  · rintro ⟨gap, u, after, rfl, hgap, hu⟩
    refine ⟨.text [] :: gap, u, after, rfl, fun q hq => ?_, hu⟩
    rcases List.mem_cons.1 hq with rfl | hq
    · rfl
    · exact hgap q hq

theorem opening_text {t : Text} (ht : t ≠ []) (ps : List Part) :
    Opening (.text t :: ps) ↔ opensSplice t = true := by
  constructor
  · rintro ⟨gap, u, after, h, hgap, hu⟩
    cases gap with
    | nil =>
      cases h
      exact hu
    | cons p gap =>
      cases h
      exact absurd (Part.text.inj (hgap _ (List.mem_cons_self ..))) ht
  · intro hu
    exact ⟨[], t, ps, rfl, by simp, hu⟩

theorem not_stray_nil : ¬ Stray [] := by
  rintro ⟨before, t, after, h, -⟩
  cases before <;> cases h

theorem stray_splice (t : Text) (ps : List Part) : Stray (.splice t :: ps) ↔ Stray ps := by
  constructor
  · rintro ⟨before, u, after, h, hu⟩
    cases before with
    | nil => cases h
    | cons p before =>
      cases h
      exact ⟨before, u, after, rfl, hu⟩
  · rintro ⟨before, u, after, rfl, hu⟩
    exact ⟨.splice t :: before, u, after, rfl, hu⟩

theorem stray_text (t : Text) (ps : List Part) :
    Stray (.text t :: ps) ↔ (t.getLast? = some (.scalar '#') ∧ Opening ps) ∨ Stray ps := by
  constructor
  · rintro ⟨before, u, after, h, hu⟩
    -- the text is the one that ends with a `#`, or it stands before that one
    cases before with
    | nil =>
      cases h
      exact .inl hu
    | cons p before =>
      cases h
      exact .inr ⟨before, u, after, rfl, hu⟩
  · rintro (hu | ⟨before, u, after, rfl, hu⟩)
    · exact ⟨[], t, ps, rfl, hu⟩
    · exact ⟨.text t :: before, u, after, rfl, hu⟩

/-! ### Reading the parts -/

/-- What the parts are written with starts with an opener exactly if the parts do. -/
theorem opens_written {ms : List Mark} (hms : opens ms = false) (ps : List Part) :
    opens (ps.flatMap Part.written ++ ms) = true ↔ Opening ps := by
  induction ps with
  | nil => simp [hms, not_opening_nil]
  | cons p ps ih =>
    cases p with
    | splice t => simp [Part.written, opens, not_opening_splice]
    | text t =>
      rw [List.flatMap_cons, List.append_assoc, Part.written, opens_marks_escape]
      by_cases ht : t = []
      · -- an empty text lets the parts after it be seen
        subst ht
        rw [if_pos rfl, opening_text_nil, ih]
      · rw [if_neg ht, opening_text ht]

/-- The parts of a literal are read one after the other, unless two of its texts open an
interpolation together. -/
theorem readBody_written (ps : List Part) (ms : List Mark) :
    (¬ Stray ps → readBody (ps.flatMap Part.written ++ .point '"' :: ms)
      = some (ps.flatMap Part.content, ms)) ∧
    (Stray ps → readBody (ps.flatMap Part.written ++ .point '"' :: ms) = none) := by
  have quote : opens (.point '"' :: ms) = false := rfl
  induction ps with
  | nil => exact ⟨fun _ => readBody_quote ms, fun h => absurd h not_stray_nil⟩
  | cons p ps ih =>
    cases p with
    | splice t =>
      -- an interpolation keeps the texts on both sides of it apart
      rw [stray_splice]
      simp only [List.flatMap_cons, Part.written, Part.content, List.cons_append,
        List.nil_append, readBody_splice]
      constructor
      · intro h
        rw [ih.1 h]
        rfl
      · intro h
        rw [ih.2 h]
        rfl
    | text t =>
      rw [stray_text, ← opens_written quote ps, List.flatMap_cons, List.append_assoc,
        Part.written, readBody_marks_escape]
      -- the text itself is read well; what matters is its end and what comes after it
      by_cases boundary : t.getLast? = some (.scalar '#') ∧
          opens (ps.flatMap Part.written ++ .point '"' :: ms) = true
      · rw [if_pos boundary]
        exact ⟨fun h => absurd (.inl boundary) h, fun _ => rfl⟩
      · rw [if_neg boundary]
        constructor
        · intro h
          rw [ih.1 fun hs => h (.inr hs)]
          rfl
        · intro h
          rw [ih.2 (h.resolve_left boundary)]
          rfl

theorem readLiteral_interpolated (ps : List Part) :
    (¬ Stray ps → readLiteral (interpolated ps) = some (ps.flatMap Part.content, [])) ∧
    (Stray ps → readLiteral (interpolated ps) = none) :=
  readBody_written ps []

end Deparse.Literal
