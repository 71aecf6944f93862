import Deparse.Literal.Quoted

/-!
# Literals of texts in a row

A text can be escaped piece by piece wherever it is cut, but not between a `#` and a character that
opens an interpolation after it: there the first piece keeps its `#` bare, since it does not see the
opener, while the whole text has it escaped.  So escaping commutes with concatenation exactly if the
two texts do not open an interpolation where they meet (`escape_append_eq_iff`).

The induction is on the first text.  Escaping looks at one character ahead, and within the first
text it sees the same with the second text behind it as without.
-/

namespace Deparse.Literal

/-- Two texts that open an interpolation where they meet: the first ends with a `#`, and the second
starts with a brace, a dollar or an at sign. -/
def OpenTogether (a b : Text) : Prop :=
  ("#" : Text) <:+ a ∧ ∃ c ∈ ("\x7b$@" : Text), [c] <+: b

variable {a b : Text}

/-- What opens an interpolation behind a `#` is one character. -/
theorem opensSplice_iff {t : Text} : opensSplice t = true ↔ ∃ c ∈ spliceOpeners, [c] <+: t := by
  cases t with
  | nil => simp [opensSplice]
  | cons d t => simp [opensSplice, List.cons_prefix_cons]

theorem not_openTogether_hash (a : Text) : ¬ OpenTogether a "#" := by
  have noOpener : opensSplice "#" = false := rfl
  rintro ⟨-, opener⟩
  rw [← Bool.not_eq_true] at noOpener
  exact noOpener (opensSplice_iff.2 opener)

theorem OpenTogether.of_cons {c : CodePoint} (h : OpenTogether a b) : OpenTogether (c :: a) b :=
  ⟨h.1.trans (List.suffix_cons c a), h.2⟩

/-- Texts that do not open an interpolation together are escaped one after the other. -/
theorem escape_append (h : ¬ OpenTogether a b) : escape (a ++ b) = escape a ++ escape b := by
  induction a with
  | nil => rfl
  | cons c a ih =>
    -- the character sees the same behind it, with the second text or without
    have ahead : c = '#' ∧ opensSplice (a ++ b) = true ↔ c = '#' ∧ opensSplice a = true := by
      cases a with
      | nil =>
        -- the look-ahead leaves the first text
        have closed : c = '#' → opensSplice b ≠ true := by
          rintro rfl opener
          exact h ⟨List.suffix_refl _, opensSplice_iff.1 opener⟩
        exact ⟨fun ⟨hash, opener⟩ => absurd opener (closed hash),
          fun ⟨_, opener⟩ => by cases opener⟩
      | cons d a => exact Iff.rfl
    have rest : escape (a ++ b) = escape a ++ escape b := ih fun together => h together.of_cons
    simp only [List.cons_append, escape, ahead, rest, List.append_assoc]

/-- A `#` at the end of a text stays as it is. -/
theorem escape_append_hash (a : Text) : escape (a ++ "#") = escape a ++ "#" := by
  rw [escape_append (not_openTogether_hash a)]
  rfl

theorem escape_hash_append (h : opensSplice b = true) : escape ("#" ++ b) = "\\#" ++ escape b := by
  show (if (CodePoint.scalar '#' = '#' ∧ opensSplice b = true) then ("\\#" : Text)
    else escapedPoint '#') ++ escape b = _
  rw [if_pos ⟨rfl, h⟩]

/-- With an opener behind it, it is escaped. -/
theorem escape_append_hash_append (a : Text) (h : opensSplice b = true) :
    escape (a ++ "#" ++ b) = escape a ++ "\\#" ++ escape b := by
  have apart : ¬ OpenTogether a ("#" ++ b) := by
    rintro ⟨-, c, opener, hc⟩
    obtain ⟨rfl, -⟩ := List.cons_prefix_cons.1 hc
    exact absurd opener (by decide)
  rw [List.append_assoc, escape_append apart, escape_hash_append h, ← List.append_assoc]

/-- **Where a literal may be cut**: the escaped text of two texts in a row is put together from
theirs exactly if they do not open an interpolation together.  If they do, the `#` between them is
escaped in the one and bare in the other, and all else is the same. -/
theorem escape_append_eq_iff :
    (∀ a b : Text, escape (a ++ b) = escape a ++ escape b ↔ ¬ OpenTogether a b) ∧
    ∀ a b : Text, OpenTogether (a ++ "#") b →
      escape (a ++ "#" ++ b) = escape a ++ "\\#" ++ escape b ∧
        escape (a ++ "#") ++ escape b = escape a ++ "#" ++ escape b := by
  have split (a b : Text) (together : OpenTogether (a ++ "#") b) :
      escape (a ++ "#" ++ b) = escape a ++ "\\#" ++ escape b ∧
        escape (a ++ "#") ++ escape b = escape a ++ "#" ++ escape b :=
    ⟨escape_append_hash_append a (opensSplice_iff.2 together.2), by rw [escape_append_hash]⟩
  refine ⟨?_, split⟩
  intro a b
  refine ⟨?_, escape_append⟩
  rintro commutes together
  obtain ⟨init, rfl⟩ := together.1
  obtain ⟨whole, parts⟩ := split init b together
  rw [whole, parts] at commutes
  -- the backslash makes the difference
  have lengths := congrArg List.length commutes
  simp only [List.length_append] at lengths
  have escaped : ("\\#" : Text).length = 2 := rfl
  have bare : ("#" : Text).length = 1 := rfl
  omega

/-- Of a run of `#` the last one opens an interpolation together with the text behind it. -/
theorem escape_append_eq_iff_run :
    OpenTogether ("##" ++ "#") "\x7bx\x7d" ∧
      escape ("##" ++ "#" ++ "\x7bx\x7d") = "##" ++ "\\#" ++ "\x7bx\x7d" ∧
      escape ("##" ++ "#") ++ escape "\x7bx\x7d" = "##" ++ "#" ++ "\x7bx\x7d" := by
  have together : OpenTogether ("##" ++ "#") "\x7bx\x7d" :=
    ⟨List.suffix_append _ _, '\x7b', by decide, by decide⟩
  exact ⟨together, escape_append_eq_iff.2 "##" "\x7bx\x7d" together⟩

end Deparse.Literal
