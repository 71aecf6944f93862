import Deparse.Number.Positional

/-!
# Texts as bytes

`Text.utf8?` encodes a text and `Text.ofUtf8?` decodes bytes, both as UTF-8.  Neither is total: a
surrogate has no encoding (`encodable_iff`), and not every sequence of bytes is one.  Where a text
has to be encoded whatever it holds, `Text.surrogatesEscaped` is encoded in its place
(`encodable_surrogatesEscaped`).

Three spellings of a line end are in use in files: `\n`, `\r\n` and `\r`.  A document that was
decoded has all of them turned into the first (`Text.unified`), so that lines are counted alike
whatever the spelling.
-/

namespace Deparse.Text

/-! ### Encoding -/

/-- The bytes of `t`, unless it holds a surrogate. -/
def utf8? (t : Text) : Option (List UInt8) :=
  t.toString?.map (·.toUTF8.toList)

/-- The text whose encoding is `bytes`: overlong forms, surrogates and truncated sequences are
refused. -/
def ofUtf8? (bytes : List UInt8) : Option Text :=
  (String.fromUTF8? ⟨bytes.toArray⟩).map ofString

/-- Whether a text has an encoding. -/
def encodable (t : Text) : Bool :=
  t.utf8?.isSome

/-- A code point that has an encoding: itself, or the number of a surrogate as an escape. -/
def surrogateEscaped : CodePoint → Text
  | .scalar c => [.scalar c]
  | .surrogate n => "\\u" ++ Numeral.lowerHex 4 (CodePoint.surrogate n).value

/-- `t` with every surrogate written by its number. -/
def surrogatesEscaped (t : Text) : Text :=
  t.flatMap surrogateEscaped

/-- A text has an encoding exactly if all its code points are characters. -/
theorem encodable_iff {t : Text} : t.encodable = true ↔ ∀ p ∈ t, ∃ c, p = .scalar c := by
  have scalars : t.encodable = (t.mapM scalar?).isSome := by
    simp [encodable, utf8?, toString?]
  rw [scalars]
  clear scalars
  induction t with
  | nil => simp
  | cons p t ih =>
    cases p with
    | scalar c =>
      have : (CodePoint.scalar c :: t).mapM scalar? = (t.mapM scalar?).map (c :: ·) := by
        cases h : t.mapM scalar? <;> simp [List.mapM_cons, scalar?, h]
      simpa [this] using ih
    | surrogate n => simp [List.mapM_cons, scalar?]

/-- With its surrogates escaped every text has an encoding. -/
theorem encodable_surrogatesEscaped (t : Text) : t.surrogatesEscaped.encodable = true := by
  rw [encodable_iff]
  intro p hp
  obtain ⟨q, -, hq⟩ := List.mem_flatMap.1 hp
  cases q with
  | scalar c => exact ⟨c, List.mem_singleton.1 hq⟩
  | surrogate n =>
    rcases List.mem_append.1 hq with h | h
    · obtain ⟨c, -, rfl⟩ := List.mem_map.1 h
      exact ⟨c, rfl⟩
    · obtain ⟨d, -, rfl⟩ := List.mem_map.1 h
      exact ⟨_, rfl⟩

/-! ### Line ends -/

/-- `t` with every `\r\n`, and every `\r` that stands alone, replaced by `\n`. -/
def unified : Text → Text
  | [] => []
  | .scalar '\r' :: .scalar '\n' :: t => .scalar '\n' :: unified t
  | .scalar '\r' :: t => .scalar '\n' :: unified t
  | c :: t => c :: unified t

end Deparse.Text
