import Deparse.Number.Positional
import Deparse.Text.Classes

/-!
# Double-quoted literals

`escape` writes the body of a double-quoted Ruby literal.  Ten characters have an escape of one
letter; `#` is escaped where the next character would make it open an interpolation, and nowhere
else; every other character that is not printable is written by its number.  The escape of a code
point does not depend on its neighbours except at a `#` (`escape_cons_of_ne`).
-/

namespace Deparse.Literal

/-! ### Code points -/

/-- The code points that have an escape of one letter, with that escape. -/
def namedEscape? : CodePoint → Option Text
  | .scalar '\\' => some "\\\\"
  | .scalar '"' => some "\\\""
  | .scalar '\n' => some "\\n"
  | .scalar '\t' => some "\\t"
  | .scalar '\r' => some "\\r"
  | .scalar '\x0c' => some "\\f"
  | .scalar '\x0b' => some "\\v"
  | .scalar '\x07' => some "\\a"
  | .scalar '\x08' => some "\\b"
  | .scalar '\x1b' => some "\\e"
  | _ => none

/-- The escape of a code point by its number: four digits where they are enough, braces around
more, and two digits for `U+007F`. -/
def numericEscape (c : CodePoint) : Text :=
  if c.value = 0x7F then "\\x7F"
  else if c.value ≤ 0xFFFF then "\\u" ++ Numeral.upperHex 4 c.value
  else "\\u\x7b" ++ Numeral.upperHex 1 c.value ++ "\x7d"

/-- A code point as it stands in a literal when no interpolation is in question. -/
def escapedPoint (c : CodePoint) : Text :=
  match namedEscape? c with
  | some t => t
  | none => if c.isPrintable then [c] else numericEscape c

/-! ### Texts -/

/-- The characters that open an interpolation after a `#`. -/
def spliceOpeners : Text :=
  "\x7b$@"

/-- Whether a text starts with a character that opens an interpolation after a `#`. -/
def opensSplice : Text → Bool
  | [] => false
  | c :: _ => spliceOpeners.contains c

/-- The body of the double-quoted literal of a text. -/
def escape : Text → Text
  | [] => []
  | c :: t => (if c = '#' ∧ opensSplice t then ("\\#" : Text) else escapedPoint c) ++ escape t

/-- The double-quoted literal of a text. -/
def quoted (t : Text) : Text :=
  "\"" ++ escape t ++ "\""

theorem escape_cons_of_ne {c : CodePoint} (h : c ≠ '#') (t : Text) :
    escape (c :: t) = escapedPoint c ++ escape t := by
  simp [escape, h]

end Deparse.Literal
