import Deparse.Literal.Symbol
import Deparse.Value.Diagnostic

/-!
# Literals of scalars

`Value.literal` writes a scalar as Ruby source.  Sequences, nodes, bytes and objects have no
literal and are refused with the value in question.
-/

namespace Deparse

/-- A value was to be written as a literal and has none. -/
structure Unrenderable where
  value : Value

/-- The wording that shows the value in question. -/
def Unrenderable.message (u : Unrenderable) : Text :=
  "No Ruby literal form for " ++ u.value.described

namespace Literal

/-- A decimal with a fraction before its exponent, if it has an exponent. -/
def withFraction (t : Text) : Text :=
  let mantissa : Text := t.takeWhile (· ≠ CodePoint.scalar 'e')
  let power : Text := t.dropWhile (· ≠ CodePoint.scalar 'e')
  if power.isEmpty || mantissa.contains '.' then t else mantissa ++ ".0" ++ power

/-- The literal of a float.  The numbers without a numeral are constants of `Float`. -/
def float : Binary64 → Text
  | .nan => "Float::NAN"
  | .ranked negative r =>
    if r.val = infinityRank then (if negative then "-Float::INFINITY" else "Float::INFINITY")
    else withFraction (Binary64.ranked negative r).text

end Literal

/-- The literal of a scalar. -/
def Value.literal : Value → Except Unrenderable Text
  | nil => .ok "nil"
  | bool true => .ok "true"
  | bool false => .ok "false"
  | sym name => .ok (Literal.symbol name)
  | str t => .ok (Literal.quoted t)
  | int n => .ok (Numeral.decimalInt n)
  | float x => .ok (Literal.float x)
  | v => .error ⟨v⟩

end Deparse
