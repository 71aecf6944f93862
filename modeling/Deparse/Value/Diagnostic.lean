import Deparse.Number.Shortest
import Deparse.Text.Classes
import Deparse.Value.Basic

/-!
# Values in diagnostics

`Value.described` spells any value so that its kind can be told: texts stand in quotes, symbols
and nodes show their parts, sequences, arrays and objects have brackets of their own.
`Value.displayed` is the shorter spelling that names are written with: a text or symbol is its own
name, and everything else is described.
-/

namespace Deparse

/-! ### Quoted texts -/

namespace Diagnostic

/-- The quote around a text: the apostrophe, unless the text holds one and no double quote. -/
def quoteFor (hasApostrophe hasDouble : Bool) : CodePoint :=
  if hasApostrophe && !hasDouble then '"' else '\''

/-- One code point between quotes `q`. -/
def quotedPoint (q c : CodePoint) : Text :=
  if c = '\\' then "\\\\"
  else if c = q then [.scalar '\\', q]
  else if c = '\n' then "\\n"
  else if c = '\r' then "\\r"
  else if c = '\t' then "\\t"
  else if c.isPrintable then [c]
  else if c.value < 0x100 then "\\x" ++ Numeral.lowerHex 2 c.value
  else if c.value < 0x10000 then "\\u" ++ Numeral.lowerHex 4 c.value
  else "\\U" ++ Numeral.lowerHex 8 c.value

/-- A text in quotes, with what is not printable escaped by its number. -/
def quoted (t : Text) : Text :=
  let q := quoteFor (t.contains '\'') (t.contains '"')
  q :: t.flatMap (quotedPoint q) ++ [q]

/-- One byte between quotes `q`: the printable ones below `0x7F` stand for characters. -/
def quotedByte (q : CodePoint) (b : UInt8) : Text :=
  if 0x80 ≤ b then "\\x" ++ Numeral.lowerHex 2 b.toNat
  else quotedPoint q (Char.ofNat b.toNat)

/-- Bytes in quotes, with a letter before them that tells them from a text. -/
def quotedBytes (bs : List UInt8) : Text :=
  let q := quoteFor (bs.contains 0x27) (bs.contains 0x22)
  "b" ++ q :: bs.flatMap (quotedByte q) ++ [q]

/-- The spelling of a line that may be unknown. -/
def lineText : Option Int → Text
  | none => "None"
  | some n => Numeral.decimalInt n

/-- Descriptions between brackets.  A sequence of one is told from a bracketed value by a comma
after it. -/
def bracketed : List Text → Text
  | [t] => "(" ++ t ++ ",)"
  | ts => "(" ++ Text.joined ", " ts ++ ")"

end Diagnostic

/-! ### Descriptions -/

namespace Value

open Diagnostic

mutual

/-- The spelling of a value in diagnostics. -/
def described : Value → Text
  | nil => "None"
  | bool true => "True"
  | bool false => "False"
  | int n => Numeral.decimalInt n
  | float x => x.text
  | str t => quoted t
  | sym name => "Symbol(name=" ++ quoted name ++ ")"
  | bytes bs => quotedBytes bs
  | seq xs => bracketed (describedAll xs)
  | array xs => "[" ++ Text.joined ", " (describedAll xs) ++ "]"
  | object ms => "\x7b" ++ Text.joined ", " (describedMembers ms) ++ "\x7d"
  | node tag cs line synthetic =>
    (if synthetic then ("SyntheticNode" : Text) else "SyntaxNode") ++ "(type=" ++ quoted tag ++
      ", children=" ++ bracketed (describedAll cs) ++ ", lineno=" ++ lineText line ++ ")"

/-- The spelling of each value of a list. -/
def describedAll : List Value → List Text
  | [] => []
  | v :: vs => described v :: describedAll vs

/-- The spelling of each member, key first. -/
def describedMembers : List (Text × Value) → List Text
  | [] => []
  | (k, v) :: ms => (quoted k ++ ": " ++ described v) :: describedMembers ms

end

/-- The spelling of a value where it serves as a name. -/
def displayed : Value → Text
  | str t => t
  | sym name => name
  | v => described v

/-- The word for the kind of a value that is not a node. -/
def kindWord : Value → Text
  | nil => "NoneType"
  | bool _ => "bool"
  | int _ => "int"
  | float _ => "float"
  | str _ => "str"
  | sym _ => "Symbol"
  | bytes _ => "bytes"
  | seq _ => "tuple"
  | array _ => "list"
  | object _ => "dict"
  | node .. => "node"

end Value

end Deparse
