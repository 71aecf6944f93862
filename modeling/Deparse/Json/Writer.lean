import Deparse.Number.Shortest
import Deparse.Value.Basic

/-!
# Writing JSON documents

`write` spells a value as a JSON document: on one line, or with each item and member on a line of
its own that is indented by its depth; with every character as it is, or with those beyond ASCII
escaped.  Escaping reaches surrogates as well, so that the second style always yields text that can
be encoded.  Sequences are written like arrays.  A number that is not finite is a word.  Symbols,
bytes and nodes have no place in a document; for completeness they are written as null.
-/

namespace Deparse.Json

/-- How a document is written. -/
structure Style where
  /-- The indentation for each level, or nothing for a document on one line. -/
  indent : Option Nat := none
  ascii : Bool := false

namespace Style

/-- Everything on one line, with every character as it is. -/
def compact : Style := {}

/-- Each item and member on a line of its own, indented by two spaces for each level. -/
def indented : Style := { indent := some 2 }

/-- Everything on one line and in ASCII. -/
def escaped : Style := { ascii := true }

end Style

/-! ### Texts -/

/-- The escape of a number of sixteen bits. -/
def unitEscape (n : Nat) : Text :=
  "\\u" ++ Numeral.lowerHex 4 n

/-- The escape of a code point by its number; beyond sixteen bits it takes a surrogate pair. -/
def numericEscape (c : CodePoint) : Text :=
  if c.value < 0x10000 then unitEscape c.value
  else
    let n := c.value - 0x10000
    unitEscape (0xD800 + n / 1024) ++ unitEscape (0xDC00 + n % 1024)

/-- A code point in a quoted text. -/
def quotedPoint (ascii : Bool) (c : CodePoint) : Text :=
  match c with
  | .scalar '"' => "\\\""
  | .scalar '\\' => "\\\\"
  | .scalar '\n' => "\\n"
  | .scalar '\r' => "\\r"
  | .scalar '\t' => "\\t"
  | .scalar '\x0c' => "\\f"
  | .scalar '\x08' => "\\b"
  | c => if c.value < 0x20 || (ascii && 0x7F ≤ c.value) then numericEscape c else [c]

/-- A text between quotes; beyond ASCII it is escaped only if `ascii` is set. -/
def quotedText (ascii : Bool) (t : Text) : Text :=
  "\"" ++ t.flatMap (quotedPoint ascii) ++ "\""

/-! ### Values -/

/-- A float; the numbers without a numeral are words. -/
def floatText (x : Binary64) : Text :=
  if x = .nan then "NaN"
  else if x = .infinite false then "Infinity"
  else if x = .infinite true then "-Infinity"
  else x.text

/-- The line end and indentation before what stands on a level. -/
def lineStart (width level : Nat) : Text :=
  "\n" ++ Text.repeated (level * width) " "

/-- The parts of an array or object between its brackets, on the level of the brackets; without
parts the brackets meet, whatever the style. -/
def enclosed (s : Style) (level : Nat) (first last : Text) (parts : List Text) : Text :=
  if parts.isEmpty then first ++ last
  else
    match s.indent with
    | none => first ++ Text.joined ", " parts ++ last
    | some width =>
      let start := lineStart width (level + 1)
      first ++ start ++ Text.joined ("," ++ start) parts ++ lineStart width level ++ last

mutual

/-- A value that stands on a level. -/
def render (s : Style) (level : Nat) : Value → Text
  | .nil => "null"
  | .bool true => "true"
  | .bool false => "false"
  | .int n => Numeral.decimalInt n
  | .float x => floatText x
  | .str t => quotedText s.ascii t
  | .seq xs => enclosed s level "[" "]" (renderAll s (level + 1) xs)
  | .array xs => enclosed s level "[" "]" (renderAll s (level + 1) xs)
  | .object ms => enclosed s level "\x7b" "\x7d" (renderMembers s (level + 1) ms)
  | .sym _ => "null"
  | .bytes _ => "null"
  | .node .. => "null"

/-- The values of a list, each as it stands on a level. -/
def renderAll (s : Style) (level : Nat) : List Value → List Text
  | [] => []
  | v :: vs => render s level v :: renderAll s level vs

/-- The members of an object, each as it stands on a level: the key, a colon and the value. -/
def renderMembers (s : Style) (level : Nat) : List (Text × Value) → List Text
  | [] => []
  | (k, v) :: ms =>
    (quotedText s.ascii k ++ ": " ++ render s level v) :: renderMembers s level ms

end

/-- The document of a value in a style. -/
def write (s : Style) (v : Value) : Text :=
  render s 0 v

end Deparse.Json
