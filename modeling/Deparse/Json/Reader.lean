import Deparse.Json.Token

/-!
# Reading JSON documents

The reader goes through the tokens of a document once.  Its state says what is expected next and
holds the open arrays and objects, the innermost first; a value that is finished is supplied to the
innermost one.  Everything that is not expected ends the reading with the line of the token.

A member of an object replaces an earlier member of the same key and keeps its place.
-/

namespace Deparse.Json

/-! ### Faults -/

/-- What is wrong in a place of a document. -/
inductive Problem where
  | expectingValue
  | expectingName
  | expectingColon
  | expectingComma
  | extraData
  | byteOrderMark
  | badText (f : TextFault)
deriving DecidableEq

/-- The wording of a problem, without its place. -/
def Problem.message : Problem → Text
  | expectingValue => "Expecting value"
  | expectingName => "Expecting property name enclosed in double quotes"
  | expectingColon => "Expecting ':' delimiter"
  | expectingComma => "Expecting ',' delimiter"
  | extraData => "Extra data"
  | byteOrderMark => "Unexpected UTF-8 BOM (decode using utf-8-sig)"
  | badText .unterminated => "Unterminated string starting at"
  | badText .controlCharacter => "Invalid control character at"
  | badText .unknownEscape => "Invalid \\escape"
  | badText .badUnitEscape => "Invalid \\uXXXX escape"

/-- Why a document has no value. -/
inductive ReadFault where
  /-- It is not of the grammar; the problem is on the given line. -/
  | malformed (p : Problem) (line : Nat)
  /-- It holds an integer with more digits than may be evaluated. -/
  | longInteger
deriving DecidableEq

/-! ### The state of the reader -/

/-- An open array or object that waits for a value. -/
inductive Frame where
  /-- An array and its items so far, the last one first. -/
  | array (items : List Value)
  /-- An object, its members so far, and the key that the value is for. -/
  | object (members : List (Text × Value)) (key : Text)

/-- What is expected next, and the arrays and objects that are open, the innermost first. -/
inductive State where
  | value (around : List Frame)
  /-- The first item of an array, or its end. -/
  | firstItem (around : List Frame)
  | afterItem (items : List Value) (around : List Frame)
  /-- The first key of an object, or its end. -/
  | firstKey (around : List Frame)
  | key (members : List (Text × Value)) (around : List Frame)
  | colon (members : List (Text × Value)) (key : Text) (around : List Frame)
  | afterMember (members : List (Text × Value)) (around : List Frame)
  /-- The end of the document, of which the value is known. -/
  | complete (v : Value)

namespace State

/-- The state after a value was finished. -/
def supply (v : Value) : List Frame → State
  | [] => complete v
  | .array items :: around => afterItem (v :: items) around
  | .object members k :: around => afterMember (Value.bind k v members) around

/-- The state after a token where a value is expected. -/
def startValue (around : List Frame) (t : Token) : Except ReadFault State :=
  match t.lexeme with
  | .openArray => .ok (firstItem around)
  | .openObject => .ok (firstKey around)
  | .text s => .ok (supply (.str s) around)
  | .scalar v => .ok (supply v around)
  | .longInteger => .error .longInteger
  | .unreadable f => .error (.malformed (.badText f) t.line)
  | _ => .error (.malformed .expectingValue t.line)

/-- The state after a token where a key is expected. -/
def startMember (members : List (Text × Value)) (around : List Frame) (t : Token) :
    Except ReadFault State :=
  match t.lexeme with
  | .text s => .ok (colon members s around)
  | .unreadable f => .error (.malformed (.badText f) t.line)
  | _ => .error (.malformed .expectingName t.line)

/-- The state after a token. -/
def step (s : State) (t : Token) : Except ReadFault State :=
  match s with
  | value around => startValue around t
  | firstItem around =>
    if t.lexeme = .closeArray then .ok (supply (.array []) around)
    else startValue (.array [] :: around) t
  | afterItem items around =>
    match t.lexeme with
    | .comma => .ok (value (.array items :: around))
    | .closeArray => .ok (supply (.array items.reverse) around)
    | _ => .error (.malformed .expectingComma t.line)
  | firstKey around =>
    if t.lexeme = .closeObject then .ok (supply (.object []) around) else startMember [] around t
  | key members around => startMember members around t
  | colon members k around =>
    match t.lexeme with
    | .colon => .ok (value (.object members k :: around))
    | _ => .error (.malformed .expectingColon t.line)
  | afterMember members around =>
    match t.lexeme with
    | .comma => .ok (key members around)
    | .closeObject => .ok (supply (.object members) around)
    | _ => .error (.malformed .expectingComma t.line)
  | complete v =>
    match t.lexeme with
    | .finish => .ok (complete v)
    | _ => .error (.malformed .extraData t.line)

/-- The state after all of the tokens, or the fault at the first one that is not expected. -/
def run (s : State) : List Token → Except ReadFault State
  | [] => .ok s
  | t :: ts => (step s t).bind fun s => run s ts

end State

/-! ### Documents -/

/-- The value of a document.  A document may not start with a byte order mark. -/
def read (t : Text) : Except ReadFault Value :=
  if t.head? = some (.scalar '\ufeff') then .error (.malformed .byteOrderMark 1)
  else
    match State.run (.value []) (tokens 1 t) with
    | .ok (.complete v) => .ok v
    | .ok _ => .error (.malformed .expectingValue 1)
    | .error f => .error f

end Deparse.Json
