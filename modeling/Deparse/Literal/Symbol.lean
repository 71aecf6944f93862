import Deparse.Literal.Quoted

/-!
# Symbol literals

A symbol is written as a colon and its bare name where the name is an identifier, a method name
with one of the suffixes `?`, `!` and `=`, the name of an instance, class or global variable, or
an operator; every other name is quoted.  Letters and digits are those of ASCII.
-/

namespace Deparse.Literal

/-- The characters an identifier starts with. -/
def startsName : CodePoint → Bool
  | .scalar c => ('a' ≤ c && c ≤ 'z') || ('A' ≤ c && c ≤ 'Z') || c = '_'
  | .surrogate _ => false

/-- The characters an identifier goes on with. -/
def continuesName : CodePoint → Bool
  | .scalar c => startsName c || ('0' ≤ c && c ≤ '9')
  | .surrogate _ => false

/-- Whether a text is an identifier. -/
def isIdentifier : Text → Bool
  | [] => false
  | c :: t => startsName c && t.all continuesName

/-- The characters that may end the name of a method. -/
def methodSuffixes : Text :=
  "?!="

/-- Whether a text is an identifier, with or without the suffix of a method name. -/
def isMethodName (t : Text) : Bool :=
  isIdentifier t ||
    match t.getLast? with
    | some c => methodSuffixes.contains c && isIdentifier t.dropLast
    | none => false

/-- Whether a text is the name of an instance, class or global variable. -/
def isSigilName : Text → Bool
  | .scalar '@' :: .scalar '@' :: t => isIdentifier t
  | .scalar '@' :: t => isIdentifier t
  | .scalar '$' :: t => isIdentifier t
  | _ => false

/-- The operators that are written as symbols without quotes. -/
def operators : List Text :=
  ["[]", "[]=", "**", "<=>", "==", "===", "=~", "!=", "!~", "<=", ">=", "<<", ">>", "+@", "-@",
    "~", "~@", "!", "!@", "+", "-", "*", "/", "%", "<", ">", "^", "&", "|"].map Text.ofString

/-- Whether a name is written without quotes. -/
def isPlainSymbol (name : Text) : Bool :=
  isMethodName name || isSigilName name || operators.contains name

/-- The literal of the symbol with the given name. -/
def symbol (name : Text) : Text :=
  ":" ++ if isPlainSymbol name then name else quoted name

end Deparse.Literal
