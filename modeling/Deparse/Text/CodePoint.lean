/-!
# Texts of code points

A text is a list of Unicode code points, the surrogates included.  Surrogates belong to no
encoded text, but an escape such as `\ud800` in a document names one, and everything that is
computed from the document has to carry it along until the text is encoded.  `String` cannot do
so, hence `Text`.  `Text.ofString` embeds the strings, and `Text.toString?` is its partial
inverse (`toString?_ofString`).
-/

namespace Deparse

/-- A Unicode code point: a scalar value, or one of the 2048 surrogates `U+D800 … U+DFFF`. -/
inductive CodePoint where
  /-- A scalar value, that is, a character. -/
  | scalar (c : Char)
  /-- The surrogate `U+D800 + n`. -/
  | surrogate (n : Fin 2048)
deriving DecidableEq, Inhabited

/-- A sequence of code points. -/
abbrev Text := List CodePoint

namespace CodePoint

/-- A character is a code point. -/
instance : Coe Char CodePoint := ⟨scalar⟩

/-- The number of a code point. -/
def value : CodePoint → Nat
  | scalar c => c.toNat
  | surrogate n => 0xD800 + n

/-- The code point of a number of at most 16 bits; every such number is a code point. -/
def ofUnit (n : Nat) : CodePoint :=
  if h : 0xD800 ≤ n ∧ n < 0xE000 then surrogate ⟨n - 0xD800, by omega⟩ else scalar (Char.ofNat n)

/-- The code point that a high surrogate and the low surrogate after it encode together, and
nothing if the two do not form such a pair. -/
def ofPair? : CodePoint → CodePoint → Option CodePoint
  | surrogate high, surrogate low =>
    if high < 1024 ∧ 1024 ≤ low then
      some (scalar (Char.ofNat (0x10000 + high * 1024 + (low - 1024))))
    else none
  | _, _ => none

end CodePoint

namespace Text

/-- The code points of a string, none of which is a surrogate. -/
def ofString (s : String) : Text :=
  s.toList.map .scalar

/-- A string is a text. -/
instance : Coe String Text := ⟨ofString⟩

/-- The character that a code point is, if it is one. -/
def scalar? : CodePoint → Option Char
  | .scalar c => some c
  | .surrogate _ => none

/-- The string with the code points of `t`, if none of them is a surrogate. -/
def toString? (t : Text) : Option String :=
  (t.mapM scalar?).map String.ofList

/-- `t` once for each of `n`. -/
def repeated (n : Nat) (t : Text) : Text :=
  (List.replicate n t).flatten

/-- The texts of `ts` in order, with `separator` between neighbours. -/
def joined (separator : Text) (ts : List Text) : Text :=
  List.intercalate separator ts

@[simp] theorem ofString_empty : ofString "" = [] := rfl

theorem mapM_scalar? (cs : List Char) :
    (cs.map CodePoint.scalar).mapM scalar? = some cs := by
  induction cs with
  | nil => rfl
  | cons c cs ih => simp [List.mapM_cons, scalar?, ih]

/-- Embedding a string loses nothing. -/
theorem toString?_ofString (s : String) : (ofString s).toString? = some s := by
  rw [toString?, ofString, mapM_scalar?]
  simp

end Text

end Deparse
