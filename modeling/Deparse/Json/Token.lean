import Deparse.Value.Equality

/-!
# Tokens of a JSON document

`tokens` cuts a document into tokens, each with the line it starts on.  A text is decoded on the
way and a number evaluated, so that a token is a bracket, a separator, a text or a finished scalar.
What cannot be read is a token as well, the last one then: whether it is an error of its own or
merely not what was expected in its place is for the reader to say.  The last token of any other
document is `finish`.

A text holds no line end, so only the blanks between tokens are searched for them.

What comes after a token is an end of what comes after its first character (`lexeme_suffix`), so
that cutting a document into tokens ends.
-/

namespace Deparse.Json

/-! ### Quoted texts -/

/-- Why a quoted text cannot be read. -/
inductive TextFault where
  | unterminated
  /-- It holds a character below `U+0020`. -/
  | controlCharacter
  /-- A backslash is followed by a letter that names no escape. -/
  | unknownEscape
  /-- `\u` is not followed by four hexadecimal digits and something more. -/
  | badUnitEscape
deriving DecidableEq

/-- The code points with an escape of one letter, by that letter. -/
def namedEscape? : CodePoint → Option CodePoint
  | .scalar '"' => some '"'
  | .scalar '\\' => some '\\'
  | .scalar '/' => some '/'
  | .scalar 'b' => some '\x08'
  | .scalar 'f' => some '\x0c'
  | .scalar 'n' => some '\n'
  | .scalar 'r' => some '\r'
  | .scalar 't' => some '\t'
  | _ => none

/-- The number of sixteen bits that four hexadecimal digits spell. -/
def unit? (a b c d : CodePoint) : Option Nat := do
  let a ← Numeral.hexDigit? a
  let b ← Numeral.hexDigit? b
  let c ← Numeral.hexDigit? c
  let d ← Numeral.hexDigit? d
  return Numeral.ofDigits 16 [a, b, c, d]

/-- The code points of a quoted text up to its closing quote, each with the mark whether it was
written as a `\u` escape, and the document after the quote. -/
def unquote : Text → Except TextFault (List (CodePoint × Bool) × Text)
  | [] => .error .unterminated
  | .scalar '"' :: t => .ok ([], t)
  | [.scalar '\\'] => .error .unterminated
  | .scalar '\\' :: .scalar 'u' :: a :: b :: c :: d :: e :: t =>
    match unit? a b c d with
    | none => .error .badUnitEscape
    | some n => (unquote (e :: t)).map fun (cs, rest) => ((.ofUnit n, true) :: cs, rest)
  | .scalar '\\' :: .scalar 'u' :: _ => .error .badUnitEscape
  | .scalar '\\' :: e :: t =>
    match namedEscape? e with
    | none => .error .unknownEscape
    | some c => (unquote t).map fun (cs, rest) => ((c, false) :: cs, rest)
  | c :: t =>
    if c.value < 0x20 then .error .controlCharacter
    else (unquote t).map fun (cs, rest) => ((c, false) :: cs, rest)

/-- The text of marked code points: two escapes in a row that form a surrogate pair are one code
point. -/
def paired : List (CodePoint × Bool) → Text
  | (high, true) :: (low, true) :: cs =>
    match CodePoint.ofPair? high low with
    | some c => c :: paired cs
    | none => high :: paired ((low, true) :: cs)
  | (c, _) :: cs => c :: paired cs
  | [] => []

/-- What comes after a quoted text is an end of the document.  Each step of reading takes away what
stands in front. -/
theorem unquote_suffix {t rest : Text} {cs : List (CodePoint × Bool)}
    (h : unquote t = .ok (cs, rest)) : rest <:+ t := by
  -- a code point is put in front of what is read after it, and nothing is done to what is left
  have step {u : Text} {p : CodePoint × Bool} (ih : ∀ cs rest, unquote u = .ok (cs, rest) →
      rest <:+ u) {cs rest}
      (h : (unquote u).map (fun (q : List (CodePoint × Bool) × Text) => (p :: q.1, q.2))
        = .ok (cs, rest)) : rest <:+ u := by
    rcases left : unquote u with f | ⟨ds, u'⟩
    · rw [left] at h
      cases h
    · rw [left] at h
      cases h
      exact ih _ _ left
  fun_induction unquote t generalizing cs rest with
  | case1 | case3 | case4 | case6 | case7 | case9 => cases h
  | case2 t =>
    cases h
    exact List.suffix_cons _ _
  | case5 a b c d e t n unit ih =>
    have inner : rest <:+ e :: t := step (fun cs rest => ih) h
    exact inner.trans ⟨[.scalar '\\', .scalar 'u', a, b, c, d], rfl⟩
  | case8 e t _ _ c _ ih =>
    have inner : rest <:+ t := step (fun cs rest => ih) h
    exact inner.trans ⟨[.scalar '\\', e], rfl⟩
  | case10 =>
    rename_i ih
    exact (step (fun cs rest => ih) h).trans (List.suffix_cons _ _)

/-! ### Numbers -/

/-- The integer part that a text starts with: a zero, or digits that do not start with one. -/
def integerPart? (t : Text) : Option (List Nat × Text) :=
  match (Numeral.spanDecimal t).1 with
  | [] => none
  | 0 :: _ => some ([0], t.tail)
  | ds => some (ds, (Numeral.spanDecimal t).2)

/-- The digits of the fraction that a text starts with; a point that no digit follows is none. -/
def fractionPart (t : Text) : List Nat × Text :=
  match t with
  | .scalar '.' :: u =>
    match Numeral.spanDecimal u with
    | ([], _) => ([], t)
    | p => p
  | _ => ([], t)

/-- A sign, and whether it is a minus. -/
def sign : Text → Bool × Text
  | .scalar '-' :: t => (true, t)
  | .scalar '+' :: t => (false, t)
  | t => (false, t)

/-- The power of ten that a text starts with; a mark that no digit follows is none. -/
def powerPart (t : Text) : Option Int × Text :=
  match t with
  | [] => (none, [])
  | c :: u =>
    if c = 'e' ∨ c = 'E' then
      let (negative, v) := sign u
      match Numeral.spanDecimal v with
      | ([], _) => (none, t)
      | (ds, rest) =>
        let n := Numeral.ofDigits 10 ds
        (some (if negative then -n else n), rest)
    else (none, t)

/-- The most digits an integer may have. -/
def integerDigits : Nat := 4300

/-! ### Tokens -/

/-- What a token is, whatever line it starts on. -/
inductive Lexeme where
  | openArray | closeArray
  | openObject | closeObject
  | comma | colon
  | text (t : Text)
  | scalar (v : Value)
  /-- An integer with more digits than may be evaluated. -/
  | longInteger
  /-- A quoted text that cannot be read. -/
  | unreadable (f : TextFault)
  | junk
  | finish
deriving DecidableEq

/-- A token and the line it starts on; lines are counted from one. -/
structure Token where
  lexeme : Lexeme
  line : Nat
deriving DecidableEq

/-- The number with the given parts.  Without fraction and power it is an integer. -/
def number (negative : Bool) (whole fraction : List Nat) (power : Option Int) : Lexeme :=
  if fraction.isEmpty && power.isNone then
    if integerDigits < whole.length then .longInteger
    else
      let n := Numeral.ofDigits 10 whole
      .scalar (.int (if negative then -n else n))
  else
    .scalar (.float (Binary64.ofDecimal negative (Numeral.ofDigits 10 (whole ++ fraction))
      (power.getD 0 - fraction.length)))

/-- The number that a text starts with, a sign before it apart. -/
def unsignedNumber? (negative : Bool) (t : Text) : Option (Lexeme × Text) :=
  match integerPart? t with
  | none => none
  | some (whole, u) =>
    let fraction := fractionPart u
    let power := powerPart fraction.2
    some (number negative whole fraction.1 power.1, power.2)

/-- The words of a document, with the scalars that they stand for. -/
def words : List (Text × Value) :=
  [("null", .nil), ("true", .bool true), ("false", .bool false), ("NaN", .float .nan),
    ("Infinity", .float (.infinite false)), ("-Infinity", .float (.infinite true))]

/-- The characters that are tokens by themselves. -/
def punctuation? : CodePoint → Option Lexeme
  | .scalar '[' => some .openArray
  | .scalar ']' => some .closeArray
  | .scalar '\x7b' => some .openObject
  | .scalar '\x7d' => some .closeObject
  | .scalar ',' => some .comma
  | .scalar ':' => some .colon
  | _ => none

/-- The characters that may stand between tokens. -/
def isBlank (c : CodePoint) : Bool :=
  c = ' ' || c = '\t' || c = '\n' || c = '\r'

/-- The token that a document starts with, given its first character and the rest, and what comes
after the token. -/
def lexeme (c : CodePoint) (t : Text) : Lexeme × Text :=
  match punctuation? c with
  | some l => (l, t)
  | none =>
    if c = '"' then
      match unquote t with
      | .ok (cs, rest) => (.text (paired cs), rest)
      | .error f => (.unreadable f, t)
    else
      match words.find? fun w => w.1.isPrefixOf (c :: t) with
      | some (w, v) => (.scalar v, t.drop (w.length - 1))
      | none =>
        (if c = '-' then unsignedNumber? true t else unsignedNumber? false (c :: t)).getD (.junk, t)

/-! ### What comes after a token -/

theorem integerPart?_suffix {t rest : Text} {ds : List Nat}
    (h : integerPart? t = some (ds, rest)) : rest <:+ t.tail := by
  unfold integerPart? at h
  split at h
  · cases h
  · cases h
    exact List.suffix_rfl
  · rename_i present _
    cases h
    exact Numeral.spanDecimal_suffix_tail present

theorem fractionPart_suffix (t : Text) : (fractionPart t).2 <:+ t := by
  unfold fractionPart
  split
  · rename_i u
    split
    · exact List.suffix_rfl
    · exact (Numeral.spanDecimal_suffix u).trans (List.suffix_cons _ u)
  · exact List.suffix_rfl

theorem sign_suffix (t : Text) : (sign t).2 <:+ t := by
  unfold sign
  split
  · exact List.suffix_cons _ _
  · exact List.suffix_cons _ _
  · exact List.suffix_rfl

theorem powerPart_suffix (t : Text) : (powerPart t).2 <:+ t := by
  unfold powerPart
  split
  · exact List.suffix_rfl
  · rename_i c u
    split
    · simp only
      split
      · exact List.suffix_rfl
      · rename_i span
        have digits := Numeral.spanDecimal_suffix (sign u).2
        rw [span] at digits
        exact (digits.trans (sign_suffix u)).trans (List.suffix_cons c u)
    · exact List.suffix_rfl

/-- A number has a digit in front at least. -/
theorem unsignedNumber?_suffix {negative : Bool} {t rest : Text} {l : Lexeme}
    (h : unsignedNumber? negative t = some (l, rest)) : rest <:+ t.tail := by
  unfold unsignedNumber? at h
  split at h
  · cases h
  · rename_i whole u part
    cases h
    exact ((powerPart_suffix _).trans (fractionPart_suffix u)).trans (integerPart?_suffix part)

/-- A token takes its first character at least, and what comes after it is an end of the rest. -/
theorem lexeme_suffix (c : CodePoint) (t : Text) : (lexeme c t).2 <:+ t := by
  have number {negative : Bool} {u : Text} (whole : u.tail <:+ t) :
      ((unsignedNumber? negative u).getD (.junk, t)).2 <:+ t := by
    rcases numeral : unsignedNumber? negative u with _ | ⟨l, v⟩
    · exact List.suffix_rfl
    · exact (unsignedNumber?_suffix numeral).trans whole
  unfold lexeme
  split
  · exact List.suffix_rfl
  · split
    · split
      · rename_i left
        exact unquote_suffix left
      · exact List.suffix_rfl
    · split
      · exact List.drop_suffix _ t
      · split
        · exact number (List.tail_suffix t)
        · exact number List.suffix_rfl

/-! ### All tokens -/

/-- Whether nothing after a token is looked at. -/
def Lexeme.isLast : Lexeme → Bool
  | unreadable _ | junk | finish => true
  | _ => false

/-- The tokens of a document that starts on the given line. -/
def tokens (line : Nat) : Text → List Token
  | [] => [⟨.finish, line⟩]
  | c :: t =>
    if isBlank c then tokens (if c = '\n' then line + 1 else line) t
    else if (lexeme c t).1.isLast then [⟨(lexeme c t).1, line⟩]
    else ⟨(lexeme c t).1, line⟩ :: tokens line (lexeme c t).2
termination_by t => t.length
decreasing_by
  · simp
  · exact Nat.lt_succ_of_le (lexeme_suffix c t).length_le

end Deparse.Json
