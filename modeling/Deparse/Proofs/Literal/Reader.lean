import Deparse.Literal.Quoted

/-!
# Reading double-quoted literals

`readLiteral` reads a double-quoted literal from the left, up to the quote that closes it.  It reads
*marks*: a mark is a code point or an interpolation as a whole, so that a literal can be read whose
interpolations are known beforehand and are passed over as units.  What it finds are marks again,
the code points that the literal spells and the interpolations between them.

An unescaped `#` in front of a character that opens an interpolation is a *stray* opener, since no
interpolation was announced there, and a literal that holds one is not read.  `readQuoted` reads a
text without announced interpolations.

The reader takes its steps as `readBody_quote`, `readBody_splice`, `readBody_escape`,
`readBody_stray` and `readBody_point` say; nothing else unfolds it.
-/

namespace Deparse.Literal

/-! ### Marks -/

/-- What stands in a literal, or in what a literal spells: a code point, or an interpolation with
all its text. -/
inductive Mark where
  | point (c : CodePoint)
  | splice (t : Text)
deriving DecidableEq

/-- The text that a mark stands for. -/
def Mark.text : Mark → Text
  | point c => [c]
  | splice t => t

/-- The text that marks stand for one after the other. -/
def spelling (ms : List Mark) : Text :=
  ms.flatMap Mark.text

/-- The marks of a text without interpolations. -/
def marks (t : Text) : List Mark :=
  t.map .point

@[simp] theorem marks_nil : marks [] = [] := rfl

@[simp] theorem marks_cons (c : CodePoint) (t : Text) : marks (c :: t) = .point c :: marks t := rfl

@[simp] theorem marks_append (t u : Text) : marks (t ++ u) = marks t ++ marks u :=
  List.map_append

@[simp] theorem spelling_nil : spelling [] = [] := rfl

@[simp] theorem spelling_append (ms ns : List Mark) :
    spelling (ms ++ ns) = spelling ms ++ spelling ns :=
  List.flatMap_append

@[simp] theorem spelling_cons (m : Mark) (ms : List Mark) :
    spelling (m :: ms) = m.text ++ spelling ms :=
  List.flatMap_cons

/-- The marks of a text spell the text. -/
@[simp] theorem spelling_marks (t : Text) : spelling (marks t) = t := by
  induction t with
  | nil => rfl
  | cons c t ih => rw [marks_cons, spelling_cons, ih, Mark.text, List.singleton_append]

/-! ### Escapes -/

/-- The character that one character after a backslash stands for. -/
def letter? : CodePoint → Option CodePoint
  | .scalar '\\' => some '\\'
  | .scalar '"' => some '"'
  | .scalar 'n' => some '\n'
  | .scalar 't' => some '\t'
  | .scalar 'r' => some '\r'
  | .scalar 'f' => some '\x0c'
  | .scalar 'v' => some '\x0b'
  | .scalar 'a' => some '\x07'
  | .scalar 'b' => some '\x08'
  | .scalar 'e' => some '\x1b'
  | .scalar '#' => some '#'
  | _ => none

/-- The code point of a number, if the number belongs to one. -/
def codePoint? (n : Nat) : Option CodePoint :=
  if n ≤ 0xFFFF then some (.ofUnit n)
  else if n ≤ 0x10FFFF then some (.scalar (Char.ofNat n))
  else none

/-- The number spelled by the `k` hexadecimal digits that come next, after digits that spell
`n`. -/
def readDigits : Nat → Nat → List Mark → Option (Nat × List Mark)
  | 0, n, ms => some (n, ms)
  | k + 1, n, .point c :: ms =>
    match Numeral.hexDigit? c with
    | some d => readDigits k (16 * n + d) ms
    | none => none
  | _ + 1, _, _ => none

/-- The number spelled by the hexadecimal digits up to a closing brace, after digits that spell
`n`. -/
def readBraced (n : Nat) : List Mark → Option (Nat × List Mark)
  | .point c :: ms =>
    if c = '\x7d' then some (n, ms)
    else
      match Numeral.hexDigit? c with
      | some d => readBraced (16 * n + d) ms
      | none => none
  | _ => none

/-- The code point of the number that was read. -/
def numbered (read : Option (Nat × List Mark)) : Option (CodePoint × List Mark) :=
  read.bind fun (n, ms) => (codePoint? n).map fun c => (c, ms)

/-- The code point that an escape stands for, the backslash already read: two digits after `x`,
four after `u` or any number of them in braces, or one of the characters that `letter?` knows. -/
def readEscape : List Mark → Option (CodePoint × List Mark)
  | .point (.scalar 'x') :: ms => numbered (readDigits 2 0 ms)
  | .point (.scalar 'u') :: .point (.scalar '\x7b') :: ms =>
    numbered ((readDigits 1 0 ms).bind fun (n, ms) => readBraced n ms)
  | .point (.scalar 'u') :: ms => numbered (readDigits 4 0 ms)
  | .point c :: ms => (letter? c).map fun d => (d, ms)
  | _ => none

/-! Every part of an escape leaves less to read. -/

theorem length_of_readDigits {k n m : Nat} {ms rest : List Mark}
    (h : readDigits k n ms = some (m, rest)) : rest.length ≤ ms.length := by
  fun_induction readDigits k n ms with
  | case1 n ms => simp_all
  | case2 n k c ms d _ ih =>
    have := ih h
    simp only [List.length_cons]
    omega
  | case3 => cases h
  | case4 => cases h

theorem length_of_readBraced {n m : Nat} {ms rest : List Mark}
    (h : readBraced n ms = some (m, rest)) : rest.length ≤ ms.length := by
  fun_induction readBraced n ms with
  | case1 n ms => simp_all
  | case2 n c ms _ d _ ih =>
    have := ih h
    simp only [List.length_cons]
    omega
  | case3 => cases h
  | case4 => cases h

theorem length_of_numbered {read : Option (Nat × List Mark)} {c : CodePoint} {rest : List Mark}
    (h : numbered read = some (c, rest)) : ∃ n, read = some (n, rest) := by
  obtain ⟨⟨n, ms⟩, hread, hc⟩ := Option.bind_eq_some_iff.1 h
  obtain ⟨d, -, hd⟩ := Option.map_eq_some_iff.1 hc
  cases hd
  exact ⟨n, hread⟩

/-- Reading an escape leaves less than it started with. -/
theorem length_of_readEscape {ms rest : List Mark} {c : CodePoint}
    (h : readEscape ms = some (c, rest)) : rest.length < ms.length := by
  unfold readEscape at h
  split at h
  · obtain ⟨n, hn⟩ := length_of_numbered h
    exact Nat.lt_succ_of_le (length_of_readDigits hn)
  · obtain ⟨n, hn⟩ := length_of_numbered h
    obtain ⟨⟨m, tail⟩, hm, hrest⟩ := Option.bind_eq_some_iff.1 hn
    have first := length_of_readDigits hm
    have braced := length_of_readBraced hrest
    simp only [List.length_cons]
    omega
  · obtain ⟨n, hn⟩ := length_of_numbered h
    exact Nat.lt_succ_of_le (length_of_readDigits hn)
  · obtain ⟨d, -, hd⟩ := Option.map_eq_some_iff.1 h
    cases hd
    exact Nat.lt_succ_self _
  · cases h

/-! ### Bodies -/

/-- Whether the next mark is a character that opens an interpolation after a `#`. -/
def opens : List Mark → Bool
  | .point c :: _ => spliceOpeners.contains c
  | _ => false

/-- What was read, with marks found before it. -/
def prepend (found : List Mark) (read : Option (List Mark × List Mark)) :
    Option (List Mark × List Mark) :=
  read.map fun (more, rest) => (found ++ more, rest)

/-- The marks that the body of a literal spells, and the marks after the closing quote. -/
def readBody : List Mark → Option (List Mark × List Mark)
  | [] => none
  | .splice t :: ms => prepend [.splice t] (readBody ms)
  | .point c :: ms =>
    if c = '"' then some ([], ms)
    else if c = '\\' then
      match _h : readEscape ms with
      | none => none
      | some (d, rest) => prepend [.point d] (readBody rest)
    -- an interpolation that was not announced
    else if c = '#' ∧ opens ms then none
    else prepend [.point c] (readBody ms)
termination_by ms => ms.length
decreasing_by
  · simp
  · exact Nat.lt_succ_of_lt (length_of_readEscape _h)
  · simp

/-- The marks that a literal spells, and the marks after it. -/
def readLiteral : List Mark → Option (List Mark × List Mark)
  | .point c :: ms => if c = '"' then readBody ms else none
  | _ => none

/-- The text that the literal at the start of a text spells, and the text after the literal; the
text is read as one without interpolations. -/
def readQuoted (t : Text) : Option (Text × Text) :=
  (readLiteral (marks t)).map fun (found, rest) => (spelling found, spelling rest)

/-! The steps of the reader. -/

@[simp] theorem prepend_nil (read : Option (List Mark × List Mark)) : prepend [] read = read := by
  cases read <;> rfl

@[simp] theorem prepend_none (found : List Mark) : prepend found none = none := rfl

@[simp] theorem prepend_some (found more rest : List Mark) :
    prepend found (some (more, rest)) = some (found ++ more, rest) := rfl

@[simp] theorem prepend_prepend (a b : List Mark) (read : Option (List Mark × List Mark)) :
    prepend a (prepend b read) = prepend (a ++ b) read := by
  cases read <;> simp [prepend]

theorem readBody_quote (ms : List Mark) : readBody (.point '"' :: ms) = some ([], ms) := by
  simp [readBody]

theorem readBody_splice (t : Text) (ms : List Mark) :
    readBody (.splice t :: ms) = prepend [.splice t] (readBody ms) := by
  rw [readBody]

theorem readBody_escape {ms rest : List Mark} {c : CodePoint}
    (h : readEscape ms = some (c, rest)) :
    readBody (.point '\\' :: ms) = prepend [.point c] (readBody rest) := by
  rw [readBody]
  simp only [CodePoint.scalar.injEq, Char.reduceEq, ↓reduceIte]
  split
  · simp_all
  · simp_all

theorem readBody_stray {ms : List Mark} (h : opens ms = true) :
    readBody (.point '#' :: ms) = none := by
  rw [readBody]
  simp [h]

theorem readBody_point {c : CodePoint} {ms : List Mark} (quote : c ≠ '"') (backslash : c ≠ '\\')
    (hash : c = '#' → opens ms = false) :
    readBody (.point c :: ms) = prepend [.point c] (readBody ms) := by
  have plain : ¬ (c = '#' ∧ opens ms = true) := by
    rintro ⟨hc, ho⟩
    simp [hash hc] at ho
  rw [readBody]
  simp [quote, backslash, plain]

end Deparse.Literal
