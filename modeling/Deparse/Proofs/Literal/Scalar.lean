import Deparse.Literal.Scalar
import Deparse.Proofs.Literal.RoundTrip
import Deparse.Proofs.Literal.Symbol

/-!
# Literals of scalars read back

`readScalar` is a left inverse of `Value.literal` on the scalars that are no floats
(`readScalar_literal`), so that a literal tells of which kind its scalar is and which one it is.

Besides, the literal of a scalar can stand on a line among others: it holds printable characters
only, and it shows where it starts and ends, since a space comes neither first in it nor without a
closing quote after it (`inline_literal`).
-/

namespace Deparse

namespace Literal

/-! ### Reading -/

/-- The text that a literal spells, if nothing comes after the literal. -/
def unquoted? (t : Text) : Option Text :=
  match readLiteral (marks t) with
  | some (found, []) => some (spelling found)
  | _ => none

/-- The name that a symbol's literal spells after its colon. -/
def symbolName? : Text → Option Text
  | .scalar '"' :: t => unquoted? (.scalar '"' :: t)
  | t => some t

/-- The number that the digits of a text spell, if it has nothing but digits. -/
def natural? (t : Text) : Option Nat :=
  match Numeral.spanDecimal t with
  | (d :: ds, []) => some (Numeral.ofDigits 10 (d :: ds))
  | _ => none

/-- The integer that a text spells, with a minus sign if it is negative. -/
def integer? : Text → Option Int
  | .scalar '-' :: t => (natural? t).map fun n => -(n : Int)
  | t => (natural? t).map fun n => (n : Int)

/-- The scalars that are words. -/
def word? (t : Text) : Option Value :=
  if t = "nil" then some .nil
  else if t = "true" then some (.bool true)
  else if t = "false" then some (.bool false)
  else none

/-- The scalar that a text is the literal of, floats apart. -/
def readScalar (t : Text) : Option Value :=
  match integer? t with
  | some n => some (.int n)
  | none =>
    -- no numeral starts with a colon or a quote, and no word is one
    match t with
    | .scalar ':' :: u => (symbolName? u).map .sym
    | .scalar '"' :: u => (unquoted? (.scalar '"' :: u)).map .str
    | u => word? u

/-! ### Reading back -/

theorem unquoted?_quoted (t : Text) : unquoted? (quoted t) = some t := by
  have opening : marks (quoted t) = .point '"' :: (marks (escape t) ++ [.point '"']) := by
    rw [quoted, marks_append, marks_append]
    rfl
  have body : readBody (marks (escape t) ++ [.point '"']) = some (marks t, []) := by
    have closing : opens [.point '"'] = false := rfl
    rw [readBody_marks_escape, readBody_quote]
    simp [closing]
  simp [unquoted?, opening, readLiteral, body]

/-- A name that is written without quotes does not start with one. -/
theorem head?_ne_quote_of_isPlainSymbol {name : Text} (h : isPlainSymbol name = true) :
    name.head? ≠ some (.scalar '"') := by
  have noQuote : ∀ c ∈ name, c ≠ .scalar '"' := by
    refine forall_of_isPlainSymbol ?_ (by decide) (by decide) (by decide) h
    rintro c continues rfl
    cases continues
  intro first
  exact noQuote _ (List.mem_of_head? first) rfl

theorem symbolName?_of_head? {t : Text} (h : t.head? ≠ some (.scalar '"')) :
    symbolName? t = some t := by
  unfold symbolName?
  split
  · exact absurd rfl h
  · rfl

/-- A symbol is told by its colon, and its name by the quote behind it. -/
theorem readScalar_symbol (name : Text) : readScalar (symbol name) = some (.sym name) := by
  have reading (t : Text) : readScalar (":" ++ t) = (symbolName? t).map .sym := rfl
  -- a name without quotes around it does not start with one
  have read : symbolName? (if isPlainSymbol name then name else quoted name) = some name := by
    split
    · rename_i plain
      exact symbolName?_of_head? (head?_ne_quote_of_isPlainSymbol plain)
    · exact unquoted?_quoted name
  rw [symbol, reading, read]
  rfl

theorem readScalar_quoted (t : Text) : readScalar (quoted t) = some (.str t) := by
  have reading : readScalar (quoted t) = (unquoted? (quoted t)).map .str := rfl
  rw [reading, unquoted?_quoted]
  rfl

/-- A numeral is read as its number. -/
theorem natural?_decimal (n : Nat) : natural? (Numeral.decimal n) = some n := by
  have noRest : ∀ c ∈ ([] : Text).head?, Numeral.decimalDigit? c = none := by simp
  have span := Numeral.spanDecimal_decimal n noRest
  rw [List.append_nil] at span
  obtain ⟨d, ds, digits⟩ := List.exists_cons_of_ne_nil (Numeral.digits_ne_nil 10 n)
  simp only [natural?, span, digits]
  rw [← digits, Numeral.ofDigits_digits (by omega)]

theorem integer?_decimalInt (n : Int) : integer? (Numeral.decimalInt n) = some n := by
  cases n with
  | ofNat n =>
    have natural := natural?_decimal n
    simp only [Numeral.decimalInt]
    unfold integer?
    split
    · -- no numeral starts with a minus sign
      rename_i minus
      rw [minus] at natural
      cases natural
    · rw [natural]
      rfl
  | negSucc n =>
    have reading (t : Text) :
        integer? (.scalar '-' :: t) = (natural? t).map fun n => -(n : Int) := rfl
    rw [Numeral.decimalInt, reading, natural?_decimal]
    rfl

/-- The literal of a scalar is read as the scalar. -/
theorem readScalar_literal {v : Value} {t : Text} (h : v.literal = .ok t)
    (notFloat : ∀ x, v ≠ .float x) : readScalar t = some v := by
  cases v with
  | nil =>
    cases h
    rfl
  | bool b => cases b <;> cases h <;> rfl
  | int n =>
    cases h
    simp only [readScalar, integer?_decimalInt]
  | float x => exact absurd rfl (notFloat x)
  | str u =>
    cases h
    exact readScalar_quoted u
  | sym name =>
    cases h
    exact readScalar_symbol name
  | bytes | seq | array | object | node => cases h

/-! ### Literals on a line -/

/-- Whether a character leaves a mark on paper: it is printable and no space. -/
def isInk (c : CodePoint) : Bool :=
  c.isPrintable && c ≠ ' '

/-- A text of printable characters that shows on a line where it starts and ends: no space is first
in it, and if there is a space in it, then its last character is a quote. -/
structure Inline (t : Text) : Prop where
  printable : ∀ c ∈ t, c.isPrintable = true
  head : t.head? ≠ some (.scalar ' ')
  last : .scalar ' ' ∈ t → t.getLast? = some (.scalar '"')

theorem inline_of_isInk {t : Text} (h : ∀ c ∈ t, isInk c = true) : Inline t := by
  have noSpace : .scalar ' ' ∉ t := fun space => absurd (h _ space) (by decide)
  exact ⟨fun c hc => (Bool.and_eq_true_iff.1 (h c hc)).1,
    fun first => noSpace (List.mem_of_head? first), fun space => absurd space noSpace⟩

theorem isPrintable_of_mem_quoted {t : Text} {c : CodePoint} (h : c ∈ quoted t) :
    c.isPrintable = true := by
  have quote : ∀ c ∈ ("\"" : Text), c.isPrintable = true := by decide
  rcases List.mem_append.1 h with h | h
  · exact (List.mem_append.1 h).elim (quote c) isPrintable_of_mem_escape
  · exact quote c h

/-- A quoted text shows where it ends, whatever stands before it. -/
theorem inline_append_quoted {t : Text} (h : ∀ c ∈ t, isInk c = true) (u : Text) :
    Inline (t ++ quoted u) := by
  refine ⟨fun c hc => ?_, ?_, fun _ => ?_⟩
  · exact (List.mem_append.1 hc).elim ((inline_of_isInk h).printable c) isPrintable_of_mem_quoted
  · cases t with
    | nil => simp [quoted, Text.ofString]
    | cons c t =>
      intro first
      exact absurd (h _ (List.mem_of_mem_head? first)) (by decide)
  · rw [quoted, ← List.append_assoc]
    exact List.getLast?_concat ..

theorem isInk_of_continuesName {c : CodePoint} (h : continuesName c = true) : isInk c = true := by
  cases c with
  | surrogate => cases h
  | scalar c =>
    -- the characters of identifiers lie between the digit zero and the letter z
    have range : '0'.toNat ≤ c.toNat ∧ c.toNat ≤ 'z'.toNat := by
      simp only [continuesName, startsName, Bool.or_eq_true, Bool.and_eq_true,
        decide_eq_true_eq] at h
      rcases h with ((⟨low, high⟩ | ⟨low, high⟩) | rfl) | ⟨low, high⟩
      · exact ⟨Nat.le_trans (by decide) low, high⟩
      · exact ⟨Nat.le_trans (by decide) low, Nat.le_trans high (by decide)⟩
      · decide
      · exact ⟨low, Nat.le_trans high (by decide)⟩
    have low : 0x30 ≤ c.toNat := range.1
    have high : c.toNat ≤ 0x7A := range.2
    have printable : (CodePoint.scalar c).isPrintable = true := by
      apply CodePoint.isPrintable_of_ascii <;> simp only [CodePoint.value] <;> omega
    have noSpace : c ≠ ' ' := by
      rintro rfl
      exact absurd low (by decide)
    simp [isInk, printable, noSpace]

/-- A symbol shows where it ends, with its name quoted or not. -/
theorem inline_symbol (name : Text) : Inline (symbol name) := by
  have colon : ∀ c ∈ (":" : Text), isInk c = true := by decide
  unfold symbol
  split
  · rename_i plain
    have ink : ∀ c ∈ name, isInk c = true :=
      forall_of_isPlainSymbol (fun _ => isInk_of_continuesName) (by decide) (by decide) (by decide)
        plain
    exact inline_of_isInk fun c hc => (List.mem_append.1 hc).elim (colon c) (ink c)
  · exact inline_append_quoted colon name

theorem isInk_lowerDigit : ∀ d < 10, isInk (Numeral.lowerDigit d) = true := by
  decide

theorem isInk_of_mem_decimalInt {n : Int} {c : CodePoint} (h : c ∈ Numeral.decimalInt n) :
    isInk c = true := by
  have minus : isInk '-' = true := by decide
  exact Numeral.forall_mem_decimalInt (P := fun c => isInk c = true) isInk_lowerDigit minus n c h

/-- The literal of a scalar can stand on a line among others. -/
theorem inline_literal {v : Value} {t : Text} (h : v.literal = .ok t)
    (notFloat : ∀ x, v ≠ .float x) : Inline t := by
  cases v with
  | nil =>
    cases h
    exact inline_of_isInk (by decide)
  | bool b => cases b <;> cases h <;> exact inline_of_isInk (by decide)
  | int n =>
    cases h
    exact inline_of_isInk fun _ => isInk_of_mem_decimalInt
  | float x => exact absurd rfl (notFloat x)
  | str u =>
    cases h
    exact inline_append_quoted (t := []) (by simp) u
  | sym name =>
    cases h
    exact inline_symbol name
  | bytes | seq | array | object | node => cases h

end Literal

end Deparse
