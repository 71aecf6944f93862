import Deparse.Literal.Scalar
import Deparse.Proofs.Literal.RoundTrip
import Deparse.Proofs.Literal.Symbol
import Deparse.Proofs.Text.Basic

/-!
# Brackets and quotes

`Brackets.read` goes through a text of Ruby and keeps the brackets that are open.  It knows two
modes.  In code a bracket is opened or closes the last one, and a double quote begins a string; in a
string a backslash passes over the next character, a double quote ends the string, and `#{` opens an
interpolation, which is code up to the brace that closes it.

A text *leads* from one state to another if reading it does, whatever comes after it (`Leads`).
Names without brackets, and the literals of scalars, lead back to where they start from
(`leads_of_isTame`, `leads_literal`), and so does an escaped text in a string, unless it ends with a
`#` that a brace follows (`read_escape`).
-/

namespace Deparse

namespace Brackets

/-! ### Reading -/

/-- What is open. -/
inductive Opener where
  | paren | bracket | brace
  /-- The brace of an interpolation. -/
  | splice
deriving DecidableEq

/-- What is being read: code, or the body of a string. -/
inductive Mode where
  | code | string
deriving DecidableEq

/-- How something is opened.  The brace of an interpolation has a `#` in front of it. -/
def Opener.opening : Opener → Text
  | .paren => "("
  | .bracket => "["
  | .brace => "\x7b"
  | .splice => "#\x7b"

/-- How something is closed. -/
def Opener.closing : Opener → Text
  | .paren => ")"
  | .bracket => "]"
  | .brace | .splice => "\x7d"

/-- What is read around it: an interpolation stands in a string, and all else in code. -/
def Opener.outside : Opener → Mode
  | .splice => .string
  | _ => .code

/-- What is being read, and what is open around it, the innermost first. -/
abbrev State := Mode × List Opener

/-- The state after a character of code, and nothing if it closes what is not open. -/
def codeStep (s : List Opener) (c : CodePoint) : Option State :=
  if c = '(' then some (.code, .paren :: s)
  else if c = '[' then some (.code, .bracket :: s)
  else if c = '\x7b' then some (.code, .brace :: s)
  else if c = '"' then some (.string, s)
  else if c = ')' then
    match s with
    | .paren :: s => some (.code, s)
    | _ => none
  else if c = ']' then
    match s with
    | .bracket :: s => some (.code, s)
    | _ => none
  else if c = '\x7d' then
    match s with
    | .brace :: s => some (.code, s)
    | .splice :: s => some (.string, s)
    | _ => none
  else some (.code, s)

/-- The state after a text, and nothing if something is closed in it that is not open. -/
def read : State → Text → Option State
  | a, [] => some a
  | (.code, s), c :: t => (codeStep s c).bind fun a => read a t
  | (.string, s), [c] => some (if c = '"' then .code else .string, s)
  | (.string, s), c :: d :: t =>
    if c = '\\' then read (.string, s) t
    else if c = '#' ∧ d = '\x7b' then read (.code, .splice :: s) t
    else read (if c = '"' then .code else .string, s) (d :: t)

theorem read_nil (a : State) : read a [] = some a := by
  obtain ⟨m, s⟩ := a
  cases m <;> rfl

/-! In a string. -/

variable {s : List Opener} {c : CodePoint} {t : Text}

theorem read_quote (s : List Opener) (t : Text) :
    read (.string, s) (.scalar '"' :: t) = read (.code, s) t := by
  cases t <;> rfl

theorem read_point (backslash : c ≠ '\\') (quote : c ≠ '"')
    (hash : c = '#' → t.head? ≠ some (.scalar '\x7b')) :
    read (.string, s) (c :: t) = read (.string, s) t := by
  cases t with
  | nil => simp [read, quote]
  | cons d t =>
    have noOpener : ¬ (c = '#' ∧ d = '\x7b') := by
      rintro ⟨hc, rfl⟩
      exact hash hc rfl
    simp [read, backslash, quote, noOpener]

/-! ### Leading from one state to another -/

/-- Reading the text leads from the one state to the other, whatever comes after the text. -/
def Leads (a : State) (t : Text) (b : State) : Prop :=
  ∀ rest, read a (t ++ rest) = read b rest

theorem leads_nil (a : State) : Leads a [] a := fun _ => rfl

theorem Leads.append {a b c : State} {t u : Text} (ht : Leads a t b) (hu : Leads b u c) :
    Leads a (t ++ u) c := by
  intro rest
  rw [List.append_assoc, ht, hu]

/-- A text that leads to a state is read as far as this state. -/
theorem Leads.read_eq {a b : State} (h : Leads a t b) : read a t = some b := by
  have := h []
  rwa [List.append_nil, read_nil] at this

/-- What is inside of a bracket is code. -/
theorem leads_opening (o : Opener) (s : List Opener) :
    Leads (o.outside, s) o.opening (.code, o :: s) := by
  cases o <;> exact fun _ => rfl

/-- The end of a bracket leads to where the bracket stands. -/
theorem leads_closing (o : Opener) (s : List Opener) :
    Leads (.code, o :: s) o.closing (o.outside, s) := by
  cases o <;> exact fun _ => rfl

/-! ### Names -/

/-- The characters that open or close something. -/
def isBracket (c : CodePoint) : Bool :=
  ("()[]\x7b\x7d\"" : Text).contains c

/-- Whether a text holds no brackets and quotes. -/
def IsFlat (t : Text) : Prop :=
  ∀ c ∈ t, isBracket c = false

/-- Flatness is decided one character at a time. -/
instance (t : Text) : Decidable (IsFlat t) :=
  inferInstanceAs (Decidable (∀ c ∈ t, isBracket c = false))

theorem IsFlat.append {u : Text} (ht : IsFlat t) (hu : IsFlat u) : IsFlat (t ++ u) := by
  intro c hc
  exact (List.mem_append.1 hc).elim (ht c) (hu c)

/-- Whether a text holds no brackets and quotes but pairs of square brackets. -/
def isTame : Text → Bool
  | [] => true
  | [c] => !isBracket c
  | c :: d :: t =>
    if c = '[' ∧ d = ']' then isTame t else !isBracket c && isTame (d :: t)

theorem codeStep_of_not_isBracket (s : List Opener) (h : isBracket c = false) :
    codeStep s c = some (.code, s) := by
  simp [isBracket, Text.ofString] at h
  simp [codeStep, h]

theorem leads_of_isTame (s : List Opener) (h : isTame t = true) :
    Leads (.code, s) t (.code, s) := by
  intro rest
  fun_induction isTame t with
  | case1 => rfl
  | case2 c =>
    have step := codeStep_of_not_isBracket (c := c) s (by simpa using h)
    simp [read, step]
  | case3 c d t pair ih =>
    obtain ⟨rfl, rfl⟩ := pair
    exact ih h
  | case4 c d t noPair ih =>
    obtain ⟨hc, ht⟩ := Bool.and_eq_true_iff.1 h
    have step := codeStep_of_not_isBracket (c := c) s (by simpa using hc)
    rw [List.cons_append, read, step]
    exact ih ht

theorem IsFlat.isTame (h : IsFlat t) : isTame t = true := by
  fun_induction Brackets.isTame t with
  | case1 => rfl
  | case2 c => simp [h c (by simp)]
  | case3 c d t pair ih => exact ih fun e he => h e (by simp [he])
  | case4 c d t noPair ih =>
    rw [h c (by simp), ih fun e he => h e (List.mem_cons_of_mem _ he)]
    rfl

/-- What is left of a tame text without some characters at its end that are no brackets is tame. -/
theorem isTame_of_append {u : Text} (h : isTame (t ++ u) = true) (hu : IsFlat u) :
    isTame t = true := by
  fun_induction isTame t with
  | case1 => rfl
  | case2 c =>
    cases u with
    | nil => exact h
    | cons d u =>
      have noPair : ¬ (c = '[' ∧ d = ']') := by
        rintro ⟨-, rfl⟩
        exact absurd (hu _ (List.mem_cons_self ..)) (by decide)
      rw [List.singleton_append, isTame, if_neg noPair] at h
      exact (Bool.and_eq_true_iff.1 h).1
  | case3 c d t pair ih =>
    rw [List.cons_append, List.cons_append, isTame, if_pos pair] at h
    exact ih h
  | case4 c d t noPair ih =>
    rw [List.cons_append, List.cons_append, isTame, if_neg noPair] at h
    obtain ⟨hc, ht⟩ := Bool.and_eq_true_iff.1 h
    rw [hc, ih ht]
    rfl

theorem leads_joined (s : List Opener) {separator : Text} (hsep : isTame separator = true)
    {ts : List Text} (h : ∀ t ∈ ts, isTame t = true) :
    Leads (.code, s) (Text.joined separator ts) (.code, s) :=
  closed_intercalate (leads_nil _) Leads.append (leads_of_isTame s hsep)
    fun t ht => leads_of_isTame s (h t ht)

/-! ### Strings -/

/-- The characters that mean nothing in a string, wherever they stand. -/
def isInert (c : CodePoint) : Bool :=
  c ≠ '\\' && c ≠ '"' && c ≠ '#'

/-- Characters that mean nothing are passed over. -/
theorem read_inert (s : List Opener) (h : ∀ c ∈ t, isInert c = true) (rest : Text) :
    read (.string, s) (t ++ rest) = read (.string, s) rest := by
  induction t with
  | nil => rfl
  | cons c t ih =>
    have hc := h c (List.mem_cons_self ..)
    simp only [isInert, Bool.and_eq_true, decide_eq_true_eq] at hc
    obtain ⟨⟨backslash, quote⟩, hash⟩ := hc
    rw [List.cons_append, read_point backslash quote fun same => absurd same hash]
    exact ih fun d hd => h d (List.mem_cons_of_mem _ hd)

theorem isInert_upperDigit : ∀ d < 16, isInert (Numeral.upperDigit d) = true := by
  decide

theorem isInert_of_mem_upperHex {w n : Nat} (h : c ∈ Numeral.upperHex w n) : isInert c = true := by
  obtain ⟨d, hd, rfl⟩ := List.mem_map.1 h
  exact isInert_upperDigit d (Numeral.lt_of_mem_hexDigits hd)

/-- What comes after the first letter of an escape by number means nothing. -/
theorem exists_numericEscape_eq (c : CodePoint) :
    ∃ d u, Literal.numericEscape c = .scalar '\\' :: d :: u ∧ ∀ e ∈ u, isInert e = true := by
  unfold Literal.numericEscape
  split
  · exact ⟨'x', ['7', 'F'], rfl, by decide⟩
  · split
    · exact ⟨'u', Numeral.upperHex 4 c.value, rfl, fun _ => isInert_of_mem_upperHex⟩
    · refine ⟨'u', .scalar '\x7b' :: (Numeral.upperHex 1 c.value ++ ("\x7d" : Text)), rfl, ?_⟩
      intro e he
      rcases List.mem_cons.1 he with rfl | he
      · decide
      · rcases List.mem_append.1 he with he | he
        · exact isInert_of_mem_upperHex he
        · rw [List.mem_singleton.1 he]
          decide

/-- An escaped code point leads back, but a `#` must not meet a brace. -/
theorem read_escapedPoint (s : List Opener) {rest : Text}
    (hash : c = '#' → rest.head? ≠ some (.scalar '\x7b')) :
    read (.string, s) (Literal.escapedPoint c ++ rest) = read (.string, s) rest := by
  unfold Literal.escapedPoint
  cases hname : Literal.namedEscape? c with
  | some t =>
    unfold Literal.namedEscape? at hname
    split at hname <;> cases hname <;> rfl
  | none =>
    by_cases printable : c.isPrintable = true
    · -- a printable character is copied, unless it has an escape of its own
      have backslash : c ≠ '\\' := by
        rintro rfl
        cases hname
      have quote : c ≠ '"' := by
        rintro rfl
        cases hname
      simp only [printable, ↓reduceIte]
      exact read_point backslash quote hash
    · obtain ⟨d, u, escaped, inert⟩ := exists_numericEscape_eq c
      simp only [printable, escaped]
      exact read_inert s inert rest

/-- What is written for a character starts with a brace only if the character is one. -/
theorem head?_escapedPoint_ne (c : CodePoint) (hc : c ≠ '\x7b') (rest : Text) :
    (Literal.escapedPoint c ++ rest).head? ≠ some (.scalar '\x7b') := by
  rcases Literal.escapedPoint_cases c with ⟨copied, -⟩ | ⟨-, u, escaped, -⟩
  · rw [copied]
    simpa using hc
  · rw [escaped]
    simp

/-- An escaped text leads back to the string that it stands in, unless it ends with a `#` and a
brace follows. -/
theorem read_escape (s : List Opener) (t : Text) {rest : Text}
    (follow : rest.head? ≠ some (.scalar '\x7b')) :
    read (.string, s) (Literal.escape t ++ rest) = read (.string, s) rest := by
  induction t with
  | nil => rfl
  | cons c t ih =>
    rw [Literal.escape, List.append_assoc]
    split
    · exact ih
    · rename_i noOpener
      -- the character is not a `#` in front of a brace of the same text
      rw [read_escapedPoint s ?_, ih]
      rintro rfl
      -- what comes next is the next character of the text, if there is one
      cases t with
      | nil => exact follow
      | cons d t =>
        have hd : d ≠ '\x7b' := by
          rintro rfl
          exact noOpener ⟨rfl, rfl⟩
        rw [Literal.escape, List.append_assoc]
        split
        · simp [Text.ofString]
        · exact head?_escapedPoint_ne d hd _

/-- A quoted text leads back, whatever brackets stand in it. -/
theorem leads_quoted (s : List Opener) (t : Text) :
    Leads (.code, s) (Literal.quoted t) (.code, s) := by
  intro rest
  -- the quote that ends the text is no brace
  have body : read (.string, s) (Literal.escape t ++ .scalar '"' :: rest)
      = read (.code, s) rest := by
    rw [read_escape s t (by simp), read_quote]
  rw [Literal.quoted, List.append_assoc, List.append_assoc]
  exact body

/-! ### Symbols -/

theorem not_isBracket_of_continuesName (h : Literal.continuesName c = true) :
    isBracket c = false := by
  cases hc : isBracket c with
  | false => rfl
  | true =>
    have others : ∀ d ∈ ("()[]\x7b\x7d\"" : Text), Literal.continuesName d = false := by decide
    rw [others c (List.contains_iff_mem.1 hc)] at h
    cases h

/-- A name that needs no quotes has brackets in pairs only. -/
theorem isTame_of_isPlainSymbol (h : Literal.isPlainSymbol t = true) : isTame t = true := by
  have continues (c : CodePoint) (hc : Literal.continuesName c = true) : isBracket c = false :=
    not_isBracket_of_continuesName hc
  rcases Bool.or_eq_true_iff.1 h with h | operator
  · -- identifiers have no brackets, and of the operators two have a pair
    have flat : IsFlat t := by
      rcases Bool.or_eq_true_iff.1 h with method | sigil
      · exact Literal.forall_of_isMethodName continues (by decide) method
      · exact Literal.forall_of_isSigilName continues (by decide) sigil
    exact flat.isTame
  · have operators : ∀ op ∈ Literal.operators, isTame op = true := by decide
    exact operators t (List.contains_iff_mem.1 operator)

/-- So does a symbol, with its name quoted or not. -/
theorem leads_symbol (s : List Opener) (name : Text) :
    Leads (.code, s) (Literal.symbol name) (.code, s) := by
  have colon : Leads (.code, s) ":" (.code, s) := leads_of_isTame s (by decide)
  unfold Literal.symbol
  split
  · rename_i plain
    exact colon.append (leads_of_isTame s (isTame_of_isPlainSymbol plain))
  · exact colon.append (leads_quoted s name)

/-! ### Numbers -/

theorem not_isBracket_lowerDigit : ∀ d < 10, isBracket (Numeral.lowerDigit d) = false := by
  decide

theorem isFlat_digitText {ds : List Nat} (h : ∀ d ∈ ds, d < 10) :
    IsFlat (Binary64.digitText ds) := by
  intro c hc
  obtain ⟨d, hd, rfl⟩ := List.mem_map.1 hc
  exact not_isBracket_lowerDigit d (h d hd)

theorem isFlat_decimal (n : Nat) : IsFlat (Numeral.decimal n) :=
  Numeral.forall_mem_decimal not_isBracket_lowerDigit n

theorem isFlat_decimalInt (n : Int) : IsFlat (Numeral.decimalInt n) :=
  Numeral.forall_mem_decimalInt not_isBracket_lowerDigit (by decide) n

theorem isFlat_zeros (n : Nat) : IsFlat (Text.repeated n "0") := by
  have zero : IsFlat "0" := by decide
  intro c hc
  obtain ⟨t, ht, hc⟩ := List.mem_flatten.1 hc
  rw [List.eq_of_mem_replicate ht] at hc
  exact zero c hc

theorem isFlat_positional {ds : List Nat} (h : ∀ d ∈ ds, d < 10) (point : Int) :
    IsFlat (Binary64.positional ds point) := by
  have start : IsFlat "0." := by decide
  have mark : IsFlat "." := by decide
  have fraction : IsFlat ".0" := by decide
  unfold Binary64.positional
  split
  · exact start.append (isFlat_digitText h)
  · split
    · exact ((isFlat_digitText h).append (isFlat_zeros _)).append fraction
    · exact ((isFlat_digitText fun d hd => h d (List.mem_of_mem_take hd)).append mark).append
        (isFlat_digitText fun d hd => h d (List.mem_of_mem_drop hd))
  · exact (start.append (isFlat_zeros _)).append (isFlat_digitText h)

theorem isFlat_scientific {ds : List Nat} (h : ∀ d ∈ ds, d < 10) (power : Int) :
    IsFlat (Binary64.scientific ds power) := by
  have point : IsFlat "." := by decide
  have mark : IsFlat (if power < 0 then ("e-" : Text) else "e+") := by
    split <;> decide
  refine ((IsFlat.append ?_ mark).append (isFlat_zeros _)).append (isFlat_decimal _)
  split
  · exact isFlat_digitText h
  · exact isFlat_digitText h
  · rename_i d ds _
    have first : IsFlat (Binary64.digitText [d]) :=
      isFlat_digitText fun e he => by
        rw [List.mem_singleton.1 he]
        exact h d (List.mem_cons_self ..)
    exact (first.append point).append
      (isFlat_digitText fun e he => h e (List.mem_cons_of_mem _ he))

theorem lt_of_mem_shortestDigits {r d : Nat} (h : d ∈ (Binary64.shortestDigits r).1) : d < 10 := by
  have inner := (List.dropWhile_sublist _).mem (List.mem_reverse.1 h)
  exact Numeral.lt_of_mem_digits (by omega) (List.mem_reverse.1 inner)

theorem isFlat_magnitudeText (r : Nat) : IsFlat (Binary64.magnitudeText r) := by
  unfold Binary64.magnitudeText
  split
  · decide
  · simp only
    split
    · exact isFlat_positional (fun _ => lt_of_mem_shortestDigits) _
    · exact isFlat_scientific (fun _ => lt_of_mem_shortestDigits) _

/-- A float is spelled without brackets. -/
theorem isFlat_text (x : Binary64) : IsFlat x.text := by
  cases x with
  | nan => decide
  | ranked negative r =>
    have sign : IsFlat (if negative then ("-" : Text) else []) := by
      split <;> decide
    refine sign.append ?_
    split
    · decide
    · exact isFlat_magnitudeText r

theorem isFlat_withFraction (h : IsFlat t) : IsFlat (Literal.withFraction t) := by
  have fraction : IsFlat ".0" := by decide
  unfold Literal.withFraction
  simp only
  split
  · exact h
  · refine (IsFlat.append ?_ fraction).append ?_
    · exact fun c hc => h c ((List.takeWhile_sublist _).mem hc)
    · exact fun c hc => h c ((List.dropWhile_sublist _).mem hc)

theorem isFlat_float (x : Binary64) : IsFlat (Literal.float x) := by
  unfold Literal.float
  split
  · decide
  · split
    · split <;> decide
    · exact isFlat_withFraction (isFlat_text _)

/-- The literal of a scalar leads back to where it starts from. -/
theorem leads_literal (s : List Opener) {v : Value} (h : v.literal = .ok t) :
    Leads (.code, s) t (.code, s) := by
  have flat {u : Text} (hu : IsFlat u) : Leads (.code, s) u (.code, s) :=
    leads_of_isTame s hu.isTame
  cases v with
  | nil =>
    cases h
    exact flat (by decide)
  | bool b =>
    cases b <;> cases h <;> exact flat (by decide)
  | int n =>
    cases h
    exact flat (isFlat_decimalInt n)
  | float x =>
    cases h
    exact flat (isFlat_float x)
  | str u =>
    cases h
    exact leads_quoted s u
  | sym name =>
    cases h
    exact leads_symbol s name
  | _ => cases h

end Brackets

end Deparse
