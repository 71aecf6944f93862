import Deparse.Proofs.Literal.Scalar

/-!
# What symbol literals denote

`readSymbol` reads a symbol literal the way the language does.  After the colon there is a quoted
text, or a bare name that is as long as possible: an identifier with or without the suffix of a
method name, an identifier after a sigil, or an operator.  Two operators may be spelled with an `@`
that is no part of their names, so that `:~@` and `:!@` are the symbols `~` and `!`.

The literal of a symbol is read to its end, and what it denotes is the symbol, unless the name is
one of these two spellings (`readSymbol_symbol_eq_iff`).
-/

namespace Deparse.Literal

/-! ### Names -/

/-- Whether an identifier may start with a code point: a letter, the underscore, or anything beyond
ASCII. -/
def isWordStart (c : CodePoint) : Bool :=
  (0x41 ≤ c.value && c.value ≤ 0x5A) || (0x61 ≤ c.value && c.value ≤ 0x7A) || c.value = 0x5F ||
    0x80 ≤ c.value

/-- Whether an identifier may go on with a code point. -/
def isWordPart (c : CodePoint) : Bool :=
  isWordStart c || (0x30 ≤ c.value && c.value ≤ 0x39)

/-- The identifier that a text starts with, and what comes after it. -/
def readIdentifier : Text → Option (Text × Text)
  | [] => none
  | c :: t =>
    if isWordStart c then some (c :: t.takeWhile isWordPart, t.dropWhile isWordPart) else none

/-- A name with the suffix of a method name that comes after it, if one does. -/
def withSuffix : Text × Text → Text × Text
  | (name, .scalar '?' :: rest) => (name ++ "?", rest)
  | (name, .scalar '!' :: rest) => (name ++ "!", rest)
  | (name, .scalar '=' :: rest) => (name ++ "=", rest)
  | p => p

/-- The name of a method at the start of a text, with its suffix, and what comes after it. -/
def readMethodName (t : Text) : Option (Text × Text) :=
  (readIdentifier t).map withSuffix

/-- The name of a class, an instance or a global variable. -/
def readVariable : Text → Option (Text × Text)
  | .scalar '@' :: .scalar '@' :: t =>
    (readIdentifier t).map fun (name, rest) => ("@@" ++ name, rest)
  | .scalar '@' :: t => (readIdentifier t).map fun (name, rest) => ("@" ++ name, rest)
  | .scalar '$' :: t => (readIdentifier t).map fun (name, rest) => ("$" ++ name, rest)
  | _ => none

/-- The spellings of operators, each with the operator that it stands for.  A spelling comes before
those that it begins with. -/
def operatorSpellings : List (Text × Text) :=
  ("~@", "~") :: ("!@", "!") ::
    (["[]=", "[]", "**", "<=>", "===", "==", "=~", "!=", "!~", "<=", ">=", "<<", ">>", "+@", "-@",
      "+", "-", "*", "/", "%", "<", ">", "^", "&", "|", "~", "!"].map Text.ofString).map
        fun s => (s, s)

/-- The operator that the longest spelling at the start of a text stands for, and what comes after
it. -/
def readOperator (t : Text) : Option (Text × Text) :=
  (operatorSpellings.find? fun s => s.1.isPrefixOf t).map fun s => (s.2, t.drop s.1.length)

/-- The symbol that a bare name denotes, and what comes after the name. -/
def readBareName (t : Text) : Option (Text × Text) :=
  ((readMethodName t).or (readVariable t)).or (readOperator t)

/-- The symbol that the literal at the start of a text denotes, and what comes after the literal. -/
def readSymbol : Text → Option (Text × Text)
  | .scalar ':' :: .scalar '"' :: t => readQuoted (.scalar '"' :: t)
  | .scalar ':' :: t => readBareName t
  | _ => none

/-! ### Reading names back -/

/-- The writer admits fewer characters in a name than the reader. -/
theorem isWordStart_of_startsName {c : CodePoint} (h : startsName c = true) :
    isWordStart c = true := by
  cases c with
  | surrogate => cases h
  | scalar c =>
    simp only [startsName, Bool.or_eq_true, Bool.and_eq_true, decide_eq_true_eq] at h
    rcases h with (lower | upper) | rfl
    · have range : 0x61 ≤ c.toNat ∧ c.toNat ≤ 0x7A := lower
      simp [isWordStart, CodePoint.value, range]
    · have range : 0x41 ≤ c.toNat ∧ c.toNat ≤ 0x5A := upper
      simp [isWordStart, CodePoint.value, range]
    · rfl

theorem isWordPart_of_continuesName {c : CodePoint} (h : continuesName c = true) :
    isWordPart c = true := by
  cases c with
  | surrogate => cases h
  | scalar c =>
    unfold isWordPart
    rcases Bool.or_eq_true_iff.1 h with start | digit
    · rw [isWordStart_of_startsName start, Bool.true_or]
    · simp only [Bool.and_eq_true, decide_eq_true_eq] at digit
      have range : 0x30 ≤ c.toNat ∧ c.toNat ≤ 0x39 := digit
      simp [CodePoint.value, range]

/-- An identifier is read as far as a character that cannot go on with it. -/
theorem readIdentifier_append {name : Text} (rest : Text) (h : isIdentifier name = true)
    (stop : ∀ c ∈ rest.head?, isWordPart c = false) :
    readIdentifier (name ++ rest) = some (name, rest) := by
  cases name with
  | nil => cases h
  | cons c t =>
    obtain ⟨first, others⟩ := Bool.and_eq_true_iff.1 h
    have parts : ∀ d ∈ t, isWordPart d = true := fun d hd =>
      isWordPart_of_continuesName (List.all_eq_true.1 others d hd)
    -- the rest is left as it is, with nothing of it taken
    have ended : rest.takeWhile isWordPart = [] ∧ rest.dropWhile isWordPart = rest := by
      cases rest with
      | nil => exact ⟨rfl, rfl⟩
      | cons d rest => simp [stop d rfl]
    rw [List.cons_append, readIdentifier, if_pos (isWordStart_of_startsName first),
      List.takeWhile_append_of_pos parts, List.dropWhile_append_of_pos parts, ended.1, ended.2,
      List.append_nil]

/-- A method name is read to its end, with its suffix if it has one. -/
theorem readMethodName_of_isMethodName {name : Text} (h : isMethodName name = true) :
    readMethodName name = some (name, []) := by
  rcases Bool.or_eq_true_iff.1 h with identifier | suffixed
  · have read := readIdentifier_append [] identifier (by simp)
    rw [List.append_nil] at read
    rw [readMethodName, read]
    rfl
  · split at suffixed
    · rename_i c last
      obtain ⟨suffix, stem⟩ := Bool.and_eq_true_iff.1 suffixed
      obtain ⟨u, rfl⟩ := List.getLast?_eq_some_iff.1 last
      rw [List.dropLast_concat] at stem
      -- no suffix could be part of the identifier before it
      have stops : ∀ d ∈ methodSuffixes, isWordPart d = false ∧
          ∀ u : Text, withSuffix (u, [d]) = (u ++ [d], []) := by
        intro d hd
        simp only [methodSuffixes, Text.ofString, String.reduceToList, List.map_cons, List.map_nil,
          List.mem_cons, List.not_mem_nil, or_false] at hd
        rcases hd with rfl | rfl | rfl <;> exact ⟨by decide, fun u => rfl⟩
      obtain ⟨stop, joined⟩ := stops c (List.contains_iff_mem.1 suffix)
      have read := readIdentifier_append [c] stem (by simpa using stop)
      rw [readMethodName, read, Option.map_some, joined]
    · cases suffixed

/-- So is a name with a sigil. -/
theorem readVariable_of_isSigilName {name : Text} (h : isSigilName name = true) :
    readMethodName name = none ∧ readVariable name = some (name, []) := by
  have read {t : Text} (h : isIdentifier t = true) : readIdentifier t = some (t, []) := by
    simpa using readIdentifier_append [] h (by simp)
  -- no method name starts with a sigil
  unfold isSigilName at h
  split at h
  · refine ⟨rfl, ?_⟩
    rw [readVariable, read h]
    rfl
  · rename_i t single
    refine ⟨rfl, ?_⟩
    rw [readVariable, read h]
    · rfl
    · exact single
  · refine ⟨rfl, ?_⟩
    rw [readVariable, read h]
    rfl
  · cases h

/-! ### Symbols -/

/-- What a name denotes when it is written without quotes. -/
def denoted (name : Text) : Text :=
  if name = "~@" then "~" else if name = "!@" then "!" else name

theorem denoted_eq_self_iff (name : Text) : denoted name = name ↔ name ≠ "~@" ∧ name ≠ "!@" := by
  unfold denoted
  split
  · rename_i tilde
    subst tilde
    decide
  · split
    · rename_i bang
      subst bang
      decide
    · rename_i tilde bang
      exact ⟨fun _ => ⟨tilde, bang⟩, fun _ => rfl⟩

/-- Each operator is read by its longest spelling. -/
theorem readBareName_operator :
    ∀ op ∈ operators, readBareName op = some (denoted op, []) := by
  decide +kernel

/-- No identifier and no variable is one of the two spellings with a mark. -/
theorem denoted_of_readName {name : Text} {p : Text × Text}
    (h : (readMethodName name).or (readVariable name) = some p) : denoted name = name := by
  rw [denoted_eq_self_iff]
  constructor <;> rintro rfl <;> cases h

/-- A name without quotes is read to its end. -/
theorem readBareName_of_isPlainSymbol {name : Text} (h : isPlainSymbol name = true) :
    readBareName name = some (denoted name, []) := by
  rcases Bool.or_eq_true_iff.1 h with h | operator
  · have read : (readMethodName name).or (readVariable name) = some (name, []) := by
      rcases Bool.or_eq_true_iff.1 h with method | sigil
      · rw [readMethodName_of_isMethodName method]
        rfl
      · obtain ⟨noMethod, found⟩ := readVariable_of_isSigilName sigil
        rw [noMethod, found]
        rfl
    rw [readBareName, denoted_of_readName read, read]
    rfl
  · exact readBareName_operator name (List.contains_iff_mem.1 operator)

/-- A literal that spells a text to its end is read to its end. -/
theorem readQuoted_of_unquoted? {t u : Text} (h : unquoted? t = some u) :
    readQuoted t = some (u, []) := by
  unfold unquoted? at h
  split at h
  · rename_i found read
    cases h
    rw [readQuoted, read]
    rfl
  · cases h

theorem readSymbol_of_head? {t : Text} (h : t.head? ≠ some (.scalar '"')) :
    readSymbol (.scalar ':' :: t) = readBareName t := by
  unfold readSymbol
  split
  · rename_i quote
    cases quote
    exact absurd rfl h
  · rename_i same
    cases same
    rfl
  · rename_i other
    exact absurd rfl (other t)

/-- A literal is read to its end. -/
theorem readSymbol_symbol (name : Text) : readSymbol (symbol name) = some (denoted name, []) := by
  unfold symbol
  split
  · rename_i plain
    have bare : readSymbol (":" ++ name) = readBareName name :=
      readSymbol_of_head? (head?_ne_quote_of_isPlainSymbol plain)
    rw [bare, readBareName_of_isPlainSymbol plain]
  · -- both spellings with a mark are written bare
    rename_i quotes
    have read : readSymbol (":" ++ quoted name) = some (name, []) :=
      readQuoted_of_unquoted? (unquoted?_quoted name)
    have same : denoted name = name := by
      rw [denoted_eq_self_iff]
      constructor <;> rintro rfl <;> exact quotes (by decide)
    rw [read, same]

/-- **A symbol literal denotes its symbol, but for two names.**  The literal of a symbol is read to
its end, and it denotes the symbol with exactly the name that it was made from if and only if this
is neither `~@` nor `!@`, of which the literals denote `~` and `!`. -/
theorem readSymbol_symbol_eq_iff (name : Text) :
    readSymbol (symbol name) = some (denoted name, []) ∧
      (readSymbol (symbol name) = some (name, []) ↔ name ≠ "~@" ∧ name ≠ "!@") := by
  refine ⟨readSymbol_symbol name, ?_⟩
  rw [readSymbol_symbol, ← denoted_eq_self_iff]
  simp

/-- The literal of the symbol `~@` denotes another symbol. -/
theorem symbol_complement :
    Text.IsScalar "~@" ∧ symbol "~@" = ":~@" ∧ readSymbol (symbol "~@") = some (("~" : Text), []) ∧
      readSymbol (symbol "~@") ≠ some (("~@" : Text), []) := by
  refine ⟨Text.isScalar_ofString "~@", ?_⟩
  decide +kernel

end Deparse.Literal
