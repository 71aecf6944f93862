import Deparse.Proofs.Json.ReadBack

/-!
# Integers that are too long

Reading ends without a value and without a problem of the grammar in one case: it arrives at a place
where a value is expected, and there stands an integer with more digits than may be evaluated
(`read_eq_longInteger_iff`).

`Arrives` says how far reading gets, by what is left of the document; `StartsLong` tells from the
characters that are left whether they begin with such an integer, and the lexer agrees with it
(`lexeme_eq_longInteger_iff`).
-/

namespace Deparse

namespace Numeral

theorem eq_lowerDigit_of_decimalDigit? {c : CodePoint} {d : Nat} (h : decimalDigit? c = some d) :
    c = lowerDigit d := by
  cases c with
  | surrogate => cases h
  | scalar c =>
    simp only [decimalDigit?] at h
    split at h
    · rename_i range
      have low : 0x30 ≤ c.toNat := range.1
      have high : c.toNat ≤ 0x39 := range.2
      cases h
      have small : c.toNat - 0x30 < 10 := by omega
      have number : 0x30 + (c.toNat - 0x30) = c.toNat := by omega
      rw [lowerDigit, if_pos small, number, Char.ofNat_toNat]
    · cases h

/-- The digits that a text starts with are spelled there, and no further digit comes after them. -/
theorem spanDecimal_spells (t : Text) :
    t = (spanDecimal t).1.map (fun d => (lowerDigit d : CodePoint)) ++ (spanDecimal t).2 ∧
      ∀ c ∈ (spanDecimal t).2.head?, decimalDigit? c = none := by
  induction t with
  | nil => exact ⟨rfl, by simp [spanDecimal]⟩
  | cons c t ih =>
    unfold spanDecimal
    split
    · rename_i d digit
      obtain ⟨spelled, stop⟩ := ih
      refine ⟨?_, stop⟩
      rw [List.map_cons, List.cons_append, ← spelled, eq_lowerDigit_of_decimalDigit? digit]
    · rename_i other
      refine ⟨rfl, fun d hd => ?_⟩
      cases hd
      exact other

end Numeral

namespace Json

/-! ### Numerals -/

/-- Whether a text starts with a digit. -/
def startsDigits (t : Text) : Bool :=
  t.head?.any fun c => (Numeral.decimalDigit? c).isSome

/-- Whether a text goes on with the number before it: with a digit, a fraction or a power of ten. -/
def continuesNumber : Text → Bool
  | .scalar '.' :: t => startsDigits t
  | .scalar 'e' :: t => startsDigits (sign t).2
  | .scalar 'E' :: t => startsDigits (sign t).2
  | t => startsDigits t

/-- Whether a text starts with too many digits for an integer, of which the first is not zero and
after which the number does not go on. -/
def StartsLongDigits (t : Text) : Prop :=
  ∃ (ds : List Nat) (rest : Text),
    t = ds.map (fun d => (Numeral.lowerDigit d : CodePoint)) ++ rest ∧ (∀ d ∈ ds, d < 10) ∧
      ds.head? ≠ some 0 ∧ integerDigits < ds.length ∧ continuesNumber rest = false

/-- Whether a text starts with an integer of too many digits, perhaps with a minus sign. -/
def StartsLong (t : Text) : Prop :=
  StartsLongDigits t ∨ ∃ u, t = .scalar '-' :: u ∧ StartsLongDigits u

theorem startsDigits_eq_false_iff {t : Text} :
    startsDigits t = false ↔ ∀ c ∈ t.head?, Numeral.decimalDigit? c = none := by
  cases t <;> simp [startsDigits]

theorem spanDecimal_eq_nil_iff {t : Text} :
    (Numeral.spanDecimal t).1 = [] ↔ startsDigits t = false := by
  rw [startsDigits_eq_false_iff]
  cases t with
  | nil => simp [Numeral.spanDecimal]
  | cons c t =>
    cases digit : Numeral.decimalDigit? c <;> simp [Numeral.spanDecimal, digit]

/-- A point is part of the number exactly if a digit follows it. -/
theorem fractionPart_point (u : Text) :
    ((fractionPart (.scalar '.' :: u)).1 = [] ∧
        (powerPart (fractionPart (.scalar '.' :: u)).2).1 = none) ↔ startsDigits u = false := by
  rw [← spanDecimal_eq_nil_iff, fractionPart]
  rcases Numeral.spanDecimal u with ⟨_ | ⟨d, ds⟩, rest⟩
  · exact iff_of_true ⟨rfl, rfl⟩ rfl
  · simp

/-- A mark of a power is part of the number exactly if a digit follows it and its sign. -/
theorem powerPart_mark {c : CodePoint} (mark : c = 'e' ∨ c = 'E') (u : Text) :
    (powerPart (c :: u)).1 = none ↔ startsDigits (sign u).2 = false := by
  rw [← spanDecimal_eq_nil_iff, powerPart, if_pos mark]
  simp only
  rcases Numeral.spanDecimal (sign u).2 with ⟨_ | ⟨d, ds⟩, rest⟩ <;> simp

/-- The parts of a number after its integer part are missing exactly if the text does not go on with
the number. -/
theorem continuesNumber_eq_false_iff {t : Text} :
    continuesNumber t = false ↔
      startsDigits t = false ∧ (fractionPart t).1 = [] ∧
        (powerPart (fractionPart t).2).1 = none := by
  unfold continuesNumber
  split
  · rename_i u
    rw [fractionPart_point]
    exact (and_iff_right rfl).symm
  · rename_i u
    have whole : fractionPart (.scalar 'e' :: u) = ([], .scalar 'e' :: u) := rfl
    rw [whole, powerPart_mark (.inl rfl)]
    exact ⟨fun h => ⟨rfl, rfl, h⟩, fun h => h.2.2⟩
  · rename_i u
    have whole : fractionPart (.scalar 'E' :: u) = ([], .scalar 'E' :: u) := rfl
    rw [whole, powerPart_mark (.inr rfl)]
    exact ⟨fun h => ⟨rfl, rfl, h⟩, fun h => h.2.2⟩
  · rename_i point small capital
    refine (and_iff_left_of_imp fun h => ?_).symm
    -- the first character is none that a number goes on with
    have stop : StopsNumber t := by
      cases t with
      | nil => exact fun c hc => by cases hc
      | cons c t =>
        refine stopsNumber_cons ⟨startsDigits_eq_false_iff.1 h c rfl, ?_, ?_, ?_⟩ t
        · rintro rfl
          exact point t rfl
        · rintro rfl
          exact small t rfl
        · rintro rfl
          exact capital t rfl
    rw [fractionPart_of_stopsNumber stop, powerPart_of_stopsNumber stop]
    exact ⟨rfl, rfl⟩

/-- Only an integer can be too long, as floats are rounded. -/
theorem number_eq_longInteger_iff {negative : Bool} {whole fraction : List Nat}
    {power : Option Int} : number negative whole fraction power = .longInteger ↔
      integerDigits < whole.length ∧ fraction = [] ∧ power = none := by
  unfold number
  cases fraction <;> cases power <;> simp

/-- An integer part of several digits is all the digits there are, and does not start with zero. -/
theorem integerPart?_eq_some_iff {t u : Text} {ds : List Nat} (long : 1 < ds.length) :
    integerPart? t = some (ds, u) ↔ Numeral.spanDecimal t = (ds, u) ∧ ds.head? ≠ some 0 := by
  unfold integerPart?
  rcases Numeral.spanDecimal t with ⟨_ | ⟨_ | d, es⟩, rest⟩
  · -- no digits, a zero that stands alone, and digits of which the first is not zero
    refine iff_of_false (by simp) ?_
    rintro ⟨⟨⟩, -⟩
    exact absurd long (by decide)
  · refine iff_of_false ?_ ?_
    · rintro ⟨⟩
      exact absurd long (by decide)
    · rintro ⟨⟨⟩, nonzero⟩
      exact nonzero rfl
  · simp only [Option.some.injEq]
    refine (and_iff_left_of_imp ?_).symm
    rintro ⟨⟩
    simp

/-- A number without its sign is too long exactly if the text starts with too many digits. -/
theorem unsignedNumber?_longInteger_iff (negative : Bool) {t : Text} :
    (∃ rest, unsignedNumber? negative t = some (.longInteger, rest)) ↔ StartsLongDigits t := by
  constructor
  · rintro ⟨rest, h⟩
    unfold unsignedNumber? at h
    split at h
    · cases h
    · rename_i whole u part
      -- what the number was made of can be told from the outcome
      obtain ⟨evaluated, -⟩ := Prod.ext_iff.1 (Option.some.inj h)
      obtain ⟨long, fraction, power⟩ := number_eq_longInteger_iff.1 evaluated
      have several : 1 < whole.length := Nat.lt_trans (by decide) long
      obtain ⟨span, nonzero⟩ := (integerPart?_eq_some_iff several).1 part
      obtain ⟨spelled, stop⟩ := Numeral.spanDecimal_spells t
      have digits : ∀ d ∈ (Numeral.spanDecimal t).1, d < 10 :=
        fun d => Numeral.lt_of_mem_spanDecimal
      rw [span] at spelled stop digits
      exact ⟨whole, u, spelled, digits, nonzero, long,
        continuesNumber_eq_false_iff.2 ⟨startsDigits_eq_false_iff.2 stop, fraction, power⟩⟩
  · rintro ⟨ds, rest, rfl, digits, nonzero, long, stop⟩
    obtain ⟨noDigit, fraction, power⟩ := continuesNumber_eq_false_iff.1 stop
    have span := Numeral.spanDecimal_map digits (startsDigits_eq_false_iff.1 noDigit)
    have several : 1 < ds.length := Nat.lt_trans (by decide) long
    have part := (integerPart?_eq_some_iff several).2 ⟨span, nonzero⟩
    refine ⟨(powerPart (fractionPart rest).2).2, ?_⟩
    simp only [unsignedNumber?, part,
      number_eq_longInteger_iff.2 (And.intro long (And.intro fraction power))]

theorem getD_unsignedNumber?_iff {negative : Bool} {t u : Text} :
    ((unsignedNumber? negative u).getD (.junk, t)).1 = .longInteger ↔ StartsLongDigits u := by
  rw [← unsignedNumber?_longInteger_iff negative]
  rcases unsignedNumber? negative u with _ | ⟨l, rest⟩ <;> simp

theorem StartsLongDigits.exists_first {t : Text} (h : StartsLongDigits t) :
    ∃ d u, d < 10 ∧ t = .scalar (Numeral.lowerDigit d) :: u := by
  obtain ⟨_ | ⟨d, ds⟩, rest, spelled, digits, -, long, -⟩ := h
  · cases long
  · exact ⟨d, _, digits d (List.mem_cons_self ..), spelled⟩

/-- Such an integer starts with a character that is no blank. -/
theorem StartsLong.exists_first {t : Text} (h : StartsLong t) :
    ∃ c u, isBlank c = false ∧ t = c :: u := by
  rcases h with h | ⟨u, rfl, -⟩
  · obtain ⟨d, u, small, rfl⟩ := h.exists_first
    exact ⟨_, u, isBlank_lowerDigit d small, rfl⟩
  · exact ⟨.scalar '-', u, rfl, rfl⟩

/-- A token is an integer of too many digits exactly if the document starts with one. -/
theorem lexeme_eq_longInteger_iff {c : CodePoint} {t : Text} :
    (lexeme c t).1 = .longInteger ↔ StartsLong (c :: t) := by
  constructor
  · intro h
    unfold lexeme at h
    split at h
    · -- no punctuation, text or word is an integer
      rename_i l punctuation
      cases h
      unfold punctuation? at punctuation
      split at punctuation <;> cases punctuation
    · split at h
      · split at h <;> cases h
      · split at h
        · cases h
        · split at h
          · rename_i minus
            exact .inr ⟨t, by rw [minus], getD_unsignedNumber?_iff.1 h⟩
          · exact .inl (getD_unsignedNumber?_iff.1 h)
  · rintro (h | ⟨u, spelled, h⟩)
    · obtain ⟨d, v, small, spelled⟩ := h.exists_first
      cases spelled
      rw [lexeme_digit small]
      exact getD_unsignedNumber?_iff.2 h
    · cases spelled
      obtain ⟨d, v, small, rfl⟩ := h.exists_first
      rw [lexeme_minus small]
      exact getD_unsignedNumber?_iff.2 h

/-! ### The way of the reader -/

/-- Whether a value may come next. -/
def State.awaitsValue : State → Bool
  | .value _ | .firstItem _ => true
  | _ => false

theorem State.step_eq_longInteger_iff {s : State} {t : Token} :
    s.step t = .error .longInteger ↔ s.awaitsValue = true ∧ t.lexeme = .longInteger := by
  obtain ⟨l, line⟩ := t
  cases s <;> cases l <;> simp [State.step, State.startValue, State.startMember, State.awaitsValue]

/-- Where a token is expected has no bearing on its line. -/
theorem State.step_eq_ok_line {s s' : State} {l : Lexeme} {line : Nat}
    (h : s.step ⟨l, line⟩ = .ok s') (line' : Nat) : s.step ⟨l, line'⟩ = .ok s' := by
  cases s <;> cases l <;>
    simp [State.step, State.startValue, State.startMember] at h ⊢ <;> exact h

/-- From a state in front of a text the reader arrives at another state, in front of what is left of
the text then. -/
inductive Arrives : State → Text → State → Text → Prop
  | here (s : State) (t : Text) : Arrives s t s t
  | blank {s s' : State} {c : CodePoint} {t u : Text} (blank : isBlank c = true)
    (further : Arrives s t s' u) : Arrives s (c :: t) s' u
  | token {s s₁ s' : State} {c : CodePoint} {t u : Text} (visible : isBlank c = false)
    (inner : (lexeme c t).1.isLast = false) (step : ∀ line, s.step ⟨(lexeme c t).1, line⟩ = .ok s₁)
    (further : Arrives s₁ (lexeme c t).2 s' u) : Arrives s (c :: t) s' u

/-- Whether reading a document arrives at an integer of too many digits where a value is
expected. -/
def MeetsLongInteger (s : State) (t : Text) : Prop :=
  ∃ s' u, Arrives s t s' u ∧ s'.awaitsValue = true ∧ StartsLong u

theorem StartsLong.tokens_eq {u : Text} (h : StartsLong u) (line : Nat) :
    ∃ ts, tokens line u = ⟨.longInteger, line⟩ :: ts := by
  obtain ⟨c, t, visible, rfl⟩ := h.exists_first
  have token := lexeme_eq_longInteger_iff.2 h
  have inner : Lexeme.longInteger.isLast = false := rfl
  refine ⟨tokens line (lexeme c t).2, ?_⟩
  rw [tokens, visible, token, inner, if_neg Bool.false_ne_true, if_neg Bool.false_ne_true]

/-- Wherever the reader arrives at such an integer, it stops. -/
theorem run_eq_longInteger_of_arrives {s s' : State} {t u : Text} (way : Arrives s t s' u)
    (awaits : s'.awaitsValue = true) (long : StartsLong u) (line : Nat) :
    s.run (tokens line t) = .error .longInteger := by
  induction way generalizing line with
  | here s t =>
    obtain ⟨ts, first⟩ := long.tokens_eq line
    rw [first, State.run, State.step_eq_longInteger_iff.2 ⟨awaits, rfl⟩]
    rfl
  | blank blank _ ih =>
    rw [tokens, if_pos blank]
    exact ih awaits long _
  | token visible inner step _ ih =>
    rw [tokens, visible, inner, if_neg Bool.false_ne_true, if_neg Bool.false_ne_true, State.run,
      step]
    exact ih awaits long line

/-- The reader stops for that reason at the first token or after it. -/
theorem State.run_cons_eq_longInteger {s : State} {t : Token} {ts : List Token}
    (h : s.run (t :: ts) = .error .longInteger) :
    (s.awaitsValue = true ∧ t.lexeme = .longInteger) ∨
      ∃ s₁, s.step t = .ok s₁ ∧ s₁.run ts = .error .longInteger := by
  rw [State.run] at h
  cases step : s.step t with
  | error f =>
    rw [step] at h
    cases h
    exact .inl (State.step_eq_longInteger_iff.1 step)
  | ok s₁ =>
    rw [step] at h
    exact .inr ⟨s₁, rfl, h⟩

/-- Where the reader stops for that reason, it has arrived at such an integer.  The induction is on
the tokens, and a token that is not the integer takes the reader further. -/
theorem meetsLongInteger_of_run {s : State} {t : Text} {line : Nat}
    (h : s.run (tokens line t) = .error .longInteger) : MeetsLongInteger s t := by
  fun_induction tokens line t generalizing s with
  | case1 line =>
    rcases State.run_cons_eq_longInteger h with ⟨-, finish⟩ | ⟨s₁, -, ended⟩
    · cases finish
    · cases ended
  | case2 line c t blank ih =>
    obtain ⟨s', u, way, rest⟩ := ih h
    exact ⟨s', u, .blank blank way, rest⟩
  | case3 line c t visible last =>
    rcases State.run_cons_eq_longInteger h with ⟨-, long⟩ | ⟨s₁, -, ended⟩
    · rw [show (lexeme c t).1 = .longInteger from long] at last
      cases last
    · cases ended
  | case4 line c t visible inner ih =>
    rcases State.run_cons_eq_longInteger h with ⟨awaits, long⟩ | ⟨s₁, step, h⟩
    · exact ⟨s, c :: t, .here s _, awaits, lexeme_eq_longInteger_iff.1 long⟩
    · obtain ⟨s', u, way, rest⟩ := ih h
      exact ⟨s', u, .token (Bool.eq_false_iff.2 visible)
        (Bool.eq_false_iff.2 inner) (State.step_eq_ok_line step) way, rest⟩

/-- The reader is stopped by an integer of too many digits exactly if it arrives at one where a
value is expected. -/
theorem run_eq_longInteger_iff (s : State) (t : Text) (line : Nat) :
    s.run (tokens line t) = .error .longInteger ↔ MeetsLongInteger s t :=
  ⟨meetsLongInteger_of_run,
    fun ⟨_, _, way, awaits, long⟩ => run_eq_longInteger_of_arrives way awaits long line⟩

/-- No value starts with a byte order mark. -/
theorem run_byteOrderMark (t : Text) (line : Nat) :
    State.run (.value []) (tokens line (.scalar '\ufeff' :: t))
      = .error (.malformed .expectingValue line) := by
  have visible : isBlank '\ufeff' = false := rfl
  have token : lexeme '\ufeff' t = (.junk, t) := rfl
  rw [tokens, visible, token]
  rfl

/-- Reading a document has no value and finds no problem exactly if it arrives at an integer of too
many digits. -/
theorem read_eq_longInteger_iff (t : Text) :
    read t = .error .longInteger ↔ MeetsLongInteger (.value []) t := by
  rw [← run_eq_longInteger_iff _ _ 1, read]
  split
  · rename_i mark
    obtain ⟨u, rfl⟩ := List.head?_eq_some_iff.1 mark
    rw [run_byteOrderMark]
    simp
  · split
    · rename_i v ended
      rw [ended]
      simp
    · -- the document ends too early, which is a problem of the grammar
      rename_i s other ended
      rw [ended]
      simp
    · rename_i f ended
      rw [ended]
      simp

/-! ### What is left of a document -/

/-- What is left of a document is its end. -/
theorem Arrives.suffix {s s' : State} {t u : Text} (way : Arrives s t s' u) : u <:+ t := by
  induction way with
  | here => exact List.suffix_rfl
  | blank _ _ ih => exact ih.trans (List.suffix_cons _ _)
  | token _ _ _ _ ih => exact (ih.trans (lexeme_suffix _ _)).trans (List.suffix_cons _ _)

/-- Where reading is stopped, there stand too many digits in a row. -/
theorem MeetsLongInteger.exists_digits {s : State} {t : Text} (h : MeetsLongInteger s t) :
    ∃ (before : Text) (ds : List Nat) (after : Text),
      t = before ++ ds.map (fun d => (Numeral.lowerDigit d : CodePoint)) ++ after ∧
        (∀ d ∈ ds, d < 10) ∧ integerDigits < ds.length := by
  obtain ⟨s', u, way, -, long⟩ := h
  obtain ⟨before, rfl⟩ := way.suffix
  rcases long with ⟨ds, after, rfl, digits, -, many, -⟩ |
    ⟨_, rfl, ds, after, rfl, digits, -, many, -⟩
  · exact ⟨before, ds, after, (List.append_assoc ..).symm, digits, many⟩
  · exact ⟨before ++ [.scalar '-'], ds, after, by simp, digits, many⟩

end Json

end Deparse
