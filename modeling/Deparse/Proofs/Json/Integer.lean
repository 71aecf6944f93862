import Deparse.Json.Token
import Deparse.Proofs.Number.Numeral

/-!
# Integers read back

The numeral of an integer is one token in front of any text that does not continue a number
(`lexeme_decimalInt`), if it has no more digits than may be evaluated.  The numeral that a text
starts with has at least as many digits as the shortest one of its number, so that whatever integer
is read can be written and read again (`isShort_of_ofDigits`).
-/

namespace Deparse.Json

/-- Whether an integer has no more digits than may be evaluated. -/
def IsShort (n : Int) : Prop :=
  (Numeral.digits 10 n.natAbs).length ≤ integerDigits

/-- A text that does not continue a number. -/
def StopsNumber (t : Text) : Prop :=
  ∀ c ∈ t.head?, Numeral.decimalDigit? c = none ∧ c ≠ '.' ∧ c ≠ 'e' ∧ c ≠ 'E'

variable {rest : Text}

/-- A numeral is the integer part of the number that it starts. -/
theorem integerPart?_decimal (n : Nat) (stop : StopsNumber rest) :
    integerPart? (Numeral.decimal n ++ rest) = some (Numeral.digits 10 n, rest) := by
  have span := Numeral.spanDecimal_decimal n fun c hc => (stop c hc).1
  unfold integerPart?
  rw [span]
  simp only
  split
  · rename_i empty
    exact absurd empty (Numeral.digits_ne_nil 10 n)
  · rename_i ds zero
    -- a leading zero would be taken alone, and only the numeral of zero has one
    obtain ⟨rfl, rfl⟩ := Numeral.eq_zero_of_digits (by omega) zero
    rw [zero, Numeral.decimal, zero]
    rfl
  · rfl

theorem fractionPart_of_stopsNumber (stop : StopsNumber rest) : fractionPart rest = ([], rest) := by
  unfold fractionPart
  split
  · exact absurd rfl (stop _ rfl).2.1
  · rfl

theorem powerPart_of_stopsNumber (stop : StopsNumber rest) : powerPart rest = (none, rest) := by
  cases rest with
  | nil => rfl
  | cons c t =>
    obtain ⟨-, -, small, capital⟩ := stop c rfl
    simp [powerPart, small, capital]

/-- A short numeral that nothing continues is an integer. -/
theorem unsignedNumber?_decimal (negative : Bool) {n : Nat}
    (short : (Numeral.digits 10 n).length ≤ integerDigits) (stop : StopsNumber rest) :
    unsignedNumber? negative (Numeral.decimal n ++ rest) =
      some (.scalar (.int (if negative then -n else n)), rest) := by
  have value : Numeral.ofDigits 10 (Numeral.digits 10 n) = n := Numeral.ofDigits_digits (by omega) n
  have evaluated : number negative (Numeral.digits 10 n) [] none =
      .scalar (.int (if negative then -n else n)) := by
    simp [number, Nat.not_lt.2 short, value]
  simp only [unsignedNumber?, integerPart?_decimal n stop, fractionPart_of_stopsNumber stop,
    powerPart_of_stopsNumber stop, evaluated]

/-- A digit starts no other token than a number. -/
theorem lexeme_digit {d : Nat} (hd : d < 10) (t : Text) :
    lexeme (Numeral.lowerDigit d) t =
      (unsignedNumber? false (.scalar (Numeral.lowerDigit d) :: t)).getD (.junk, t) := by
  have : d = 0 ∨ d = 1 ∨ d = 2 ∨ d = 3 ∨ d = 4 ∨ d = 5 ∨ d = 6 ∨ d = 7 ∨ d = 8 ∨ d = 9 := by omega
  rcases this with rfl | rfl | rfl | rfl | rfl | rfl | rfl | rfl | rfl | rfl <;> rfl

/-- Neither does a minus sign in front of a digit. -/
theorem lexeme_minus {d : Nat} (hd : d < 10) (t : Text) :
    lexeme '-' (.scalar (Numeral.lowerDigit d) :: t) =
      (unsignedNumber? true (.scalar (Numeral.lowerDigit d) :: t)).getD
        (.junk, .scalar (Numeral.lowerDigit d) :: t) := by
  have : d = 0 ∨ d = 1 ∨ d = 2 ∨ d = 3 ∨ d = 4 ∨ d = 5 ∨ d = 6 ∨ d = 7 ∨ d = 8 ∨ d = 9 := by omega
  rcases this with rfl | rfl | rfl | rfl | rfl | rfl | rfl | rfl | rfl | rfl <;> rfl

theorem isBlank_lowerDigit : ∀ d < 10, isBlank (Numeral.lowerDigit d) = false := by
  decide

/-- A numeral starts with a digit. -/
theorem exists_decimal_eq (n : Nat) :
    ∃ d t, d < 10 ∧ Numeral.decimal n = .scalar (Numeral.lowerDigit d) :: t := by
  obtain ⟨d, ds, first⟩ := List.exists_cons_of_ne_nil (Numeral.digits_ne_nil 10 n)
  refine ⟨d, ds.map fun d => Numeral.lowerDigit d, ?_, by rw [Numeral.decimal, first]; rfl⟩
  exact Numeral.lt_of_mem_digits (b := 10) (n := n) (by omega) (by rw [first]; simp)

/-- The numeral of an integer is one token. -/
theorem lexeme_decimalInt {n : Int} (short : IsShort n) :
    ∃ c t, Numeral.decimalInt n = c :: t ∧ isBlank c = false ∧
      ∀ rest, StopsNumber rest → lexeme c (t ++ rest) = (.scalar (.int n), rest) := by
  cases n with
  | ofNat n =>
    obtain ⟨d, t, hd, first⟩ := exists_decimal_eq n
    have numeral : (Numeral.digits 10 n).length ≤ integerDigits := short
    refine ⟨_, t, first, isBlank_lowerDigit d hd, fun rest stop => ?_⟩
    rw [lexeme_digit hd, ← List.cons_append, ← first,
      unsignedNumber?_decimal false numeral stop]
    rfl
  | negSucc n =>
    obtain ⟨d, t, hd, first⟩ := exists_decimal_eq (n + 1)
    have numeral : (Numeral.digits 10 (n + 1)).length ≤ integerDigits := short
    refine ⟨.scalar '-', .scalar (Numeral.lowerDigit d) :: t, ?_, rfl, fun rest stop => ?_⟩
    · rw [← first]
      rfl
    · rw [List.cons_append, lexeme_minus hd, ← List.cons_append, ← first,
        unsignedNumber?_decimal true numeral stop]
      rfl

/-- An integer is short if some numeral of it is. -/
theorem isShort_of_ofDigits {negative : Bool} {ds : List Nat} (digits : ∀ d ∈ ds, d < 10)
    (present : ds ≠ []) (short : ds.length ≤ integerDigits) :
    IsShort (if negative then -(Numeral.ofDigits 10 ds : Int) else Numeral.ofDigits 10 ds) := by
  have length : (Numeral.digits 10 (Numeral.ofDigits 10 ds)).length ≤ ds.length :=
    Numeral.length_digits_le (by omega) (List.length_pos_iff.2 present) (Numeral.ofDigits_lt digits)
  have magnitude : (if negative then -(Numeral.ofDigits 10 ds : Int)
      else Numeral.ofDigits 10 ds).natAbs = Numeral.ofDigits 10 ds := by
    cases negative <;> simp
  rw [IsShort, magnitude]
  exact Nat.le_trans length short

end Deparse.Json
