import Deparse.Text.CodePoint

/-!
# Positional numerals

`digits b n` are the digits of `n` in base `b`, the most significant first, and `ofDigits b`
evaluates them (`ofDigits_digits`).  Decimal numerals and the hexadecimal numerals of escapes are
spelled from them.
-/

namespace Deparse.Numeral

/-! ### Digits -/

/-- The digits of `n` in base `b`, the most significant first; the numeral of zero has one digit.
A base below two is taken for two. -/
def digits (b n : Nat) : List Nat :=
  if n < max b 2 then [n] else digits b (n / max b 2) ++ [n % max b 2]
termination_by n
decreasing_by exact Nat.div_lt_self (by omega) (by omega)

/-- The number whose digits in base `b` are `ds`. -/
def ofDigits (b : Nat) (ds : List Nat) : Nat :=
  ds.foldl (fun n d => b * n + d) 0

/-- What a digit counts that `k` digits follow in base `b`. -/
def place (b k : Nat) : Nat :=
  Nat.pow b k

theorem ofDigits_append_singleton (b : Nat) (ds : List Nat) (d : Nat) :
    ofDigits b (ds ++ [d]) = b * ofDigits b ds + d := by
  simp [ofDigits]

/-- Evaluating the digits of a number gives the number. -/
theorem ofDigits_digits {b : Nat} (hb : 2 ≤ b) (n : Nat) : ofDigits b (digits b n) = n := by
  have hmax : max b 2 = b := by omega
  induction n using Nat.strongRecOn with
  | _ n ih =>
    rw [digits, hmax]
    by_cases h : n < b
    · simp [h, ofDigits]
    · rw [ite_cond_eq_false _ _ (eq_false h), ofDigits_append_singleton,
        ih _ (Nat.div_lt_self (by omega) (by omega))]
      exact Nat.div_add_mod n b

/-- Every digit is below the base. -/
theorem lt_of_mem_digits {b : Nat} (hb : 2 ≤ b) {n d : Nat} (h : d ∈ digits b n) : d < b := by
  have hmax : max b 2 = b := by omega
  induction n using Nat.strongRecOn with
  | _ n ih =>
    rw [digits, hmax] at h
    by_cases hn : n < b
    · simp [hn] at h
      omega
    · simp [hn] at h
      rcases h with h | h
      · exact ih _ (Nat.div_lt_self (by omega) (by omega)) h
      · subst h
        exact Nat.mod_lt _ (by omega)

/-! ### Spelling -/

/-- The character of a digit below sixteen, with small letters from ten on. -/
def lowerDigit (d : Nat) : Char :=
  Char.ofNat (if d < 10 then 0x30 + d else 0x57 + d)

/-- The character of a digit below sixteen, with capital letters from ten on. -/
def upperDigit (d : Nat) : Char :=
  Char.ofNat (if d < 10 then 0x30 + d else 0x37 + d)

/-- The decimal numeral of a number. -/
def decimal (n : Nat) : Text :=
  (digits 10 n).map fun d => lowerDigit d

/-- The decimal numeral of an integer, with a minus sign if it is negative. -/
def decimalInt : Int → Text
  | .ofNat n => decimal n
  | .negSucc n => '-' :: decimal (n + 1)

/-- The hexadecimal numeral of `n`, filled up with zeros to `width` digits. -/
def hexDigits (width n : Nat) : List Nat :=
  let ds := digits 16 n
  List.replicate (width - ds.length) 0 ++ ds

/-- The hexadecimal numeral of `n` in small letters, with at least `width` digits. -/
def lowerHex (width n : Nat) : Text :=
  (hexDigits width n).map fun d => lowerDigit d

/-- The hexadecimal numeral of `n` in capital letters, with at least `width` digits. -/
def upperHex (width n : Nat) : Text :=
  (hexDigits width n).map fun d => upperDigit d

/-! ### Reading digits -/

/-- The value of a decimal digit of ASCII. -/
def decimalDigit? : CodePoint → Option Nat
  | .scalar c => if '0' ≤ c ∧ c ≤ '9' then some (c.toNat - 0x30) else none
  | .surrogate _ => none

/-- The value of a hexadecimal digit, in letters of either case. -/
def hexDigit? : CodePoint → Option Nat
  | .scalar c =>
    if '0' ≤ c ∧ c ≤ '9' then some (c.toNat - 0x30)
    else if 'a' ≤ c ∧ c ≤ 'f' then some (c.toNat - 0x57)
    else if 'A' ≤ c ∧ c ≤ 'F' then some (c.toNat - 0x37)
    else none
  | .surrogate _ => none

/-- The decimal digits that `t` starts with, and the text after them. -/
def spanDecimal : Text → List Nat × Text
  | [] => ([], [])
  | c :: t =>
    match decimalDigit? c with
    | some d => let (ds, rest) := spanDecimal t; (d :: ds, rest)
    | none => ([], c :: t)

/-- What comes after the digits is an end of the text. -/
theorem spanDecimal_suffix (t : Text) : (spanDecimal t).2 <:+ t := by
  induction t with
  | nil => exact List.suffix_rfl
  | cons c t ih =>
    unfold spanDecimal
    split
    · exact ih.trans (List.suffix_cons c t)
    · exact List.suffix_rfl

/-- If there are digits, then the first character of the text is one of them. -/
theorem spanDecimal_suffix_tail {t : Text} (h : (spanDecimal t).1 ≠ []) :
    (spanDecimal t).2 <:+ t.tail := by
  cases t with
  | nil => exact absurd rfl h
  | cons c t =>
    unfold spanDecimal at h ⊢
    split at h
    · exact spanDecimal_suffix t
    · exact absurd rfl h

end Deparse.Numeral
