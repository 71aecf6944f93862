import Deparse.Number.Positional
import Mathlib.Algebra.Group.Nat.Defs
import Mathlib.Data.List.Induction

/-!
# Numerals read back

A numeral filled up to a width that the number fits into has that many digits (`length_hexDigits`),
and evaluates to the number all the same (`ofDigits_hexDigits`).  The digits of a decimal numeral
are read back in front of any text that does not go on with a digit (`spanDecimal_decimal`).
-/

namespace Deparse.Numeral

/-! ### Digits -/

theorem digits_ne_nil (b n : Nat) : digits b n ≠ [] := by
  rw [digits]
  split <;> simp

/-- Only the numeral of zero starts with a zero. -/
theorem eq_zero_of_digits {b n : Nat} (hb : 2 ≤ b) {ds : List Nat} (h : digits b n = 0 :: ds) :
    n = 0 ∧ ds = [] := by
  have hmax : max b 2 = b := by omega
  induction n using Nat.strongRecOn generalizing ds with
  | _ n ih =>
    rw [digits, hmax] at h
    by_cases small : n < b
    · rw [if_pos small] at h
      cases h
      exact ⟨rfl, rfl⟩
    · rw [if_neg small] at h
      -- a number of more digits has a quotient, which is not zero but would start with a zero too
      have quotient : 0 < n / b := Nat.div_pos (by omega) (by omega)
      obtain ⟨d, es, first⟩ := List.exists_cons_of_ne_nil (digits_ne_nil b (n / b))
      rw [first, List.cons_append] at h
      obtain ⟨rfl, -⟩ := List.cons.inj h
      have := (ih (n / b) (Nat.div_lt_self (by omega) (by omega)) first).1
      omega

/-- What `k` digits come to is below `b ^ k`. -/
theorem ofDigits_lt {b : Nat} {ds : List Nat} (h : ∀ d ∈ ds, d < b) :
    ofDigits b ds < b ^ ds.length := by
  induction ds using List.reverseRecOn with
  | nil => exact Nat.one_pos
  | append_singleton ds d ih =>
    have hd : d < b := h d (by simp)
    have hds := ih fun e he => h e (List.mem_append_left _ he)
    rw [ofDigits_append_singleton, List.length_append, List.length_singleton, Nat.pow_succ]
    calc b * ofDigits b ds + d < b * ofDigits b ds + b := by omega
      _ = (ofDigits b ds + 1) * b := by rw [Nat.succ_mul, Nat.mul_comm]
      _ ≤ b ^ ds.length * b := Nat.mul_le_mul_right b hds

/-- A number below `b ^ k` has at most `k` digits in base `b`. -/
theorem length_digits_le {b : Nat} (hb : 2 ≤ b) {k n : Nat} (hk : 0 < k) (h : n < b ^ k) :
    (digits b n).length ≤ k := by
  have hmax : max b 2 = b := by omega
  induction k generalizing n with
  | zero => omega
  | succ k ih =>
    rw [digits, hmax]
    by_cases small : n < b
    · simp [small]
    · -- the last digit is split off, and the quotient is below the next smaller power
      have hquot : n / b < b ^ k := by
        rw [Nat.div_lt_iff_lt_mul (by omega)]
        simpa [Nat.pow_succ] using h
      have hk' : 0 < k := by
        rcases Nat.eq_zero_or_pos k with rfl | hk'
        · simp at h
          omega
        · exact hk'
      have := ih hk' hquot
      simp only [small, ↓reduceIte, List.length_append, List.length_singleton]
      omega

/-! ### Hexadecimal numerals -/

/-- A numeral is filled up to its width. -/
theorem length_hexDigits {w n : Nat} (hw : 0 < w) (h : n < 16 ^ w) :
    (hexDigits w n).length = w := by
  have := length_digits_le (b := 16) (by omega) hw h
  simp only [hexDigits, List.length_append, List.length_replicate]
  omega

theorem lt_of_mem_hexDigits {w n d : Nat} (h : d ∈ hexDigits w n) : d < 16 := by
  rcases List.mem_append.1 h with h | h
  · rw [List.eq_of_mem_replicate h]
    omega
  · exact lt_of_mem_digits (by omega) h

/-- Leading zeros do not change what a numeral evaluates to. -/
theorem ofDigits_hexDigits (w n : Nat) : ofDigits 16 (hexDigits w n) = n := by
  have zeros : ∀ k, (List.replicate k 0).foldl (fun m d => 16 * m + d) 0 = 0 := by
    intro k
    induction k with
    | zero => rfl
    | succ k ih => simpa [List.replicate_succ] using ih
  have h := ofDigits_digits (b := 16) (by omega) n
  simp only [ofDigits, hexDigits, List.foldl_append, zeros] at h ⊢
  exact h

theorem hexDigit?_upperDigit : ∀ d < 16, hexDigit? (upperDigit d) = some d := by
  decide

theorem hexDigit?_lowerDigit : ∀ d < 16, hexDigit? (lowerDigit d) = some d := by
  decide

/-! ### Decimal numerals -/

section Characters

variable {P : CodePoint → Prop} (digit : ∀ d < 10, P (lowerDigit d))
include digit

theorem forall_mem_decimal (n : Nat) : ∀ c ∈ decimal n, P c := by
  intro c hc
  obtain ⟨d, hd, rfl⟩ := List.mem_map.1 hc
  exact digit d (lt_of_mem_digits (by omega) hd)

/-- What holds of the digits and of the minus sign holds of every character of a numeral. -/
theorem forall_mem_decimalInt (minus : P '-') (n : Int) : ∀ c ∈ decimalInt n, P c := by
  cases n with
  | ofNat n => exact forall_mem_decimal digit n
  | negSucc n => exact List.forall_mem_cons.2 ⟨minus, forall_mem_decimal digit (n + 1)⟩

end Characters

theorem decimalDigit?_lowerDigit : ∀ d < 10, decimalDigit? (lowerDigit d) = some d := by
  decide

theorem spanDecimal_of_head? {t : Text} (h : ∀ c ∈ t.head?, decimalDigit? c = none) :
    spanDecimal t = ([], t) := by
  cases t with
  | nil => rfl
  | cons c t => simp only [spanDecimal, h c rfl]

/-- Digits are taken from a text as far as the first other character. -/
theorem spanDecimal_map {ds : List Nat} (hds : ∀ d ∈ ds, d < 10) {rest : Text}
    (h : ∀ c ∈ rest.head?, decimalDigit? c = none) :
    spanDecimal (ds.map (fun d => (lowerDigit d : CodePoint)) ++ rest) = (ds, rest) := by
  induction ds with
  | nil => exact spanDecimal_of_head? h
  | cons d ds ih =>
    have digit := decimalDigit?_lowerDigit d (hds d (List.mem_cons_self ..))
    have tail := ih fun e he => hds e (List.mem_cons_of_mem _ he)
    simp only [List.map_cons, List.cons_append, spanDecimal, digit, tail]

/-- A numeral is taken from a text as its digits. -/
theorem spanDecimal_decimal (n : Nat) {rest : Text}
    (h : ∀ c ∈ rest.head?, decimalDigit? c = none) :
    spanDecimal (decimal n ++ rest) = (digits 10 n, rest) :=
  spanDecimal_map (fun _ => lt_of_mem_digits (by omega)) h

theorem lt_of_decimalDigit? {c : CodePoint} {d : Nat} (h : decimalDigit? c = some d) : d < 10 := by
  cases c with
  | scalar c =>
    simp only [decimalDigit?] at h
    split at h
    · rename_i range
      have high : c.toNat ≤ '9'.toNat := range.2
      cases h
      have : '9'.toNat = 0x39 := rfl
      omega
    · cases h
  | surrogate => cases h

theorem lt_of_mem_spanDecimal {t : Text} {d : Nat} (h : d ∈ (spanDecimal t).1) : d < 10 := by
  induction t with
  | nil => cases h
  | cons c t ih =>
    unfold spanDecimal at h
    split at h
    · rename_i e digit
      rcases List.mem_cons.1 h with rfl | h
      · exact lt_of_decimalDigit? digit
      · exact ih h
    · cases h

end Deparse.Numeral
