import Deparse.Json.Token
import Deparse.Json.Writer
import Deparse.Proofs.Number.Numeral
import Deparse.Proofs.Text.Basic

/-!
# Quoted texts read back

Reading a quoted text finds the text and stops after the closing quote (`lexeme_quotedText`).  A
code point is read as itself, whichever way it was written, but two escapes in a row that form a
surrogate pair are one code point.  So a text in which such surrogates meet cannot be written in
ASCII; all others can.
-/

namespace Deparse.Json

/-! ### One code point -/

/-- What is read in front of the rest. -/
def prepend (ms : List (CodePoint × Bool)) (p : List (CodePoint × Bool) × Text) :
    List (CodePoint × Bool) × Text :=
  (ms ++ p.1, p.2)

/-- A unit is spelled by four digits that are read as the unit. -/
theorem unit?_lowerHex {n : Nat} (h : n < 0x10000) :
    ∃ a b c d, Numeral.lowerHex 4 n = [a, b, c, d] ∧ unit? a b c d = some n := by
  have length := Numeral.length_hexDigits (w := 4) (n := n) (by omega) h
  have value := Numeral.ofDigits_hexDigits 4 n
  have bound : ∀ d ∈ Numeral.hexDigits 4 n, d < 16 := fun _ => Numeral.lt_of_mem_hexDigits
  -- a unit is written with four digits
  match digits : Numeral.hexDigits 4 n, length with
  | [a, b, c, d], _ =>
    rw [digits] at value bound
    refine ⟨_, _, _, _, by rw [Numeral.lowerHex, digits]; rfl, ?_⟩
    have digit (e : Nat) (he : e ∈ [a, b, c, d]) :
        Numeral.hexDigit? (Numeral.lowerDigit e) = some e :=
      Numeral.hexDigit?_lowerDigit e (bound e he)
    simp [unit?, digit, value]

/-- An escaped unit is read as a mark, if the text does not end with it. -/
theorem unquote_unitEscape {n : Nat} (h : n < 0x10000) {t : Text} (ht : t ≠ []) :
    unquote (unitEscape n ++ t) = (unquote t).map (prepend [(.ofUnit n, true)]) := by
  obtain ⟨a, b, c, d, spelled, value⟩ := unit?_lowerHex h
  obtain ⟨e, u, rfl⟩ := List.exists_cons_of_ne_nil ht
  have escape : unitEscape n ++ e :: u =
      .scalar '\\' :: .scalar 'u' :: a :: b :: c :: d :: e :: u := by
    rw [unitEscape, spelled]
    rfl
  rw [escape, unquote, value]
  rfl

theorem unquote_point {c : CodePoint} (quote : c ≠ '"') (backslash : c ≠ '\\') (h : 0x20 ≤ c.value)
    (t : Text) : unquote (c :: t) = (unquote t).map (prepend [(c, false)]) := by
  rw [unquote, if_neg (by omega)]
  · rfl
  · exact quote
  all_goals
    intros
    exact backslash (by assumption)

/-- The marks that a code point is read as, depending on whether everything beyond ASCII is
escaped. -/
inductive Spells (ascii : Bool) : List (CodePoint × Bool) → CodePoint → Prop
  | plain (c : CodePoint) : Spells ascii [(c, false)] c
  | escaped {c : CodePoint} (h : ascii = true ∨ c.value < 0x20) : Spells ascii [(c, true)] c
  | halves {high low c : CodePoint} (pair : CodePoint.ofPair? high low = some c)
    (first : ∀ b, CodePoint.ofPair? b high = none) : Spells ascii [(high, true), (low, true)] c

/-- An escape by number is read as the code point. -/
theorem exists_spells_numericEscape {ascii : Bool} {c : CodePoint}
    (h : ascii = true ∨ c.value < 0x20) :
    ∃ ms, Spells ascii ms c ∧
      ∀ t, t ≠ [] → unquote (numericEscape c ++ t) = (unquote t).map (prepend ms) := by
  unfold numericEscape
  split
  · rename_i unit
    refine ⟨_, .escaped h, fun t ht => ?_⟩
    rw [unquote_unitEscape unit ht, CodePoint.ofUnit_value unit]
  · rename_i beyond
    -- beyond the units there are two escapes, of the halves
    have bound : c.value < 0x110000 := by
      cases c with
      | scalar c =>
        have valid : c.toNat < 0xD800 ∨ 0xDFFF < c.toNat ∧ c.toNat < 0x110000 := c.valid
        simp only [CodePoint.value]
        omega
      | surrogate n =>
        simp only [CodePoint.value]
        omega
    refine ⟨_, .halves (CodePoint.ofPair?_halves (by omega)) fun b => ?_, fun t ht => ?_⟩
    · -- the first half is a high surrogate, so that it is no second half
      refine CodePoint.ofPair?_eq_none (.inr ?_)
      rw [CodePoint.value_ofUnit (by omega) (by omega)]
      omega
    · have rest : unitEscape (0xDC00 + (c.value - 0x10000) % 1024) ++ t ≠ [] := by
        simp [ht]
      rw [List.append_assoc, unquote_unitEscape (by omega) rest, unquote_unitEscape (by omega) ht]
      cases unquote t <;> rfl

/-- The quoted form of a code point is read as the code point, in front of anything. -/
theorem exists_spells (ascii : Bool) (c : CodePoint) :
    ∃ ms, Spells ascii ms c ∧
      ∀ t, t ≠ [] → unquote (quotedPoint ascii c ++ t) = (unquote t).map (prepend ms) := by
  unfold quotedPoint
  split
  case h_8 quote backslash _ _ _ _ _ =>
    split
    · rename_i escaped
      simp only [Bool.or_eq_true, decide_eq_true_eq, Bool.and_eq_true] at escaped
      exact exists_spells_numericEscape (escaped.elim .inr fun h => .inl h.1)
    · rename_i raw
      simp only [Bool.or_eq_true, decide_eq_true_eq, Bool.and_eq_true, not_or] at raw
      exact ⟨_, .plain _, fun t _ => unquote_point quote backslash (by omega) t⟩
  all_goals exact ⟨_, .plain _, fun t _ => rfl⟩

/-! ### Whole texts -/

theorem paired_plain (c : CodePoint) (ms : List (CodePoint × Bool)) :
    paired ((c, false) :: ms) = c :: paired ms := by
  cases ms <;> rfl

/-- An escape that makes no pair with the next one stands for itself. -/
theorem paired_escaped {c : CodePoint} {ms : List (CodePoint × Bool)}
    (h : ∀ d, ms.head? = some (d, true) → CodePoint.ofPair? c d = none) :
    paired ((c, true) :: ms) = c :: paired ms := by
  match ms with
  | [] => rfl
  | (d, false) :: ms => rfl
  | (d, true) :: ms => simp only [paired, h d rfl]

theorem paired_halves {high low c : CodePoint} (pair : CodePoint.ofPair? high low = some c)
    (ms : List (CodePoint × Bool)) :
    paired ((high, true) :: (low, true) :: ms) = c :: paired ms := by
  simp only [paired, pair]

/-- A quoted text is read as marks of which the text is made. -/
theorem exists_unquote (ascii : Bool) {t : Text} (unpaired : ascii = true → t.IsUnpaired) :
    ∃ ms, paired ms = t ∧
      (∀ rest, unquote (t.flatMap (quotedPoint ascii) ++ .scalar '"' :: rest) = .ok (ms, rest)) ∧
      ∀ d, ms.head? = some (d, true) → t.head? = some d ∨ ∀ b, CodePoint.ofPair? b d = none := by
  induction t with
  | nil => exact ⟨[], rfl, fun _ => rfl, fun _ h => by cases h⟩
  | cons c t ih =>
    obtain ⟨ms, text, read, head⟩ := ih fun h => (unpaired h).tail
    obtain ⟨ns, spells, readPoint⟩ := exists_spells ascii c
    refine ⟨ns ++ ms, ?_, fun rest => ?_, ?_⟩
    · cases spells with
      | plain => rw [List.singleton_append, paired_plain, text]
      | halves pair => rw [List.cons_append, List.singleton_append, paired_halves pair, text]
      | escaped h =>
        rw [List.singleton_append, paired_escaped, text]
        -- the mark after an escape must not make a pair with it
        intro d hd
        rcases head d hd with next | never
        · -- with escapes beyond ASCII the text itself has no pairs, and a control is no surrogate
          rcases h with ascii | control
          · have := (List.isChain_cons.1 (unpaired ascii)).1 d next
            exact this
          · exact CodePoint.ofPair?_eq_none (.inl (by omega))
        · exact never c
    · rw [List.flatMap_cons, List.append_assoc, readPoint _ (by simp), read]
      rfl
    · intro d hd
      cases spells with
      | plain => cases hd
      | escaped =>
        cases hd
        exact .inl rfl
      | halves pair first =>
        cases hd
        exact .inr first

/-- **A quoted text is read back**, whatever comes after it. -/
theorem lexeme_quotedText (ascii : Bool) {t : Text} (unpaired : ascii = true → t.IsUnpaired)
    (rest : Text) :
    lexeme '"' (t.flatMap (quotedPoint ascii) ++ .scalar '"' :: rest) = (.text t, rest) := by
  obtain ⟨ms, text, read, -⟩ := exists_unquote ascii unpaired
  have token : lexeme '"' (t.flatMap (quotedPoint ascii) ++ .scalar '"' :: rest)
      = (.text (paired ms), rest) := by
    simp [lexeme, punctuation?, read]
  rw [token, text]

end Deparse.Json
