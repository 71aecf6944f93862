import Deparse.Proofs.Literal.Reader
import Deparse.Proofs.Number.Numeral
import Deparse.Proofs.Text.Basic

/-!
# Literals read back

Reading the literal of a text finds the text and leaves what stands after the literal
(`readQuoted_quoted`), and everything in the literal is printable.

The text is read code point by code point (`readBody_escapedPoint`), and each escape is read
whatever comes after it: an escape of one letter ends with the letter, `\x` and `\u` take the number
of digits that `length_hexDigits` says is there, and a brace is closed.  Only a `#` looks further.
It looks at one character, and escaping leaves the characters that open an interpolation in their
places (`opens_marks_escape`), so that the reader sees an opener exactly where the writer did.
-/

namespace Deparse

/-! ### Digits in a literal -/

namespace Numeral

theorem upperDigit_ne_brace : ∀ d < 16, (upperDigit d : CodePoint) ≠ '\x7d' := by
  decide

theorem isPrintable_upperDigit : ∀ d < 16, (upperDigit d : CodePoint).isPrintable = true := by
  decide

end Numeral

namespace Literal

open Numeral

/-! ### Reading numerals -/

/-- Digits are read as far as their number is asked for. -/
theorem readDigits_marks (ds : List Nat) (hds : ∀ d ∈ ds, d < 16) (n : Nat) (ms : List Mark) :
    readDigits ds.length n (marks (ds.map fun d => upperDigit d) ++ ms)
      = some (ds.foldl (fun m d => 16 * m + d) n, ms) := by
  induction ds generalizing n with
  | nil => rfl
  | cons d ds ih =>
    have hd := hexDigit?_upperDigit d (hds d (by simp))
    have hrest := ih (fun e he => hds e (by simp [he])) (16 * n + d)
    simpa [readDigits, hd] using hrest

/-- Digits are read as far as the brace after them. -/
theorem readBraced_marks (ds : List Nat) (hds : ∀ d ∈ ds, d < 16) (n : Nat) (ms : List Mark) :
    readBraced n (marks (ds.map fun d => upperDigit d) ++ .point '\x7d' :: ms)
      = some (ds.foldl (fun m d => 16 * m + d) n, ms) := by
  induction ds generalizing n with
  | nil => simp [readBraced]
  | cons d ds ih =>
    have hd := hexDigit?_upperDigit d (hds d (by simp))
    have hne := upperDigit_ne_brace d (hds d (by simp))
    have hrest := ih (fun e he => hds e (by simp [he])) (16 * n + d)
    simpa [readBraced, hd, hne] using hrest

/-- A numeral filled up to `w` digits is read as the number it was written for. -/
theorem readDigits_upperHex {w n : Nat} (hw : 0 < w) (h : n < 16 ^ w) (ms : List Mark) :
    readDigits w 0 (marks (upperHex w n) ++ ms) = some (n, ms) := by
  have read := readDigits_marks (hexDigits w n) (fun _ => lt_of_mem_hexDigits) 0 ms
  rw [length_hexDigits hw h] at read
  rw [upperHex, read]
  exact congrArg (fun m => some (m, ms)) (ofDigits_hexDigits w n)

/-- So is a numeral in braces; its first digit is read apart, since there has to be one. -/
theorem readBraced_upperHex (n : Nat) (ms : List Mark) :
    ((readDigits 1 0 (marks (upperHex 1 n) ++ .point '\x7d' :: ms)).bind
      fun (m, rest) => readBraced m rest) = some (n, ms) := by
  have hds : ∀ d ∈ hexDigits 1 n, d < 16 := fun _ => lt_of_mem_hexDigits
  have hval : (hexDigits 1 n).foldl (fun m d => 16 * m + d) 0 = n := ofDigits_hexDigits 1 n
  -- a numeral has a digit, also that of zero
  have hne : hexDigits 1 n ≠ [] := by
    rw [hexDigits, digits]
    split <;> simp
  obtain ⟨d, ds, hcons⟩ := List.exists_cons_of_ne_nil hne
  rw [hcons] at hds hval
  have first := hexDigit?_upperDigit d (hds d (by simp))
  have rest := readBraced_marks ds (fun e he => hds e (by simp [he])) d ms
  have hval' : ds.foldl (fun m d => 16 * m + d) d = n := by simpa using hval
  rw [hval'] at rest
  rw [upperHex, hcons]
  simpa [readDigits, first] using rest

/-- The number of a code point names the code point. -/
theorem codePoint?_value (c : CodePoint) : codePoint? c.value = some c := by
  by_cases unit : c.value ≤ 0xFFFF
  · rw [codePoint?, if_pos unit, CodePoint.ofUnit_value (by omega)]
  · cases c with
    | scalar c =>
      -- the surrogates leave a gap in the numbers of characters
      have valid : c.toNat < 0xD800 ∨ 0xDFFF < c.toNat ∧ c.toNat < 0x110000 := c.valid
      simp only [CodePoint.value] at unit ⊢
      have inRange : c.toNat ≤ 0x10FFFF := by omega
      rw [codePoint?, if_neg unit, if_pos inRange, Char.ofNat_toNat]
    | surrogate n =>
      simp only [CodePoint.value] at unit
      omega

/-! ### Reading escapes -/

/-- An escape of one letter is read as what it was written for. -/
theorem readEscape_named {c : CodePoint} {t : Text} (h : namedEscape? c = some t) :
    ∃ u : Text, t = .scalar '\\' :: u ∧ ∀ ms, readEscape (marks u ++ ms) = some (c, ms) := by
  unfold namedEscape? at h
  split at h <;> cases h <;> exact ⟨_, rfl, fun ms => rfl⟩

/-- Without a brace behind it the letter of a unit is followed by four digits. -/
theorem readEscape_unit {ms : List Mark} (h : ∀ rest, ms ≠ .point '\x7b' :: rest) :
    readEscape (.point 'u' :: ms) = numbered (readDigits 4 0 ms) := by
  unfold readEscape
  split
  · rename_i heq
    simp at heq
  · rename_i rest heq
    exact absurd (List.cons.inj heq).2 (h rest)
  · rename_i heq
    rw [(List.cons.inj heq).2]
  · rename_i notUnit heq
    obtain ⟨hc, hms⟩ := List.cons.inj heq
    exact (notUnit (Mark.point.inj hc).symm).elim
  · rename_i h
    exact absurd rfl (h _ _)

/-- So is an escape by number. -/
theorem readEscape_numeric (c : CodePoint) :
    ∃ u : Text, numericEscape c = .scalar '\\' :: u ∧
      ∀ ms, readEscape (marks u ++ ms) = some (c, ms) := by
  have hvalue := codePoint?_value c
  unfold numericEscape
  split
  · rename_i delete
    rw [delete] at hvalue
    refine ⟨[.scalar 'x', .scalar '7', .scalar 'F'], rfl, fun ms => ?_⟩
    calc readEscape (marks [.scalar 'x', .scalar '7', .scalar 'F'] ++ ms)
        = numbered (some (0x7F, ms)) := rfl
      _ = some (c, ms) := by simp [numbered, hvalue]
  · split
    · rename_i unit
      refine ⟨.scalar 'u' :: upperHex 4 c.value, rfl, fun ms => ?_⟩
      have digits := readDigits_upperHex (w := 4) (by omega) (Nat.lt_succ_of_le unit) ms
      -- a brace is no digit, so the escape is not taken for the one in braces
      have noBrace : ∀ rest, marks (upperHex 4 c.value) ++ ms ≠ .point '\x7b' :: rest := by
        intro rest heq
        rw [heq] at digits
        simp [readDigits, hexDigit?] at digits
      rw [marks_cons, List.cons_append, readEscape_unit noBrace, digits]
      simp [numbered, hvalue]
    · refine ⟨.scalar 'u' :: .scalar '\x7b' :: (upperHex 1 c.value ++ "\x7d"), rfl, fun ms => ?_⟩
      have digits := readBraced_upperHex c.value ms
      have closing : marks (upperHex 1 c.value ++ "\x7d") ++ ms
          = marks (upperHex 1 c.value) ++ .point '\x7d' :: ms := by
        rw [marks_append, List.append_assoc]
        rfl
      rw [marks_cons, marks_cons, List.cons_append, List.cons_append, readEscape, closing, digits]
      simp [numbered, hvalue]

/-! ### Reading escaped texts -/

/-- Escaping a code point either copies it, and then it is neither a quote nor a backslash, or
writes an escape that is read as the code point. -/
theorem escapedPoint_cases (c : CodePoint) :
    (escapedPoint c = [c] ∧ c.isPrintable = true ∧ c ≠ '"' ∧ c ≠ '\\') ∨
    (spliceOpeners.contains c = false ∧ ∃ u : Text, escapedPoint c = .scalar '\\' :: u ∧
      ∀ ms, readEscape (marks u ++ ms) = some (c, ms)) := by
  unfold escapedPoint
  cases hname : namedEscape? c with
  | some t =>
    refine .inr ⟨?_, readEscape_named hname⟩
    unfold namedEscape? at hname
    split at hname <;> cases hname <;> rfl
  | none =>
    by_cases printable : c.isPrintable = true
    · refine .inl ⟨by simp [printable], printable, ?_, ?_⟩ <;> rintro rfl <;> cases hname
    · obtain ⟨u, hu, hread⟩ := readEscape_numeric c
      refine .inr ⟨?_, u, by simp [printable, hu], hread⟩
      cases opener : spliceOpeners.contains c with
      | false => rfl
      | true =>
        -- what is escaped by its number is not printable, and the openers are
        have openersPrintable : ∀ d ∈ spliceOpeners, d.isPrintable = true := by decide
        exact absurd (openersPrintable c (List.contains_iff_mem.1 opener)) printable

/-- An escaped code point is read as the code point, whatever comes after it; only a `#` must not
meet an opener. -/
theorem readBody_escapedPoint {c : CodePoint} {ms : List Mark}
    (hash : c = '#' → opens ms = false) :
    readBody (marks (escapedPoint c) ++ ms) = prepend [.point c] (readBody ms) := by
  rcases escapedPoint_cases c with ⟨hc, -, quote, backslash⟩ | ⟨-, u, hu, hread⟩
  · rw [hc]
    exact readBody_point quote backslash hash
  · rw [hu]
    exact readBody_escape (hread ms)

/-- Escaping leaves the openers of interpolations in their places. -/
theorem opens_marks_escape (t : Text) (ms : List Mark) :
    opens (marks (escape t) ++ ms) = if t = [] then opens ms else opensSplice t := by
  cases t with
  | nil => rfl
  | cons c t =>
    by_cases hash : c = '#' ∧ opensSplice t = true
    · -- the opener behind the `#` does not start the text
      obtain ⟨rfl, ht⟩ := hash
      simp [escape, ht]
      rfl
    · have heq : escape (c :: t) = escapedPoint c ++ escape t := by
        rw [escape]
        exact congrArg (· ++ escape t) (if_neg hash)
      rw [heq, marks_append, List.append_assoc]
      rcases escapedPoint_cases c with ⟨hc, -⟩ | ⟨hc, u, hu, -⟩
      · simp [hc, opens, opensSplice]
      · simp only [hu, marks_cons, List.cons_append, opens, opensSplice, hc]
        rfl

/-- An escaped text is read as the text, unless it ends with a `#` and an opener follows: then the
two are taken for an interpolation. -/
theorem readBody_marks_escape (t : Text) (ms : List Mark) :
    readBody (marks (escape t) ++ ms)
      = if t.getLast? = some (.scalar '#') ∧ opens ms = true then none
        else prepend (marks t) (readBody ms) := by
  induction t with
  | nil => simp [escape]
  | cons c t ih =>
    have hlast : t ≠ [] → (c :: t).getLast? = t.getLast? := fun ht => by
      rw [List.getLast?_cons, List.getLast?_eq_some_getLast ht]
      rfl
    by_cases hash : c = '#' ∧ opensSplice t = true
    · -- the writer saw the opener and escaped the `#`
      obtain ⟨rfl, ht⟩ := hash
      have hne : t ≠ [] := by
        rintro rfl
        cases ht
      have read : readEscape (marks (.scalar '#' :: escape t) ++ ms)
          = some (.scalar '#', marks (escape t) ++ ms) := rfl
      have heq : escape (.scalar '#' :: t) = .scalar '\\' :: .scalar '#' :: escape t := by
        simp [escape, ht]
        rfl
      -- the escape is read as a `#`, and the opener is left to the rest
      rw [heq, marks_cons, List.cons_append, readBody_escape read, ih, hlast hne]
      split <;> simp
    · have heq : escape (c :: t) = escapedPoint c ++ escape t := by
        rw [escape]
        exact congrArg (· ++ escape t) (if_neg hash)
      rw [heq, marks_append, List.append_assoc]
      -- a last `#` is in front of the marks that follow, any other in front of the escaped rest
      by_cases hne : t = []
      · subst hne
        by_cases stray : c = '#' ∧ opens ms = true
        · obtain ⟨rfl, ho⟩ := stray
          simp only [List.getLast?_singleton, ho, and_self, ↓reduceIte]
          exact readBody_stray ho
        · have hopens : c = '#' → opens ms = false := by
            intro hc
            simpa [hc] using stray
          have point : readBody (marks (escapedPoint c) ++ ms) = _ := readBody_escapedPoint hopens
          simpa [escape, stray] using point
      · have hopens : c = '#' → opens (marks (escape t) ++ ms) = false := by
          intro hc
          rw [opens_marks_escape, if_neg hne]
          simpa [hc] using hash
        rw [readBody_escapedPoint hopens, ih, hlast hne]
        split <;> simp

/-! ### What a literal holds is printable -/

theorem isPrintable_of_mem_upperHex {w n : Nat} {c : CodePoint} (h : c ∈ upperHex w n) :
    c.isPrintable = true := by
  obtain ⟨d, hd, rfl⟩ := List.mem_map.1 h
  exact isPrintable_upperDigit d (lt_of_mem_hexDigits hd)

theorem isPrintable_of_mem_namedEscape {c d : CodePoint} {t : Text} (h : namedEscape? c = some t)
    (hd : d ∈ t) : d.isPrintable = true := by
  have all : ∀ d ∈ t, d.isPrintable = true := by
    unfold namedEscape? at h
    split at h <;> cases h <;> decide
  exact all d hd

theorem isPrintable_of_mem_numericEscape {c d : CodePoint} (hd : d ∈ numericEscape c) :
    d.isPrintable = true := by
  have delete : ∀ d ∈ ("\\x7F" : Text), d.isPrintable = true := by decide
  have unit : ∀ d ∈ ("\\u" : Text), d.isPrintable = true := by decide
  have opening : ∀ d ∈ ("\\u\x7b" : Text), d.isPrintable = true := by decide
  have closing : ∀ d ∈ ("\x7d" : Text), d.isPrintable = true := by decide
  unfold numericEscape at hd
  split at hd
  · exact delete d hd
  · split at hd
    · rcases List.mem_append.1 hd with hd | hd
      · exact unit d hd
      · exact isPrintable_of_mem_upperHex hd
    · rcases List.mem_append.1 hd with hd | hd
      · rcases List.mem_append.1 hd with hd | hd
        · exact opening d hd
        · exact isPrintable_of_mem_upperHex hd
      · exact closing d hd

theorem isPrintable_of_mem_escapedPoint {c d : CodePoint} (hd : d ∈ escapedPoint c) :
    d.isPrintable = true := by
  unfold escapedPoint at hd
  split at hd
  · rename_i t hname
    exact isPrintable_of_mem_namedEscape hname hd
  · split at hd
    · rename_i printable
      rwa [List.mem_singleton.1 hd]
    · exact isPrintable_of_mem_numericEscape hd

/-- What is written for a text is printable, whatever the text holds. -/
theorem isPrintable_of_mem_escape {t : Text} {d : CodePoint} (hd : d ∈ escape t) :
    d.isPrintable = true := by
  have hash : ∀ d ∈ ("\\#" : Text), d.isPrintable = true := by decide
  induction t with
  | nil => cases hd
  | cons c t ih =>
    rw [escape] at hd
    rcases List.mem_append.1 hd with hd | hd
    · split at hd
      · exact hash d hd
      · exact isPrintable_of_mem_escapedPoint hd
    · exact ih hd

/-! ### Literals -/

/-- **Literals read back**: from the literal of a text, with anything after it, the text is read and
what comes after is left; and the literal holds printable characters only. -/
theorem readQuoted_quoted (t rest : Text) :
    readQuoted (quoted t ++ rest) = some (t, rest) ∧ ∀ c ∈ quoted t, c.isPrintable = true := by
  constructor
  · have hmarks : marks (quoted t ++ rest)
        = .point '"' :: (marks (escape t) ++ .point '"' :: marks rest) := by
      simp [quoted]
      rfl
    have quote : opens (.point '"' :: marks rest) = false := rfl
    have body : readBody (marks (escape t) ++ .point '"' :: marks rest)
        = some (marks t, marks rest) := by
      rw [readBody_marks_escape, readBody_quote]
      simp [quote]
    rw [readQuoted, hmarks]
    simp [readLiteral, body]
  · have quote : ∀ c ∈ ("\"" : Text), c.isPrintable = true := by decide
    intro c hc
    rcases List.mem_append.1 hc with hc | hc
    · rcases List.mem_append.1 hc with hc | hc
      · exact quote c hc
      · exact isPrintable_of_mem_escape hc
    · exact quote c hc

end Literal

end Deparse
