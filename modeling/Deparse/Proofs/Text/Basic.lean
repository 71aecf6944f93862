import Deparse.Text.CodePoint
import Mathlib.Data.List.Chain

/-!
# Code points and texts

Every code point of at most sixteen bits is named by its number (`ofUnit_value`), and every other is
named by the pair of surrogates that it is halved into (`ofPair?_halves`).  Texts may hold
surrogates (`Text.IsScalar`), and surrogates that form a pair (`Text.IsUnpaired`).

What holds of texts and of any two texts in a row holds of texts with a separator between them
(`closed_intercalate`).
-/

namespace Deparse

/-- A property of lists that two in a row keep is kept by lists with a separator between them. -/
theorem closed_intercalate {α : Type} {P : List α → Prop} (nil : P [])
    (append : ∀ {a b : List α}, P a → P b → P (a ++ b)) {separator : List α} (hsep : P separator)
    {ls : List (List α)} (h : ∀ l ∈ ls, P l) : P (List.intercalate separator ls) := by
  induction ls with
  | nil => exact nil
  | cons l ls ih =>
    have first := h l (List.mem_cons_self ..)
    cases ls with
    | nil =>
      rw [List.intercalate_singleton]
      exact first
    | cons m ls =>
      rw [List.intercalate_cons_cons]
      exact append (append first hsep) (ih fun k hk => h k (List.mem_cons_of_mem _ hk))

/-! ### Code points -/

namespace CodePoint

/-- A code point of sixteen bits is named by its number, surrogates included. -/
theorem ofUnit_value {c : CodePoint} (h : c.value < 0x10000) : ofUnit c.value = c := by
  cases c with
  | scalar c =>
    -- the surrogates leave a gap in the numbers of characters
    have valid : c.toNat < 0xD800 ∨ 0xDFFF < c.toNat ∧ c.toNat < 0x110000 := c.valid
    have notSurrogate : ¬ (0xD800 ≤ c.toNat ∧ c.toNat < 0xE000) := by omega
    simp [ofUnit, value, notSurrogate, Char.ofNat_toNat]
  | surrogate n =>
    have hn := n.isLt
    have unit : 0xD800 ≤ 0xD800 + n.val ∧ 0xD800 + n.val < 0xE000 := by omega
    simp [ofUnit, value, unit]

theorem value_ofUnit {n : Nat} (low : 0xD800 ≤ n) (high : n < 0xE000) : (ofUnit n).value = n := by
  simp only [ofUnit, low, high, and_self, ↓reduceDIte, value]
  omega

theorem isScalar_of_value_lt {c : CodePoint} (h : c.value < 0xD800) : ∃ d, c = .scalar d := by
  cases c with
  | scalar d => exact ⟨d, rfl⟩
  | surrogate n =>
    simp only [value] at h
    omega

/-- Only surrogates form pairs, the first of them a high one. -/
theorem ofPair?_eq_none {c d : CodePoint} (h : c.value < 0xD800 ∨ d.value < 0xDC00) :
    ofPair? c d = none := by
  cases c with
  | scalar => rfl
  | surrogate high =>
    cases d with
    | scalar => rfl
    | surrogate low =>
      have : ¬ (high < 1024 ∧ 1024 ≤ low) := by
        rintro ⟨-, hlow⟩
        have : 1024 ≤ low.val := hlow
        simp only [value] at h
        omega
      exact if_neg this

theorem ofPair?_scalar (c : CodePoint) (d : Char) : ofPair? c (.scalar d) = none := by
  cases c <;> rfl

/-- A pair stands for a character. -/
theorem isScalar_of_ofPair? {high low c : CodePoint} (h : ofPair? high low = some c) :
    ∃ d, c = .scalar d := by
  unfold ofPair? at h
  split at h
  · split at h
    · cases h
      exact ⟨_, rfl⟩
    · cases h
  · cases h

/-- A code point beyond sixteen bits is what its two halves form. -/
theorem ofPair?_halves {c : CodePoint} (h : 0x10000 ≤ c.value) :
    ofPair? (ofUnit (0xD800 + (c.value - 0x10000) / 1024))
      (ofUnit (0xDC00 + (c.value - 0x10000) % 1024)) = some c := by
  cases c with
  | scalar c =>
    have valid : c.toNat < 0xD800 ∨ 0xDFFF < c.toNat ∧ c.toNat < 0x110000 := c.valid
    simp only [value] at h ⊢
    obtain ⟨n, hn⟩ : ∃ n, n = c.toNat - 0x10000 := ⟨_, rfl⟩
    rw [← hn]
    -- the first half is a high surrogate and the second a low one
    have high : ofUnit (0xD800 + n / 1024) = surrogate ⟨n / 1024, by omega⟩ := by
      have unit : 0xD800 ≤ 0xD800 + n / 1024 ∧ 0xD800 + n / 1024 < 0xE000 := by omega
      simp [ofUnit, unit]
    have low : ofUnit (0xDC00 + n % 1024) = surrogate ⟨1024 + n % 1024, by omega⟩ := by
      have unit : 0xD800 ≤ 0xDC00 + n % 1024 ∧ 0xDC00 + n % 1024 < 0xE000 := by omega
      have shift : 0xDC00 + n % 1024 - 0xD800 = 1024 + n % 1024 := by omega
      simp [ofUnit, unit, shift]
    have pair : (⟨n / 1024, by omega⟩ : Fin 2048) < 1024 ∧
        1024 ≤ (⟨1024 + n % 1024, by omega⟩ : Fin 2048) := by
      constructor
      · show n / 1024 < 1024
        omega
      · show 1024 ≤ 1024 + n % 1024
        omega
    -- the halves have ten bits each
    have number : 0x10000 + n / 1024 * 1024 + (1024 + n % 1024 - 1024) = c.toNat := by omega
    rw [high, low, ofPair?, if_pos pair]
    simp only [number, Char.ofNat_toNat]
  | surrogate n =>
    have := n.isLt
    simp only [value] at h
    omega

end CodePoint

namespace Text

/-- A text in which no two code points in a row form a surrogate pair. -/
def IsUnpaired (t : Text) : Prop :=
  t.IsChain fun c d => CodePoint.ofPair? c d = none

/-- Each code point is compared with the next one. -/
instance (t : Text) : Decidable t.IsUnpaired :=
  inferInstanceAs (Decidable (List.IsChain _ t))

/-! ### Surrogates -/

/-- A text without surrogates. -/
def IsScalar (t : Text) : Prop :=
  ∀ c ∈ t, ∃ d, c = .scalar d

variable {t u : Text}

theorem IsScalar.append (ht : IsScalar t) (hu : IsScalar u) : IsScalar (t ++ u) := by
  intro c hc
  exact (List.mem_append.1 hc).elim (ht c) (hu c)

theorem isScalar_ofString (s : String) : IsScalar (ofString s) := by
  intro c hc
  obtain ⟨d, -, rfl⟩ := List.mem_map.1 hc
  exact ⟨d, rfl⟩

theorem isScalar_map (ds : List Nat) (f : Nat → Char) : IsScalar (ds.map fun d => f d) := by
  intro c hc
  obtain ⟨d, -, rfl⟩ := List.mem_map.1 hc
  exact ⟨f d, rfl⟩

theorem isScalar_joined {separator : Text} (hsep : IsScalar separator) {ts : List Text}
    (h : ∀ t ∈ ts, IsScalar t) : IsScalar (joined separator ts) :=
  closed_intercalate (fun c hc => by cases hc) IsScalar.append hsep h

end Text

end Deparse
