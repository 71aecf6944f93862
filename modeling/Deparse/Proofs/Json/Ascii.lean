import Deparse.Proofs.Json.ReadBack

/-!
# Documents in ASCII

What is written in ASCII holds no surrogate, whatever the texts in it hold (`isScalar_write`), so
that it can be encoded.
-/

namespace Deparse.Json

theorem isScalar_unitEscape (n : Nat) : Text.IsScalar (unitEscape n) :=
  (Text.isScalar_ofString "\\u").append (Text.isScalar_map _ _)

theorem isScalar_numericEscape (c : CodePoint) : Text.IsScalar (numericEscape c) := by
  unfold numericEscape
  split
  · exact isScalar_unitEscape _
  · exact (isScalar_unitEscape _).append (isScalar_unitEscape _)

/-- A surrogate is escaped by its number. -/
theorem isScalar_quotedPoint (c : CodePoint) : Text.IsScalar (quotedPoint true c) := by
  unfold quotedPoint
  split
  case h_8 =>
    split
    · exact isScalar_numericEscape _
    · rename_i raw
      -- what is written as it is lies below the surrogates
      simp only [Bool.true_and, Bool.or_eq_true, decide_eq_true_eq, not_or] at raw
      intro d hd
      rw [List.mem_singleton.1 hd]
      exact CodePoint.isScalar_of_value_lt (by omega)
  all_goals exact Text.isScalar_ofString _

theorem isScalar_quotedText (t : Text) : Text.IsScalar (quotedText true t) := by
  refine ((Text.isScalar_ofString "\"").append fun c hc => ?_).append (Text.isScalar_ofString "\"")
  obtain ⟨d, -, hc⟩ := List.mem_flatMap.1 hc
  exact isScalar_quotedPoint d c hc

theorem isScalar_decimalInt (n : Int) : Text.IsScalar (Numeral.decimalInt n) := by
  cases n with
  | ofNat n => exact Text.isScalar_map _ _
  | negSucc n => exact (Text.isScalar_ofString "-").append (Text.isScalar_map _ _)

/-- Brackets and commas are no surrogates. -/
theorem isScalar_enclosed {level : Nat} {first last : Text} {parts : List Text}
    (hfirst : Text.IsScalar first) (hlast : Text.IsScalar last)
    (hparts : ∀ t ∈ parts, Text.IsScalar t) :
    Text.IsScalar (enclosed .escaped level first last parts) := by
  unfold enclosed
  split
  · exact hfirst.append hlast
  · exact (hfirst.append (Text.isScalar_joined (Text.isScalar_ofString ", ") hparts)).append hlast

theorem isScalar_render {v : Value} (h : Document true v) (level : Nat) :
    Text.IsScalar (render .escaped level v) := by
  induction h generalizing level with
  | nil => exact Text.isScalar_ofString "null"
  | bool b => cases b <;> exact Text.isScalar_ofString _
  | int => exact isScalar_decimalInt _
  | str => exact isScalar_quotedText _
  | array items ih =>
    rw [render, renderAll_eq_map]
    refine isScalar_enclosed (Text.isScalar_ofString "[") (Text.isScalar_ofString "]") ?_
    intro t ht
    obtain ⟨v, hv, rfl⟩ := List.mem_map.1 ht
    exact ih v hv (level + 1)
  | object distinct keys values ih =>
    rw [render, renderMembers_eq_map]
    refine isScalar_enclosed (Text.isScalar_ofString "\x7b") (Text.isScalar_ofString "\x7d") ?_
    intro t ht
    obtain ⟨m, hm, rfl⟩ := List.mem_map.1 ht
    exact ((isScalar_quotedText m.1).append (Text.isScalar_ofString ": ")).append
      (ih m hm (level + 1))

/-- What is written in ASCII holds no surrogate. -/
theorem isScalar_write {v : Value} (h : Document true v) : Text.IsScalar (write .escaped v) :=
  isScalar_render h 0

end Deparse.Json
