import Deparse.Document.Data
import Deparse.Literal.Body

/-!
# Real trees

A *real* value is one that a tree read from a document can hold (`isReal_of_ofData`): a scalar, a
sequence of real values, or a node with real children that was not made up for rendering.
-/

namespace Deparse.Value

mutual

/-- Whether a tree read from a document can hold the value. -/
def isReal : Value → Bool
  | nil | bool _ | int _ | float _ | str _ | sym _ => true
  | bytes _ | array _ | object _ => false
  | seq xs => areReal xs
  | node _ cs _ synthetic => !synthetic && areReal cs

/-- Whether each of the values is real. -/
def areReal : List Value → Bool
  | [] => true
  | v :: vs => isReal v && areReal vs

end

theorem areReal_append (vs ws : List Value) :
    areReal (vs ++ ws) = (areReal vs && areReal ws) := by
  induction vs with
  | nil => rfl
  | cons v vs ih =>
    show (isReal v && areReal (vs ++ ws)) = (isReal v && areReal vs && areReal ws)
    rw [ih, Bool.and_assoc]

mutual

/-- A real value holds no array and no object. -/
theorem isComparable_of_isReal : ∀ v : Value, v.isReal = true → v.isComparable = true
  | seq xs, h => areComparable_of_areReal xs h
  | node _ cs _ _, h => areComparable_of_areReal cs (Bool.and_eq_true_iff.1 h).2
  | array _, h | object _, h => h
  | nil, _ | bool _, _ | int _, _ | float _, _ | str _, _ | sym _, _ | bytes _, _ => rfl

theorem areComparable_of_areReal :
    ∀ vs : List Value, areReal vs = true → areComparable vs = true
  | [], _ => rfl
  | v :: vs, h => by
    obtain ⟨hv, hvs⟩ := Bool.and_eq_true_iff.1 h
    show (isComparable v && areComparable vs) = true
    rw [isComparable_of_isReal v hv, areComparable_of_areReal vs hvs, Bool.and_self]

end

/-! ### Trees read from documents -/

theorem exists_of_bind_eq_ok {ε α β : Type} {x : Except ε α} {f : α → Except ε β} {b : β}
    (h : x >>= f = .ok b) : ∃ a, x = .ok a ∧ f a = .ok b := by
  cases x with
  | error e => cases h
  | ok a => exact ⟨a, rfl, h⟩

theorem exists_of_map_eq_ok {ε α β : Type} {x : Except ε α} {f : α → β} {b : β}
    (h : x.map f = .ok b) : ∃ a, x = .ok a ∧ f a = b := by
  cases x with
  | error e => cases h
  | ok a =>
    cases h
    exact ⟨a, rfl, rfl⟩

/-! A value is read by its form. -/

section Forms

variable {a : Address} {v : Value}

theorem ofDataAt_scalar {s : Value} (h : Form.ofValue v = .ok (.scalar s)) :
    ofDataAt a v = .ok s := by
  rw [ofDataAt, h]

theorem ofDataAt_items {vs : List Value} (h : Form.ofValue v = .ok (.items vs)) :
    ofDataAt a v = (ofDataAll a .item 0 vs).map seq := by
  rw [ofDataAt, h]

theorem ofDataAt_node {tag : Text} {cs : List Value} {line : Option Int}
    (h : Form.ofValue v = .ok (.node tag cs line)) :
    ofDataAt a v = (ofDataAll a .child 0 cs).map fun cs => node tag cs line false := by
  rw [ofDataAt, h]

end Forms

theorem ofMembers_ne_scalar (ms : List (Text × Value)) (s : Value) :
    Form.ofMembers ms ≠ .ok (.scalar s) := by
  intro h
  unfold Form.ofMembers at h
  split at h
  · obtain ⟨cs, -, h⟩ := exists_of_bind_eq_ok h
    obtain ⟨n, -, h⟩ := exists_of_bind_eq_ok h
    cases h
  · cases h

theorem isReal_of_scalar {v s : Value} (h : Form.ofValue v = .ok (.scalar s)) :
    s.isReal = true := by
  cases v with
  | object ms =>
    simp only [Form.ofValue] at h
    split at h
    · exact absurd h (ofMembers_ne_scalar ms s)
    · split at h
      · split at h
        · cases h
          rfl
        · cases h
      · cases h
  | array | seq | sym | bytes | node => cases h
  | nil | bool | int | float | str =>
    cases h
    rfl

mutual

theorem isReal_of_ofDataAt (a : Address) (v w : Value) (h : ofDataAt a v = .ok w) :
    w.isReal = true := by
  unfold ofDataAt at h
  split at h
  · cases h
  · rename_i s hs
    cases h
    exact isReal_of_scalar hs
  · rename_i vs hs
    have smaller : sizeAll vs < v.size := Form.sizeAll_inner_lt hs (by simp)
    obtain ⟨ws, hws, rfl⟩ := exists_of_map_eq_ok h
    exact areReal_of_ofDataAll a .item 0 vs ws hws
  · rename_i tag cs line hs
    have smaller : sizeAll cs < v.size := Form.sizeAll_inner_lt hs (by simp)
    obtain ⟨ws, hws, rfl⟩ := exists_of_map_eq_ok h
    exact areReal_of_ofDataAll a .child 0 cs ws hws
termination_by v.size
decreasing_by all_goals exact smaller

theorem areReal_of_ofDataAll (a : Address) (step : Nat → Address.Step) (i : Nat)
    (vs ws : List Value) (h : ofDataAll a step i vs = .ok ws) : areReal ws = true := by
  match vs with
  | [] =>
    unfold ofDataAll at h
    cases h
    rfl
  | v :: vs =>
    unfold ofDataAll at h
    obtain ⟨w, hw, h⟩ := exists_of_bind_eq_ok h
    obtain ⟨us, hus, h⟩ := exists_of_bind_eq_ok h
    cases h
    show (isReal w && areReal us) = true
    rw [isReal_of_ofDataAt _ v w hw, areReal_of_ofDataAll _ _ _ vs us hus, Bool.and_self]
termination_by sizeAll vs
decreasing_by
  all_goals
    simp only [sizeAll]
    omega

end

/-- What is read from a document is real. -/
theorem isReal_of_ofData {v w : Value} (h : ofData v = .ok w) : w.isReal = true :=
  isReal_of_ofDataAt [] v w h

end Deparse.Value
