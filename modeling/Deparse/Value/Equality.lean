import Deparse.Value.Basic

/-!
# Two notions of equality

`Value.identical` holds of a value and itself alone (`identical_iff`) and so decides equality of
values.  `Value.equal` compares what the values mean: truth values and numbers of either form by
their numeric value, so that `1`, `1.0` and true are equal, while the absent number differs from
itself; everything else is equal only to values of its own kind.  A sequence is not an array, and
two nodes are equal when tags, children, lines and the synthetic marks are.
-/

namespace Deparse.Value

/-! ### Identity -/

mutual

/-- Whether two values are one and the same. -/
def identical : Value → Value → Bool
  | nil, nil => true
  | bool a, bool b => a = b
  | int a, int b => a = b
  | float a, float b => a = b
  | str a, str b => a = b
  | sym a, sym b => a = b
  | bytes a, bytes b => a = b
  | seq xs, seq ys => identicalAll xs ys
  | array xs, array ys => identicalAll xs ys
  | object xs, object ys => identicalMembers xs ys
  | node t xs l s, node t' ys l' s' => t = t' && identicalAll xs ys && l = l' && s = s'
  | _, _ => false

/-- Whether two lists hold the same values in the same order. -/
def identicalAll : List Value → List Value → Bool
  | [], [] => true
  | x :: xs, y :: ys => identical x y && identicalAll xs ys
  | _, _ => false

/-- Whether two lists hold the same members in the same order. -/
def identicalMembers : List (Text × Value) → List (Text × Value) → Bool
  | [], [] => true
  | (k, x) :: xs, (l, y) :: ys => k = l && identical x y && identicalMembers xs ys
  | _, _ => false

end

mutual

/-- Identity is equality of values. -/
theorem identical_iff : ∀ a b : Value, identical a b = true ↔ a = b
  | seq xs, b => by cases b <;> simp [identical, identicalAll_iff xs]
  | array xs, b => by cases b <;> simp [identical, identicalAll_iff xs]
  | object xs, b => by cases b <;> simp [identical, identicalMembers_iff xs]
  | node t xs l s, b => by
    cases b <;> simp [identical, identicalAll_iff xs]
    grind
  | nil, b | bool _, b | int _, b | float _, b | str _, b | sym _, b | bytes _, b => by
    cases b <;> simp [identical]

theorem identicalAll_iff : ∀ a b : List Value, identicalAll a b = true ↔ a = b
  | [], b => by cases b <;> simp [identicalAll]
  | x :: xs, b => by cases b <;> simp [identicalAll, identical_iff x, identicalAll_iff xs]

theorem identicalMembers_iff :
    ∀ a b : List (Text × Value), identicalMembers a b = true ↔ a = b
  | [], b => by cases b <;> simp [identicalMembers]
  | (k, x) :: xs, b => by
    rcases b with _ | ⟨⟨l, y⟩, ys⟩ <;>
      simp [identicalMembers, identical_iff x, identicalMembers_iff xs]

end

/-- Equality of values is decided by `identical`. -/
instance : DecidableEq Value := fun a b => decidable_of_iff _ (identical_iff a b)

/-! ### Equality of meaning -/

/-- The number that a truth value counts as. -/
def truthNumber (b : Bool) : Int :=
  if b then 1 else 0

mutual

/-- Whether two values mean the same. -/
def equal : Value → Value → Bool
  | nil, nil => true
  | bool a, bool b => a = b
  | bool a, int n => truthNumber a = n
  | bool a, float x => x.equalInt (truthNumber a)
  | int n, bool a => truthNumber a = n
  | int a, int b => a = b
  | int n, float x => x.equalInt n
  | float x, bool a => x.equalInt (truthNumber a)
  | float x, int n => x.equalInt n
  | float a, float b => a.equal b
  | str a, str b => a = b
  | sym a, sym b => a = b
  | bytes a, bytes b => a = b
  | seq xs, seq ys => equalAll xs ys
  | array xs, array ys => equalAll xs ys
  | object xs, object ys => xs.length = ys.length && equalMembers xs ys
  | node t xs l s, node t' ys l' s' => t = t' && equalAll xs ys && l = l' && s = s'
  | _, _ => false

/-- Whether two lists hold equal values in the same order. -/
def equalAll : List Value → List Value → Bool
  | [], [] => true
  | x :: xs, y :: ys => equal x y && equalAll xs ys
  | _, _ => false

/-- Whether every member of the first list has one of the same key and an equal value in the
second, in whatever order. -/
def equalMembers : List (Text × Value) → List (Text × Value) → Bool
  | [], _ => true
  | (k, x) :: xs, ys =>
    (match ys.lookup k with
      | some y => equal x y
      | none => false) && equalMembers xs ys

end

end Deparse.Value
