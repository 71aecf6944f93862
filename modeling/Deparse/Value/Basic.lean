import Deparse.Number.Binary64

/-!
# Values

A syntax tree holds scalars, sequences and nodes in its child slots, and which of them a slot
holds is known only when it is looked at.  `Value` is this one dynamic type; the decoded values
of a document (arrays and objects) belong to it as well, so that a diagnostic can show whatever
was found in a place.

The children of a node are *frozen*: a sequence among them, or within one of them, is a `seq` and
never an `array`.  `Value.ofParts` builds nodes that way, and freezing changes nothing in what is
frozen already (`frozen_frozen`).
-/

namespace Deparse

/-- A value in a syntax tree or in a document. -/
inductive Value where
  /-- Nothing: an absent child. -/
  | nil
  | bool (b : Bool)
  | int (n : Int)
  | float (x : Binary64)
  | str (t : Text)
  /-- A Ruby symbol, given by its name. -/
  | sym (name : Text)
  | bytes (bs : List UInt8)
  /-- A sequence as the children of a node hold it. -/
  | seq (items : List Value)
  /-- A sequence as a document holds it. -/
  | array (items : List Value)
  /-- The members of an object in the order of their first mention; no key is there twice. -/
  | object (members : List (Text × Value))
  /-- A node: its tag, its children, the source line if known, and whether it was made up to
  render a part of another node rather than read from a tree. -/
  | node (tag : Text) (children : List Value) (line : Option Int) (synthetic : Bool)
deriving Inhabited

namespace Value

/-! ### Building -/

mutual

/-- A value with every array in it, objects and nodes apart, turned into a sequence. -/
def frozen : Value → Value
  | seq xs => seq (frozenAll xs)
  | array xs => seq (frozenAll xs)
  | v => v

/-- The values of a list, frozen one by one. -/
def frozenAll : List Value → List Value
  | [] => []
  | v :: vs => frozen v :: frozenAll vs

end

/-- The node with the given parts, its children frozen. -/
def ofParts (tag : Text) (children : List Value) (line : Option Int) (synthetic : Bool) : Value :=
  node tag (frozenAll children) line synthetic

/-- The members with `key` bound to `v`: in the place of an earlier member of this key, or last. -/
def bind (key : Text) (v : Value) : List (Text × Value) → List (Text × Value)
  | [] => [(key, v)]
  | (k, w) :: ms => if k = key then (k, v) :: ms else (k, w) :: bind key v ms

/-- The object with the given members, of which a later one replaces an earlier one of the same
key. -/
def ofMembers (ms : List (Text × Value)) : Value :=
  object (ms.foldl (fun ms (k, v) => bind k v ms) [])

/-! ### Looking -/

/-- The children of a node; other values have none. -/
def children : Value → List Value
  | node _ cs _ _ => cs
  | _ => []

/-- Whether a value is a node, of whatever tag and origin. -/
def isNode : Value → Bool
  | node .. => true
  | _ => false

/-- The values that stand directly in a value: the children of a node, or what a sequence or an
array holds. -/
def parts : Value → List Value
  | seq xs => xs
  | array xs => xs
  | node _ cs _ _ => cs
  | _ => []

/-- Whether a value is there at all. -/
def isPresent : Value → Bool
  | nil => false
  | _ => true

theorem isPresent_iff {v : Value} : v.isPresent = true ↔ v ≠ nil := by
  cases v <;> simp [isPresent]

/-- The values that count as nothing where only presence matters: absence, falsehood, the zeros
and whatever is empty. -/
def isBlank : Value → Bool
  | nil => true
  | bool b => !b
  | int n => n = 0
  | float x => x.equalInt 0
  | str t => t.isEmpty
  | bytes bs => bs.isEmpty
  | seq xs => xs.isEmpty
  | array xs => xs.isEmpty
  | object ms => ms.isEmpty
  | sym _ => false
  | node .. => false

/-! ### Size -/

mutual

/-- The size of a value.  A scalar has none; anything else counts one for itself and, for each value
in it, the size of that and one for its place. -/
def size : Value → Nat
  | seq xs => sizeAll xs + 1
  | array xs => sizeAll xs + 1
  | object ms => sizeMembers ms + 1
  | node _ cs _ _ => sizeAll cs + 1
  | _ => 0

/-- The sizes of the values and one for the place of each. -/
def sizeAll : List Value → Nat
  | [] => 0
  | v :: vs => size v + 1 + sizeAll vs

/-- The sizes of the members' values and one for the place of each. -/
def sizeMembers : List (Text × Value) → Nat
  | [] => 0
  | (_, v) :: ms => size v + 1 + sizeMembers ms

end

theorem size_lt_sizeAll {v : Value} {vs : List Value} (h : v ∈ vs) : v.size < sizeAll vs := by
  induction vs with
  | nil => cases h
  | cons w ws ih =>
    simp only [sizeAll]
    rcases List.mem_cons.1 h with rfl | h
    · omega
    · have := ih h
      omega

/-- A part is smaller than the value that it stands in. -/
theorem size_lt_of_mem_parts {v w : Value} (h : v ∈ w.parts) : v.size < w.size := by
  cases w with
  | seq | array | node => exact Nat.lt_succ_of_lt (size_lt_sizeAll h)
  | _ => cases h

theorem mem_parts_of_mem_children {v w : Value} (h : v ∈ w.children) : v ∈ w.parts := by
  cases w with
  | node => exact h
  | _ => cases h

/-- A property of values that holds of the absent one, and of the parts of what it holds of. -/
structure Hereditary (V : Value → Prop) : Prop where
  nil : V nil
  part {v w : Value} (h : V v) (hw : w ∈ v.parts) : V w

theorem hereditary_size_lt {n : Nat} (hn : 0 < n) : Hereditary fun v => v.size < n where
  nil := hn
  part h hw := Nat.lt_trans (size_lt_of_mem_parts hw) h

/-! ### Freezing is idempotent -/

mutual

theorem frozen_frozen : ∀ v : Value, v.frozen.frozen = v.frozen
  | seq xs => by simp only [frozen, frozenAll_frozenAll xs]
  | array xs => by simp only [frozen, frozenAll_frozenAll xs]
  | nil | bool _ | int _ | float _ | str _ | sym _ | bytes _ | object _ | node .. => by
    simp only [frozen]

theorem frozenAll_frozenAll : ∀ vs : List Value, frozenAll (frozenAll vs) = frozenAll vs
  | [] => rfl
  | v :: vs => by simp only [frozenAll, frozen_frozen v, frozenAll_frozenAll vs]

end

end Value

end Deparse
