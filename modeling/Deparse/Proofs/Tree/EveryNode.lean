import Deparse.Proofs.Tree.Real

/-!
# What holds of every node of a tree

`Value.everyNode` asks something of every node in a value, at any depth.  It passes on to the parts
of the value, as being real does.
-/

namespace Deparse.Value

mutual

/-- Whether `p` holds of every node in the value. -/
def everyNode (p : Value → Bool) : Value → Bool
  | seq xs => everyNodeIn p xs
  | array xs => everyNodeIn p xs
  | node tag cs line synthetic => p (node tag cs line synthetic) && everyNodeIn p cs
  | _ => true

/-- Whether `p` holds of every node in each of the values. -/
def everyNodeIn (p : Value → Bool) : List Value → Bool
  | [] => true
  | v :: vs => everyNode p v && everyNodeIn p vs

end

/-- What is checked of values one after the other holds of each of them. -/
theorem of_mem_of_checked {p : Value → Bool} {q : List Value → Bool}
    (step : ∀ v vs, q (v :: vs) = (p v && q vs)) {v : Value} {vs : List Value} (h : q vs = true)
    (hv : v ∈ vs) : p v = true := by
  induction vs with
  | nil => cases hv
  | cons w ws ih =>
    rw [step, Bool.and_eq_true] at h
    rcases List.mem_cons.1 hv with rfl | hv
    · exact h.1
    · exact ih h.2 hv

theorem everyNode_of_mem {p : Value → Bool} {v : Value} {vs : List Value}
    (h : everyNodeIn p vs = true) (hv : v ∈ vs) : v.everyNode p = true :=
  of_mem_of_checked (fun _ _ => rfl) h hv

theorem hereditary_everyNode (p : Value → Bool) : Hereditary fun v => v.everyNode p = true where
  nil := rfl
  part {v w} h hw := by
    cases v with
    | seq | array => exact everyNode_of_mem h hw
    | node => exact everyNode_of_mem (Bool.and_eq_true_iff.1 h).2 hw
    | _ => cases hw

theorem isReal_of_mem {v : Value} {vs : List Value} (h : areReal vs = true) (hv : v ∈ vs) :
    v.isReal = true :=
  of_mem_of_checked (fun _ _ => rfl) h hv

theorem hereditary_isReal : Hereditary fun v => v.isReal = true where
  nil := rfl
  part {v w} h hw := by
    cases v with
    | seq => exact isReal_of_mem h hw
    | node => exact isReal_of_mem (Bool.and_eq_true_iff.1 h).2 hw
    | array => cases h
    | _ => cases hw

theorem Hereditary.and {V W : Value → Prop} (hV : Hereditary V) (hW : Hereditary W) :
    Hereditary fun v => V v ∧ W v where
  nil := ⟨hV.nil, hW.nil⟩
  part h hw := ⟨hV.part h.1 hw, hW.part h.2 hw⟩

end Deparse.Value
