import Deparse.Proofs.Source.Outcome

/-!
# The faults in a rendering

`Layout.Permits` says of steps which faults may be among them and which values they may visit; the
lemmas about it go along with the ways in which layouts are put together.  If the layout of every
value of some kind permits only certain faults and only visits of that kind, then these are the only
faults in the scripts of such values (`Value.faultsOnly_of_permits`).
-/

namespace Deparse

/-! ### Steps -/

/-- A fault is one of `F`, and what is visited is one of `V`. -/
def Step.Permits (F : Fault → Prop) (V : Value → Prop) : Step → Prop
  | put (.fault f) => F f
  | put _ => True
  | visit v => V v

namespace Layout

/-- The faults among the steps are of `F`, and the values that they visit are of `V`. -/
def Permits (F : Fault → Prop) (V : Value → Prop) (steps : List Step) : Prop :=
  ∀ s ∈ steps, s.Permits F V

variable {F : Fault → Prop} {V : Value → Prop}

@[simp] theorem permits_nil : Permits F V [] := by
  intro s hs
  cases hs

@[simp] theorem permits_append (a b : List Step) :
    Permits F V (a ++ b) ↔ Permits F V a ∧ Permits F V b := by
  simp only [Permits, List.mem_append, or_imp, forall_and]

@[simp] theorem permits_word (t : Text) : Permits F V (word t) := by
  simp [Permits, word, Step.Permits]

@[simp] theorem permits_refuse (r : Refusal) : Permits F V (refuse r) ↔ F (.refused r) := by
  simp [Permits, refuse, Step.Permits]

@[simp] theorem permits_malformed (m : Malformation) :
    Permits F V (malformed m) ↔ F (.malformed m) := by
  simp [Permits, malformed, Step.Permits]

@[simp] theorem permits_visit (v : Value) : Permits F V [.visit v] ↔ V v := by
  simp [Permits, Step.Permits]

@[simp] theorem permits_scope (vs : List Value) :
    Permits F V (scope vs) ↔ ∀ v ∈ vs, v.isPresent = true → V v := by
  have opened : Permits F V [.put .enter] := by simp [Permits, Step.Permits]
  have closed : Permits F V [.put .leave] := by simp [Permits, Step.Permits]
  have visits : Permits F V ((vs.filter Value.isPresent).map .visit)
      ↔ ∀ v ∈ vs.filter Value.isPresent, V v := by
    simp only [Permits, List.forall_mem_map, Step.Permits]
  simp only [scope, permits_append, permits_word, opened, closed, visits, and_true, true_and,
    List.mem_filter, and_imp]

/-- Lists in a row permit what each of them permits. -/
theorem permits_flatten (ls : List (List Step)) :
    Permits F V ls.flatten ↔ ∀ l ∈ ls, Permits F V l := by
  simp only [Permits, List.mem_flatten]
  exact ⟨fun h l hl s hs => h s ⟨l, hl, hs⟩, fun h s ⟨l, hl, hs⟩ => h l hl s hs⟩

theorem permits_flatMap (f : Value → List Step) (vs : List Value) :
    Permits F V (vs.flatMap f) ↔ ∀ v ∈ vs, Permits F V (f v) := by
  rw [List.flatMap_def, permits_flatten]
  simp

/-- Separators are words, so only what they separate matters. -/
theorem permits_intercalate (separator : Text) (ls : List (List Step)) :
    Permits F V (List.intercalate (word separator) ls) ↔ ∀ l ∈ ls, Permits F V l := by
  induction ls with
  | nil => simp [List.intercalate]
  | cons a ls ih =>
    cases ls with
    | nil => simp [List.intercalate_singleton]
    | cons b ls =>
      rw [List.intercalate_cons_of_ne_nil (by simp), permits_append, permits_append, ih]
      simp

theorem permits_map_slot (vs : List Value) :
    (∀ l ∈ vs.map slot, Permits F V l) ↔ ∀ v ∈ vs, Permits F V (slot v) := by
  simp

/-- A list permits what its slots permit, the absent ones as well, which are empty. -/
@[simp] theorem permits_listed (vs : List Value) :
    Permits F V (listed vs) ↔ ∀ v ∈ vs, Permits F V (slot v) := by
  rw [listed, permits_intercalate, permits_map_slot]
  constructor
  · intro h v hv
    cases v with
    | nil => exact permits_nil
    | _ => exact h _ (List.mem_filter.2 ⟨hv, rfl⟩)
  · intro h v hv
    exact h v (List.mem_filter.1 hv).1

/-- Pairs permit what their keys and values permit. -/
theorem permits_pairs (ps : List (Value × Value)) :
    Permits F V (List.intercalate (word ", ") (ps.map pair)) ↔
      ∀ p ∈ ps, Permits F V (slot p.1) ∧ Permits F V (slot p.2) := by
  rw [permits_intercalate, List.forall_mem_map]
  simp [pair]

/-- A block whose parameters are a table adds nothing to its body but words. -/
theorem permits_block {table spec : Value} {names : List Text}
    (h : parameters? table spec = some names) (body : Value) :
    Permits F V (block table spec body) ↔ Permits F V (slot body) := by
  rw [block, h]
  cases names <;> simp

@[simp] theorem permits_conditional (keyword : Text) (cs : List Value) :
    Permits F V (conditional keyword cs) ↔ Permits F V (slot (child cs 0)) ∧
      Permits F V (slot (child cs 1)) ∧ Permits F V (slot (child cs 2)) := by
  -- without an alternative there is nothing to permit
  have alternative : Permits F V
      (if (child cs 2).isPresent then word "\nelse\n" ++ slot (child cs 2) else []) ↔
        Permits F V (slot (child cs 2)) := by
    cases child cs 2 with
    | nil => exact Iff.rfl
    | _ => simp [Value.isPresent]
  simp only [conditional, permits_append, permits_word, alternative, true_and, and_true, and_assoc]

@[simp] theorem permits_loop (test body first : Value) :
    Permits F V (loop test body first) ↔ Permits F V (slot test) ∧ Permits F V (slot body) := by
  unfold loop
  split
  · simp [and_comm]
  · simp

/-- What layouts are made of is told apart from the faults among them. -/
theorem Permits.of_built {steps : List Step} (h : Permits F (fun _ => True) steps)
    (built : Built V steps) : Permits F V steps := by
  intro s hs
  cases s with
  | put p => cases p <;> exact h _ hs
  | visit v => exact built.of_visit v hs

theorem Permits.mono {W : Value → Prop} {steps : List Step} (h : Permits F V steps)
    (hVW : ∀ v, .visit v ∈ steps → V v → W v) : Permits F W steps := by
  intro s hs
  cases s with
  | put p => cases p <;> exact h _ hs
  | visit v => exact hVW v hs (h _ hs)

end Layout

/-! ### Parts of a node that are looked at -/

namespace Value

theorem isNode_of_children {v : Value} (h : v.children ≠ []) : v.isNode = true := by
  cases v with
  | node => rfl
  | _ => exact absurd rfl h

/-- Whether the entries of a parameter table can be listed. -/
def isTable (v : Value) : Bool :=
  v.isBlank || match v with
    | str _ | seq _ => true
    | _ => false

/-- Whether an interpolated string can begin with the value. -/
def isOpening (v : Value) : Bool :=
  v.isBlank || match v with
    | str _ => true
    | _ => false

end Value

namespace Layout

theorem withChildren_of_isNode {v : Value} (h : v.isNode = true)
    (layout : List Value → List Step) : withChildren v layout = layout v.children := by
  cases v with
  | node => rfl
  | _ => cases h

/-- A table that nobody asks for need not be one. -/
theorem exists_parameters {table spec : Value} (h : spec = .nil ∨ table.isTable = true) :
    ∃ ts, parameters? table spec = some ts := by
  rcases h with rfl | h
  · exact ⟨[], rfl⟩
  · have entries : ∃ vs, entries? table = some vs := by
      unfold entries?
      split
      · exact ⟨[], rfl⟩
      · rename_i notBlank
        cases table with
        | str | seq => exact ⟨_, rfl⟩
        | _ => simp [Value.isTable, notBlank] at h
    obtain ⟨vs, hvs⟩ := entries
    unfold parameters?
    rw [hvs]
    split <;> exact ⟨_, rfl⟩

theorem exists_opening {v : Value} (h : v.isOpening = true) : ∃ t, opening v = .ok t := by
  unfold opening
  split
  · exact ⟨[], rfl⟩
  · rename_i notBlank
    cases v with
    | str t => exact ⟨_, rfl⟩
    | _ => simp [Value.isOpening, notBlank] at h

end Layout

/-! ### Scripts -/

namespace Value

/-- All faults in the rendering of the value are of `F`. -/
def FaultsOnly (F : Fault → Prop) (v : Value) : Prop :=
  ∀ f, .fault f ∈ v.script → F f

variable {F : Fault → Prop}

/-- The faults of a value are those of its layout and of what the layout visits. -/
theorem faultsOnly_iff (v : Value) : v.FaultsOnly F ↔ Layout.Permits F (FaultsOnly F) v.layout := by
  unfold FaultsOnly
  rw [Value.script_eq]
  constructor
  · intro h s hs
    -- a fault of the script is one of the layout, or of what the layout visits
    have among (f : Fault) (hf : .fault f ∈ s.pieces) : F f :=
      h f (List.mem_flatMap.2 ⟨s, hs, hf⟩)
    cases s with
    | put p =>
      cases p with
      | fault f => exact among f (by simp [Step.pieces])
      | _ => trivial
    | visit v => exact among
  · intro h f hf
    obtain ⟨s, hs, hf⟩ := List.mem_flatMap.1 hf
    have permits := h s hs
    cases s with
    | put p =>
      cases List.mem_singleton.1 hf
      exact permits
    | visit v => exact permits f hf

/-- What one layout permits, all the rendering does. -/
theorem faultsOnly_of_permits {V : Value → Prop}
    (h : ∀ v, V v → Layout.Permits F V v.layout) (v : Value) (hv : V v) : v.FaultsOnly F := by
  rw [faultsOnly_iff]
  refine (h v hv).mono fun w visited hw => ?_
  have smaller := size_lt_of_visit visited
  exact faultsOnly_of_permits h w hw
termination_by v.size

/-- A value has a source text exactly if its rendering has no fault. -/
theorem toSource_isOk_iff (v : Value) :
    (∃ t, v.toSource = .ok t) ↔ v.FaultsOnly fun _ => False := by
  -- there is a source text exactly if no fault is met
  have none_iff : Piece.firstFault? v.script = none ↔ v.FaultsOnly fun _ => False := by
    simp only [Piece.firstFault?, List.findSome?_eq_none_iff, FaultsOnly]
    constructor
    · intro h f hf
      cases h _ hf
    · intro h p hp
      cases p with
      | fault f => exact (h f hp).elim
      | _ => rfl
  rw [← none_iff, toSource]
  cases Piece.firstFault? v.script <;> simp

/-- The fault that a rendering ends with is among those in it. -/
theorem FaultsOnly.of_toSource {v : Value} {f : Fault} (h : v.FaultsOnly F)
    (hf : v.toSource = .error f) : F f := by
  unfold toSource at hf
  split at hf
  · cases hf
  · rename_i g hg
    cases hf
    obtain ⟨p, hp, hpf⟩ := List.exists_of_findSome?_eq_some hg
    cases p with
    | fault =>
      cases hpf
      exact h f hp
    | _ => cases hpf

end Value

end Deparse
