import Deparse.Proofs.Document.TreeData

/-!
# Canonical data

A tree can be written as data in many ways: a node may have members that nothing is made of, its
members may stand in any order, and it may lack its children or have an absent line.
`Value.canonical` keeps of a node its type, its children and its line and leaves everything else as
it is.

Reading forgets exactly what `canonical` drops: data come to a tree whose data are the canonical
ones (`toData_of_ofDataAt`), so that two documents are read as one tree exactly if their canonical
data are the same (`toData_eq_canonical_of_ofNodeData`).
-/

namespace Deparse

namespace Value

/-- The members that a node keeps: its type, its children, of which there are none if they are not
mentioned, and its line if it has one. -/
def keptMembers (ms : List (Text × Value)) : List (Text × Value) :=
  [(typeKey, (ms.lookup typeKey).getD nil),
    (childrenKey, (ms.lookup childrenKey).getD (array []))] ++
    match ms.lookup lineKey with
    | none | some nil => []
    | some line => [(lineKey, line)]

mutual

/-- Data with nothing in their nodes but what a node keeps. -/
def canonical : Value → Value
  | object ms =>
    if (ms.lookup typeKey).isSome then object (keptMembers (canonicalMembers ms)) else object ms
  | array vs => array (canonicalAll vs)
  | v => v

/-- The values of a list in their canonical form. -/
def canonicalAll : List Value → List Value
  | [] => []
  | v :: vs => canonical v :: canonicalAll vs

/-- The members with canonical values. -/
def canonicalMembers : List (Text × Value) → List (Text × Value)
  | [] => []
  | (k, v) :: ms => (k, canonical v) :: canonicalMembers ms

end

/-! ### What is canonical stays as it is -/

/-- A key has the canonical form of its value. -/
theorem lookup_canonicalMembers (k : Text) (ms : List (Text × Value)) :
    (canonicalMembers ms).lookup k = (ms.lookup k).map canonical := by
  induction ms with
  | nil => rfl
  | cons m ms ih =>
    obtain ⟨l, v⟩ := m
    simp only [canonicalMembers, List.lookup_cons, ih]
    split <;> rfl

/-- What a node keeps is kept again as it is. -/
theorem keptMembers_keptMembers (ms : List (Text × Value)) :
    keptMembers (keptMembers ms) = keptMembers ms := by
  have type : (keptMembers ms).lookup typeKey = some ((ms.lookup typeKey).getD nil) := rfl
  have children :
      (keptMembers ms).lookup childrenKey = some ((ms.lookup childrenKey).getD (array [])) := rfl
  have line : (keptMembers ms).lookup lineKey = (ms.lookup lineKey).filter isPresent := by
    unfold keptMembers
    cases ms.lookup lineKey with
    | none => rfl
    | some v => cases v <;> rfl
  rw [keptMembers, type, children, line]
  unfold keptMembers
  cases ms.lookup lineKey with
  | none => rfl
  | some v => cases v <;> rfl

/-- The members that a node keeps are its own, or what stands for a missing one. -/
theorem of_mem_keptMembers {P : Value → Prop} (hnil : P nil) (hempty : P (array []))
    {ms : List (Text × Value)} (h : ∀ m ∈ ms, P m.2) : ∀ m ∈ keptMembers ms, P m.2 := by
  have found (k : Text) (v : Value) (hv : P v) : P ((ms.lookup k).getD v) := by
    cases hk : ms.lookup k with
    | none => exact hv
    | some w => exact h _ (mem_of_lookup hk)
  have line : ∀ m ∈ (match ms.lookup lineKey with
      | none | some nil => []
      | some line => [(lineKey, line)] : List (Text × Value)), P m.2 := by
    intro m hm
    split at hm
    · cases hm
    · cases hm
    · rename_i w _ hw
      rw [List.mem_singleton.1 hm]
      exact h _ (mem_of_lookup hw)
  -- the type and the children stand in front, and the line is behind them if it is there
  intro m hm
  rcases List.mem_append.1 hm with hm | hm
  · rcases List.mem_cons.1 hm with rfl | hm
    · exact found typeKey nil hnil
    · rw [List.mem_singleton.1 hm]
      exact found childrenKey (array []) hempty
  · exact line m hm

theorem canonicalMembers_eq_self {ms : List (Text × Value)} (h : ∀ m ∈ ms, m.2.canonical = m.2) :
    canonicalMembers ms = ms := by
  induction ms with
  | nil => rfl
  | cons m ms ih =>
    rw [canonicalMembers, h m (List.mem_cons_self ..),
      ih fun n hn => h n (List.mem_cons_of_mem _ hn)]

mutual

/-- Canonical data are their own canonical data. -/
theorem canonical_canonical : ∀ v : Value, v.canonical.canonical = v.canonical
  | object ms => by
    have fixed := of_mem_keptMembers (P := fun v => v.canonical = v) rfl rfl
      (canonical_of_mem_canonicalMembers ms)
    rw [canonical]
    split
    · have typed : ((keptMembers (canonicalMembers ms)).lookup typeKey).isSome = true := rfl
      rw [canonical, if_pos typed, canonicalMembers_eq_self fixed, keptMembers_keptMembers]
    · rename_i untyped
      rw [canonical, if_neg untyped]
  | array vs => by rw [canonical, canonical, canonicalAll_canonicalAll vs]
  | nil | bool _ | int _ | float _ | str _ | sym _ | bytes _ | seq _ | node .. => rfl

theorem canonicalAll_canonicalAll :
    ∀ vs : List Value, canonicalAll (canonicalAll vs) = canonicalAll vs
  | [] => rfl
  | v :: vs => by
    rw [canonicalAll, canonicalAll, canonical_canonical v, canonicalAll_canonicalAll vs]

theorem canonical_of_mem_canonicalMembers :
    ∀ ms : List (Text × Value), ∀ m ∈ canonicalMembers ms, m.2.canonical = m.2
  | [], m, hm => by cases hm
  | (k, v) :: ms, m, hm => by
    rcases List.mem_cons.1 hm with rfl | hm
    · exact canonical_canonical v
    · exact canonical_of_mem_canonicalMembers ms m hm

end

/-! ### The data of what is read -/

/-- The data of a form, the values within it made canonical. -/
def formData : Form → Value
  | .scalar s => s.toData
  | .items vs => array (canonicalAll vs)
  | .node tag cs line => object (nodeMembers tag (canonicalAll cs) line)

/-- A node keeps the members that its form is made of. -/
theorem canonical_of_ofMembers {ms : List (Text × Value)} {f : Form}
    (h : Form.ofMembers ms = .ok f) : (object ms).canonical = formData f := by
  obtain ⟨tag, cs, line, rfl, htag, hcs, hline⟩ := ofMembers_eq_ok h
  have typed : (ms.lookup typeKey).isSome = true := by
    rw [htag]
    rfl
  -- missing children are read as none, and that is how they are kept
  have children : ((ms.lookup childrenKey).map canonical).getD (array [])
      = array (canonicalAll cs) := by
    unfold Form.children at hcs
    split at hcs
    · rename_i missing
      cases hcs
      rw [missing]
      rfl
    · rename_i vs found
      cases hcs
      rw [found]
      rfl
    · cases hcs
  rw [canonical, if_pos typed, keptMembers, lookup_canonicalMembers, lookup_canonicalMembers,
    lookup_canonicalMembers, htag, children]
  unfold Form.line at hline
  -- a line is missing, or absent, or an integer
  split at hline
  · rename_i missing
    cases hline
    rw [missing]
    rfl
  · rename_i absent
    cases hline
    rw [absent]
    rfl
  · rename_i n found
    cases hline
    rw [found]
    rfl
  · cases hline

/-- The canonical data of a value are the data of its form. -/
theorem canonical_of_ofValue {v : Value} {f : Form} (h : Form.ofValue v = .ok f) :
    v.canonical = formData f := by
  cases v with
  | object ms =>
    simp only [Form.ofValue] at h
    split at h
    · exact canonical_of_ofMembers h
    · rename_i untyped
      split at h
      · split at h
        · rename_i k name key
          cases h
          rw [canonical, if_neg untyped, formData, toData, key]
        · cases h
      · cases h
  | seq | sym | bytes | node => cases h
  | nil | bool | int | float | str | array =>
    cases h
    rfl

/-- Data side by side come to what has their canonical data if each of them does. -/
theorem toDataAll_of_ofDataAll {vs ws : List Value} {a : Address} {step : Nat → Address.Step}
    {i : Nat} (each : ∀ v ∈ vs, ∀ b w, ofDataAt b v = .ok w → w.toData = v.canonical)
    (h : ofDataAll a step i vs = .ok ws) : toDataAll ws = canonicalAll vs := by
  induction vs generalizing i ws with
  | nil =>
    rw [ofDataAll] at h
    cases h
    rfl
  | cons v vs ih =>
    rw [ofDataAll] at h
    obtain ⟨w, first, h⟩ := exists_of_bind_eq_ok h
    obtain ⟨us, others, h⟩ := exists_of_bind_eq_ok h
    cases h
    rw [toDataAll, canonicalAll, each v (List.mem_cons_self ..) _ w first,
      ih (fun u hu => each u (List.mem_cons_of_mem _ hu)) others]

/-- The data of what is read are the canonical data of what it was read from. -/
theorem toData_of_ofDataAt {v w : Value} {a : Address} (h : ofDataAt a v = .ok w) :
    w.toData = v.canonical := by
  cases form : Form.ofValue v with
  | error p =>
    rw [ofDataAt, form] at h
    cases h
  | ok f =>
    -- what stands directly within is smaller, so its data are canonical already
    rw [canonical_of_ofValue form]
    cases f with
    | scalar s =>
      rw [ofDataAt_scalar form] at h
      cases h
      rfl
    | items vs =>
      have within := Form.sizeAll_inner_lt form (by simp)
      rw [ofDataAt_items form] at h
      obtain ⟨ws, items, rfl⟩ := exists_of_map_eq_ok h
      have data : toDataAll ws = canonicalAll vs := by
        refine toDataAll_of_ofDataAll (fun u hu b x hx => ?_) items
        have smaller := Nat.lt_trans (size_lt_sizeAll hu) within
        exact toData_of_ofDataAt hx
      rw [toData, data, formData]
    | node tag cs line =>
      have within := Form.sizeAll_inner_lt form (by simp)
      rw [ofDataAt_node form] at h
      obtain ⟨ws, children, rfl⟩ := exists_of_map_eq_ok h
      have data : toDataAll ws = canonicalAll cs := by
        refine toDataAll_of_ofDataAll (fun u hu b x hx => ?_) children
        have smaller := Nat.lt_trans (size_lt_sizeAll hu) within
        exact toData_of_ofDataAt hx
      rw [toData, data, formData]
termination_by v.size

/-! ### Documents -/

/-- **Reading forgets what is not canonical, and nothing else.**  If a document is read as a tree,
then the data of the tree are the canonical data of the document; these are a document of the same
tree, and canonical themselves; and another document is read as the same tree exactly if its
canonical data are the same. -/
theorem toData_eq_canonical_of_ofNodeData {d t : Value} (read : d.ofNodeData = .ok t) :
    t.toData = d.canonical ∧ d.canonical.ofNodeData = .ok t ∧
      d.canonical.canonical = d.canonical ∧
      ∀ e u : Value, e.ofNodeData = .ok u → (t = u ↔ d.canonical = e.canonical) := by
  have data {d t : Value} (read : d.ofNodeData = .ok t) : t.toData = d.canonical :=
    toData_of_ofDataAt (exists_node_of_ofNodeData read).1
  have again {d t : Value} (read : d.ofNodeData = .ok t) : d.canonical.ofNodeData = .ok t := by
    rw [← data read]
    exact ofNodeData_toData read
  refine ⟨data read, again read, d.canonical_canonical, fun e u readOther => ⟨?_, ?_⟩⟩
  · rintro rfl
    rw [← data read, ← data readOther]
  · intro same
    have both := again readOther
    rw [← same, again read] at both
    exact Except.ok.inj both

/-! Documents that say the same, and one in which a number is a truth value instead. -/

namespace Scalars

/-- A document with members that are dropped, in another order than the canonical one, in which a
node lacks its children. -/
def untidy : Value :=
  object [("lineno", int 2), ("note", array [object []]),
    ("children", array [object [("sym", str "s"), ("lineno", nil), ("type", str "NIL")],
      array [int 1, object [("sym", str "a")]]]),
    ("type", str "LIT")]

/-- A canonical document, with the given scalar in it. -/
def tidy (scalar : Value) : Value :=
  object [("type", str "LIT"),
    ("children", array [object [("type", str "NIL"), ("children", array [])],
      array [scalar, object [("sym", str "a")]]]),
    ("lineno", int 2)]

/-- The tree of the document. -/
def tree (scalar : Value) : Value :=
  node "LIT" [node "NIL" [] none false, seq [scalar, sym "a"]] (some 2) false

end Scalars

open Scalars in
theorem toData_eq_canonical_of_ofNodeData_scalars :
    (untidy.ofNodeData = .ok (tree (int 1)) ∧ (tidy (int 1)).ofNodeData = .ok (tree (int 1)) ∧
        (tidy (bool true)).ofNodeData = .ok (tree (bool true))) ∧
      (tree (int 1)).toData = untidy.canonical ∧
      untidy.canonical.ofNodeData = .ok (tree (int 1)) ∧
      untidy.canonical.canonical = untidy.canonical ∧
      untidy.canonical = tidy (int 1) ∧ untidy.canonical ≠ (tidy (bool true)).canonical := by
  have read : untidy.ofNodeData = .ok (tree (int 1)) := by decide +kernel
  have readTidy : (tidy (int 1)).ofNodeData = .ok (tree (int 1)) := by decide +kernel
  have readTruth : (tidy (bool true)).ofNodeData = .ok (tree (bool true)) := by decide +kernel
  obtain ⟨data, again, fixed, one⟩ := toData_eq_canonical_of_ofNodeData read
  have same : untidy.canonical = (tidy (int 1)).canonical := (one _ _ readTidy).1 rfl
  have different : untidy.canonical ≠ (tidy (bool true)).canonical := fun h =>
    absurd ((one _ _ readTruth).2 h) (by decide)
  exact ⟨⟨read, readTidy, readTruth⟩, data, again, fixed, same, different⟩

end Value

end Deparse
