import Deparse.Proofs.Json.ReadBack
import Deparse.Proofs.Json.Spellable
import Deparse.Proofs.Tree.EveryNode

/-!
# Trees as data and back

The data of a real tree are read as the tree (`ofDataAt_toData`).  If they were read from data that
can be written, then so can be the tree: spellable data come to a spellable tree
(`spellable_of_ofDataAt`), and the data of a spellable tree without floats are a document
(`document_toData`).
-/

namespace Deparse

namespace Value

/-! ### Reading what was written -/

theorem ofMembers_nodeMembers (tag : Text) (cs : List Value) (line : Option Int) :
    Form.ofMembers (nodeMembers tag cs line) = .ok (.node tag cs line) := by
  cases line <;> rfl

mutual

/-- The data of a real value are read as the value. -/
theorem ofDataAt_toData : ∀ (v : Value) (a : Address), v.isReal = true → ofDataAt a v.toData = .ok v
  | seq xs, a, h => by
    have form : Form.ofValue (seq xs).toData = .ok (.items (toDataAll xs)) := rfl
    rw [ofDataAt_items form, ofDataAll_toDataAll xs a .item 0 h]
    rfl
  | node tag cs line synthetic, a, h => by
    obtain ⟨plain, real⟩ := Bool.and_eq_true_iff.1 h
    obtain rfl : synthetic = false := by simpa using plain
    have form : Form.ofValue (node tag cs line false).toData
        = .ok (.node tag (toDataAll cs) line) := ofMembers_nodeMembers ..
    rw [ofDataAt_node form, ofDataAll_toDataAll cs a .child 0 real]
    rfl
  | nil, _, _ | bool _, _, _ | int _, _, _ | float _, _, _ | str _, _, _ | sym _, _, _ =>
    ofDataAt_scalar rfl

theorem ofDataAll_toDataAll :
    ∀ (vs : List Value) (a : Address) (step : Nat → Address.Step) (i : Nat),
    areReal vs = true → ofDataAll a step i (toDataAll vs) = .ok vs
  | [], a, step, i, h => by
    rw [toDataAll, ofDataAll]
  | v :: vs, a, step, i, h => by
    obtain ⟨hv, hvs⟩ := Bool.and_eq_true_iff.1 h
    rw [toDataAll, ofDataAll, ofDataAt_toData v _ hv, ofDataAll_toDataAll vs a step _ hvs]
    rfl

end

/-- What an object with a type has to hold to be read. -/
theorem ofMembers_eq_ok {ms : List (Text × Value)} {f : Form} (h : Form.ofMembers ms = .ok f) :
    ∃ tag cs line, f = .node tag cs line ∧ ms.lookup typeKey = some (str tag) ∧
      Form.children ms = .ok cs ∧ Form.line ms = .ok line := by
  unfold Form.ofMembers at h
  split at h
  · rename_i tag found
    obtain ⟨cs, children, h⟩ := exists_of_bind_eq_ok h
    obtain ⟨line, hline, h⟩ := exists_of_bind_eq_ok h
    cases h
    exact ⟨tag, cs, line, rfl, found, children, hline⟩
  · cases h

/-- A document is read as a node, if it is read at all. -/
theorem exists_node_of_ofNodeData {d t : Value} (h : d.ofNodeData = .ok t) :
    ofData d = .ok t ∧ ∃ tag cs line, t = node tag cs line false := by
  unfold ofNodeData at h
  split at h
  · cases h
  · rename_i form isNode
    refine ⟨h, ?_⟩
    cases d with
    | object ms =>
      obtain ⟨tag, cs, line, rfl, found, -⟩ := ofMembers_eq_ok isNode
      have typed : Form.ofValue (object ms) = .ok (.node tag cs line) := by
        simp only [Form.ofValue, found, Option.isSome_some, ↓reduceIte]
        exact isNode
      rw [ofData, ofDataAt_node typed] at h
      obtain ⟨ws, -, rfl⟩ := exists_of_map_eq_ok h
      exact ⟨tag, ws, line, rfl⟩
    | _ => cases isNode

/-- The data of a tree are read as the tree. -/
theorem ofNodeData_toData {t d : Value} (h : d.ofNodeData = .ok t) :
    t.toData.ofNodeData = .ok t := by
  obtain ⟨read, tag, cs, line, rfl⟩ := exists_node_of_ofNodeData h
  have form : Form.ofNode (node tag cs line false).toData = .ok (.node tag (toDataAll cs) line) :=
    ofMembers_nodeMembers ..
  rw [ofNodeData, form]
  exact ofDataAt_toData _ [] (isReal_of_ofData read)

/-! ### Spellable trees -/

open Json (Spellable Document IsShort)

/-- A form of which all is spellable. -/
def FormSpellable : Form → Prop
  | .scalar v => Spellable v
  | .items vs => ∀ v ∈ vs, Spellable v
  | .node tag cs line => tag.IsUnpaired ∧ (∀ v ∈ cs, Spellable v) ∧ ∀ n ∈ line, IsShort n

theorem mem_of_lookup {k : Text} {v : Value} {ms : List (Text × Value)}
    (h : ms.lookup k = some v) : (k, v) ∈ ms := by
  obtain ⟨before, after, rfl, -⟩ := List.lookup_eq_some_iff.1 h
  simp

/-- What a node is made of is spellable if all its members are. -/
theorem formSpellable_ofMembers {ms : List (Text × Value)} {f : Form}
    (values : ∀ m ∈ ms, Spellable m.2) (h : Form.ofMembers ms = .ok f) : FormSpellable f := by
  have found {k : Text} {v : Value} (h : ms.lookup k = some v) : Spellable v :=
    values _ (mem_of_lookup h)
  obtain ⟨tag, cs, line, rfl, htag, hcs, hline⟩ := ofMembers_eq_ok h
  refine ⟨?_, ?_, ?_⟩
  · cases found htag with
    | str unpaired => exact unpaired
  · -- a node without children has none, and children are an array
    unfold Form.children at hcs
    split at hcs
    · cases hcs
      simp
    · rename_i vs children
      cases hcs
      cases found children with
      | array items => exact items
    · cases hcs
  · -- a line is an integer, if there is one
    unfold Form.line at hline
    split at hline
    · cases hline
      simp
    · cases hline
      simp
    · rename_i n number
      cases hline
      cases found number with
      | int short => simpa using short
    · cases hline

/-- A spellable value has a spellable form. -/
theorem formSpellable_ofValue {v : Value} {f : Form} (spellable : Spellable v)
    (h : Form.ofValue v = .ok f) : FormSpellable f := by
  cases spellable with
  | object keys values =>
    simp only [Form.ofValue] at h
    -- with a type it is a node, and otherwise it has to be a symbol
    split at h
    · exact formSpellable_ofMembers values h
    · split at h
      · rename_i k name _
        split at h
        · cases h
          cases values (k, .str name) (List.mem_singleton_self _) with
          | str unpaired => exact .sym unpaired
        · cases h
      · cases h
  | array items =>
    cases h
    exact items
  | nil | bool | int | float | str =>
    cases h
    constructor <;> assumption
  | seq | sym | bytes | node => cases h

/-- Data side by side come to spellable values if each of them does. -/
theorem spellable_of_ofDataAll {vs ws : List Value} {a : Address} {step : Nat → Address.Step}
    {i : Nat} (each : ∀ v ∈ vs, ∀ b w, ofDataAt b v = .ok w → Spellable w)
    (h : ofDataAll a step i vs = .ok ws) : ∀ w ∈ ws, Spellable w := by
  induction vs generalizing i ws with
  | nil =>
    rw [ofDataAll] at h
    cases h
    simp
  | cons v vs ih =>
    rw [ofDataAll] at h
    obtain ⟨w, first, h⟩ := exists_of_bind_eq_ok h
    obtain ⟨us, others, h⟩ := exists_of_bind_eq_ok h
    cases h
    exact List.forall_mem_cons.2 ⟨each v (List.mem_cons_self ..) _ w first,
      ih (fun u hu => each u (List.mem_cons_of_mem _ hu)) others⟩

/-- Spellable data come to a spellable tree. -/
theorem spellable_of_ofDataAt {v w : Value} {a : Address} (spellable : Spellable v)
    (h : ofDataAt a v = .ok w) : Spellable w := by
  cases form : Form.ofValue v with
  | error p =>
    rw [ofDataAt, form] at h
    cases h
  | ok f =>
    -- the values within are spellable and smaller, so what they come to is spellable
    have inner := formSpellable_ofValue spellable form
    cases f with
    | scalar s =>
      rw [ofDataAt_scalar form] at h
      cases h
      exact inner
    | items vs =>
      have within := Form.sizeAll_inner_lt form (by simp)
      rw [ofDataAt_items form] at h
      obtain ⟨ws, items, rfl⟩ := exists_of_map_eq_ok h
      refine .seq (spellable_of_ofDataAll (fun u hu b x hx => ?_) items)
      have smaller := Nat.lt_trans (size_lt_sizeAll hu) within
      exact spellable_of_ofDataAt (inner u hu) hx
    | node tag cs line =>
      have within := Form.sizeAll_inner_lt form (by simp)
      rw [ofDataAt_node form] at h
      obtain ⟨ws, children, rfl⟩ := exists_of_map_eq_ok h
      refine .node inner.1 (spellable_of_ofDataAll (fun u hu b x hx => ?_) children) inner.2.2
      have smaller := Nat.lt_trans (size_lt_sizeAll hu) within
      exact spellable_of_ofDataAt (inner.2.1 u hu) hx
termination_by v.size

/-! ### Trees as documents -/

mutual

/-- Whether no float stands in a value, at any depth. -/
def isFloatFree : Value → Bool
  | float _ => false
  | seq xs => areFloatFree xs
  | array xs => areFloatFree xs
  | object ms => membersFloatFree ms
  | node _ cs _ _ => areFloatFree cs
  | _ => true

/-- Whether no float stands in any of the values. -/
def areFloatFree : List Value → Bool
  | [] => true
  | v :: vs => isFloatFree v && areFloatFree vs

/-- Whether no float stands in any of the members. -/
def membersFloatFree : List (Text × Value) → Bool
  | [] => true
  | (_, v) :: ms => isFloatFree v && membersFloatFree ms

end

theorem isFloatFree_of_mem {v : Value} {vs : List Value} (h : areFloatFree vs = true)
    (hv : v ∈ vs) : v.isFloatFree = true :=
  of_mem_of_checked (fun _ _ => rfl) h hv

theorem toDataAll_eq_map (vs : List Value) : toDataAll vs = vs.map toData := by
  induction vs with
  | nil => rfl
  | cons v vs ih => rw [toDataAll, ih, List.map_cons]

theorem document_object {ascii : Bool} {ms : List (Text × Value)}
    (distinct : (ms.map Prod.fst).Nodup)
    (members : ∀ m ∈ ms, m.1.IsUnpaired ∧ Document ascii m.2) : Document ascii (object ms) :=
  .object distinct (fun _ m hm => (members m hm).1) fun m hm => (members m hm).2

/-- The members of a node have three keys that differ, the last of which may be missing. -/
theorem document_nodeMembers {ascii : Bool} {tag : Text} {cs : List Value} {line : Option Int}
    (tagged : tag.IsUnpaired) (children : ∀ v ∈ cs, Document ascii v)
    (short : ∀ n ∈ line, IsShort n) : Document ascii (object (nodeMembers tag cs line)) := by
  have type : typeKey.IsUnpaired ∧ Document ascii (str tag) := ⟨by decide, .str fun _ => tagged⟩
  have inner : childrenKey.IsUnpaired ∧ Document ascii (array cs) := ⟨by decide, .array children⟩
  cases line with
  | none =>
    have distinct : [typeKey, childrenKey].Nodup := by decide
    refine document_object distinct fun m hm => ?_
    simp only [nodeMembers, List.append_nil, List.mem_cons, List.not_mem_nil, or_false] at hm
    rcases hm with rfl | rfl
    · exact type
    · exact inner
  | some n =>
    have distinct : [typeKey, childrenKey, lineKey].Nodup := by decide
    refine document_object distinct fun m hm => ?_
    simp only [nodeMembers, List.cons_append, List.nil_append, List.mem_cons, List.not_mem_nil,
      or_false] at hm
    rcases hm with rfl | rfl | rfl
    · exact type
    · exact inner
    · have key : lineKey.IsUnpaired := by decide
      exact ⟨key, .int (short n rfl)⟩

/-- The data of a spellable tree without floats are a document, in whatever style it is written. -/
theorem document_toData {v : Value} (spellable : Spellable v) (real : v.isReal = true)
    (floatFree : v.isFloatFree = true) (ascii : Bool) : Document ascii v.toData := by
  have parts {vs : List Value} (real : areReal vs = true) (floatFree : areFloatFree vs = true)
      (each : ∀ v ∈ vs, v.isReal = true → v.isFloatFree = true → Document ascii v.toData) :
      ∀ v ∈ toDataAll vs, Document ascii v := by
    intro v hv
    rw [toDataAll_eq_map] at hv
    obtain ⟨w, hw, rfl⟩ := List.mem_map.1 hv
    exact each w hw (isReal_of_mem real hw) (isFloatFree_of_mem floatFree hw)
  -- a tree has no bytes, arrays and objects, which its data are made of
  induction spellable with
  | nil => exact .nil
  | bool b => exact .bool b
  | int short => exact .int short
  | str unpaired => exact .str fun _ => unpaired
  | sym unpaired =>
    have key : symbolKey.IsUnpaired := by decide
    refine document_object (by simp) fun m hm => ?_
    rw [List.mem_singleton.1 hm]
    exact ⟨key, .str fun _ => unpaired⟩
  | seq items ih => exact .array (parts real floatFree ih)
  | node tagged children short ih =>
    exact document_nodeMembers tagged (parts (Bool.and_eq_true_iff.1 real).2 floatFree ih) short
  | float => cases floatFree
  | bytes | array | object => cases real

end Value

end Deparse
