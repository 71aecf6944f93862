import Deparse.Source.Script

/-!
# What a rendering comes to

A rendering comes to a text and possibly a fault: the text is what was written before the fault, or
all of it if there is none.  `Piece.Yields` says so of pieces and `Value.Renders` of a value.  What
pieces yield is put together from what their parts yield (`Yields.append`, `Yields.append_of_some`),
and a value without a fault is one with a source text (`renders_none_iff`).

Two values *agree* if they come to the same, but for what the message of a fault says of the tree
(`Value.Agree`); pieces that come to the same still do so between others (`Alike.between`).

`Layout.pieces` carries out the steps of a layout, and the script of a value is its layout carried
out (`script_eq_pieces`); the lemmas about it say what becomes of each kind of slot.
-/

namespace Deparse

/-! ### Pieces -/

namespace Piece

/-- The pieces write `t` and then meet the fault, if there is one. -/
structure Yields (ps : List Piece) (t : Text) (fault : Option Fault) : Prop where
  written_eq : written ps = t
  firstFault?_eq : firstFault? ps = fault

theorem yields_self (ps : List Piece) : Yields ps (written ps) (firstFault? ps) :=
  ⟨rfl, rfl⟩

theorem yields_nil : Yields [] [] none :=
  ⟨rfl, rfl⟩

theorem yields_text (t : Text) : Yields [text t] t none :=
  ⟨by simp [written, delivered, fault?, chars], rfl⟩

theorem yields_fault (f : Fault) : Yields [fault f] [] (some f) :=
  ⟨rfl, rfl⟩

variable {ps qs : List Piece} {t u : Text} {f : Fault} {later : Option Fault}

/-- Pieces without a fault are followed by what comes after them. -/
theorem Yields.append (hp : Yields ps t none) (hq : Yields qs u later) :
    Yields (ps ++ qs) (t ++ u) later := by
  obtain ⟨hpt, hpf⟩ := hp
  obtain ⟨hqt, hqf⟩ := hq
  constructor
  · have : written (ps ++ qs) = written ps ++ written qs := by
      simp only [written]
      rw [delivered_append_of_none hpf, List.flatMap_append, delivered_of_none hpf]
    rw [this, hpt, hqt]
  · have hnone : ps.findSome? fault? = none := hpf
    rw [← hqf]
    simp [firstFault?, List.findSome?_append, hnone]

/-- Nothing comes after a fault. -/
theorem Yields.append_of_some (hp : Yields ps t (some f)) (qs : List Piece) :
    Yields (ps ++ qs) t (some f) := by
  obtain ⟨hpt, hpf⟩ := hp
  constructor
  · have : written (ps ++ qs) = written ps := by
      simp only [written, delivered_append_of_some hpf qs]
    rw [this, hpt]
  · have hsome : ps.findSome? fault? = some f := hpf
    simp [firstFault?, List.findSome?_append, hsome]

/-- What pieces yield is determined. -/
theorem Yields.unique {fault fault' : Option Fault} (h : Yields ps t fault)
    (h' : Yields ps u fault') : t = u ∧ fault = fault' :=
  ⟨h.written_eq.symm.trans h'.written_eq, h.firstFault?_eq.symm.trans h'.firstFault?_eq⟩

/-- Of what two lists yield together without a fault, each of them yields a part. -/
theorem Yields.of_append_none (h : Yields (ps ++ qs) t none) :
    ∃ a b, Yields ps a none ∧ Yields qs b none ∧ t = a ++ b := by
  have first := yields_self ps
  cases hp : firstFault? ps with
  | some f =>
    rw [hp] at first
    cases ((first.append_of_some qs).unique h).2
  | none =>
    rw [hp] at first
    obtain ⟨ht, hf⟩ := (first.append (yields_self qs)).unique h
    exact ⟨_, _, first, hf ▸ yields_self qs, ht.symm⟩

end Piece

/-! ### Values -/

/-- The value is rendered as far as `t`, where the fault is met if there is one. -/
def Value.Renders (v : Value) (t : Text) (fault : Option Fault) : Prop :=
  Piece.Yields v.script t fault

/-- What is rendered without a fault is what has a source text. -/
theorem Value.renders_none_iff {v : Value} {t : Text} :
    v.Renders t none ↔ v.toSource = .ok t := by
  unfold toSource
  constructor
  · rintro ⟨ht, hf⟩
    rw [hf, ← ht]
  · intro h
    split at h
    · rename_i hf
      cases h
      exact ⟨rfl, hf⟩
    · cases h

/-- The fault that is met is the answer. -/
theorem Value.renders_some_iff {v : Value} {f : Fault} :
    (∃ t, v.Renders t (some f)) ↔ v.toSource = .error f := by
  unfold toSource
  constructor
  · rintro ⟨t, -, hf⟩
    rw [hf]
  · intro h
    split at h
    · cases h
    · rename_i g hf
      cases h
      exact ⟨_, rfl, hf⟩

/-! ### Renderings that agree -/

namespace Fault

/-- What sort of fault it is, whatever its message says of the tree. -/
inductive Kind where
  | unsupportedNode
  | invalidFragment
  | unexpectedSegment
  | unsupportedOperator
  | malformed (malformation : Malformation)
deriving DecidableEq

/-- The sort of a fault. -/
def kind : Fault → Kind
  | refused (.unsupportedNode _ _) => .unsupportedNode
  | refused (.invalidFragment _ _) => .invalidFragment
  | refused (.unexpectedSegment _ _) => .unexpectedSegment
  | refused (.unsupportedOperator _ _) => .unsupportedOperator
  | malformed m => .malformed m

end Fault

namespace Piece

/-- The pieces write the same, and meet faults of the same kind if any. -/
structure Alike (ps qs : List Piece) : Prop where
  written_eq : written ps = written qs
  kind_eq : (firstFault? ps).map Fault.kind = (firstFault? qs).map Fault.kind

variable {ps qs rs : List Piece} {t : Text}

theorem Alike.refl (ps : List Piece) : Alike ps ps :=
  ⟨rfl, rfl⟩

theorem Alike.symm (h : Alike ps qs) : Alike qs ps :=
  ⟨h.written_eq.symm, h.kind_eq.symm⟩

theorem Alike.trans (h : Alike ps qs) (h' : Alike qs rs) : Alike ps rs :=
  ⟨h.written_eq.trans h'.written_eq, h.kind_eq.trans h'.kind_eq⟩

/-- Pieces that yield the same, up to the kind of their fault, are alike. -/
theorem Yields.alike {fault fault' : Option Fault} (h : Yields ps t fault)
    (h' : Yields qs t fault') (kind : fault.map Fault.kind = fault'.map Fault.kind) :
    Alike ps qs := by
  constructor
  · rw [h.written_eq, h'.written_eq]
  · rw [h.firstFault?_eq, h'.firstFault?_eq, kind]

/-- Alike pieces have no fault, or both have one, of the same kind. -/
theorem Alike.yields (h : Alike ps qs) :
    (∃ t, Yields ps t none ∧ Yields qs t none) ∨
      ∃ t f g, Yields ps t (some f) ∧ Yields qs t (some g) ∧ f.kind = g.kind := by
  have left := yields_self ps
  have right := yields_self qs
  rw [← h.written_eq] at right
  have kind := h.kind_eq
  -- one of them cannot have a fault without the other
  cases hp : firstFault? ps <;> cases hq : firstFault? qs <;> rw [hp, hq] at kind
  case none.none =>
    rw [hp] at left
    rw [hq] at right
    exact .inl ⟨_, left, right⟩
  case some.some f g =>
    rw [hp] at left
    rw [hq] at right
    exact .inr ⟨_, f, g, left, right, Option.some.inj kind⟩
  all_goals cases kind

/-- What comes before can only hide what comes after it. -/
theorem Alike.prepend (h : Alike ps qs) (pre : List Piece) : Alike (pre ++ ps) (pre ++ qs) := by
  have before := yields_self pre
  cases hpre : firstFault? pre with
  | some f =>
    rw [hpre] at before
    exact (before.append_of_some ps).alike (before.append_of_some qs) rfl
  | none =>
    rw [hpre] at before
    have right := yields_self qs
    rw [← h.written_eq] at right
    exact (before.append (yields_self ps)).alike (before.append right) h.kind_eq

/-- What comes after is met by both or by neither. -/
theorem Alike.append (h : Alike ps qs) (post : List Piece) : Alike (ps ++ post) (qs ++ post) := by
  rcases h.yields with ⟨t, left, right⟩ | ⟨t, f, g, left, right, kind⟩
  · have after := yields_self post
    exact (left.append after).alike (right.append after) rfl
  · exact (left.append_of_some post).alike (right.append_of_some post) (congrArg some kind)

/-- Alike pieces are alike between others. -/
theorem Alike.between (h : Alike ps qs) (pre post : List Piece) :
    Alike (pre ++ ps ++ post) (pre ++ qs ++ post) :=
  (h.prepend pre).append post

end Piece

/-- The values have the same source text, or else both meet a fault of the same kind after the same
text. -/
def Value.Agree (v w : Value) : Prop :=
  (∃ t, v.toSource = .ok t ∧ w.toSource = .ok t) ∨
    ∃ t f g, v.Renders t (some f) ∧ w.Renders t (some g) ∧ f.kind = g.kind

/-- Values whose scripts come to the same agree. -/
theorem Value.agree_of_alike {v w : Value} (h : Piece.Alike v.script w.script) : v.Agree w := by
  rcases h.yields with ⟨t, left, right⟩ | ⟨t, f, g, left, right, kind⟩
  · exact .inl ⟨t, renders_none_iff.1 left, renders_none_iff.1 right⟩
  · exact .inr ⟨t, f, g, left, right, kind⟩

/-! ### Layouts -/

namespace Layout

/-- The pieces that the steps stand for. -/
def pieces (steps : List Step) : List Piece :=
  steps.flatMap Step.pieces

@[simp] theorem pieces_nil : pieces [] = [] := rfl

@[simp] theorem pieces_append (a b : List Step) : pieces (a ++ b) = pieces a ++ pieces b :=
  List.flatMap_append

@[simp] theorem pieces_word (t : Text) : pieces (word t) = [.text t] := rfl

@[simp] theorem pieces_refuse (r : Refusal) : pieces (refuse r) = [.fault (.refused r)] := rfl

@[simp] theorem pieces_visit (v : Value) : pieces [.visit v] = v.script := by
  simp [pieces, Step.pieces]

/-- The script of a value is its layout carried out. -/
theorem script_eq_pieces (v : Value) : v.script = pieces v.layout :=
  Value.script_eq v

@[simp] theorem slot_nil : slot .nil = [] := rfl

@[simp] theorem pieces_slot_str (t : Text) : pieces (slot (.str t)) = [.text t] := rfl

@[simp] theorem pieces_slot_node (tag : Text) (cs : List Value) (line : Option Int)
    (synthetic : Bool) :
    pieces (slot (.node tag cs line synthetic)) = (Value.node tag cs line synthetic).script :=
  pieces_visit _

theorem pieces_slot_of_isNode {v : Value} (h : v.isNode = true) : pieces (slot v) = v.script := by
  cases v with
  | node tag cs line synthetic => exact pieces_slot_node tag cs line synthetic
  | _ => cases h

/-- A node of a tree whose tag is known is laid out as its tag says. -/
theorem layout_node {tag : Text} {g : Tag} (htag : Tag.ofText? tag = some g)
    (real : g.isSynthetic = false) (cs : List Value) (line : Option Int) :
    (Value.node tag cs line false).layout = ofTag cs line g := by
  simp [Value.layout, htag, real]

/-- So its script is that of the layout of its tag. -/
theorem script_node {tag : Text} {g : Tag} (htag : Tag.ofText? tag = some g)
    (real : g.isSynthetic = false) (cs : List Value) (line : Option Int) :
    (Value.node tag cs line false).script = pieces (ofTag cs line g) := by
  rw [script_eq_pieces, layout_node htag real]

/-! #### Lists -/

/-- Lists with the same present members are written in the same way. -/
theorem listed_congr {xs ys : List Value}
    (h : xs.filter Value.isPresent = ys.filter Value.isPresent) : listed xs = listed ys := by
  rw [listed, listed, h]

/-- The absent value at the end of a list does not count among the present ones. -/
theorem filter_withoutSentinel (xs : List Value) :
    (withoutSentinel xs).filter Value.isPresent = xs.filter Value.isPresent := by
  unfold withoutSentinel
  split
  · rename_i last
    -- the absent value is the only thing that is dropped
    obtain ⟨init, rfl⟩ := List.getLast?_eq_some_iff.1 last
    rw [List.dropLast_concat, List.filter_append]
    exact (List.append_nil _).symm
  · rfl

theorem listed_withoutSentinel (xs : List Value) : listed (withoutSentinel xs) = listed xs :=
  listed_congr (filter_withoutSentinel xs)

end Layout

end Deparse
