import Deparse.Proofs.Source.Outcome

/-!
# Scopes that are open

A layout consists of whole scopes and of steps that open and close none (`built_smaller`).  So a
script leaves as many scopes open as it found (`scopes_script`), and where it meets a fault, the
scopes that stay open are those of the sequences that are being rendered at that moment:
`Layout.Breaks` counts them along the way to the fault, every fault is met in this way
(`Built.exists_breaks`), and a context in which pieces are played is left with as many more open
scopes (`Breaks.play`).
-/

namespace Deparse

open Piece

namespace Layout

/-! ### Rendering as a whole -/

theorem pieces_scope (vs : List Value) :
    pieces (scope vs) = [.text "\n", .enter] ++
      pieces ((vs.filter Value.isPresent).map .visit) ++ [.leave, .text "\n"] := by
  simp [scope, pieces, word, Step.pieces]

variable {V : Value → Prop} {steps : List Step}

/-- Steps close the scopes that they open, if the scripts of what they visit do. -/
theorem Built.scopes (h : Built V steps) (hV : ∀ v, V v → ∀ k, v.script.foldl Piece.scopes k = k)
    (k : Nat) : (pieces steps).foldl scopes k = k := by
  have visits (vs : List Value) (hvs : ∀ v ∈ vs, V v) (k : Nat) :
      (pieces (vs.map .visit)).foldl Piece.scopes k = k := by
    induction vs with
    | nil => rfl
    | cons v vs ih =>
      have split : pieces ((v :: vs).map .visit) = v.script ++ pieces (vs.map .visit) := rfl
      rw [split, List.foldl_append, hV v (hvs v (by simp)) k]
      exact ih fun w hw => hvs w (List.mem_cons_of_mem _ hw)
  induction h generalizing k with
  | nil | text | fault => rfl
  | @visit v hv =>
    rw [pieces_visit]
    exact hV v hv k
  | @scope vs hvs =>
    -- within a sequence one more scope is open, and it is closed at the end
    have inner := visits (vs.filter Value.isPresent)
      (fun v hv => hvs v (List.mem_filter.1 hv).1) (k + 1)
    rw [pieces_scope, List.foldl_append, List.foldl_append]
    simp only [List.foldl_cons, List.foldl_nil, Piece.scopes, inner, Nat.add_sub_cancel]
  | append _ _ iha ihb => rw [pieces_append, List.foldl_append, iha, ihb]

/-- A script closes the scopes that it opens. -/
theorem scopes_script (v : Value) (k : Nat) : v.script.foldl Piece.scopes k = k := by
  rw [script_eq_pieces]
  exact (built_smaller v).scopes (fun w smaller k => scopes_script w k) k
termination_by v.size

/-- Steps close the scopes that they open. -/
theorem Built.scopes_pieces (h : Built V steps) (k : Nat) :
    (pieces steps).foldl Piece.scopes k = k :=
  h.scopes (fun v _ => scopes_script v) k

/-- Steps without a fault add to the text of a context and leave the number of its scopes. -/
theorem Built.play (h : Built V steps) (none : firstFault? (pieces steps) = none) (c : Context) :
    c.play (pieces steps)
      = { buffer := c.buffer ++ written (pieces steps), indent := c.indent } := by
  have scopes := h.scopes_pieces c.indent
  simp only [Context.play, delivered_of_none none, scopes]

/-! ### The way to a fault -/

/-- The steps meet the fault `f` first, at a moment when `d` sequences are being rendered. -/
inductive Breaks : List Step → Fault → Nat → Prop
  | fault (f : Fault) (rest : List Step) : Breaks (.put (.fault f) :: rest) f 0
  | visit {v : Value} {f : Fault} {d : Nat} (h : Breaks v.layout f d) (rest : List Step) :
    Breaks (.visit v :: rest) f d
  /-- The fault is met within a sequence. -/
  | scope {vs : List Value} {f : Fault} {d : Nat}
    (h : Breaks ((vs.filter Value.isPresent).map .visit) f d) (rest : List Step) :
    Breaks (scope vs ++ rest) f (d + 1)
  /-- The fault is met after steps that are carried out completely. -/
  | after {done rest : List Step} {f : Fault} {d : Nat} (built : Built (fun _ => True) done)
    (none : firstFault? (pieces done) = none) (h : Breaks rest f d) : Breaks (done ++ rest) f d

variable {f : Fault} {d : Nat}

/-- What comes after the fault does not matter. -/
theorem Breaks.append (h : Breaks steps f d) (rest : List Step) :
    Breaks (steps ++ rest) f d := by
  induction h with
  | fault => exact .fault _ _
  | visit h _ _ => exact .visit h _
  | scope h inner _ =>
    rw [List.append_assoc]
    exact .scope h _
  | after built none _ ih =>
    rw [List.append_assoc]
    exact .after built none ih

/-- The fault that steps meet first is the first fault among their pieces. -/
theorem Breaks.firstFault? (h : Breaks steps f d) : firstFault? (pieces steps) = some f := by
  induction h with
  | fault => rfl
  | @visit v _ _ _ rest ih =>
    have split : pieces (.visit v :: rest) = v.script ++ pieces rest := rfl
    rw [split, firstFault?_append, script_eq_pieces, ih]
    rfl
  | scope _ rest ih =>
    rw [pieces_append, pieces_scope]
    simp only [firstFault?_append, ih]
    rfl
  | after _ none _ ih =>
    rw [pieces_append, firstFault?_append, none, ih]
    rfl

/-- The scopes that are open at a fault are those of the sequences being rendered. -/
theorem Breaks.scopes (h : Breaks steps f d) (k : Nat) :
    (delivered (pieces steps)).foldl Piece.scopes k = k + d := by
  induction h generalizing k with
  | fault => rfl
  | @visit v _ _ h rest ih =>
    have split : pieces (.visit v :: rest) = pieces v.layout ++ pieces rest := by
      rw [← script_eq_pieces]
      rfl
    rw [split, delivered_append_of_some h.firstFault?]
    exact ih k
  | @scope vs f d h rest ih =>
    -- the scope is entered, and its end is not delivered
    have opened : Piece.firstFault? [.text "\n", .enter] = none := rfl
    rw [pieces_append, pieces_scope, List.append_assoc, List.append_assoc,
      delivered_append_of_none opened, delivered_append_of_some h.firstFault?, List.foldl_append]
    show List.foldl Piece.scopes (k + 1) _ = _
    rw [ih, Nat.add_assoc, Nat.add_comm 1 d]
  | after built none h ih =>
    rw [pieces_append, delivered_append_of_none none, List.foldl_append, built.scopes_pieces, ih]

/-- Steps with a fault add to a context the text before the fault and a scope for each of the
sequences being rendered. -/
theorem Breaks.play (h : Breaks steps f d) (c : Context) :
    c.play (pieces steps)
      = { buffer := c.buffer ++ written (pieces steps), indent := c.indent + d } := by
  have scopes := h.scopes c.indent
  simp only [Context.play, scopes]

/-- Values in a row meet the fault of the first that has one. -/
theorem exists_breaks_map_visit {vs : List Value}
    (h : ∀ v ∈ vs, Piece.firstFault? v.script = some f → ∃ d, Breaks v.layout f d)
    (hf : Piece.firstFault? (pieces (vs.map .visit)) = some f) :
    ∃ d, Breaks (vs.map .visit) f d := by
  induction vs with
  | nil => cases hf
  | cons v vs ih =>
    have split : pieces ((v :: vs).map .visit) = v.script ++ pieces (vs.map .visit) := rfl
    rw [split, firstFault?_append] at hf
    -- the fault is met in the first value, or behind it
    cases hv : Piece.firstFault? v.script with
    | some g =>
      rw [hv] at hf
      cases hf
      obtain ⟨d, hd⟩ := h v (by simp) hv
      exact ⟨d, .visit hd _⟩
    | none =>
      rw [hv] at hf
      obtain ⟨d, hd⟩ := ih (fun w hw => h w (List.mem_cons_of_mem _ hw)) hf
      refine ⟨d, .after (.visit trivial) ?_ hd⟩
      rw [pieces_visit, hv]

/-- Among steps with a fault there is a way to it, if there is one in each value that they visit. -/
theorem Built.exists_breaks_of (h : Built V steps)
    (hV : ∀ v, V v → Piece.firstFault? v.script = some f → ∃ d, Breaks v.layout f d)
    (hf : Piece.firstFault? (pieces steps) = some f) : ∃ d, Breaks steps f d := by
  induction h with
  | nil | text => cases hf
  | fault =>
    cases hf
    exact ⟨0, .fault f []⟩
  | @visit v hv =>
    rw [pieces_visit] at hf
    obtain ⟨d, hd⟩ := hV v hv hf
    exact ⟨d, .visit hd []⟩
  | @scope vs hvs =>
    have inner : Piece.firstFault? (pieces ((vs.filter Value.isPresent).map .visit)) = some f := by
      have opened : Piece.firstFault? [.text "\n", .enter] = none := rfl
      have closed : Piece.firstFault? [.leave, .text "\n"] = none := rfl
      rw [pieces_scope, firstFault?_append, firstFault?_append, opened, closed] at hf
      simpa using hf
    obtain ⟨d, hd⟩ := exists_breaks_map_visit
      (fun v hv => hV v (hvs v (List.mem_filter.1 hv).1)) inner
    have within := Breaks.scope hd []
    rw [List.append_nil] at within
    exact ⟨d + 1, within⟩
  | @append a b ha hb iha ihb =>
    rw [pieces_append, firstFault?_append] at hf
    -- either the first steps meet the fault, or they are carried out completely
    cases hfa : Piece.firstFault? (pieces a) with
    | some g =>
      rw [hfa] at hf
      cases hf
      obtain ⟨d, hd⟩ := iha hfa
      exact ⟨d, hd.append b⟩
    | none =>
      rw [hfa] at hf
      obtain ⟨d, hd⟩ := ihb hf
      exact ⟨d, .after (ha.mono fun _ _ => trivial) hfa hd⟩

/-- There is a way to the fault of a value. -/
theorem exists_breaks_layout (v : Value) (hf : Piece.firstFault? v.script = some f) :
    ∃ d, Breaks v.layout f d := by
  rw [script_eq_pieces] at hf
  exact (built_smaller v).exists_breaks_of (fun w smaller => exists_breaks_layout w) hf
termination_by v.size

theorem Built.exists_breaks (h : Built V steps)
    (hf : Piece.firstFault? (pieces steps) = some f) : ∃ d, Breaks steps f d :=
  h.exists_breaks_of (fun v _ => exists_breaks_layout v) hf

end Layout

end Deparse
