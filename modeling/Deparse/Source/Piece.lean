import Deparse.Source.Fault

/-!
# Pieces of source

Rendering a tree yields a list of pieces: texts, the marks where a scope is entered and left, and
faults.  Only the pieces before the first fault are *delivered*.  `Context.play` delivers them into
a context, which holds the text so far and the number of scopes that are open; a fault leaves the
scopes around it open.  What is delivered depends on the pieces alone, and playing one list after
another is playing both (`play_append`).
-/

namespace Deparse

/-- A part of what a rendering yields. -/
inductive Piece where
  | text (t : Text)
  /-- A scope begins. -/
  | enter
  /-- A scope ends. -/
  | leave
  | fault (f : Fault)
deriving DecidableEq

namespace Piece

/-- The fault that a piece is, if it is one. -/
def fault? : Piece → Option Fault
  | fault f => some f
  | _ => none

/-- The characters that a piece adds to the text. -/
def chars : Piece → Text
  | text t => t
  | _ => []

/-- The number of open scopes after a piece. -/
def scopes (depth : Nat) : Piece → Nat
  | enter => depth + 1
  | leave => depth - 1
  | _ => depth

/-- The first fault among the pieces. -/
def firstFault? (ps : List Piece) : Option Fault :=
  ps.findSome? fault?

/-- The pieces before the first fault. -/
def delivered (ps : List Piece) : List Piece :=
  ps.takeWhile fun p => p.fault?.isNone

/-- The text of the pieces before the first fault. -/
def written (ps : List Piece) : Text :=
  (delivered ps).flatMap chars

theorem firstFault?_append (ps qs : List Piece) :
    firstFault? (ps ++ qs) = (firstFault? ps).or (firstFault? qs) :=
  List.findSome?_append

/-! ### Lists without a fault, and lists with one -/

theorem delivered_append_of_none {ps : List Piece} (h : firstFault? ps = none)
    (qs : List Piece) : delivered (ps ++ qs) = ps ++ delivered qs := by
  simp only [delivered]
  rw [List.takeWhile_append_of_pos]
  intro p hp
  simpa using List.findSome?_eq_none_iff.1 h p hp

theorem delivered_of_none {ps : List Piece} (h : firstFault? ps = none) : delivered ps = ps := by
  simpa [delivered] using delivered_append_of_none h []

theorem delivered_append_of_some {ps : List Piece} {f : Fault} (h : firstFault? ps = some f)
    (qs : List Piece) : delivered (ps ++ qs) = delivered ps := by
  induction ps with
  | nil => simp [firstFault?] at h
  | cons p ps ih =>
    cases hp : p.fault? with
    | none =>
      have : firstFault? ps = some f := by simpa [firstFault?, hp] using h
      have := ih this
      simp only [delivered] at this
      simp [delivered, hp, this]
    | some g => simp [delivered, hp]

end Piece

/-! ### Contexts -/

/-- A text under construction. -/
structure Context where
  buffer : Text := []
  indent : Nat := 0
deriving DecidableEq

namespace Context

/-- The context after a text was added. -/
def write (c : Context) (t : Text) : Context :=
  { c with buffer := c.buffer ++ t }

/-- The context after the pieces before the first fault were delivered. -/
def play (c : Context) (ps : List Piece) : Context where
  buffer := c.buffer ++ Piece.written ps
  indent := (Piece.delivered ps).foldl Piece.scopes c.indent

/-- Playing two lists, the first of them without a fault, is playing one after the other. -/
theorem play_append {ps : List Piece} (h : Piece.firstFault? ps = none) (c : Context)
    (qs : List Piece) : c.play (ps ++ qs) = (c.play ps).play qs := by
  simp [play, Piece.written, Piece.delivered_append_of_none h, Piece.delivered_of_none h]

/-- What stands after a fault has no effect. -/
theorem play_append_of_some {ps : List Piece} {f : Fault} (h : Piece.firstFault? ps = some f)
    (c : Context) (qs : List Piece) : c.play (ps ++ qs) = c.play ps := by
  simp [play, Piece.written, Piece.delivered_append_of_some h]

end Context

end Deparse
