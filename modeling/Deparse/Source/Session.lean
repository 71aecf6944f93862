import Deparse.Source.Script

/-!
# Rendering sessions

In a session several trees and fragments are rendered into one context, one request after the
other.  A request that fails leaves in the context what it wrote before the fault, and the scopes
that were open at the fault stay open; the requests after it go on from there.
-/

namespace Deparse

/-- The pieces of fragments that stand side by side in a slot. -/
def Value.fragments (vs : List Value) : List Piece :=
  (vs.flatMap Layout.slot).flatMap Step.pieces

namespace Session

/-- What a session can be asked for. -/
inductive Request where
  /-- Render a tree into the context and answer with the whole text so far. -/
  | convert (v : Value)
  /-- Render a tree into a context of its own and answer with its text. -/
  | convertFresh (v : Value)
  | emit (vs : List Value)
  | write (t : Text)
  | reset

/-- What came of a request: an answer, which may be empty, or a fault. -/
abbrev Outcome := Except Fault (Option Text)

/-- The outcome of a rendering: its first fault, or else the given answer. -/
def outcome (ps : List Piece) (answer : Option Text) : Outcome :=
  match Piece.firstFault? ps with
  | none => .ok answer
  | some f => .error f

/-- The context after a request, and the outcome of the request. -/
def step (c : Context) : Request → Context × Outcome
  | .convert v => let after := c.play v.script; (after, outcome v.script (some after.buffer))
  | .convertFresh v => (c, outcome v.script (some (Piece.written v.script)))
  | .emit vs => (c.play (Value.fragments vs), outcome (Value.fragments vs) none)
  | .write t => (c.write t, .ok none)
  | .reset => ({}, .ok none)

/-- The context and the outcome after each of the requests. -/
def run (c : Context) : List Request → List (Context × Outcome)
  | [] => []
  | r :: rs => let after := step c r; after :: run after.1 rs

end Session

end Deparse
