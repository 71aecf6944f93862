import Deparse.Proofs.Source.Nesting
import Deparse.Source.Session
import Mathlib.Algebra.Ring.Nat

/-!
# Requests that share a context

What a request does in a context is what it does in an empty one, moved there: the same text is
added to the buffer, as many scopes are left open, and the request comes to the same end.  A request
that succeeds leaves no scope open (`step_of_alone_ok`), and one that fails leaves those of the
sequences that were being rendered at that moment (`step_of_alone_error`).  So the context after
each request of a session is put together from what the requests up to it do alone
(`run_eq_alone`).
-/

namespace Deparse

open Layout Piece

namespace Session

namespace Request

/-- Whether the request is carried out in the context of the session. -/
def isShared : Request → Bool
  | convert _ | emit _ | write _ => true
  | convertFresh _ | reset => false

/-- The steps that the request carries out in the context of the session. -/
def steps : Request → List Step
  | convert v => [.visit v]
  | emit vs => vs.flatMap slot
  | write t => word t
  | convertFresh _ | reset => []

/-- The answer to the request, if nothing fails and the whole text is `buffer` then. -/
def answer (buffer : Text) : Request → Option Text
  | convert _ => some buffer
  | _ => none

/-- What the request writes when it is carried out alone. -/
def text (r : Request) : Text :=
  (step {} r).1.buffer

/-- The number of scopes that the request leaves open when it is carried out alone. -/
def openScopes (r : Request) : Nat :=
  (step {} r).1.indent

theorem built_steps (r : Request) : Built (fun _ => True) r.steps := by
  have hereditary : Value.Hereditary fun _ => True := ⟨trivial, fun _ _ => trivial⟩
  cases r with
  | convert v => exact .visit trivial
  | emit vs =>
    show Built _ (vs.flatMap slot)
    rw [List.flatMap_def]
    exact built_flatten (built_map_slot hereditary fun _ _ => trivial)
  | write t => exact built_word t
  | convertFresh | reset => exact .nil

end Request

variable {r : Request}

/-! ### One request -/

/-- A request plays the pieces of its steps in the context. -/
theorem step_eq_play (shared : r.isShared = true) (c : Context) :
    step c r = (c.play (pieces r.steps),
      outcome (pieces r.steps) (r.answer (c.buffer ++ written (pieces r.steps)))) := by
  cases r with
  | convert v =>
    simp only [Request.steps, pieces_visit]
    rfl
  | emit vs => rfl
  | write t =>
    simp [step, Request.steps, Request.answer, outcome, Context.write, Context.play, written,
      delivered, firstFault?, fault?, chars, scopes]
  | convertFresh | reset => cases shared

/-- A request without a fault adds to the buffer. -/
theorem step_eq_of_none (shared : r.isShared = true)
    (none : firstFault? (pieces r.steps) = none) (c : Context) :
    step c r = ({ buffer := c.buffer ++ written (pieces r.steps), indent := c.indent },
      .ok (r.answer (c.buffer ++ written (pieces r.steps)))) := by
  rw [step_eq_play shared, r.built_steps.play none]
  simp only [outcome, none]

/-- A request with a fault adds what comes before it, and the scopes open there. -/
theorem step_eq_of_breaks {f : Fault} {d : Nat} (shared : r.isShared = true)
    (h : Breaks r.steps f d) (c : Context) :
    step c r
      = ({ buffer := c.buffer ++ written (pieces r.steps), indent := c.indent + d },
        .error f) := by
  rw [step_eq_play shared, h.play]
  simp only [outcome, h.firstFault?]

/-- A request that succeeds alone succeeds in any context, and leaves no scope open. -/
theorem step_of_alone_ok (shared : r.isShared = true) {a : Option Text}
    (alone : (step {} r).2 = .ok a) (c : Context) :
    r.openScopes = 0 ∧ step c r
      = ({ buffer := c.buffer ++ r.text, indent := c.indent },
        .ok (r.answer (c.buffer ++ r.text))) := by
  -- a request fails exactly if its pieces have a fault, in whatever context
  cases hf : firstFault? (pieces r.steps) with
  | some f =>
    obtain ⟨d, hd⟩ := r.built_steps.exists_breaks hf
    rw [step_eq_of_breaks shared hd] at alone
    cases alone
  | none =>
    have empty := step_eq_of_none shared hf {}
    simp only [Request.openScopes, Request.text, empty, step_eq_of_none shared hf c]
    exact ⟨trivial, rfl⟩

/-- A request that fails alone fails in any context in the same way, and leaves the scopes open
that are being rendered at that moment. -/
theorem step_of_alone_error (shared : r.isShared = true) {f : Fault}
    (alone : (step {} r).2 = .error f) (c : Context) :
    Breaks r.steps f r.openScopes ∧ step c r
      = ({ buffer := c.buffer ++ r.text, indent := c.indent + r.openScopes }, .error f) := by
  cases hf : firstFault? (pieces r.steps) with
  | none =>
    rw [step_eq_of_none shared hf] at alone
    cases alone
  | some g =>
    obtain ⟨d, hd⟩ := r.built_steps.exists_breaks hf
    have empty := step_eq_of_breaks shared hd {}
    rw [empty] at alone
    cases alone
    have scopes : r.openScopes = d := by
      simp only [Request.openScopes, empty, Nat.zero_add]
    have text : r.text = written (pieces r.steps) := by
      simp only [Request.text, empty, List.nil_append]
    rw [scopes, text]
    exact ⟨hd, step_eq_of_breaks shared hd c⟩

/-- The context after a request, whether it fails or not. -/
theorem step_context (shared : r.isShared = true) (c : Context) :
    (step c r).1 = { buffer := c.buffer ++ r.text, indent := c.indent + r.openScopes } := by
  cases alone : (step {} r).2 with
  | ok a =>
    obtain ⟨scopes, moved⟩ := step_of_alone_ok shared alone c
    rw [moved, scopes, Nat.add_zero]
  | error f => rw [(step_of_alone_error shared alone c).2]

/-! ### Sessions -/

/-- The context with all that the requests write alone, and all the scopes that they leave open. -/
def after (c : Context) (rs : List Request) : Context where
  buffer := c.buffer ++ rs.flatMap Request.text
  indent := c.indent + (rs.map Request.openScopes).sum

/-- The first request is carried out before the others. -/
theorem after_cons (c : Context) (r : Request) (rs : List Request) :
    after c (r :: rs)
      = after { buffer := c.buffer ++ r.text, indent := c.indent + r.openScopes } rs := by
  simp [after, Nat.add_assoc]

/-- The context after each of the requests. -/
theorem run_contexts {rs : List Request} (shared : ∀ r ∈ rs, r.isShared = true) (c : Context) :
    (run c rs).map Prod.fst = (List.range rs.length).map fun i => after c (rs.take (i + 1)) := by
  induction rs generalizing c with
  | nil => rfl
  | cons r rs ih =>
    -- the requests after the first one go on from the context that it leaves
    have first := step_context (shared r (by simp)) c
    rw [List.length_cons, List.range_succ_eq_map, List.map_cons, List.map_map]
    simp only [run, List.map_cons, ih (fun r hr => shared r (List.mem_cons_of_mem _ hr)), first]
    rw [List.cons.injEq]
    constructor
    · simp [after]
    · apply List.map_congr_left
      intro i _
      simp only [Function.comp, Nat.succ_eq_add_one, List.take_succ_cons, after_cons]

/-- What is in the buffer stays there. -/
theorem pairwise_buffers {rs : List Request} (shared : ∀ r ∈ rs, r.isShared = true)
    (c : Context) :
    ((c :: (run c rs).map Prod.fst).map Context.buffer).Pairwise (· <+: ·) := by
  induction rs generalizing c with
  | nil => simp [run]
  | cons r rs ih =>
    have first := step_context (shared r (by simp)) c
    have later := ih (fun r hr => shared r (List.mem_cons_of_mem _ hr)) (step c r).1
    -- no request takes anything from the buffer
    have grown : c.buffer <+: (step c r).1.buffer := by
      rw [first]
      exact List.prefix_append _ _
    show List.Pairwise _ (c.buffer :: ((step c r).1 :: (run (step c r).1 rs).map Prod.fst).map
      Context.buffer)
    refine List.pairwise_cons.2 ⟨?_, later⟩
    intro t ht
    rcases List.mem_cons.1 ht with rfl | ht
    · exact grown
    · exact grown.trans ((List.pairwise_cons.1 later).1 t ht)

/-- What a request does in a context is what it does in an empty one, moved there, and a session
puts together what its requests do alone. -/
theorem run_eq_alone :
    (∀ (c : Context) (r : Request), r.isShared = true →
      (∀ a, (step {} r).2 = .ok a →
        r.openScopes = 0 ∧ step c r
          = ({ buffer := c.buffer ++ r.text, indent := c.indent },
            .ok (r.answer (c.buffer ++ r.text)))) ∧
      ∀ f, (step {} r).2 = .error f →
        Breaks r.steps f r.openScopes ∧ step c r
          = ({ buffer := c.buffer ++ r.text, indent := c.indent + r.openScopes }, .error f)) ∧
    ∀ (c : Context) (rs : List Request), (∀ r ∈ rs, r.isShared = true) →
      (run c rs).map Prod.fst = (List.range rs.length).map (fun i => after c (rs.take (i + 1))) ∧
      ((c :: (run c rs).map Prod.fst).map Context.buffer).Pairwise (· <+: ·) := by
  refine ⟨?_, ?_⟩
  · intro c r shared
    exact ⟨fun a alone => step_of_alone_ok shared alone c,
      fun f alone => step_of_alone_error shared alone c⟩
  · intro c rs shared
    exact ⟨run_contexts shared c, pairwise_buffers shared c⟩

/-- A request that fails at the second member of a sequence. -/
def stumble : Request :=
  .emit [.seq [.node "NIL" [] none false, .node "CASE" [] (some 7) false]]

/-- A session with two requests that fail, each within a sequence. -/
def stumbling : List Request :=
  [.write "x", stumble, .convert (.node "SCOPE" [.node "CASE" [] none false] none false),
    .convert (.node "TRUE" [] none false)]

theorem run_eq_alone_stumbling :
    (Breaks stumble.steps (.refused (.unsupportedNode "CASE" (some 7))) 1 ∧
      step { buffer := "b", indent := 3 } stumble
        = (⟨"b\nnil", 4⟩, .error (.refused (.unsupportedNode "CASE" (some 7))))) ∧
    (∀ r ∈ stumbling, r.isShared = true) ∧
    (run { buffer := "b", indent := 3 } stumbling).map Prod.fst
      = [⟨"bx", 3⟩, ⟨"bx\nnil", 4⟩, ⟨"bx\nnilproc do\n", 5⟩, ⟨"bx\nnilproc do\ntrue", 5⟩] := by
  have shared : ∀ r ∈ stumbling, r.isShared = true := by decide
  have alone : (step {} stumble).2 = .error (.refused (.unsupportedNode "CASE" (some 7))) := by
    have first : firstFault? (pieces stumble.steps)
        = some (.refused (.unsupportedNode "CASE" (some 7))) := by decide +kernel
    rw [step_eq_play rfl]
    simp only [outcome, first]
  have text : stumble.text = "\nnil" := by decide +kernel
  have scopes : stumble.openScopes = 1 := by decide +kernel
  -- the fault is met within a sequence, so one scope stays open
  obtain ⟨breaks, moved⟩ := (run_eq_alone.1 ⟨"b", 3⟩ stumble rfl).2 _ alone
  rw [scopes] at breaks
  rw [text, scopes] at moved
  refine ⟨⟨breaks, moved⟩, shared, ?_⟩
  rw [(run_eq_alone.2 _ _ shared).1]
  decide +kernel

end Session

end Deparse
