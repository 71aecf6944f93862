import Deparse.Command.Run
import Deparse.Proofs.Tree.Real

/-!
# Strict and tolerant loading

The two modes of loading tell the same of a document (`load_cases`): it is loaded as the same tree,
or it is rejected for the same reason, or it fails in the same way.  Only a rejection is told
differently, by the outcome itself or by the only issue in a report without a tree.

So a command leaves the same behind in either mode, but for its messages: `answerText_cases`
compares the two answers to a request, and `invocation_strict` adds the option to the arguments of a
command.
`load_modes_agree` puts both together.
-/

namespace Deparse

namespace Document

/-! ### Loading -/

/-- What loading comes to in the two modes. -/
theorem load_cases (name source : Text) :
    (∃ t digest, ∀ mode, load mode name source = .ok ⟨some t, [], digest, name⟩) ∨
      (∃ e digest, parse source = .error (.rejected e) ∧
        load .strict name source = .error (.rejected e) ∧
        load .tolerant name source = .ok ⟨none, [⟨e.description, e.path⟩], digest, name⟩) ∨
      ∃ f, (∀ e, f ≠ .rejected e) ∧ ∀ mode, load mode name source = .error f := by
  cases encoded : source.utf8? with
  | none =>
    refine .inr (.inr ⟨.unencodable, fun e => by simp, fun mode => ?_⟩)
    simp only [load, encoded]
  | some bytes =>
    cases parsed : parse source with
    | ok t =>
      refine .inl ⟨t, Sha256.hexDigest bytes, fun mode => ?_⟩
      simp only [load, encoded, parsed]
    | error f =>
      -- only a rejection is told differently in the two modes
      have failed (other : ∀ e, f ≠ .rejected e) (mode : Mode) :
          load mode name source = .error f := by
        cases f with
        | rejected e => exact absurd rfl (other e)
        | _ => cases mode <;> simp only [load, encoded, parsed]
      cases f with
      | rejected e =>
        refine .inr (.inl ⟨e, Sha256.hexDigest bytes, rfl, ?_, ?_⟩)
        · simp only [load, encoded, parsed]
        · simp only [load, encoded, parsed]
      | longInteger => exact .inr (.inr ⟨_, fun e => by simp, failed fun e => by simp⟩)
      | unencodable => exact .inr (.inr ⟨_, fun e => by simp, failed fun e => by simp⟩)

/-! ### Rejections -/

/-- An issue tells the same as a message that names a place: a fault in the data of the tree in the
same words, a problem of the grammar without the place, which is then the root. -/
def Issue.Tells (i : Issue) (source message place : Text) : Prop :=
  ((∃ d, Json.read source = .ok d) ∧ i = ⟨message, some place⟩) ∨
    (∃ p line, Json.read source = .error (.malformed p line)) ∧ i.path = none ∧
      message = i.description ++ " (at $)" ∧ place = "$"

/-- The issue of a rejection tells the same as the rejection by itself, and it does so of nothing
else. -/
theorem tells_iff {source : Text} {e : Rejection} (rejected : parse source = .error (.rejected e))
    (message place : Text) :
    (⟨e.description, e.path⟩ : Issue).Tells source message place ↔
      e.message = message ∧ e.place = place := by
  unfold parse at rejected
  split at rejected
  · cases rejected
  · rename_i p line read
    cases rejected
    -- the grammar is at fault: the message has the place behind the description
    have wording : (Rejection.unreadable p line).message
        = (Rejection.unreadable p line).description ++ " (at $)" := by
      rw [Rejection.message, located, List.append_assoc, List.append_assoc]
      rfl
    have root : (Rejection.unreadable p line).place = "$" := rfl
    rw [wording, root]
    constructor
    · rintro (⟨⟨d, other⟩, -⟩ | ⟨-, -, rfl, rfl⟩)
      · rw [read] at other
        cases other
      · exact ⟨rfl, rfl⟩
    · rintro ⟨rfl, rfl⟩
      exact .inr ⟨⟨p, line, read⟩, rfl, rfl, rfl⟩
  · rename_i d read
    split at rejected
    · rename_i f built
      cases rejected
      -- the data are at fault: the place is the address of the fault
      constructor
      · rintro (⟨-, same⟩ | ⟨⟨p, line, other⟩, -⟩)
        · cases same
          exact ⟨rfl, rfl⟩
        · rw [read] at other
          cases other
      · rintro ⟨rfl, rfl⟩
        exact .inl ⟨⟨d, read⟩, rfl⟩
    · cases rejected

/-! ### The same in both modes -/

/-- A document is loaded strictly as what it is loaded as tolerantly, if that tells a tree from an
issue. -/
theorem load_strict_eq_ok_iff {name source : Text} {C : Report → Prop}
    (tree : ∀ t digest, C ⟨some t, [], digest, name⟩)
    (issue : ∀ i digest, ¬ C ⟨none, [i], digest, name⟩) (r : Report) :
    load .strict name source = .ok r ↔ load .tolerant name source = .ok r ∧ C r := by
  rcases load_cases name source with
    ⟨t, digest, loaded⟩ | ⟨e, digest, -, rejected, noted⟩ | ⟨f, -, failed⟩
  · rw [loaded, loaded]
    constructor
    · rintro ⟨⟩
      exact ⟨rfl, tree t digest⟩
    · exact And.left
  · rw [rejected, noted]
    constructor
    · intro h
      cases h
    · rintro ⟨⟨⟩, h⟩
      exact absurd h (issue _ digest)
  · rw [failed, failed]
    constructor
    · intro h
      cases h
    · rintro ⟨h, -⟩
      cases h

/-- A document is rejected in the words and at the place that the only issue tells. -/
theorem exists_rejection_iff (name source message place : Text) :
    (∃ e, load .strict name source = .error (.rejected e) ∧ e.message = message ∧
        e.place = place) ↔
      ∃ r i, load .tolerant name source = .ok r ∧ r.tree = none ∧ r.issues = [i] ∧
        i.Tells source message place := by
  rcases load_cases name source with
    ⟨t, digest, loaded⟩ | ⟨e, digest, parsed, rejected, noted⟩ | ⟨f, other, failed⟩
  · rw [loaded, loaded]
    constructor
    · rintro ⟨e, h, -⟩
      cases h
    · rintro ⟨r, i, ⟨⟩, h, -⟩
      cases h
  · -- the only issue is that of the rejection
    rw [rejected, noted]
    constructor
    · rintro ⟨e, ⟨⟩, same⟩
      exact ⟨_, _, rfl, rfl, rfl, (tells_iff parsed message place).2 same⟩
    · rintro ⟨r, i, ⟨⟩, -, ⟨⟩, tells⟩
      exact ⟨e, rfl, (tells_iff parsed message place).1 tells⟩
  · rw [failed, failed]
    constructor
    · rintro ⟨e, h, -⟩
      exact absurd (Except.error.inj h) (other e)
    · rintro ⟨r, i, h, -⟩
      cases h

/-- What fails tolerantly is what fails strictly without being rejected. -/
theorem load_tolerant_eq_error_iff (name source : Text) (f : Failure) :
    load .tolerant name source = .error f ↔
      load .strict name source = .error f ∧ ∀ e, f ≠ .rejected e := by
  rcases load_cases name source with
    ⟨t, digest, loaded⟩ | ⟨e, digest, -, rejected, noted⟩ | ⟨g, other, failed⟩
  · rw [loaded, loaded]
    constructor
    · intro h
      cases h
    · rintro ⟨h, -⟩
      cases h
  · rw [rejected, noted]
    constructor
    · intro h
      cases h
    · rintro ⟨⟨⟩, h⟩
      exact absurd rfl (h e)
  · rw [failed, failed]
    constructor
    · rintro ⟨⟩
      exact ⟨rfl, other⟩
    · exact And.left

end Document

namespace Command

open Document (Mode Rejection load)

/-! ### Answers -/

/-- The exit code and the output of a run, or what ended it before its time; and the files after
it. -/
def visible (run : Except Crash Outcome × Files) : Except Crash (Nat × Text) × Files :=
  (run.1.map fun o => (o.code, o.stdout), run.2)

/-- The answers to a request in the two modes are the same, or both are messages about a failure. -/
theorem answerText_cases (r : Request) (place source : Text) :
    { r with strict := true }.answerText place source
        = { r with strict := false }.answerText place source ∨
      ∃ m n, { r with strict := true }.answerText place source = .ok (.fail m) ∧
        { r with strict := false }.answerText place source = .ok (.fail n) := by
  have strict : { r with strict := true }.mode = .strict := rfl
  have tolerant : { r with strict := false }.mode = .tolerant := rfl
  unfold Request.answerText
  rw [strict, tolerant]
  rcases Document.load_cases place source with
    ⟨t, digest, loaded⟩ | ⟨e, digest, -, rejected, noted⟩ | ⟨f, other, failed⟩
  · rw [loaded, loaded]
    exact .inl rfl
  · rw [rejected, noted]
    exact .inr ⟨_, _, rfl, rfl⟩
  · rw [failed, failed]
    cases f with
    | rejected e => exact absurd rfl (other e)
    | _ => exact .inl rfl

/-- The answers to a request differ only if a text was read and is rejected. -/
theorem answer_cases (r : Request) (place : Text) (entry : Option Entry) :
    { r with strict := true }.answer place entry = { r with strict := false }.answer place entry ∨
      ∃ m n, { r with strict := true }.answer place entry = .ok (.fail m) ∧
        { r with strict := false }.answer place entry = .ok (.fail n) := by
  unfold Request.answer
  split
  · exact .inl rfl
  · exact .inl rfl
  · split
    · exact .inl rfl
    · exact answerText_cases r place _

/-- A request leaves the same behind in either mode, but for its messages. -/
theorem visible_run_strict (r : Request) (current : Location) (f : Files) :
    visible ({ r with strict := true }.run current f)
      = visible ({ r with strict := false }.run current f) := by
  unfold Request.run
  split
  · rfl
  · rcases answer_cases r (Location.resolve current r.input).text
      (f.entry? (Location.resolve current r.input)) with same | ⟨m, n, strict, tolerant⟩
    · simp only [same]
    · simp only [strict, tolerant]
      rfl

/-! ### Arguments -/

/-- The word that asks for strict loading. -/
def strictWord : Text := "--strict"

/-- What is asked for, with strict loading if it is a request. -/
def Invocation.strictly : Invocation → Invocation
  | .run r => .run { r with strict := true }
  | i => i

/-- That loading is strict has no bearing on how words are taken. -/
theorem takeWords_strict (s : Taken) (ws : List Word) :
    takeWords { s with strict := true } ws
      = (takeWords s ws).map fun s => { s with strict := true } := by
  fun_induction takeWords s ws with
  | case1 => rfl
  | case2 | case3 | case4 | case5 | case6 =>
    -- what becomes of a plain word and of the divider depends on whether there is an input
    simp_all [takeWords]
  | case7 _ _ _ ih | case8 _ _ _ ih | case9 _ _ _ ih | case10 _ _ _ ih =>
    rw [takeWords]
    exact ih
  | case11 s ws other =>
    rw [takeWords]
    · rfl
    · exact other
  | case12 _ _ _ flag ih =>
    rw [takeWords, flag]
    exact ih
  | case13 _ _ _ _ flag | case14 _ _ _ flag | case15 _ _ _ _ flag =>
    rw [takeWords, flag]
    rfl

/-- Each argument is sorted as one word. -/
theorem length_sortWords {target : Target} {ts : List Text} {ws : List Word}
    (h : sortWords target ts = .ok ws) : ws.length = ts.length := by
  induction ts generalizing ws with
  | nil =>
    cases h
    rfl
  | cons t ts ih =>
    rw [sortWords] at h
    split at h
    · cases h
      simp
    · obtain ⟨w, -, h⟩ := Value.exists_of_bind_eq_ok h
      obtain ⟨us, others, h⟩ := Value.exists_of_bind_eq_ok h
      cases h
      rw [List.length_cons, List.length_cons, ih others]

/-- The words after the command are its arguments, if all of them can be sorted at first. -/
theorem invocation_verb (verb : Verb) (ts : List Text) :
    invocation (verb.word :: ts) = match sortWords none ts with
      | .error p => .wrong none p
      | .ok _ => invokeVerb [] verb ts := by
  have plain : sortWord none verb.word = .ok (.plain verb.word) := by cases verb <;> rfl
  have noDivider : verb.word ≠ dividerText := by cases verb <;> decide
  have known : Verb.ofText? verb.word = some verb := by cases verb <;> decide
  rw [invocation, sortWords, if_neg noDivider, plain]
  cases sorted : sortWords none ts with
  | error p => rfl
  | ok ws =>
    -- the words go on to the command in the form in which they were given
    have texts : (ws.zip ts).map Prod.snd = ts :=
      List.map_snd_zip (Nat.le_of_eq (length_sortWords sorted).symm)
    show invokeWord [] verb.word ((ws.zip ts).map Prod.snd) = invokeVerb [] verb ts
    rw [texts, invokeWord, known]

/-- The option may be put right behind the command, and then loading is strict. -/
theorem invocation_strict (verb : Verb) (ts : List Text) :
    invocation (verb.word :: strictWord :: ts) = (invocation (verb.word :: ts)).strictly := by
  have noDivider : strictWord ≠ dividerText := by decide
  have unknown : sortWord none strictWord = .ok (.unknown strictWord) := rfl
  have option : sortWord (some verb) strictWord = .ok (.option .strict .nothing) := by
    cases verb <;> rfl
  rw [invocation_verb, invocation_verb, sortWords, if_neg noDivider, unknown]
  -- whether all words can be sorted is asked before the command is known
  cases sortWords none ts with
  | error p => rfl
  | ok _ =>
    show invokeVerb [] verb (strictWord :: ts) = (invokeVerb [] verb ts).strictly
    rw [invokeVerb, invokeVerb, sortWords, if_neg noDivider, option]
    cases sortWords (some verb) ts with
    | error p => rfl
    | ok ws =>
      -- the option is taken first, and the other words as they would be without it
      have taken : takeWords {} (.option .strict .nothing :: ws)
          = (takeWords {} ws).map fun s => { s with strict := true } :=
        takeWords_strict {} ws
      simp only [bind, Except.bind, pure, Except.pure, taken]
      cases takeWords {} ws with
      | error stop => cases stop <;> rfl
      | ok s =>
        simp only [Except.map]
        cases s.input with
        | none => rfl
        | some input =>
          simp only
          split <;> rfl

/-- A command leaves the same behind, but for its messages, with the option and without it. -/
theorem visible_run_strictWord (verb : Verb) (ts : List Text) (current : Location) (f : Files) :
    visible (run current (verb.word :: strictWord :: ts) f)
      = visible (run current (verb.word :: ts) f) := by
  rw [run, run, invocation_strict]
  cases invocation (verb.word :: ts) with
  | say code stdout stderr => rfl
  | run r =>
    obtain ⟨verb, input, out, strict⟩ := r
    show visible (Request.run ⟨verb, input, out, true⟩ current f)
      = visible (Request.run ⟨verb, input, out, strict⟩ current f)
    cases strict with
    | true => rfl
    | false => exact visible_run_strict ⟨verb, input, out, false⟩ current f

/-! ### Both modes -/

/-- **The two modes agree.**  A document is loaded strictly as what it is loaded as tolerantly, if
that has a tree, which is to say no issues.  It is rejected with a message and a place if it is
loaded tolerantly as a report without a tree, of which the only issue tells the same.  What else can
fail fails in both modes.  So a command has the same exit code and output and leaves the same files
behind, or is ended by the same crash, whether it is asked for strict loading or not. -/
theorem load_modes_agree (name source : Text) (current : Location) (files : Files) :
    (∀ r, (load .strict name source = .ok r ↔
          load .tolerant name source = .ok r ∧ r.tree.isSome = true) ∧
        (load .strict name source = .ok r ↔ load .tolerant name source = .ok r ∧ r.issues = [])) ∧
      (∀ message place,
        (∃ e, load .strict name source = .error (.rejected e) ∧ e.message = message ∧
          e.place = place) ↔
        ∃ r i, load .tolerant name source = .ok r ∧ r.tree = none ∧ r.issues = [i] ∧
          i.Tells source message place) ∧
      (∀ f, load .tolerant name source = .error f ↔
        load .strict name source = .error f ∧ ∀ e, f ≠ .rejected e) ∧
      (∀ r : Request, visible ({ r with strict := true }.run current files)
        = visible ({ r with strict := false }.run current files)) ∧
      ∀ (verb : Verb) (ts : List Text),
        visible (run current (verb.word :: strictWord :: ts) files)
          = visible (run current (verb.word :: ts) files) := by
  refine ⟨fun r => ⟨?_, ?_⟩, Document.exists_rejection_iff name source,
    Document.load_tolerant_eq_error_iff name source,
    fun r => visible_run_strict r current files,
    fun verb ts => visible_run_strictWord verb ts current files⟩
  · exact Document.load_strict_eq_ok_iff (C := fun r => r.tree.isSome = true)
      (fun t digest => rfl) (fun i digest h => by cases h) r
  · exact Document.load_strict_eq_ok_iff (C := fun r => r.issues = [])
      (fun t digest => rfl) (fun i digest h => by cases h) r

end Command

end Deparse
