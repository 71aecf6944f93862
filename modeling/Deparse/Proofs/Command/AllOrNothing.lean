import Deparse.Proofs.Command.Modes
import Deparse.Proofs.Command.Storing

/-!
# Converting all or nothing

A run of `convert` that does not end with the exit code zero has printed nothing to the standard
output, and has left every file as it was and made no new one.  There is one exception: a source
that cannot be encoded is noticed only after the file that it should be stored to was emptied, or
made if there was none (`convert_all_or_nothing_iff`).  The folders around that file may have been
made before any fault.
-/

namespace Deparse.Command

/-- What a run printed to the standard output; nothing is printed before a crash. -/
def output : Except Crash Outcome → Text
  | .ok o => o.stdout
  | .error _ => []

/-- A run that succeeds, or that leaves neither output nor other files than there were behind. -/
def AllOrNothing (f : Files) (ended : Except Crash Outcome × Files) : Prop :=
  (∃ o, ended.1 = .ok o ∧ o.code = 0) ∨
    (output ended.1 = [] ∧ ∀ l, ended.2.file? l = f.file? l)

/-- A crash because a text cannot be encoded, after which one file is empty that was not, or was not
there, and the others are as they were. -/
def LeavesEmptied (f : Files) (ended : Except Crash Outcome × Files) : Prop :=
  ended.1 = .error (.notStored .unencodable) ∧
    ∃ place, f.file? place ≠ some [] ∧
      ∀ l, ended.2.file? l = if l = place then some [] else f.file? l

/-- The source that the input of a request is converted to. -/
def Request.converted (r : Request) (current : Location) (f : Files) : Option Text := do
  guard (Path.isUsable r.input)
  let place := Location.resolve current r.input
  let document ← Text.ofUtf8? (← f.file? place)
  let report ← (Document.load r.mode place.text document.unified).toOption
  (← report.tree).toSource.toOption

/-- Whether the command has a source that cannot be encoded, and a path that can be stored to, where
the empty text would not leave the files as they are. -/
def EmptiesOutput (current : Location) (ts : List Text) (f : Files) : Prop :=
  ∃ r path source g, invocation (Verb.convert.word :: ts) = .run r ∧ r.out = some path ∧
    r.converted current f = some source ∧ source.encodable = false ∧
    (FileAction.store current path []).run f = (.ok (), g) ∧ ∃ l, g.file? l ≠ f.file? l

/-! ### How runs end -/

variable {f g : Files}

theorem LeavesEmptied.not_allOrNothing {ended : Except Crash Outcome × Files}
    (h : LeavesEmptied f ended) : ¬ AllOrNothing f ended := by
  obtain ⟨crash, place, full, emptied⟩ := h
  rintro (⟨o, succeeded, -⟩ | ⟨-, same⟩)
  · rw [crash] at succeeded
    cases succeeded
  · have empty : ended.2.file? place = some [] := by rw [emptied, if_pos rfl]
    exact full ((same place).symm.trans empty)

/-- Whether something is printed only with a success. -/
def Quiet (o : Except Crash Outcome) : Prop :=
  ∀ out, o = .ok out → out.code = 0 ∨ out.stdout = []

theorem quiet_error (c : Crash) : Quiet (.error c) := by
  rintro out ⟨⟩

theorem Quiet.allOrNothing {o : Except Crash Outcome} (h : Quiet o) : AllOrNothing f (o, f) := by
  cases o with
  | error c => exact .inr ⟨rfl, fun l => rfl⟩
  | ok out =>
    rcases h out rfl with code | silent
    · exact .inl ⟨out, rfl, code⟩
    · exact .inr ⟨silent, fun l => rfl⟩

theorem quiet_printed {o : Outcome} (h : o.code = 0 ∨ o.stdout = []) : Quiet o.printed := by
  intro out printed
  unfold Outcome.printed at printed
  split at printed
  · cases printed
    exact h
  · cases printed

/-! ### The arguments -/

/-- Without a request the arguments are answered at once: by help, or by a message. -/
theorem invocation_convert_cases (ts : List Text) :
    (∃ code stdout stderr, invocation (Verb.convert.word :: ts) = .say code stdout stderr ∧
        (code = 0 ∨ stdout = [])) ∨
      ∃ r, invocation (Verb.convert.word :: ts) = .run r ∧ r.verb = .convert := by
  have wrong (target : Target) (p : UsageProblem) :
      ∃ code stdout stderr, Invocation.wrong target p = .say code stdout stderr ∧
        (code = 0 ∨ stdout = []) := ⟨_, _, _, rfl, .inr rfl⟩
  rw [invocation_verb]
  split
  · exact .inl (wrong _ _)
  · unfold invokeVerb
    split
    · exact .inl (wrong _ _)
    · split
      · exact .inl ⟨_, _, _, rfl, .inl rfl⟩
      · exact .inl (wrong _ _)
      · split
        · exact .inl (wrong _ _)
        · split
          · exact .inr ⟨_, rfl, rfl⟩
          · exact .inl (wrong _ _)

/-! ### Requests -/

/-- A request to convert is answered by a source to be stored, or by something to print that comes
with a success, or by a message alone. -/
theorem answer_convert_cases (r : Request) (verb : r.verb = .convert) (current : Location)
    (f : Files) (usable : Path.isUsable r.input = true) {place : Location}
    (here : place = Location.resolve current r.input) :
    (∃ source path, r.converted current f = some source ∧ r.out = some path ∧
        r.answer place.text (f.entry? place) = .ok (.store path (source ++ "\n"))) ∨
      (r.converted current f = none ∨ r.out = none) ∧
        ((∃ c, r.answer place.text (f.entry? place) = .error c) ∨
          ∃ o, r.answer place.text (f.entry? place) = .ok (.say o) ∧
            (o.code = 0 ∨ o.stdout = [])) := by
  have converted : r.converted current f = (f.file? place).bind fun bytes =>
      (Text.ofUtf8? bytes).bind fun document =>
        (Document.load r.mode place.text document.unified).toOption.bind fun report =>
          report.tree.bind fun tree => tree.toSource.toOption := by
    rw [here, Request.converted, usable]
    rfl
  rw [converted]
  unfold Files.file? Request.answer
  cases f.entry? place with
  | none => exact .inr ⟨.inl rfl, .inr ⟨_, rfl, .inr rfl⟩⟩
  | some entry =>
    cases entry with
    | folder => exact .inr ⟨.inl rfl, .inr ⟨_, rfl, .inr rfl⟩⟩
    | file bytes =>
      simp only [Option.bind_some]
      cases Text.ofUtf8? bytes with
      | none => exact .inr ⟨.inl rfl, .inl ⟨_, rfl⟩⟩
      | some document =>
        simp only [Option.bind_some, Request.answerText]
        cases Document.load r.mode place.text document.unified with
        | error e =>
          refine .inr ⟨.inl rfl, ?_⟩
          cases e with
          | rejected e => exact .inr ⟨_, rfl, .inr rfl⟩
          | longInteger => exact .inl ⟨_, rfl⟩
          | unencodable => exact .inl ⟨_, rfl⟩
        | ok report =>
          simp only [Except.toOption, Option.bind_some]
          cases report.tree with
          | none => exact .inr ⟨.inl rfl, .inr ⟨_, rfl, .inr rfl⟩⟩
          | some tree =>
            simp only [Option.bind_some, Request.answerTree, verb]
            cases tree.toSource with
            | error e =>
              refine .inr ⟨.inl rfl, ?_⟩
              cases e with
              | refused e => exact .inr ⟨_, rfl, .inr rfl⟩
              | malformed m => exact .inl ⟨_, rfl⟩
            | ok source =>
              cases r.out with
              | none => exact .inr ⟨.inr rfl, .inr ⟨_, rfl, .inl rfl⟩⟩
              | some path => exact .inl ⟨source, path, rfl, rfl, rfl⟩

/-- How a run ends that stores a text. -/
def stored (ended : Except StoreFault Unit × Files) : Except Crash Outcome × Files :=
  (match ended.1 with
    | .ok () => .ok ⟨0, [], []⟩
    | .error e => .error (.notStored e), ended.2)

/-- A request to convert stores a source to a path, or it leaves the files alone, and prints
something only if it succeeds. -/
theorem run_convert_cases (r : Request) (verb : r.verb = .convert) (current : Location)
    (f : Files) :
    (∃ source path, r.converted current f = some source ∧ r.out = some path ∧
        r.run current f = stored ((FileAction.store current path (source ++ "\n")).run f)) ∨
      (r.converted current f = none ∨ r.out = none) ∧ ∃ o, r.run current f = (o, f) ∧ Quiet o := by
  cases usable : Path.isUsable r.input with
  | false =>
    refine .inr ⟨.inl ?_, .error .unusablePath, ?_, quiet_error _⟩
    · rw [Request.converted, usable]
      rfl
    · rw [Request.run, usable]
      rfl
  | true =>
    unfold Request.run
    rw [usable, if_neg (by decide)]
    simp only
    rcases answer_convert_cases r verb current f usable rfl with
      ⟨source, path, converted, out, answered⟩ | ⟨failed, ⟨c, answered⟩ | ⟨o, answered, quiet⟩⟩
    · refine .inl ⟨source, path, converted, out, ?_⟩
      rw [answered]
      simp only
      obtain ⟨e | ⟨⟩, g⟩ := (FileAction.store current path (source ++ "\n")).run f
      · rfl
      · rfl
    · exact .inr ⟨failed, .error c, by rw [answered], quiet_error c⟩
    · exact .inr ⟨failed, o.printed, by rw [answered], quiet_printed quiet⟩

/-! ### The command -/

/-- A line end can always be encoded. -/
theorem encodable_lineEnd (source : Text) :
    (source ++ ("\n" : Text)).encodable = source.encodable := by
  rw [Bool.eq_iff_iff, Text.encodable_iff, Text.encodable_iff]
  constructor
  · exact fun h c hc => h c (List.mem_append_left _ hc)
  · intro h c hc
    rcases List.mem_append.1 hc with hc | hc
    · exact h c hc
    · exact ⟨'\n', List.mem_singleton.1 hc⟩

theorem utf8?_lineEnd_of_not_encodable {source : Text} (h : source.encodable = false) :
    Text.utf8? (source ++ ("\n" : Text)) = none := by
  rw [← encodable_lineEnd] at h
  exact Option.isNone_iff_eq_none.1 (by simpa [Text.encodable] using h)

/-- Whether a request has such a source and such a path. -/
theorem emptiesOutput_iff {current : Location} {ts : List Text} {f : Files} {r : Request}
    (asked : invocation (Verb.convert.word :: ts) = .run r) :
    EmptiesOutput current ts f ↔ ∃ path source g, r.out = some path ∧
      r.converted current f = some source ∧ source.encodable = false ∧
      (FileAction.store current path []).run f = (.ok (), g) ∧ ∃ l, g.file? l ≠ f.file? l := by
  unfold EmptiesOutput
  rw [asked]
  simp

/-- Storing an unencodable text empties a file, or it leaves the files alone if the file is empty
already. -/
theorem put_empty_cases (grown : Files.Grown f g) {place : Location} (inner : place ≠ []) :
    (∀ l, (g.put place (.file [])).file? l = f.file? l) ∨
      f.file? place ≠ some [] ∧
        ∀ l, (g.put place (.file [])).file? l = if l = place then some [] else f.file? l := by
  -- new folders are no files, so only the file at the place is another one
  have emptied (l : Location) :
      (g.put place (.file [])).file? l = if l = place then some [] else f.file? l := by
    rw [Files.file?_put g inner, grown.file?_eq]
  by_cases before : f.file? place = some []
  · refine .inl fun l => ?_
    rw [emptied]
    split
    · rename_i there
      rw [there, before]
    · rfl
  · exact .inr ⟨before, emptied⟩

/-- A request that stores its source empties a file and crashes, or else it stores all or
nothing. -/
theorem convert_cases_of_stored {r : Request} {current : Location} {source path : Text}
    {ts : List Text} (asked : invocation (Verb.convert.word :: ts) = .run r)
    (converted : r.converted current f = some source) (out : r.out = some path)
    (ended : r.run current f = stored ((FileAction.store current path (source ++ "\n")).run f)) :
    (¬ EmptiesOutput current ts f ∧ AllOrNothing f (r.run current f)) ∨
      EmptiesOutput current ts f ∧ LeavesEmptied f (r.run current f) := by
  have emptiesOutput : EmptiesOutput current ts f ↔ source.encodable = false ∧
      ∃ g, (FileAction.store current path []).run f = (.ok (), g) ∧ ∃ l, g.file? l ≠ f.file? l := by
    rw [emptiesOutput_iff asked, converted, out]
    simp
  rw [emptiesOutput, ended]
  rcases FileAction.store_cases current path f with
    ⟨e, g, grown, settled⟩ | ⟨place, g, grown, noFolder, settled⟩
  · -- nothing can be stored to the path, so the text makes no difference
    refine .inl ⟨?_, .inr ?_⟩
    · rintro ⟨-, g', empty, -⟩
      rw [settled] at empty
      cases empty
    · rw [settled]
      exact ⟨rfl, grown.file?_eq⟩
  · have empty : (FileAction.store current path []).run f = (.ok (), g.put place (.file [])) := by
      have noBytes : Text.utf8? [] = some [] := by decide +kernel
      rw [settled, noBytes]
    cases encodable : source.encodable with
    | true =>
      refine .inl ⟨by rintro ⟨⟨⟩, -⟩, .inl ⟨⟨0, [], []⟩, ?_, rfl⟩⟩
      have whole : (source ++ ("\n" : Text)).encodable = true := by
        rw [encodable_lineEnd, encodable]
      obtain ⟨bytes, encoded⟩ := Option.isSome_iff_exists.1 whole
      rw [settled (source ++ ("\n" : Text)), encoded]
      rfl
    | false =>
      -- the file is empty by the time the text turns out not to be encodable
      rw [settled (source ++ ("\n" : Text)), utf8?_lineEnd_of_not_encodable encodable]
      rcases put_empty_cases grown (Files.ne_nil_of_entry? noFolder) with same | ⟨full, emptied⟩
      · refine .inl ⟨?_, .inr ⟨rfl, same⟩⟩
        rintro ⟨-, g', empty', l, different⟩
        rw [empty] at empty'
        cases empty'
        exact different (same l)
      · refine .inr ⟨⟨rfl, _, empty, place, ?_⟩, rfl, place, full, emptied⟩
        rw [emptied, if_pos rfl]
        exact Ne.symm full

/-- A run empties its output and crashes, or else it does all or nothing. -/
theorem convert_cases (current : Location) (ts : List Text) (f : Files) :
    (¬ EmptiesOutput current ts f ∧ AllOrNothing f (run current (Verb.convert.word :: ts) f)) ∨
      EmptiesOutput current ts f ∧ LeavesEmptied f (run current (Verb.convert.word :: ts) f) := by
  unfold run
  rcases invocation_convert_cases ts with ⟨code, stdout, stderr, asked, silent⟩ | ⟨r, asked, verb⟩
  · refine .inl ⟨?_, ?_⟩
    · rintro ⟨r, _, _, _, other, -⟩
      rw [asked] at other
      cases other
    · rw [asked]
      exact (quiet_printed silent).allOrNothing
  · rw [asked]
    rcases run_convert_cases r verb current f with
      ⟨source, path, converted, out, ended⟩ | ⟨failed, o, ended, quiet⟩
    · exact convert_cases_of_stored asked converted out ended
    · have nothing : AllOrNothing f (r.run current f) := by
        rw [ended]
        exact quiet.allOrNothing
      refine .inl ⟨?_, nothing⟩
      rw [emptiesOutput_iff asked]
      rintro ⟨path, source, g, out, converted, -⟩
      -- without a source, or without a path for it, there is nothing to store
      rcases failed with failed | failed
      · rw [failed] at converted
        cases converted
      · rw [failed] at out
        cases out

/-- **Conversion is all or nothing, but for what cannot be encoded.**  A run of `convert` succeeds,
or it prints nothing and leaves every file as it was, if and only if it does not empty its output.
It empties its output exactly if it crashes because the source cannot be encoded, after which one
file is empty that was not, or was not there, but the others are as they were. -/
theorem convert_all_or_nothing_iff (current : Location) (ts : List Text) (f : Files) :
    (AllOrNothing f (run current (Verb.convert.word :: ts) f) ↔ ¬ EmptiesOutput current ts f) ∧
      (EmptiesOutput current ts f ↔ LeavesEmptied f (run current (Verb.convert.word :: ts) f)) := by
  rcases convert_cases current ts f with ⟨spared, nothing⟩ | ⟨emptied, ended⟩
  · exact ⟨iff_of_true nothing spared,
      iff_of_false spared fun ended => ended.not_allOrNothing nothing⟩
  · exact ⟨iff_of_false ended.not_allOrNothing fun spared => spared emptied,
      iff_of_true emptied ended⟩

/-- The document of a constant with a surrogate for its name, beside a file. -/
def surrogateFiles : Files :=
  ⟨[(["in.json"], .file "\x7b\"type\": \"CONST\", \"children\": [\"\\ud800\"]\x7d".toUTF8.toList),
    (["out.rb"], .file "old\n".toUTF8.toList)]⟩

/-- Converting the document empties the file. -/
theorem convert_surrogate :
    run [] [Verb.convert.word, "in.json", "--out", "out.rb"] surrogateFiles
        = (.error (.notStored .unencodable), surrogateFiles.put ["out.rb"] (.file [])) ∧
      surrogateFiles.file? ["out.rb"] = some "old\n".toUTF8.toList ∧
      ¬ AllOrNothing surrogateFiles
        (run [] [Verb.convert.word, "in.json", "--out", "out.rb"] surrogateFiles) := by
  have failed : (run [] [Verb.convert.word, "in.json", "--out", "out.rb"] surrogateFiles).1.isOk
      = false := by decide +kernel
  have files : (run [] [Verb.convert.word, "in.json", "--out", "out.rb"] surrogateFiles).2
      = surrogateFiles.put ["out.rb"] (.file []) := by decide +kernel
  have before : surrogateFiles.file? ["out.rb"] = some "old\n".toUTF8.toList := by decide +kernel
  have changed : ¬ AllOrNothing surrogateFiles
      (run [] [Verb.convert.word, "in.json", "--out", "out.rb"] surrogateFiles) := by
    -- the run does not succeed, and it does not leave the file alone
    rintro (⟨o, succeeded, -⟩ | ⟨-, same⟩)
    · rw [succeeded] at failed
      cases failed
    · have after := same ["out.rb"]
      rw [before, files, Files.file?_put _ (by decide), if_pos rfl] at after
      exact absurd after (by decide +kernel)
  rcases convert_cases [] ["in.json", "--out", "out.rb"] surrogateFiles with
    ⟨-, nothing⟩ | ⟨-, crash, -⟩
  · exact absurd nothing changed
  · exact ⟨Prod.ext crash files, before, changed⟩

end Deparse.Command
