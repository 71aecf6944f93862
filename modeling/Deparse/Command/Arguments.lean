import Deparse.Command.Usage
import Deparse.Text.Classes

/-!
# Arguments

The arguments are read in two rounds.  First each word is sorted by its form alone (`Word`): is it
an option, an unknown option, the divider `--` or a plain word; after the divider everything is
plain.  Then the words are taken from left to right (`takeWords`).  Options and the input may
stand in any order; a spelling may be cut short as long as it fits one option only, and a value may
be attached to it by an equals sign.  Words that nothing can be made of are put aside and reported
at the end, so that help is given and other errors are found before.
-/

namespace Deparse.Command

/-! ### Words -/

/-- What is attached to the spelling of an option. -/
inductive Attachment where
  | nothing
  | value (t : Text)
  /-- More letters after an option of one letter. -/
  | letters (t : Text)
deriving DecidableEq

/-- What a word of the arguments is by its form. -/
inductive Word where
  /-- A word that is no option. -/
  | plain (t : Text)
  /-- The mark after which there are no options. -/
  | divider
  /-- An option and what is attached to its spelling. -/
  | option (name : OptionName) (attached : Attachment)
  /-- A word of the form of an option that is none. -/
  | unknown (t : Text)
deriving DecidableEq

/-- The spelling of the divider. -/
def dividerText : Text := "--"

/-- The options of a target. -/
def optionsOf : Target → List OptionName
  | none => [.help]
  | some .convert => [.help, .out, .strict]
  | some .dump => [.help, .strict]

/-- The spellings of the options of a target. -/
def spellingsOf (target : Target) : List (Text × OptionName) :=
  (optionsOf target).flatMap fun o => o.spellings.map (·, o)

/-- A word before its first equals sign, and what comes after that if there is one. -/
def splitValue (t : Text) : Text × Option Text :=
  let name := t.takeWhile (· ≠ CodePoint.scalar '=')
  match t.dropWhile (· ≠ CodePoint.scalar '=') with
  | [] => (name, none)
  | _ :: value => (name, some value)

/-- What a value after an equals sign is to a spelling: more letters where the spelling is a single
letter, unless the value is empty. -/
def attachValue (spelling value : Text) : Attachment :=
  match spelling with
  | [_, _] => if value.isEmpty then .value value else .letters value
  | _ => .value value

/-- The options that a word may stand for, each with the spelling in question and what would be
attached to it.  After one hyphen there is a single letter and perhaps more letters; after two there
is the beginning of a spelling. -/
def candidates (target : Target) (t : Text) : List (Text × OptionName × Attachment) :=
  match t with
  | .scalar '-' :: .scalar '-' :: _ =>
    let (name, value) := splitValue t
    let attached := (value.map Attachment.value).getD .nothing
    (spellingsOf target).filterMap fun (s, o) =>
      if name.isPrefixOf s then some (s, o, attached) else none
  | a :: b :: rest =>
    (spellingsOf target).filterMap fun (s, o) =>
      if s = [a, b] then some (s, o, .letters rest) else none
  | _ => []

/-- A text without the line end that it ends with, if it does. -/
def withoutLineEnd (t : Text) : Text :=
  if t.getLast? = some (.scalar '\n') then t.dropLast else t

/-- Whether a word is a negative number: digits of any script after a hyphen, perhaps with a point
before the last of them.  A line end after the number is put up with. -/
def isNegativeNumber : Text → Bool
  | .scalar '-' :: t =>
    let number := withoutLineEnd t
    match number.dropWhile CodePoint.isDecimalDigit with
    | [] => !number.isEmpty
    | .scalar '.' :: fraction => !fraction.isEmpty && fraction.all CodePoint.isDecimalDigit
    | _ => false
  | _ => false

/-- A word that starts like an option and is not spelled like one. -/
def sortCandidates (target : Target) (t : Text) : Except UsageProblem Word :=
  match candidates target t with
  | [] => if isNegativeNumber t || t.contains ' ' then .ok (.plain t) else .ok (.unknown t)
  | [(_, o, attached)] => .ok (.option o attached)
  | cs => .error (.ambiguous t (cs.map (·.1)))

/-- What a word before the divider is.  A spelling of an option in full is that option, with or
without a value after an equals sign; all else that starts like an option is looked at more closely.
-/
def sortWord (target : Target) (t : Text) : Except UsageProblem Word :=
  match t with
  | .scalar '-' :: _ :: _ =>
    match (spellingsOf target).lookup t with
    | some o => .ok (.option o .nothing)
    | none =>
      match splitValue t with
      | (_, none) => sortCandidates target t
      | (name, some value) =>
        match (spellingsOf target).lookup name with
        | some o => .ok (.option o (attachValue name value))
        | none => sortCandidates target t
  | _ => .ok (.plain t)

/-- What each of the words is, up to the first that fits several options. -/
def sortWords (target : Target) : List Text → Except UsageProblem (List Word)
  | [] => .ok []
  | t :: ts =>
    if t = dividerText then .ok (.divider :: ts.map .plain)
    else do
      let w ← sortWord target t
      let ws ← sortWords target ts
      return w :: ws

/-! ### Options -/

/-- Whether all letters after the help option ask for help as well. -/
def checkLetters (t : Text) : Except UsageProblem Unit :=
  match t.dropWhile (· = CodePoint.scalar 'h') with
  | [] => .ok ()
  | others => .error (.strayValue .help others)

/-- Whether an option that takes no value is given none. -/
def checkFlag (o : OptionName) : Attachment → Except UsageProblem Unit
  | .nothing => .ok ()
  | .value t => .error (.strayValue o t)
  | .letters t => checkLetters t

/-! ### The arguments of a command -/

/-- What a command is asked to do. -/
structure Request where
  verb : Verb
  input : Text
  /-- The path of the output, if it is not the standard output. -/
  out : Option Text
  strict : Bool
deriving DecidableEq

/-- What was made of the words so far. -/
structure Taken where
  input : Option Text := none
  out : Option Text := none
  strict : Bool := false
  /-- The words that nothing was made of. -/
  leftover : List Text := []

/-- Why the words of a command are not taken to their end. -/
inductive Stop where
  | help
  | problem (p : UsageProblem)

/-- An output path; an empty one is as good as none, and so is the divider. -/
def outPath (t : Text) : Option Text :=
  if t.isEmpty || t = dividerText then none else some t

/-- The words of a command taken from left to right.  The first plain word is the input, and the
divider before or after it goes with it. -/
def takeWords (s : Taken) : List Word → Except Stop Taken
  | [] => .ok s
  | .plain t :: ws =>
    match s.input, ws with
    | none, .divider :: ws => takeWords { s with input := some t } ws
    | none, ws => takeWords { s with input := some t } ws
    | some _, ws => takeWords { s with leftover := s.leftover ++ [t] } ws
  | .divider :: ws =>
    match s.input, ws with
    | none, .plain t :: ws => takeWords { s with input := some t } ws
    | _, ws => takeWords { s with leftover := s.leftover ++ [dividerText] } ws
  | .unknown t :: ws => takeWords { s with leftover := s.leftover ++ [t] } ws
  | .option .out (.value t) :: ws => takeWords { s with out := outPath t } ws
  | .option .out (.letters t) :: ws => takeWords { s with out := outPath t } ws
  | .option .out .nothing :: .plain t :: ws => takeWords { s with out := outPath t } ws
  | .option .out .nothing :: _ => .error (.problem (.missingValue .out))
  | .option .strict attached :: ws =>
    match checkFlag .strict attached with
    | .ok () => takeWords { s with strict := true } ws
    | .error p => .error (.problem p)
  | .option .help attached :: _ =>
    match checkFlag .help attached with
    | .ok () => .error .help
    | .error p => .error (.problem p)

/-! ### The arguments of the program -/

/-- What the arguments come to: something to be said at once, or a request. -/
inductive Invocation where
  | say (code : Nat) (stdout stderr : Text)
  | run (r : Request)
deriving DecidableEq

/-- The help of a target, on the standard output. -/
def Invocation.help (code : Nat) (target : Target) : Invocation :=
  say code (Command.help target) []

/-- The report of a usage error. -/
def Invocation.wrong (target : Target) (p : UsageProblem) : Invocation :=
  say 2 [] (usageError target p)

/-- The invocation of a command; `before` are the words put aside before it. -/
def invokeVerb (before : List Text) (verb : Verb) (ts : List Text) : Invocation :=
  match sortWords (some verb) ts with
  | .error p => .wrong (some verb) p
  | .ok ws =>
    match takeWords {} ws with
    | .error .help => .help 0 (some verb)
    | .error (.problem p) => .wrong (some verb) p
    | .ok s =>
      match s.input with
      | none => .wrong (some verb) .missingInput
      | some input =>
        if (before ++ s.leftover).isEmpty then .run ⟨verb, input, s.out, s.strict⟩
        else .wrong none (.leftover (before ++ s.leftover))

/-- The invocation of a command by its word. -/
def invokeWord (before : List Text) (word : Text) (ts : List Text) : Invocation :=
  match Verb.ofText? word with
  | none => .wrong none (.unknownCommand word)
  | some verb => invokeVerb before verb ts

/-- The invocation by words of which the first were put aside; each word comes with its text. -/
def invokeFrom (before : List Text) : List (Word × Text) → Invocation
  | [] => if before.isEmpty then .help 1 none else .wrong none (.leftover before)
  | (.plain t, _) :: ws => invokeWord before t (ws.map (·.2))
  | (.divider, t) :: ws =>
    if ws.isEmpty then .wrong none (.leftover (before ++ [t]))
    else invokeWord before t (ws.map (·.2))
  | (.unknown t, _) :: ws => invokeFrom (before ++ [t]) ws
  | (.option o attached, _) :: _ =>
    match checkFlag o attached with
    | .ok () => .help 0 none
    | .error p => .wrong none p

/-- What the arguments ask for.  The first plain word is the command, and all words after it are
the arguments of the command. -/
def invocation (ts : List Text) : Invocation :=
  match sortWords none ts with
  | .error p => .wrong none p
  | .ok ws => invokeFrom [] (ws.zip ts)

end Deparse.Command
