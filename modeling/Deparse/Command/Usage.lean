import Deparse.Value.Diagnostic

/-!
# Usage of the command line

The program has two commands, and each of them and the program itself has a usage line and a help
text that starts with it.  A usage error is reported after the usage line of what was used wrongly.
-/

namespace Deparse.Command

/-- The commands. -/
inductive Verb where
  | convert
  | dump
deriving DecidableEq

/-- The word of a command in the arguments. -/
def Verb.word : Verb → Text
  | convert => "convert"
  | dump => "dump"

/-- The command that a word stands for. -/
def Verb.ofText? (t : Text) : Option Verb :=
  [Verb.convert, .dump].find? fun v => v.word = t

/-- What the arguments are for: the program itself or one of its commands. -/
abbrev Target := Option Verb

/-- The name of a target in its usage. -/
def targetName : Target → Text
  | none => "rbregen"
  | some v => "rbregen " ++ v.word

/-- What follows the name of a target in its usage line. -/
def synopsis : Target → Text
  | none => "[-h] \x7bconvert,dump\x7d ..."
  | some .convert => "[-h] [--out OUT] [--strict] input"
  | some .dump => "[-h] [--strict] input"

/-- The usage line of a target. -/
def usage (target : Target) : Text :=
  "usage: " ++ targetName target ++ " " ++ synopsis target ++ "\n"

/-- What follows the usage line in the help of a target. -/
def details : Target → List Text
  | none =>
    ["",
      "Regenerate Ruby source from a JSON AST dump",
      "",
      "positional arguments:",
      "  \x7bconvert,dump\x7d",
      "    convert       Convert an AST dump to Ruby source",
      "    dump          Print the AST dump as an indented tree",
      "",
      "options:",
      "  -h, --help      show this help message and exit"]
  | some .convert =>
    ["",
      "positional arguments:",
      "  input       Path to the JSON AST dump",
      "",
      "options:",
      "  -h, --help  show this help message and exit",
      "  --out OUT   Output file path (defaults to stdout)",
      "  --strict    Fail on the first malformed part of the dump instead of",
      "              reporting it."]
  | some .dump =>
    ["",
      "positional arguments:",
      "  input       Path to the JSON AST dump",
      "",
      "options:",
      "  -h, --help  show this help message and exit",
      "  --strict    Strict loading."]

/-- The help text of a target. -/
def help (target : Target) : Text :=
  usage target ++ (details target).flatMap fun line => line ++ Text.ofString "\n"

/-! ### Usage errors -/

/-- The options, whatever they are options of. -/
inductive OptionName where
  | help
  | out
  | strict
deriving DecidableEq

/-- The full spellings of an option, the short one first. -/
def OptionName.spellings : OptionName → List Text
  | help => ["-h", "--help"]
  | out => ["--out"]
  | strict => ["--strict"]

/-- What is wrong with the arguments for a target. -/
inductive UsageProblem where
  | ambiguous (word : Text) (spellings : List Text)
  | missingValue (option : OptionName)
  /-- A value attached to an option that takes none. -/
  | strayValue (option : OptionName) (value : Text)
  | missingInput
  | unknownCommand (word : Text)
  /-- Words that nothing was made of. -/
  | leftover (words : List Text)
deriving DecidableEq

/-- How an option is referred to in a usage error. -/
def OptionName.label (o : OptionName) : Text :=
  "argument " ++ Text.joined "/" o.spellings ++ ": "

/-- The wording of a usage error after the name of its target. -/
def UsageProblem.message : UsageProblem → Text
  | ambiguous word spellings =>
    "ambiguous option: " ++ word ++ " could match " ++ Text.joined ", " spellings
  | missingValue o => o.label ++ "expected one argument"
  | strayValue o value => o.label ++ "ignored explicit argument " ++ Diagnostic.quoted value
  | missingInput => "the following arguments are required: input"
  | unknownCommand word =>
    "argument command: invalid choice: " ++ Diagnostic.quoted word ++
      " (choose from 'convert', 'dump')"
  | leftover words => "unrecognized arguments: " ++ Text.joined " " words

/-- The report of a usage error: the usage line of the target, and the error. -/
def usageError (target : Target) (p : UsageProblem) : Text :=
  usage target ++ targetName target ++ ": error: " ++ p.message ++ "\n"

end Deparse.Command
