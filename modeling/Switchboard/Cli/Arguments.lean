import Switchboard.Text.Similarity

/-!
# Command-line arguments

A grammar says which options, positional arguments and commands may stand on a command line.
Reading a command line by it gives the values found, or a refusal with its wording.

## Main definitions

- `OptionRule`, `PositionalRule`, `Grammar` — what may stand on a command line
- `Reading` — what was found
- `Refusal` — why a command line is not accepted
- `Grammar.read` — reads a command line
-/

namespace Switchboard.Cli

/-- How often an option may and must stand. -/
inductive Need where
  | optional
  | required
  | repeatable
  deriving Repr, DecidableEq

/-- An option with a value. -/
structure OptionRule where
  /-- the name without the dashes in front -/
  name : String
  /-- the name of one letter -/
  short : Option Char := none
  description : String
  need : Need := .optional
  /-- what is wrong with a value, if anything -/
  fault? : String → Option String := fun _ => none

/-- A positional argument. -/
structure PositionalRule where
  name : String
  description : String
  required : Bool := true

/-- What may stand on a command line. -/
structure Grammar where
  /-- the words in front of the arguments -/
  path : String
  description : String
  options : List OptionRule := []
  positionals : List PositionalRule := []
  /-- the commands that may follow, each with its description -/
  commands : List (String × String) := []

/-- The words that ask for help. -/
def helpWords : List String := ["--help", "help"]

namespace OptionRule

/-- The long spelling of an option. -/
def long (o : OptionRule) : String := "--" ++ o.name

/-- All spellings of an option, the short one first. -/
def spellings (o : OptionRule) : List String :=
  (o.short.map fun c => String.ofList ['-', c]).toList ++ [o.long]

end OptionRule

/-- What was found on a command line. -/
structure Reading where
  /-- was help asked for? -/
  help : Bool := false
  /-- the values of options, each under the option's name, in order -/
  values : List (String × String) := []
  positionals : List String := []

/-- The values of an option, in order. -/
def Reading.valuesOf (r : Reading) (name : String) : List String :=
  (r.values.filter fun v => v.1 = name).map (·.2)

/-- Why a command line is not accepted. -/
inductive Refusal where
  /-- an option stands behind a word that asks for help -/
  | trailing
  | unknownOption (given : String) (meant : Option String)
  | noValue (option : String)
  | badValue (option value fault : String)
  | unknownArgument (given : String)
  | missing (positionals options commands : List String)

namespace Refusal

/-- A heading with a list below it, or nothing if the list is empty. -/
def listing (heading : String) (items : List String) : List String :=
  if items.isEmpty then [] else heading :: items.map ("    " ++ ·)

/-- The wording of a refusal, by lines. -/
def lines : Refusal → List String
  | .trailing => ["Trailing arguments are not allowed after `help`."]
  | .unknownOption given none => ["Unrecognized argument: \"" ++ given ++ "\"", ""]
  | .unknownOption given (some meant) =>
    ["Unrecognized argument: \"" ++ given ++ "\". Did you mean \"" ++ meant ++ "\"?", ""]
  | .noValue option => ["No value provided for option '" ++ option ++ "'.", ""]
  | .badValue option value fault =>
    ["Error parsing option '" ++ option ++ "' with value '" ++ value ++ "': " ++ fault, ""]
  | .unknownArgument given => ["Unrecognized argument: " ++ given, ""]
  | .missing positionals options commands =>
    listing "Required positional arguments not provided:" positionals ++
      listing "Required options not provided:" options ++
      listing "One of the following subcommands must be present:" commands ++ [""]

end Refusal

/-- How a command line ended: at its end, or at a command with arguments of its own. -/
inductive Ended where
  | arguments (r : Reading)
  | command (r : Reading) (name : String) (rest : List String)

namespace Grammar

/-- The option with a spelling. -/
def option? (g : Grammar) (spelling : String) : Option OptionRule :=
  g.options.find? fun o => o.spellings.contains spelling

/-- The spelling that was most likely meant by an unknown one. -/
def meant? (g : Grammar) (given : String) : Option String :=
  Text.closest? given (g.options.flatMap OptionRule.spellings ++ helpWords)

/-- What is wrong with one more value of an option, if anything. -/
def valueFault? (o : OptionRule) (r : Reading) (value : String) : Option String :=
  if o.need ≠ .repeatable && !(r.valuesOf o.name).isEmpty then some "duplicate values provided"
  else o.fault? value

/-- Is the argument a word that asks for help, an option, the end of the options, or neither? -/
inductive Kind where
  | help
  | option
  | endOfOptions
  | plain

/-- The kind of an argument; behind the end of the options all are plain. -/
def kindOf (ended : Bool) (argument : String) : Kind :=
  if ended then .plain
  else if helpWords.contains argument then .help
  else if argument = "--" then .endOfOptions
  else if argument.toList.head? = some '-' then .option
  else .plain

/-- Reads arguments after those already read; `ended` says whether the options have ended. -/
def readFrom (g : Grammar) : List String → Bool → Reading → Except Refusal Ended
  | [], _, r => .ok (.arguments r)
  | argument :: rest, ended, r =>
    match kindOf ended argument with
    | .help => readFrom g rest ended { r with help := true }
    | .endOfOptions => readFrom g rest true r
    | .option =>
      if r.help then .error .trailing
      else
        match g.option? argument, rest with
        | none, _ => .error (.unknownOption argument (g.meant? argument))
        | some _, [] => .error (.noValue argument)
        | some o, value :: rest =>
          match valueFault? o r value with
          | some fault => .error (.badValue argument value fault)
          | none => readFrom g rest ended { r with values := r.values ++ [(o.name, value)] }
    | .plain =>
      if g.commands.any fun c => c.1 = argument then .ok (.command r argument rest)
      else if r.positionals.length < g.positionals.length then
        readFrom g rest ended { r with positionals := r.positionals ++ [argument] }
      else .error (.unknownArgument argument)

/-- Reads a command line. -/
def read (g : Grammar) (arguments : List String) : Except Refusal Ended :=
  g.readFrom arguments false {}

/-- What is missing from a command line, if anything. -/
def missing? (g : Grammar) (r : Reading) : Option Refusal :=
  let positionals := ((g.positionals.drop r.positionals.length).filter (·.required)).map (·.name)
  let options := (g.options.filter fun o =>
    o.need = .required && (r.valuesOf o.name).isEmpty).map OptionRule.long
  let commands := if g.commands.isEmpty then [] else "help" :: g.commands.map (·.1)
  if positionals.isEmpty && options.isEmpty && commands.isEmpty then none
  else some (.missing positionals options commands)

end Grammar

end Switchboard.Cli
