import Switchboard.Cli.Usage
import Switchboard.Config
import Switchboard.Retry.Policy
import Switchboard.Text.Numeral

/-!
# Commands

What the command-line tool can be asked to do, and how that is said on its command line.

## Main definitions

- `Command` — what is to be done
- `Settings` — how requests are made
- `Invocation.parse` — the meaning of a command line
-/

namespace Switchboard.Cli

/-- What is to be done. -/
inductive Command where
  /-- asks each server whether it is there -/
  | ping (addresses : List String)
  /-- calls a stored function with arguments in JSON -/
  | call (addresses : List String) (function : String) (arguments : Option String)
  /-- asks a server for the list of servers -/
  | discover (address function : String)
  deriving Repr, DecidableEq

/-- How requests are made. -/
structure Settings where
  connections : Nat := 1
  /-- in milliseconds -/
  requestTimeout : Nat := 2000
  retries : Nat := 0
  deriving Repr, DecidableEq

namespace Settings

/-- The configuration of connections. -/
def config (s : Settings) : ClientConfig :=
  { connections := s.connections, requestTimeout := .ofMillis s.requestTimeout }

/-- The largest number of attempts. -/
def maxAttempts : Nat := 0xFFFFFFFF

/-- The retry policy. -/
def policy (s : Settings) : Retry.Policy :=
  if s.retries = 0 then .never
  else
    ⟨[⟨.or .network .noSuchProcedure, (min (s.retries + 1) maxAttempts).toUInt32, .standard⟩]⟩

end Settings

/-- What a command line asks for. -/
structure Invocation where
  settings : Settings
  command : Command
  deriving Repr, DecidableEq

/-- Why a command line asks for nothing. -/
inductive Stop where
  /-- it asks for an explanation -/
  | explain (lines : List String)
  | refuse (r : Refusal)

/-! ### Grammars -/

/-- The name of the tool. -/
def toolName : String := "iproto"

/-- What is wrong with a number below a bound, if anything. -/
def numberFault? (bound : Nat) (text : String) : Option String :=
  match Numeral.parse bound text.toList with
  | .ok _ => none
  | .error fault => some fault.message

/-- The commands with their descriptions. -/
def commands : List (String × String) :=
  [("ping", "Ping every given server"),
   ("call", "Call a stored function and print the result as JSON"),
   ("discover", "Print the healthy cluster members reported by an entry server")]

/-- The command line in front of the command. -/
def toolGrammar : Grammar where
  path := toolName
  description := toolName ++ " - client for servers speaking the iproto binary protocol"
  options :=
    [{ name := "connections"
       description := "connections opened per server address"
       fault? := numberFault? 0xFFFFFFFFFFFFFFFF },
     { name := "request-timeout-ms"
       description := "request timeout in milliseconds"
       fault? := numberFault? 0xFFFFFFFFFFFFFFFF },
     { name := "retries"
       description := "retries of a request failing with a network or no-such-procedure error"
       fault? := numberFault? 0xFFFFFFFF }]
  commands := commands

/-- The option that names servers. -/
def addressOption (need : Need) (description : String) : OptionRule :=
  { name := "address", short := some 'a', description, need }

/-- The option that names any number of servers. -/
def addressesOption : OptionRule :=
  addressOption .repeatable "server address (host:port), repeatable"

/-- The command line behind the name of a command. -/
def commandGrammar (name : String) : Grammar where
  path := toolName ++ " " ++ name
  description := (commands.lookup name).getD ""
  options :=
    if name = "discover" then [addressOption .required "entry server address (host:port)"]
    else [addressesOption]
  positionals :=
    match name with
    | "call" =>
      [{ name := "function", description := "function name" },
       { name := "args"
         description := "arguments as JSON, an array for several arguments"
         required := false }]
    | "discover" => [{ name := "function", description := "discovery function name" }]
    | _ => []

/-! ### Meaning -/

/-- The number that an option gives. -/
def number (r : Reading) (option : String) (default : Nat) : Nat :=
  match (r.valuesOf option).head? with
  | none => default
  | some text => ((Numeral.parse 0xFFFFFFFFFFFFFFFF text.toList).toOption).getD default

/-- The settings that options give. -/
def settingsOf (r : Reading) : Settings :=
  let d : Settings := {}
  { connections := number r "connections" d.connections
    requestTimeout := number r "request-timeout-ms" d.requestTimeout
    retries := number r "retries" d.retries }

/-- The command that arguments give. -/
def commandOf (name : String) (r : Reading) : Command :=
  let addresses := r.valuesOf "address"
  let function := r.positionals.headD ""
  match name with
  | "ping" => .ping addresses
  | "call" => .call addresses function (r.positionals[1]?)
  | _ => .discover (addresses.headD "") function

/-- The reading of a command line at its end, unless it asks for help or something is missing. -/
def complete (g : Grammar) (r : Reading) : Except Stop Reading :=
  if r.help then .error (.explain g.usage)
  else
    match g.missing? r with
    | some refusal => .error (.refuse refusal)
    | none => .ok r

/-- The meaning of a command's own arguments. -/
def parseCommand (name : String) (arguments : List String) : Except Stop Command :=
  let g := commandGrammar name
  match g.read arguments with
  | .error refusal => .error (.refuse refusal)
  | .ok (.arguments r) | .ok (.command r ..) => (complete g r).map (commandOf name)

/-- The meaning of a command line.  A wish for help in front of a command concerns that command. -/
def Invocation.parse (arguments : List String) : Except Stop Invocation :=
  match toolGrammar.read arguments with
  | .error refusal => .error (.refuse refusal)
  | .ok (.arguments r) =>
    (complete toolGrammar r).map fun r => ⟨settingsOf r, .ping []⟩
  | .ok (.command r name rest) =>
    let rest := if r.help then "help" :: rest else rest
    (parseCommand name rest).map fun command => ⟨settingsOf r, command⟩

end Switchboard.Cli
