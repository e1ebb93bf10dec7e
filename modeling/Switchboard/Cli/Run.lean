import Switchboard.Cli.Command
import Switchboard.Json.Convert
import Switchboard.Json.Reader
import Switchboard.Simulation.Engine

/-!
# Running commands

A command is run against a network of servers; its result is what it prints and the status with
which it ends.

## Main definitions

- `Output` — what is printed, and the exit status
- `Failure` — why a command failed
- `Cli.run` — runs a command line
-/

namespace Switchboard.Cli

open Simulation MessagePack

/-- What a command prints, by lines, and the status with which it ends. -/
structure Output where
  status : Nat := 0
  out : List String := []
  err : List String := []
  deriving Repr, DecidableEq

/-- Why a command failed, with the causes if there are any, the nearest first. -/
structure Failure where
  text : String
  causes : List String := []

namespace Failure

/-- A fault that stands for itself. -/
def ofFault (f : Fault) : Failure := ⟨f.message, f.beneath⟩

/-- A fault that is the cause of a failure. -/
def because (text : String) (f : Fault) : Failure := ⟨text, f.message :: f.beneath⟩

/-- A number with blanks in front of it, five characters wide. -/
def numberText (n : Nat) : String :=
  let digits := toString n
  String.ofList (List.replicate (5 - digits.length) ' ') ++ digits

/-- The lines of a cause, the first of them behind a mark and the others indented as far. -/
def causeLines (mark indent cause : String) : List String :=
  match cause.splitOn "\n" with
  | [] => [mark]
  | first :: rest => (mark ++ first) :: rest.map (indent ++ ·)

/-- The lines of all causes; they are numbered if there are several. -/
def causesLines : List String → List String
  | [] => []
  | [cause] => causeLines "    " "    " cause
  | causes =>
    causes.zipIdx.flatMap fun (cause, n) => causeLines (numberText n ++ ": ") "       " cause

/-- The wording of a failure, by lines. -/
def lines (f : Failure) : List String :=
  ("Error: " ++ f.text).splitOn "\n" ++
    if f.causes.isEmpty then [] else "" :: "Caused by:" :: causesLines f.causes

end Failure

/-- A step of a command: what it prints on the way, and how it ends. -/
abbrev Step (α : Type) := Engine → List String → Except Failure α × Engine × List String

/-- Takes one step after another, as long as none fails. -/
def Step.bind {α β : Type} (s : Step α) (next : α → Step β) : Step β := fun e out =>
  match s e out with
  | (.ok a, e, out) => next a e out
  | (.error f, e, out) => (.error f, e, out)

instance : Monad Step where
  pure a := fun e out => (.ok a, e, out)
  bind := Step.bind

/-- Fails. -/
def fail {α : Type} (f : Failure) : Step α := fun e out => (.error f, e, out)

/-- Prints text. -/
def print (text : String) : Step Unit := fun e out => (.ok (), e, out ++ text.splitOn "\n")

/-- Changes the engine. -/
def change (f : Engine → Engine) : Step Unit := fun e out => (.ok (), f e, out)

/-- Runs an operation. -/
def perform (op : Operation) : Step (Except Fault Payload) := fun e out =>
  match e.perform op with
  | (.result r, e) => (.ok r, e, out)
  | (_, e) => (.ok (.ok .nothing), e, out)

/-- Fails with the fault of a result. -/
def orFail {α : Type} (r : Except Fault α) (failure : Fault → Failure) : Step α :=
  match r with
  | .ok a => pure a
  | .error f => fail (failure f)

/-- The addresses that texts name. -/
def parseAddresses (texts : List String) : Except Failure (List Address) :=
  if texts.isEmpty then .error ⟨"at least one --address is required", []⟩
  else texts.mapM fun text =>
    (Address.parse text).mapError fun f =>
      .because ("invalid address '" ++ text ++ "'") (.ofAddress f)

/-- Fails unless all texts name addresses. -/
def addresses (texts : List String) : Step (List Address) :=
  match parseAddresses texts with
  | .ok list => pure list
  | .error f => fail f

/-! ### Pinging -/

/-- Asks a server whether it is there; gives its version. -/
def pingOne (config : ClientConfig) (address : Address) : Step (Except Fault String) := do
  let number : Nat ← fun e out => (.ok e.world.links.size, e, out)
  change (·.hold (.connection number))
  match ← perform (.openConnection address config) with
  | .error f => return .error f
  | .ok opened =>
    let answer ←
      perform (.request (.connection number) .ping .never config.requestTimeout .presence)
    let closed ← perform (.closeConnection number)
    change (·.drop (.connection number))
    return do
      let _ ← closed
      let _ ← answer
      match opened with
      | .opened _ greeting => .ok greeting.version
      | _ => .ok ""

/-- How the time that an answer took is shown. -/
def timeText : String := "#ms"

/-- Asks each server whether it is there; gives how many did not answer. -/
def pingEach (config : ClientConfig) : List Address → Step Nat
  | [] => return 0
  | a :: rest => do
    match ← pingOne config a with
    | .ok version =>
      print (a.display ++ ": ok (" ++ version ++ ", " ++ timeText ++ ")")
      pingEach config rest
    | .error f =>
      print (a.display ++ ": " ++ f.message)
      return (← pingEach config rest) + 1

/-- Asks each server whether it is there. -/
def ping (settings : Settings) (texts : List String) : Step Unit := do
  let failed ← pingEach settings.config (← addresses texts)
  if failed ≠ 0 then fail ⟨toString failed ++ " server(s) did not answer", []⟩

/-! ### Calling -/

/-- Opens a client of the servers. -/
def openClient (settings : Settings) (servers : List Address) : Step Unit := do
  change fun e =>
    { (e.hold .cluster).hold .provider with
      world :=
        { e.world with
          provider := some { topology := Discovery.fixed servers, discovery := none } } }
  let _ ← orFail (← perform (.openCluster settings.config)) .ofFault

/-- Sends a request through the client. -/
def dispatch (settings : Settings) (request : Request) (reading : Simulation.Reading) :
    Step (Except Fault Payload) :=
  perform (.request .cluster request settings.policy settings.config.requestTimeout reading)

/-- Closes the client. -/
def closeClient : Step Unit := do
  let _ ← orFail (← perform (.closeCluster true)) .ofFault

/-- The arguments that a text in JSON gives. -/
def callArguments (text : Option String) : Except Failure (List Value) :=
  match text with
  | none => .ok []
  | some text =>
    match Json.parse text with
    | .ok v => .ok v.arguments
    | .error detail => .error ⟨"arguments are not valid JSON", [detail]⟩

/-- The value of a payload; nil if it is none. -/
def payloadValue : Payload → Value
  | .value v => v
  | _ => .nil

/-- Calls a stored function and prints its result. -/
def call (settings : Settings) (texts : List String) (function : String)
    (arguments : Option String) : Step Unit := do
  let servers ← addresses texts
  match callArguments arguments with
  | .error f => fail f
  | .ok arguments =>
    openClient settings servers
    let result ← dispatch settings (.call function arguments) .data
    closeClient
    let payload ← orFail result (.because ("call to '" ++ function ++ "' failed"))
    print (Json.ofValue (payloadValue payload)).compact

/-! ### Discovering -/

/-- A topology as it is printed. -/
def topologyJson (t : Topology) : Json :=
  .object
    [("addresses", .array (t.addresses.map fun a => .string a.display)),
     ("epoch", .ofNat t.epoch.toNat)]

/-- The octets of a payload. -/
def payloadOctets : Payload → Octets
  | .octets bytes => bytes
  | _ => []

/-- Asks a server for the list of servers and prints it. -/
def discover (settings : Settings) (text function : String) : Step Unit := do
  let servers ← addresses [text]
  openClient settings servers
  let answer ← dispatch settings (.call function []) .octets
  let found := Discovery.start { function } (answer.map payloadOctets)
  closeClient
  let topology ← orFail found (.because "discovery failed")
  print (topologyJson topology.value).pretty

/-! ### Command lines -/

/-- Runs a command. -/
def runCommand (settings : Settings) : Command → Step Unit
  | .ping texts => ping settings texts
  | .call texts function arguments => call settings texts function arguments
  | .discover text function => discover settings text function

/-- Where the explanation of the command line is found. -/
def helpHint : String := "Run " ++ toolName ++ " --help for more information."

/-- Runs a command line against a network of servers. -/
def run (arguments : List String) (servers : List (Address × Server)) : Output :=
  match Invocation.parse arguments with
  | .error (.explain lines) => { out := lines ++ [""] }
  | .error (.refuse refusal) => { status := 1, err := refusal.lines ++ [helpHint] }
  | .ok i =>
    let engine : Engine := { world := { network := { servers := some servers } } }
    match runCommand i.settings i.command engine [] with
    | (.ok (), _, out) => { out }
    | (.error f, _, out) => { status := 1, out, err := f.lines }

end Switchboard.Cli
