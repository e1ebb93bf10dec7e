import Switchboard.Wire.Body
import Switchboard.Wire.Frame
import Switchboard.Wire.Greeting

/-!
# Scripted servers

A server that greets, and answers every request at once from a script: for each name a list of
answers, the first for the first request of that name, the last for all further ones.

## Main definitions

- `Server` — the greeting, the script, and how far it has come
- `Server.receive` — what the server sends back for the octets it has received
-/

namespace Switchboard.Simulation

open Wire MessagePack

/-- An answer in a script. -/
inductive Server.Reply where
  /-- a value -/
  | data (v : Value)
  /-- an error -/
  | error (code : UInt32) (detail : String)
  /-- the arguments of the call -/
  | echo
  /-- no answer, and the end of the stream -/
  | hangUp

/-- A scripted server. -/
structure Server where
  greeting : Octets
  script : List (String × List Server.Reply)

namespace Server

/-- The greeting of a server of a version. -/
def greet (version : String) (salt : Octets) : Octets :=
  Greeting.render ⟨version, Greeting.defaultProtocol, none, salt⟩

/-- The name under which pings are scripted. -/
def pingName : String := "ping"

/-- The error code for a function that does not exist. -/
def undefined (name : String) : Server.Reply :=
  .error Fault.noSuchProcedureCode ("Procedure '" ++ name ++ "' is not defined")

/-- The next answer for a name, and the script afterwards. -/
def draw (name : String) :
    List (String × List Server.Reply) → Option Server.Reply × List (String × List Server.Reply)
  | [] => (none, [])
  | (other, answers) :: rest =>
    if other = name then
      match answers with
      | a :: b :: more => (some a, (other, b :: more) :: rest)
      | [last] => (some last, (other, [last]) :: rest)
      | [] => (none, (other, []) :: rest)
    else
      let (answer, rest) := draw name rest
      (answer, (other, answers) :: rest)

/-- The name that a request goes by, the answer when none is scripted, and its arguments. -/
def describe (m : Message) : String × Server.Reply × Value :=
  let body := (Body.decode m.body).toOption.getD .nil
  let args := (Body.lookup Key.tuple body).getD .nil
  match m.header.code with
  | .request .ping => (pingName, .data .nil, args)
  | _ =>
    let name := (((Body.lookup Key.function body).bind Value.text?).map String.ofList).getD ""
    (name, undefined name, args)

/-- The frame that answers a request, or `none` to end the stream. -/
def reply (sync : UInt64) (args : Value) : Server.Reply → Option Octets
  | .data v => (Frame.encode ⟨sync, .ok, none⟩ (Body.data v)).toOption
  | .error code detail => (Frame.encode ⟨sync, .error code, none⟩ (Body.error detail)).toOption
  | .echo => (Frame.encode ⟨sync, .ok, none⟩ (Body.data args)).toOption
  | .hangUp => none

/-- Answers requests in order up to one that ends the stream.  Gives what is sent, and whether the
stream ends behind it. -/
def answerAll (s : Server) : List Message → Octets × Bool × Server
  | [] => ([], false, s)
  | m :: rest =>
    let (name, default, args) := describe m
    let (scripted, script) := draw name s.script
    let s := { s with script }
    match reply m.header.sync args (scripted.getD default) with
    | none => ([], true, s)
    | some frame =>
      let (more, ended, s) := answerAll s rest
      (frame ++ more, ended, s)

/-- What the server sends back for octets it has received: the octets it keeps because they are no
complete request yet, what it sends, and whether the stream ends behind that. -/
def receive (s : Server) (received : Octets) : Octets × Octets × Bool × Server :=
  let drained := Frame.drain received
  let (sent, ended, s) := s.answerAll (drained.messages.map (·.1))
  (drained.rest, sent, ended, s)

end Server

end Switchboard.Simulation
