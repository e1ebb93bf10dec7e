import Switchboard.Cli.Run

/-!
# The command-line tool

Prints what a command line comes to and ends with its status.  The network that it runs against has
no servers: every address refuses.
-/

open Switchboard

/-- Runs the tool. -/
def main (arguments : List String) : IO UInt32 := do
  let output := Cli.run arguments []
  output.out.forM IO.println
  output.err.forM IO.eprintln
  return output.status.toUInt32
