import Switchboard.Cli.Arguments

/-!
# Usage texts

The text that explains a command line, made from its grammar.

## Main definitions

- `Usage.row` — a name with its description beside it
- `Grammar.usage` — the text, by lines
-/

namespace Switchboard.Cli

namespace Usage

/-- How many characters fit on a line. -/
def width : Nat := 80

/-- Where descriptions begin. -/
def column : Nat := 20

/-- A line filled up to the place where descriptions begin. -/
def indent (line : String) : String :=
  line ++ String.ofList (List.replicate (column - line.length) ' ')

/-- Puts words behind a line, and on further lines as far as they do not fit. -/
def wrap (line : String) : List String → List String
  | [] => [line]
  | w :: rest =>
    if width < line.length + w.length + 1 then line :: wrap (indent "" ++ w) rest
    else wrap (line ++ " " ++ w) rest

/-- A name with its description beside it, or below it when the name is too long. -/
def row (name description : String) : List String :=
  let line := "  " ++ name
  let (above, line) := if line.length < column then ([], indent line) else ([line], indent "")
  match description.splitOn " " with
  | [] => above ++ [line]
  | first :: rest => above ++ wrap (line ++ first) rest

/-- A heading with rows below it and a blank line above, or nothing without rows. -/
def section_ (heading : String) (rows : List (String × String)) : List String :=
  if rows.isEmpty then [] else "" :: heading :: rows.flatMap fun r => row r.1 r.2

/-- An option in the first line. -/
def optionText (o : OptionRule) : String :=
  let spelling := o.spellings.headD o.long
  match o.need with
  | .required => spelling ++ " <" ++ o.name ++ ">"
  | .optional => "[" ++ spelling ++ " <" ++ o.name ++ ">]"
  | .repeatable => "[" ++ spelling ++ " <" ++ o.name ++ "...>]"

/-- A positional argument in the first line. -/
def positionalText (p : PositionalRule) : String :=
  if p.required then "<" ++ p.name ++ ">" else "[<" ++ p.name ++ ">]"

end Usage

namespace Grammar

open Usage

/-- The first line: everything that may stand on the command line. -/
def synopsis (g : Grammar) : String :=
  " ".intercalate <|
    ["Usage:", g.path] ++ g.options.map optionText ++
      (if g.positionals.isEmpty then [] else "[--]" :: g.positionals.map positionalText) ++
      if g.commands.isEmpty then [] else ["<command> [<args>]"]

/-- The text that explains a command line, by lines. -/
def usage (g : Grammar) : List String :=
  [g.synopsis, "", g.description] ++
    section_ "Positional Arguments:" (g.positionals.map fun p => (p.name, p.description)) ++
    section_ "Options:"
      (g.options.map (fun o => (", ".intercalate o.spellings, o.description)) ++
        [(", ".intercalate helpWords, "display usage information")]) ++
    section_ "Commands:" g.commands

end Grammar

end Switchboard.Cli
