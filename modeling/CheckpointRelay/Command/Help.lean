/-
  CheckpointRelay.Command.Help — the help texts.

  They are made from the flags themselves: two columns, the second one wrapped at 80
  characters.
-/

import CheckpointRelay.Command.Flag

namespace CheckpointRelay.Command

inductive Topic where
  | program
  | command (c : Subcommand)
  deriving DecidableEq

namespace Help

def width : Nat := 80

/-- Lines of at most `room` characters, filled from the left; a longer word has a line of its
    own. -/
def wrapFrom (room : Nat) (line : String) : List String → List String
  | [] => [line]
  | word :: words =>
    let longer := line ++ " " ++ word
    if longer.length ≤ room then wrapFrom room longer words
    else line :: wrapFrom room word words

def wrap (room : Nat) (text : String) : List String :=
  match Text.splitOn ' ' text with
  | [] => []
  | word :: words => wrapFrom room word words

def spaces (n : Nat) : String := String.ofList (List.replicate n ' ')

/-- One row: the term, filled up to the width of its column, and the wrapped description. -/
def row (column : Nat) (term about : String) : String :=
  let gap := spaces (column + 2 - term.length)
  let indent := "\n" ++ spaces (column + 4)
  "  " ++ term ++ gap ++ Text.join indent (wrap (width - column - 5) about)

def helpRow : String × String := ("-h, --help", "display help for command")

def flagRows (flags : List Flag) : List (String × String) :=
  flags.map (fun f => (f.form, f.about)) ++ [helpRow]

def commandRows : List (String × String) :=
  Subcommand.all.map (fun c => (c.name ++ " [options]", c.about))
    ++ [("help [command]", "display help for command")]

def columnOf (rows : List (String × String)) : Nat := rows.foldl (fun n r => max n r.1.length) 0

def page (usage about : String) (flags commands : List (String × String)) : String :=
  let column := columnOf (flags ++ commands)
  let block (title : String) (rows : List (String × String)) : List String :=
    if rows = [] then [] else ["", title] ++ rows.map fun r => row column r.1 r.2
  Text.join "\n" (["Usage: " ++ usage, "", about] ++ block "Options:" flags ++ block "Commands:" commands)

def text : Topic → String
  | .program =>
    page (programName ++ " [options] [command]")
      "Send one request to a checkpoint coordinator and print its reply" (flagRows programFlags) commandRows
  | .command c => page (programName ++ " " ++ c.name ++ " [options]") c.about (flagRows c.flags) []

end Help

end CheckpointRelay.Command
