/-
  CheckpointRelay.Command.Line — reading the command line.

  The program's flags are read anywhere on the line, those of a command behind its name. The
  line is scanned twice: `scan` with the program's flags leaves the operands before the first
  unknown flag and everything from that flag on; the rest is scanned with the flags of the
  command that the first operand names, or of `add-dependencies`. A flag takes the next word
  whatever it is. What ends the reading early is a `Stop`.
-/

import CheckpointRelay.Command.Help
import CheckpointRelay.Command.Suggestion
import CheckpointRelay.Number.Numeral

namespace CheckpointRelay.Command

inductive UsageError where
  | missingValue (f : Flag)
  | notInteger (f : Flag) (value : String)
  | missingFlag (f : Flag)
  | unknownFlag (word : String) (known : List Flag)

inductive Stop where
  | version
  | help (topic : Topic)
  /-- Help that was asked for with a command that does not exist. -/
  | noSuchTopic
  | usage (e : UsageError)

/-- The names that an unknown flag is compared with, without their dashes. -/
def nameOf (f : Flag) : String := String.ofList (f.long.toList.drop 2)

def isLong (word : String) : Bool := word.toList.take 2 == ['-', '-']

def UsageError.message : UsageError → String
  | .missingValue f => "error: option '" ++ f.form ++ "' argument missing"
  | .notInteger f value =>
    "error: option '" ++ f.form ++ "' argument '" ++ value ++ "' is invalid. Not an integer."
  | .missingFlag f => "error: required option '" ++ f.form ++ "' not specified"
  | .unknownFlag word known =>
    "error: unknown option '" ++ word ++ "'"
      ++ (if isLong word then
        Suggestion.text (String.ofList (word.toList.drop 2)) (known.map nameOf ++ ["help"]) else "")

/-! ## (1) Words -/

/-- A word that a flag could be; a lone dash is none. -/
def looksLikeFlag (word : String) : Bool :=
  match word.toList with
  | '-' :: _ :: _ => true
  | _ => false

/-- A one-letter flag with more letters behind it in the same word. -/
def group? (word : String) : Option (String × String) :=
  match word.toList with
  | '-' :: c :: d :: rest => if c = '-' then none else some (String.ofList ['-', c], String.ofList (d :: rest))
  | _ => none

/-- A long flag and the value behind its first equals sign. -/
def assignment? (word : String) : Option (String × String) :=
  let cs := word.toList
  if isLong word then
    let name := (cs.drop 2).takeWhile (· ≠ '=')
    match (cs.drop 2).dropWhile (· ≠ '=') with
    | '=' :: value => if name = [] then none else some (String.ofList ('-' :: '-' :: name), String.ofList value)
    | _ => none
  else none

/-! ## (2) Scanning -/

/-- Values by the long name of their flag, last one first. -/
abbrev Given := List (String × String)

structure Scan where
  given : Given
  operands : List String
  unknown : List String

def Scan.empty : Scan := ⟨[], [], []⟩

/-- A word that is no flag of ours. From the first unknown flag on, all words are kept for the
    command. -/
def Scan.keep (s : Scan) (word : String) : Scan :=
  if looksLikeFlag word ∨ s.unknown ≠ [] then { s with unknown := s.unknown ++ [word] }
  else { s with operands := s.operands ++ [word] }

/-- The words behind `--`. -/
def Scan.finish (s : Scan) (words : List String) : Scan :=
  if s.unknown = [] then { s with operands := s.operands ++ words }
  else { s with unknown := s.unknown ++ "--" :: words }

def Scan.take (s : Scan) (f : Flag) (value : String) : Except Stop Scan :=
  match f.kind with
  | .version => .error .version
  | .text _ => .ok { s with given := (f.long, value) :: s.given }
  | .integer _ =>
    if (Number.Numeral.read value).isInteger then .ok { s with given := (f.long, value) :: s.given }
    else .error (.usage (.notInteger f value))

/-- A flag and its value in one word. -/
def joined? (flags : List Flag) (word : String) : Option (Flag × String) :=
  let find? (p : String × String) : Option (Flag × String) :=
    (flags.find? (·.answersTo p.1)).map fun f => (f, p.2)
  match (group? word).bind find? with
  | some r => some r
  | none => ((assignment? word).bind find?).filter fun r => r.1.placeholder?.isSome

def scan (flags : List Flag) (s : Scan) : List String → Except Stop Scan
  | [] => .ok s
  | word :: rest =>
    if word = "--" then .ok (s.finish rest)
    else match flags.find? fun f => looksLikeFlag word && f.answersTo word with
      | some f =>
        if f.placeholder?.isNone then s.take f ""
        else match rest with
          | [] => .error (.usage (.missingValue f))
          | value :: rest =>
            match s.take f value with
            | .error stop => .error stop
            | .ok s => scan flags s rest
      | none =>
        match joined? flags word with
        | some (f, value) =>
          match s.take f value with
          | .error stop => .error stop
          | .ok s => scan flags s rest
        | none => scan flags (s.keep word) rest

/-! ## (3) The whole line -/

structure Invocation where
  command : Subcommand
  program : Given
  own : Given

def value? (given : Given) (long : String) : Option String := given.lookup long

def asksForHelp (words : List String) : Bool := words.any fun w => w == "-h" || w == "--help"

/-- The words of a command, read with its own flags. -/
def dispatch (command : Subcommand) (program : Given) (unknown : List String) : Except Stop Invocation := do
  let s ← scan command.flags .empty unknown
  if asksForHelp s.unknown then throw (.help (.command command))
  match command.flags.find? fun f => f.required && (value? s.given f.long).isNone with
  | some f => throw (.usage (.missingFlag f))
  | none =>
    match s.unknown with
    | word :: _ => throw (.usage (.unknownFlag word (command.flags ++ programFlags)))
    | [] => return { command, program, own := s.given }

def helpStop (command : Option String) : Stop :=
  match command.filter (· ≠ "") with
  | none => .help .program
  | some name =>
    match Subcommand.ofName? name with
    | some c => .help (.command c)
    | none => .noSuchTopic

def parse (words : List String) : Except Stop Invocation := do
  let s ← scan programFlags .empty words
  match s.operands with
  | first :: operands =>
    match Subcommand.ofName? first with
    | some c => dispatch c s.given s.unknown
    | none =>
      if first = "help" then throw (helpStop operands.head?)
      else if asksForHelp s.unknown then throw (.help .program)
      else dispatch .addDependencies s.given s.unknown
  | [] =>
    if asksForHelp s.unknown then throw (.help .program)
    else dispatch .addDependencies s.given s.unknown

end CheckpointRelay.Command
