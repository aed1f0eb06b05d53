/-
  CheckpointRelay.Files.Path — paths as texts.

  `join` puts a name behind a directory and normalises the result by its text alone: empty
  and `.` parts go away, and `..` takes the part before it along, whatever the file system
  holds there. `parts` is the walk that a path asks of the file system: nothing is resolved,
  and a slash at the end asks for a directory.
-/

import CheckpointRelay.Text.Split

namespace CheckpointRelay.Files.Path

def isAbsolute (path : String) : Bool := path.toList.head? == some '/'

def endsWithSlash (path : String) : Bool := path.toList.getLast? == some '/'

/-- One part more; the parts so far are held last first. -/
def normalStep (absolute : Bool) (soFar : List String) (part : String) : List String :=
  if part = "" ∨ part = "." then soFar
  else if part = ".." then
    match soFar with
    | [] => if absolute then [] else [".."]
    | last :: before => if last = ".." then ".." :: last :: before else before
  else part :: soFar

def normalParts (absolute : Bool) (parts : List String) : List String :=
  (parts.foldl (normalStep absolute) []).reverse

def normalise (path : String) : String :=
  let absolute := isAbsolute path
  let body := Text.join "/" (normalParts absolute (Text.splitOn '/' path))
  let slash := if endsWithSlash path then "/" else ""
  if body = "" then (if absolute then "/" else "." ++ slash)
  else (if absolute then "/" else "") ++ body ++ slash

def join (directory name : String) : String :=
  match [directory, name].filter (· ≠ "") with
  | [] => "."
  | parts => normalise (Text.join "/" parts)

def parts (path : String) : List String :=
  (Text.splitOn '/' path).filter (· ≠ "") ++ (if endsWithSlash path then ["."] else [])

end CheckpointRelay.Files.Path
