/-
  CheckpointRelay.Files.Tree — the files that exist, and how a path finds one.

  A tree is rooted: an entry stands under the names that lead to it from the root. A path is
  walked part by part, from the root or from the working directory: every part but the last
  has to be a directory, a symbolic link is followed (the last one only when asked for), and
  more than forty links on one walk are too many.
-/

import CheckpointRelay.Fault
import CheckpointRelay.Files.Path
import CheckpointRelay.Text.Utf8

namespace CheckpointRelay.Files

open Text.Utf8 (Bytes)

inductive Entry where
  | file (content : Bytes)
  | socket
  | link (target : String)
  | directory
  deriving DecidableEq

namespace Entry

def isFile : Entry → Bool
  | .file _ => true
  | _ => false

def isSocket : Entry → Bool
  | .socket => true
  | _ => false

end Entry

/-- The names that lead to a place from the root. -/
abbrev Place := List String

structure Tree where
  workingDir : Place
  entries : List (Place × Entry)

namespace Tree

/-- What stands at a place; the root is always a directory. -/
def entry? (t : Tree) (place : Place) : Option Entry :=
  if place = [] then some .directory else t.entries.lookup place

/-! ## (1) Walking -/

/-- The end of a walk. -/
structure Found where
  place : Place
  entry : Entry

def longestName : Nat := 255
def longestPath : Nat := 4095
def mostLinks : Nat := 40

/-- The walk from a directory; `follow` is what to do at a link, with the directory it lies in
    and the parts that are left. Above the root there is the root. -/
def walkParts (t : Tree) (followLast : Bool) (follow : Place → String → List String → Except Errno Found) :
    Place → List String → Except Errno Found
  | place, [] => .ok ⟨place, .directory⟩
  | place, part :: rest =>
    if part = "." then walkParts t followLast follow place rest
    else if part = ".." then walkParts t followLast follow place.dropLast rest
    else if longestName < (Text.Utf8.encode part).length then .error .nameTooLong
    else match t.entry? (place ++ [part]) with
      | none => .error .noEntry
      | some .directory => walkParts t followLast follow (place ++ [part]) rest
      | some (.link target) =>
        if rest = [] ∧ ¬followLast then .ok ⟨place ++ [part], .link target⟩ else follow place target rest
      | some e => if rest = [] then .ok ⟨place ++ [part], e⟩ else .error .notDirectory

/-- Where the walk of a path starts that is met in the directory `place`. -/
def startOf (path : String) (place : Place) : Place := if Path.isAbsolute path then [] else place

/-- The walk with at most `links` links on it. -/
def walk (t : Tree) (followLast : Bool) : Nat → Place → List String → Except Errno Found
  | 0 => walkParts t followLast fun _ _ _ => .error .tooManyLinks
  | links + 1 => walkParts t followLast fun place target rest =>
    walk t followLast links (startOf target place) (Path.parts target ++ rest)

def find (t : Tree) (followLast : Bool) (path : String) : Except Errno Found :=
  if path = "" then .error .noEntry
  else if longestPath < (Text.Utf8.encode path).length then .error .nameTooLong
  else walk t followLast mostLinks (startOf path t.workingDir) (Path.parts path)

/-! ## (2) Operations -/

/-- A path with a NUL in it never reaches the file system. -/
def reach (t : Tree) (followLast : Bool) (operation : Operation) (path : String) : Except Fault Entry :=
  if path.toList.any fun c => c.toNat = 0 then .error (.nulInPath path)
  else match t.find followLast path with
    | .ok found => .ok found.entry
    | .error e => .error (.file e operation path)

def stat (t : Tree) (path : String) : Except Fault Entry := t.reach true .stat path

/-- The entry itself when the path ends at a link. -/
def lstat (t : Tree) (path : String) : Except Fault Entry := t.reach false .lstat path

def read (t : Tree) (path : String) : Except Fault Bytes :=
  match t.reach true .openFile path with
  | .error f => .error f
  | .ok (.file content) => .ok content
  | .ok .directory => .error (.file .isDirectory .readFile path)
  | .ok _ => .error (.file .noDevice .openFile path)

/-! ## (3) Making a tree -/

def set (t : Tree) (place : Place) (e : Entry) : Tree :=
  if t.entries.any (·.1 == place) then
    { t with entries := t.entries.map fun p => if p.1 == place then (place, e) else p }
  else { t with entries := t.entries ++ [(place, e)] }

/-- The walk of `walkParts` to a directory, which makes every directory that is missing. -/
def ensureParts (follow : Tree → Place → String → List String → Tree × Place) :
    Tree → Place → List String → Tree × Place
  | t, place, [] => (t, place)
  | t, place, part :: rest =>
    if part = "." then ensureParts follow t place rest
    else if part = ".." then ensureParts follow t place.dropLast rest
    else match t.entry? (place ++ [part]) with
      | none => ensureParts follow (t.set (place ++ [part]) .directory) (place ++ [part]) rest
      | some (.link target) => follow t place target rest
      | some _ => ensureParts follow t (place ++ [part]) rest

/-- The tree with the directory that a path leads to, and that directory. -/
def ensure : Nat → Tree → Place → List String → Tree × Place
  | 0 => ensureParts fun t place _ _ => (t, place)
  | links + 1 => ensureParts fun t place target rest =>
    ensure links t (startOf target place) (Path.parts target ++ rest)

/-- A file is written where the links under its name lead, whether or not there is one yet. -/
def write (content : Bytes) : Nat → Tree → Place → String → Tree
  | 0, t, _, _ => t
  | links + 1, t, place, name =>
    match t.entry? (place ++ [name]) with
    | some (.link target) =>
      let parts := Path.parts target
      let (t, place) := ensure mostLinks t (startOf target place) parts.dropLast
      write content links t place (parts.getLast?.getD "")
    | _ => t.set (place ++ [name]) (.file content)

def empty (workingDir : Place) : Tree := (ensure mostLinks ⟨workingDir, []⟩ [] workingDir).1

/-- One more entry, with the directories above it. -/
def add (t : Tree) (path : String) (e : Entry) : Tree :=
  let start := startOf path t.workingDir
  let parts := Path.parts path
  let (above, place) := ensure mostLinks t start parts.dropLast
  match e, parts.getLast? with
  | _, none => t
  | .directory, _ => (ensure mostLinks t start parts).1
  | .file content, some name => write content mostLinks above place name
  | e, some name => above.set (place ++ [name]) e

def ofList (workingDir : Place) (entries : List (String × Entry)) : Tree :=
  entries.foldl (fun t p => t.add p.1 p.2) (empty workingDir)

end Tree

end CheckpointRelay.Files
