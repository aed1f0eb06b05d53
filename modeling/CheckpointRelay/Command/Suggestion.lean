/-
  CheckpointRelay.Command.Suggestion — the names that an unknown flag may have meant.

  Two names are compared by the number of single edits between them: a code unit left out,
  put in or replaced, or two neighbours exchanged, no place edited twice. The nearest names
  are suggested, if they are at most three edits away and more than two fifths alike.
-/

import CheckpointRelay.Text.Split
import CheckpointRelay.Text.Units

namespace CheckpointRelay.Command.Suggestion

def furthest : Nat := 3

/-! ## (1) Distance -/

/-- The rest of a row. The row belongs to the unit `x` of one text, which `earlier` stands
    before; `bs` is what is left of the other, behind `last`. `previous` and `beforeThat` are
    the two rows above, from the columns that the next cell needs. -/
def cells (x : Nat) (earlier : Option Nat) (last : Option Nat) (previous beforeThat : List Nat) (left : Nat) :
    List Nat → List Nat
  | [] => []
  | b :: bs =>
    match previous with
    | diagonal :: up :: rest =>
      let plain := min (min (up + 1) (left + 1)) (diagonal + if x = b then 0 else 1)
      let cell := match earlier, last, beforeThat with
        | some x', some b', t :: _ => if x = b' ∧ x' = b then min plain (t + 1) else plain
        | _, _, _ => plain
      let above := if last.isNone then beforeThat else beforeThat.drop 1
      cell :: cells x earlier (some b) (up :: rest) above cell bs
    | _ => []

/-- The last row, from the row `previous` on; `count` units are behind. -/
def lastRow (bs : List Nat) (count : Nat) (earlier : Option Nat) (previous beforeThat : List Nat) :
    List Nat → List Nat
  | [] => previous
  | x :: xs =>
    let row := (count + 1) :: cells x earlier none previous beforeThat (count + 1) bs
    lastRow bs (count + 1) (some x) row previous xs

/-- Texts that differ much in length are not compared further. -/
def distance (a b : List Nat) : Nat :=
  if furthest < (a.length - b.length) + (b.length - a.length) then max a.length b.length
  else (lastRow b 0 none (List.range (b.length + 1)) [] a).getLast?.getD 0

/-! ## (2) Choice -/

/-- Distance, for a name that is near enough. -/
def nearness? (word candidate : List Nat) : Option Nat :=
  let d := distance word candidate
  let size := max word.length candidate.length
  if candidate.length ≤ 1 ∨ furthest < d ∨ 5 * (size - d) ≤ 2 * size then none else some d

def insertSorted (s : String) : List String → List String
  | [] => [s]
  | t :: ts => if t < s then t :: insertSorted s ts else s :: t :: ts

def nearest (word : String) (candidates : List String) : List String :=
  let rated := candidates.filterMap fun c => (nearness? (Text.units word) (Text.units c)).map fun d => (c, d)
  let best := rated.foldl (fun n r => min n r.2) furthest
  ((rated.filter (·.2 = best)).map (·.1)).foldr insertSorted []

/-- The line that follows an unknown long flag; `names` are without their dashes. -/
def text (word : String) (names : List String) : String :=
  match (nearest word names.eraseDups).map ("--" ++ ·) with
  | [] => ""
  | [name] => "\n(Did you mean " ++ name ++ "?)"
  | several => "\n(Did you mean one of " ++ Text.join ", " several ++ "?)"

end CheckpointRelay.Command.Suggestion
