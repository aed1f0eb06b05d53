/-
  CheckpointRelay.Json.Keyed — lists of named values in the order of object members.

  Names that are array indices (`index?`) come first, in numeric order; the others follow in
  the order of their first writing. `put` keeps that order and writes over an old value in
  place, so a list built by it (`ofPairs`) holds each name once.
-/

namespace CheckpointRelay

abbrev Keyed (α : Type) := List (String × α)

namespace Keyed

variable {α : Type}

/-- The array index that a name spells: no sign, no leading zero, below `2 ^ 32 - 1`. -/
def index? (key : String) : Option Nat :=
  let cs := key.toList
  let value := cs.foldl (fun n c => n * 10 + (c.toNat - '0'.toNat)) 0
  if cs ≠ [] ∧ cs.all (fun c => '0' ≤ c && c ≤ '9') ∧ (cs.head? ≠ some '0' ∨ cs = ['0'])
      ∧ cs.length ≤ 10 ∧ value < 4294967295
  then some value else none

/-- A name that stands before a new index `n`. -/
def precedes (n : Nat) (m : String × α) : Bool :=
  match index? m.1 with
  | some i => i < n
  | none => false

def has (ms : Keyed α) (key : String) : Bool := ms.any (·.1 == key)

def put (ms : Keyed α) (key : String) (value : α) : Keyed α :=
  if has ms key then ms.map fun m => if m.1 == key then (key, value) else m
  else match index? key with
    | none => ms ++ [(key, value)]
    | some n => ms.takeWhile (precedes n) ++ (key, value) :: ms.dropWhile (precedes n)

def ofPairs (pairs : List (String × α)) : Keyed α := pairs.foldl (fun ms p => put ms p.1 p.2) []

def get? (ms : Keyed α) (key : String) : Option α := ms.lookup key

def without (ms : Keyed α) (keys : List String) : Keyed α := ms.filter fun m => !keys.contains m.1

end Keyed

end CheckpointRelay
