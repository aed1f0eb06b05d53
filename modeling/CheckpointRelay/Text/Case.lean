/-
  CheckpointRelay.Text.Case — upper and lower case of a whole text.

  Each character goes by its Unicode mapping, which may give several characters. Lower case
  has one rule with context: a capital sigma becomes the final small sigma when a cased
  character stands before it and none after it, ignorable characters not counted.
-/

import CheckpointRelay.Text.CaseTable

namespace CheckpointRelay.Text

def inRanges (table : List (Nat × Nat)) (c : Char) : Bool :=
  table.any fun r => r.1 ≤ c.toNat && c.toNat ≤ r.2

def shifted (table : List CaseTable.ShiftRow) (c : Char) : Char :=
  let n := c.toNat
  match table.find? fun r => r.1 ≤ n && n ≤ r.2.1 && (n - r.1) % r.2.2.1 == 0 with
  | some r => Char.ofNat ((n : Int) + r.2.2.2).toNat
  | none => c

def mapChar (several : List (Nat × List Nat)) (table : List CaseTable.ShiftRow) (c : Char) : List Char :=
  match several.lookup c.toNat with
  | some ns => ns.map Char.ofNat
  | none => [shifted table c]

/-- The first character that is not ignorable is cased. -/
def casedNext (cs : List Char) : Bool :=
  match cs.dropWhile (inRanges CaseTable.ignorable) with
  | [] => false
  | c :: _ => inRanges CaseTable.cased c

/-- Lower case of `cs`; `before` is what stands before it, nearest first. -/
def lowerChars (before : List Char) : List Char → List Char
  | [] => []
  | c :: cs =>
    let out :=
      if c.toNat = 0x3A3 then [if casedNext before ∧ ¬casedNext cs then Char.ofNat 0x3C2 else Char.ofNat 0x3C3]
      else mapChar CaseTable.lowerSeveral CaseTable.lower c
    out ++ lowerChars (c :: before) cs

def toLower (s : String) : String := String.ofList (lowerChars [] s.toList)

def toUpper (s : String) : String :=
  String.ofList (s.toList.flatMap (mapChar CaseTable.upperSeveral CaseTable.upper))

end CheckpointRelay.Text
