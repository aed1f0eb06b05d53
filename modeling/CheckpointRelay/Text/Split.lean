/-
  CheckpointRelay.Text.Split — lists written as one text with a separator.

  `splitOn` cuts at every occurrence of one character and gives one part more than there
  are occurrences, so the empty text is one empty part. `join` puts parts back together.
-/

namespace CheckpointRelay.Text

def splitChars (sep : Char) : List Char → List (List Char)
  | [] => [[]]
  | c :: cs =>
    if c = sep then [] :: splitChars sep cs
    else match splitChars sep cs with
      | [] => [[c]]
      | part :: parts => (c :: part) :: parts

def splitOn (sep : Char) (s : String) : List String := (splitChars sep s.toList).map String.ofList

def join (sep : String) : List String → String
  | [] => ""
  | [a] => a
  | a :: b :: rest => a ++ sep ++ join sep (b :: rest)

end CheckpointRelay.Text
