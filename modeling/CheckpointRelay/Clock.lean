/-
  CheckpointRelay.Clock — instants and their text.

  An instant is a count of milliseconds from the start of 1970 in universal time, on the
  proleptic Gregorian calendar. `stamp` writes date and time with milliseconds; years outside
  0000 to 9999 take a sign and six digits. `stamp?` stamps the instants within a hundred
  million days of the start; the others have no date.
-/

namespace CheckpointRelay.Clock

abbrev Instant := Int

/-- Digits of `n`, filled up with zeros to a width. -/
def padded (width n : Nat) : String :=
  let ds := Nat.toDigits 10 n
  String.ofList (List.replicate (width - ds.length) '0' ++ ds)

/-- Year, month and day of the day that lies `days` after the first of 1970. Years are
    counted from March, in eras of 400 years. -/
def civil (days : Int) : Int × Nat × Nat :=
  let z := days + 719468
  let era := z.fdiv 146097
  let doe := (z.fmod 146097).toNat
  let yoe := (doe - doe / 1460 + doe / 36524 - doe / 146096) / 365
  let doy := doe - (365 * yoe + yoe / 4 - yoe / 100)
  let mp := (5 * doy + 2) / 153
  let day := doy - (153 * mp + 2) / 5 + 1
  let month := if mp < 10 then mp + 3 else mp - 9
  let year := (yoe : Int) + era * 400 + (if month ≤ 2 then 1 else 0)
  (year, month, day)

def yearText (year : Int) : String :=
  if 0 ≤ year ∧ year ≤ 9999 then padded 4 year.toNat
  else (if year < 0 then "-" else "+") ++ padded 6 year.natAbs

def stamp (t : Instant) : String :=
  let (year, month, day) := civil (t.fdiv 86400000)
  let ms := (t.fmod 86400000).toNat
  yearText year ++ "-" ++ padded 2 month ++ "-" ++ padded 2 day ++ "T"
    ++ padded 2 (ms / 3600000) ++ ":" ++ padded 2 (ms / 60000 % 60) ++ ":" ++ padded 2 (ms / 1000 % 60)
    ++ "." ++ padded 3 (ms % 1000) ++ "Z"

/-- The distance from the start at which dates end. -/
def furthest : Nat := 100000000 * 86400000

def stamp? (t : Instant) : Option String := if t.natAbs ≤ furthest then some (stamp t) else none

end CheckpointRelay.Clock
