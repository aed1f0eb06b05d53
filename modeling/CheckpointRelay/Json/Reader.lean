/-
  CheckpointRelay.Json.Reader — reading a JSON text.

  A machine takes one character at a time (`Reader.step`) and has no answer for a character
  that no JSON text has at that place. Its state is a stack of the arrays and objects that
  are still open and what it stands in (`Mode`). Only space, tab, line feed and carriage
  return may stand between tokens; a byte order mark may not. Of two members with one key
  the later value wins at the place of the first. An escape for half of a surrogate pair that
  stands alone denotes U+FFFD.
-/

import CheckpointRelay.Json.Basic
import CheckpointRelay.Number.Numeral
import CheckpointRelay.Text.Units

namespace CheckpointRelay.Json

open Number (Binary64)

/-! ## (1) State -/

/-- An open array with its items so far, last first, or an open object with its members so
    far and the key whose value comes next. -/
inductive Frame where
  | array (items : List Json)
  | object (members : Keyed Json) (key : String)

/-- Inside a number: what has been read of it. -/
inductive Lexeme where
  | sign | zero | whole | point | fraction | exponent | exponentSign | exponentDigits
  deriving DecidableEq

/-- Strings are held as code units, last first, until they are closed. -/
inductive Mode where
  | value
  | firstItem
  | firstKey
  | key
  | colon
  | after
  | finished (v : Json)
  | string (isKey : Bool) (units : List Nat)
  | escape (isKey : Bool) (units : List Nat)
  | unicode (isKey : Bool) (units : List Nat) (missing : Nat) (bits : Nat)
  | number (lexeme : Lexeme) (chars : List Char)
  | word (rest : List Char) (v : Json)

structure Reader where
  stack : List Frame
  mode : Mode

def Reader.start : Reader := ⟨[], .value⟩

def isGap (c : Char) : Bool := c == ' ' || c == '\t' || c == '\n' || c == '\r'

/-! ## (2) Tokens -/

def unescape? (c : Char) : Option Nat :=
  if c = '"' ∨ c = '\\' ∨ c = '/' then some c.toNat
  else if c = 'b' then some 0x08
  else if c = 'f' then some 0x0C
  else if c = 'n' then some 0x0A
  else if c = 'r' then some 0x0D
  else if c = 't' then some 0x09
  else none

/-- The state inside a number after one more character of it. -/
def Lexeme.next? (l : Lexeme) (c : Char) : Option Lexeme :=
  let digit := Number.Numeral.isDigit c
  let e := c == 'e' || c == 'E'
  match l with
  | .sign => if c = '0' then some .zero else if digit then some .whole else none
  | .zero => if c = '.' then some .point else if e then some .exponent else none
  | .whole => if digit then some .whole else if c = '.' then some .point else if e then some .exponent else none
  | .point => if digit then some .fraction else none
  | .fraction => if digit then some .fraction else if e then some .exponent else none
  | .exponent =>
    if digit then some .exponentDigits else if c = '+' ∨ c = '-' then some .exponentSign else none
  | .exponentSign => if digit then some .exponentDigits else none
  | .exponentDigits => if digit then some .exponentDigits else none

/-- A number may end here. -/
def Lexeme.complete : Lexeme → Bool
  | .zero | .whole | .fraction | .exponentDigits => true
  | _ => false

def numberOf (chars : List Char) : Json :=
  match chars with
  | '-' :: cs => .num ((Number.Numeral.decimal? true cs).getD .nan)
  | cs => .num ((Number.Numeral.decimal? false cs).getD .nan)

/-! ## (3) Steps -/

/-- A value is read: it goes to the innermost open array or object. -/
def Reader.accept (v : Json) : List Frame → Reader
  | [] => ⟨[], .finished v⟩
  | .array items :: rest => ⟨.array (v :: items) :: rest, .after⟩
  | .object members key :: rest => ⟨.object (Keyed.put members key v) key :: rest, .after⟩

/-- The first character of a value. -/
def Reader.open? (stack : List Frame) (c : Char) : Option Reader :=
  if c = '"' then some ⟨stack, .string false []⟩
  else if c = '[' then some ⟨.array [] :: stack, .firstItem⟩
  else if c = '{' then some ⟨.object [] "" :: stack, .firstKey⟩
  else if c = 't' then some ⟨stack, .word ['r', 'u', 'e'] (.bool true)⟩
  else if c = 'f' then some ⟨stack, .word ['a', 'l', 's', 'e'] (.bool false)⟩
  else if c = 'n' then some ⟨stack, .word ['u', 'l', 'l'] .null⟩
  else if c = '-' then some ⟨stack, .number .sign ['-']⟩
  else if c = '0' then some ⟨stack, .number .zero ['0']⟩
  else if Number.Numeral.isDigit c then some ⟨stack, .number .whole [c]⟩
  else none

/-- The closing bracket or brace of the innermost open value. -/
def Reader.close? (stack : List Frame) (c : Char) : Option Reader :=
  match stack with
  | .array items :: rest => if c = ']' then some (.accept (.arr items.reverse) rest) else none
  | .object members _ :: rest => if c = '}' then some (.accept (.obj members) rest) else none
  | [] => none

/-- A character after a whole value. -/
def Reader.settled? (r : Reader) (c : Char) : Option Reader :=
  if isGap c then some r
  else match r.mode, r.stack with
    | .after, .array items :: rest =>
      if c = ',' then some ⟨.array items :: rest, .value⟩ else Reader.close? r.stack c
    | .after, .object members key :: rest =>
      if c = ',' then some ⟨.object members key :: rest, .key⟩ else Reader.close? r.stack c
    | _, _ => none

/-- The closing quote. -/
def Reader.endString? (stack : List Frame) (isKey : Bool) (units : List Nat) : Option Reader :=
  let s := String.ofList (Text.joinUnits units.reverse)
  match isKey, stack with
  | true, .object members _ :: rest => some ⟨.object members s :: rest, .colon⟩
  | true, _ => none
  | false, stack => some (.accept (.str s) stack)

def Reader.step? (r : Reader) (c : Char) : Option Reader :=
  match r.mode with
  | .value => if isGap c then some r else Reader.open? r.stack c
  | .firstItem => if isGap c then some r else if c = ']' then Reader.close? r.stack c else Reader.open? r.stack c
  | .firstKey =>
    if isGap c then some r
    else if c = '"' then some { r with mode := .string true [] }
    else Reader.close? r.stack c
  | .key => if isGap c then some r else if c = '"' then some { r with mode := .string true [] } else none
  | .colon => if isGap c then some r else if c = ':' then some { r with mode := .value } else none
  | .after => r.settled? c
  | .finished _ => r.settled? c
  | .string isKey units =>
    if c = '"' then Reader.endString? r.stack isKey units
    else if c = '\\' then some { r with mode := .escape isKey units }
    else if c.toNat < 0x20 then none
    else some { r with mode := .string isKey (c.toNat :: units) }
  | .escape isKey units =>
    if c = 'u' then some { r with mode := .unicode isKey units 4 0 }
    else (unescape? c).map fun u => { r with mode := .string isKey (u :: units) }
  | .unicode isKey units missing bits =>
    (Number.Numeral.letterValue? c).map fun d =>
      let bits := bits * 16 + d
      if missing ≤ 1 then { r with mode := .string isKey (bits :: units) }
      else { r with mode := .unicode isKey units (missing - 1) bits }
  | .number l chars =>
    match l.next? c with
    | some l => some { r with mode := .number l (c :: chars) }
    | none => if l.complete then (Reader.accept (numberOf chars.reverse) r.stack).settled? c else none
  | .word rest v =>
    match rest with
    | [] => none
    | [x] => if c = x then some (.accept v r.stack) else none
    | x :: xs => if c = x then some { r with mode := .word xs v } else none

def Reader.run? (r : Reader) (cs : List Char) : Option Reader := cs.foldlM Reader.step? r

/-- The value at the end of a text; only a number may still be open. -/
def Reader.result? (r : Reader) : Option Json :=
  match r.mode, r.stack with
  | .finished v, _ => some v
  | .number l chars, [] => if l.complete then some (numberOf chars.reverse) else none
  | _, _ => none

/-- The reason given for a text that is no JSON text. -/
def readError : String := "<json error>"

def read? (s : String) : Option Json := (Reader.start.run? s.toList).bind Reader.result?

end CheckpointRelay.Json
