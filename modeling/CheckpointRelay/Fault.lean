/-
  CheckpointRelay.Fault — everything that can go wrong, as causes.

  A `Fault` says what failed; `name`, `message`, `code?`, `details?` and `cause?` are its
  report. `Thrown` is what a connection may fail with: an error of its own (`Raised`) or any
  value at all, which becomes an error by its plain text (`Fault.ofThrown?`).
-/

import CheckpointRelay.Files.Errno
import CheckpointRelay.Issue
import CheckpointRelay.Json.Plain
import CheckpointRelay.Text.Quoted

namespace CheckpointRelay

open Number (Binary64)

/-- An error object from outside. -/
structure Raised where
  name : String
  message : String
  code : Option Json
  stack : Option String

inductive Thrown where
  | error (e : Raised)
  | value (v : Json)

inductive Fault where
  | domain (message code : String) (details : Option Json)
  | validation (message : String) (field : Option String)
  | config (issues : List String)
  | connection (reason code address : String) (cause : Option String)
  | timeout (limit : Binary64) (address : String)
  | raised (e : Raised)
  | file (errno : Files.Errno) (operation : Files.Operation) (path : String)
  /-- A path that no file system can hold. -/
  | nulInPath (path : String)
  /-- A value without plain text was to be written. -/
  | noPlainText
  /-- A member of `null`, or of nothing, was asked for. -/
  | memberOfNull (key : String)
  | memberOfNothing (key : String)
  /-- All members of a value that has none were asked for. -/
  | noMembers
  /-- A member was looked for in a value that can have none. -/
  | notSearchable (key value : String)
  /-- Something was called that is no function. -/
  | notCallable (expression : String)
  /-- The date of an instant that has none was to be written. -/
  | timeOutOfRange

namespace Fault

/-! ## (1) The report -/

def name : Fault → String
  | .domain .. => "DomainError"
  | .validation .. => "ValidationError"
  | .config _ => "ConfigError"
  | .connection .. => "ConnectionError"
  | .timeout .. => "RequestTimeoutError"
  | .raised e => e.name
  | .file .. => "Error"
  | .nulInPath _ => "TypeError"
  | .noPlainText => "TypeError"
  | .memberOfNull _ => "TypeError"
  | .memberOfNothing _ => "TypeError"
  | .noMembers => "TypeError"
  | .notSearchable .. => "TypeError"
  | .notCallable _ => "TypeError"
  | .timeOutOfRange => "RangeError"

def message : Fault → String
  | .domain message _ _ => message
  | .validation message _ => message
  | .config issues => "Invalid configuration: " ++ Text.join "; " issues
  | .connection reason _ _ _ => "Connection error: " ++ reason
  | .timeout limit _ => "Request timeout after " ++ limit.text ++ "ms"
  | .raised e => e.message
  | .file errno operation path => errno.code ++ ": " ++ errno.description ++ ", " ++ operation.phrase path
  | .nulInPath path =>
    "The argument 'path' must be a string, Uint8Array, or URL without null bytes. Received "
      ++ Text.Quoted.format path
  | .noPlainText => "Cannot convert object to primitive value"
  | .memberOfNull key => "Cannot read properties of null (reading '" ++ key ++ "')"
  | .memberOfNothing key => "Cannot read properties of undefined (reading '" ++ key ++ "')"
  | .noMembers => "Cannot convert undefined or null to object"
  | .notSearchable key value => "Cannot use 'in' operator to search for '" ++ key ++ "' in " ++ value
  | .notCallable expression => expression ++ " is not a function"
  | .timeOutOfRange => "Invalid time value"

/-- Only texts and numbers are codes. -/
def codeOf? : Json → Option Json
  | .str s => some (.str s)
  | .num x => some (.num x)
  | _ => none

def code? : Fault → Option Json
  | .domain _ code _ => some (.str code)
  | .validation .. => some (.str "VALIDATION_ERROR")
  | .config _ => some (.str "CONFIG_ERROR")
  | .connection _ code _ _ => some (.str code)
  | .timeout .. => some (.str "REQUEST_TIMEOUT")
  | .raised e => e.code.bind codeOf?
  | .file errno _ _ => some (.str errno.code)
  | .nulInPath _ => some (.str "ERR_INVALID_ARG_VALUE")
  | _ => none

def details? : Fault → Option Json
  | .domain _ _ details => details
  | .validation _ field => field.map fun f => .obj [("field", .str f)]
  | .config issues => some (.obj [("issues", .ofStrings issues)])
  | .connection _ _ address _ => some (.obj [("address", .str address)])
  | .timeout limit address => some (.obj [("timeoutMs", .num limit), ("address", .str address)])
  | _ => none

def issues? : Fault → Option (List String)
  | .config issues => some issues
  | _ => none

def cause? : Fault → Option String
  | .connection _ _ _ cause => cause
  | _ => none

def stack? : Fault → Option String
  | .raised e => e.stack
  | _ => none

/-! ## (2) Where faults come from -/

def ofIssues (is : List Issue) : Fault := .config (is.map Issue.text)

/-- A thrown value becomes an error by its plain text, if it has one. -/
def ofThrown? : Thrown → Option Fault
  | .error e => some (.raised e)
  | .value v => v.plain?.map fun s => .raised ⟨"Error", s, none, none⟩

/-- What becomes of something that gives a value or throws. -/
def caught? {α : Type} : Except Thrown α → Option (Except Fault α)
  | .ok a => some (.ok a)
  | .error t => (ofThrown? t).map .error

/-- The code of a connection error: the socket's own code when that is a text. -/
def socketCode : Option Json → String
  | some (.str s) => s
  | _ => "CONNECTION_ERROR"

/-- The plain text of a value, which a message needs. -/
def plainText (v : Json) : Except Fault String :=
  match v.plain? with
  | some s => .ok s
  | none => .error .noPlainText

/-- The plain text of a member; a missing one has a text as well. -/
def memberText (v : Json) (key : String) : Except Fault String :=
  match v.field? key with
  | some m => plainText m
  | none => .ok "undefined"

/-- The connection error that a socket's failure becomes. Values that are not objects hold
    neither code nor message, and none can be made of them. -/
def ofSocket (address : String) : Thrown → Except Fault Fault
  | .error e => .ok (.connection e.message (socketCode e.code) address (some e.message))
  | .value v => do
    unless v.isContainer do throw (.notSearchable "code" (← plainText v))
    return .connection (← memberText v "message") (socketCode (v.field? "code")) address none

end Fault

end CheckpointRelay
