/-
  CheckpointRelay.Environment — the environment variables that the program reads.

  `exported` is what another process sees of a value: a NUL ends it.
-/

namespace CheckpointRelay

structure Environment where
  host : Option String := none
  port : Option String := none
  timeoutMs : Option String := none
  maxResponseBytes : Option String := none
  logLevel : Option String := none
  scriptAction : Option String := none
  imageDir : Option String := none

namespace Environment

def hostName : String := "COORDINATOR_HOST"
def portName : String := "COORDINATOR_PORT"
def timeoutName : String := "COORDINATOR_TIMEOUT_MS"
def maxBytesName : String := "COORDINATOR_MAX_RESPONSE_BYTES"
def logLevelName : String := "LOG_LEVEL"
def scriptActionName : String := "CRTOOLS_SCRIPT_ACTION"
def imageDirName : String := "CRTOOLS_IMAGE_DIR"

def names : List String :=
  [hostName, portName, timeoutName, maxBytesName, logLevelName, scriptActionName, imageDirName]

/-- The environment of a look-up by name. -/
def ofLookup (get : String → Option String) : Environment where
  host := get hostName
  port := get portName
  timeoutMs := get timeoutName
  maxResponseBytes := get maxBytesName
  logLevel := get logLevelName
  scriptAction := get scriptActionName
  imageDir := get imageDirName

def exportedValue (s : String) : String := String.ofList (s.toList.takeWhile fun c => c.toNat ≠ 0)

def exported (e : Environment) : Environment where
  host := e.host.map exportedValue
  port := e.port.map exportedValue
  timeoutMs := e.timeoutMs.map exportedValue
  maxResponseBytes := e.maxResponseBytes.map exportedValue
  logLevel := e.logLevel.map exportedValue
  scriptAction := e.scriptAction.map exportedValue
  imageDir := e.imageDir.map exportedValue

end Environment

end CheckpointRelay
