/-
  CheckpointRelay.Files.Errno — the reasons for which the file system refuses.
-/

namespace CheckpointRelay.Files

inductive Errno where
  | noEntry
  | notDirectory
  | tooManyLinks
  | isDirectory
  | noDevice
  | nameTooLong
  deriving DecidableEq

def Errno.code : Errno → String
  | .noEntry => "ENOENT"
  | .notDirectory => "ENOTDIR"
  | .tooManyLinks => "ELOOP"
  | .isDirectory => "EISDIR"
  | .noDevice => "ENXIO"
  | .nameTooLong => "ENAMETOOLONG"

def Errno.description : Errno → String
  | .noEntry => "no such file or directory"
  | .notDirectory => "not a directory"
  | .tooManyLinks => "too many symbolic links encountered"
  | .isDirectory => "illegal operation on a directory"
  | .noDevice => "no such device or address"
  | .nameTooLong => "name too long"

/-- The operation that was refused. -/
inductive Operation where
  | stat | lstat | openFile | readFile
  deriving DecidableEq

/-- Its name in messages; `readFile` acts on an open file and names no path. -/
def Operation.phrase (path : String) : Operation → String
  | .stat => "stat '" ++ path ++ "'"
  | .lstat => "lstat '" ++ path ++ "'"
  | .openFile => "open '" ++ path ++ "'"
  | .readFile => "read"

end CheckpointRelay.Files
