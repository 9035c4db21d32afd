import DriveHealth.Text.Basic
/-!
Files as the library sees them: a file system tells for every path what is there to read.
-/

namespace DriveHealth

/-- What a path names. A directory can be opened but not read as data. -/
inductive Node where
  | file (content : Text)
  | directory
  deriving DecidableEq, Repr

inductive OpenError where
  | missing
  | notDirectory
  | nameTooLong
  | denied
  deriving DecidableEq, Repr

def OpenError.text : OpenError → Text
  | missing => "No such file or directory"
  | notDirectory => "Not a directory"
  | nameTooLong => "File name too long"
  | denied => "Permission denied"

abbrev FileSystem := Text → Except OpenError Node

namespace FileSystem

/-- Whether there is something at a path, readable or not. -/
def holds (fs : FileSystem) (path : Text) : Bool :=
  match fs path with
  | .ok _ | .error .denied => true
  | .error _ => false

inductive DataError where
  | notOpened (error : OpenError)
  | notRead
  deriving DecidableEq, Repr

def DataError.text : DataError → Text
  | notOpened e => e.text
  | notRead => "read error"

/-- The first bytes of a data file, at most `limit`. -/
def data (fs : FileSystem) (path : Text) (limit : Nat) : Except DataError (List UInt8) :=
  match fs path with
  | .ok (.file content) => .ok (bytesOfText (content.take limit))
  | .ok .directory => .error .notRead
  | .error e => .error (.notOpened e)

/-- The content of a text file; a directory reads as an empty text. -/
def text? (fs : FileSystem) (path : Text) : Option Text :=
  match fs path with
  | .ok (.file content) => some content
  | .ok .directory => some []
  | .error _ => none

end FileSystem

end DriveHealth
