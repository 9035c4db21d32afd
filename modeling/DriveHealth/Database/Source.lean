import DriveHealth.Database.Builtin
import DriveHealth.Database.Reading
import DriveHealth.File.Basic
/-!
Where a drive database comes from: the installed file or else the builtin entries, a file, or a file in
front of the builtin entries.
-/

namespace DriveHealth.Database

def installedDirectory : Text := "share/smartattr"

def installedPath : Text := installedDirectory ++ "/drivedb.h"

inductive Source where
  | installed
  | file (path : Text)
  | added (path : Text)
  deriving DecidableEq, Repr

/-- A plus sign in front of a path adds the file to the builtin entries. -/
def Source.ofArgument : Option Text → Source
  | none => installed
  | some ('+' :: path) => added path
  | some path => file path

def addFile (db : Database) (fs : FileSystem) (path : Text) : Reading :=
  match fs.text? path with
  | some text => db.read path text
  | none =>
    { database := db
      messages := [⟨.error, path ++ ": cannot open drive database file"⟩]
      isGood := false }

/-- Puts the builtin entries behind those of a good reading. -/
def Reading.withBuiltin (r : Reading) : Reading :=
  if r.isGood then { r with database := r.database.addBuiltin Builtin.entries } else r

def addSource (db : Database) (fs : FileSystem) : Source → Reading
  | .installed =>
    if fs.holds installedPath then db.addFile fs installedPath
    else Reading.withBuiltin { database := db }
  | .file path => db.addFile fs path
  | .added path => (db.addFile fs path).withBuiltin

end DriveHealth.Database
