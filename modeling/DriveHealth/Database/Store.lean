import DriveHealth.Database.Entry
/-!
The drive database: entries from files before builtin ones. Entries are only ever added at the end of
their part, and no entry from a file comes behind a builtin one.
-/

namespace DriveHealth

structure Database where
  custom : List Entry := []
  builtin : List Entry := []
  deriving DecidableEq, Repr

namespace Database

inductive Fault where
  | customAfterBuiltin
  deriving DecidableEq, Repr

def Fault.message : Fault → Text
  | customAfterBuiltin => "drive_database: custom entry after builtin entries"

/-- All entries in the order in which they are searched. -/
def entries (db : Database) : List Entry := db.custom ++ db.builtin

def size (db : Database) : Nat := db.custom.length + db.builtin.length

def entry? (db : Database) (i : Nat) : Option Entry := db.entries[i]?

def addCustom (db : Database) (e : Entry) : Except Fault Database :=
  if db.builtin.isEmpty then .ok { db with custom := db.custom ++ [e] }
  else .error .customAfterBuiltin

def addBuiltin (db : Database) (es : List Entry) : Database :=
  { db with builtin := db.builtin ++ es }

end Database

end DriveHealth
