import DriveHealth.Database.Outline
import DriveHealth.Database.Store
/-!
Reading a text into a database. Every good entry is added, whatever stands around it; the reading is
good if nothing was out of place and every entry was good.
-/

namespace DriveHealth.Database

structure Reading where
  database : Database
  messages : List Message := []
  isGood : Bool := true
  /-- Set if reading had to be given up. -/
  fault : Option Fault := none
  deriving DecidableEq, Repr

def location (path : Text) (line : Nat) : Text := path ++ "(" ++ decimal line ++ ")"

def errorAt (path : Text) (line : Nat) (text : Text) : Message :=
  ⟨.error, location path line ++ ": " ++ text⟩

def Reading.after (messages : List Message) (isGood : Bool) (r : Reading) : Reading :=
  { r with messages := messages ++ r.messages, isGood := isGood && r.isGood }

def addItems (path : Text) (db : Database) : List Item → Reading
  | [] => { database := db }
  | .lexical p :: r => (addItems path db r).after [errorAt path p.line p.value.text] true
  | .expected p :: r =>
    (addItems path db r).after
      [errorAt path p.line ("Syntax error, '" ++ [p.value, '\''] ++ " expected")] false
  | .stray :: r => (addItems path db r).after [] false
  | .entry s :: r =>
    let conversion := s.value.convert
    let messages := conversion.messages (location path s.line)
    if conversion.isGood then
      match db.addCustom conversion.entry with
      | .ok db => (addItems path db r).after messages true
      | .error fault => { database := db, messages, isGood := false, fault := some fault }
    else (addItems path db r).after messages false

def read (db : Database) (path text : Text) : Reading :=
  let r := addItems path db (outlineOf text)
  if r.fault.isSome then r
  else
    let count := r.database.size - db.size
    let summary : Message :=
      ⟨.info, path ++ ": " ++ decimal count ++ " entries read" ++
        onlyIf (r.isGood = false) " (with errors)"⟩
    { r with messages := r.messages ++ [summary] }

end DriveHealth.Database
