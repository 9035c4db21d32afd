import DriveHealth.Database.Entry
import DriveHealth.Identify.Page
import DriveHealth.Identify.Version
/-!
What is known about a drive as text: its family, what it says about itself, and a warning from the
database.
-/

namespace DriveHealth

/-- A drive, known by its page or only by its model, with what the database says about it. -/
structure DriveInfo where
  page : Option IdentifyPage
  model : Text
  entry : Entry
  isMatch : Bool
  deriving DecidableEq, Repr

namespace DriveInfo

/-- A text that may be empty. -/
def shown (t : Text) : Text := if t.isEmpty then "[No Information Found]" else t

def identity (d : DriveInfo) : Text :=
  match d.page with
  | some p =>
    "Device Model:     " ++ shown (IdentifyPage.shownText p.model) ++ "\n" ++
      "Serial Number:    " ++ shown (IdentifyPage.shownText p.serial) ++ "\n" ++
      "Firmware Version: " ++ shown (IdentifyPage.shownText p.firmware) ++ "\n"
  | none => "Device Model:     " ++ shown d.model ++ "\n"

def version (d : DriveInfo) : Text :=
  match d.page with
  | some p =>
    "ATA Version is:   " ++ shown (AtaVersion.text p.majorVersion p.minorVersion) ++ "\n"
  | none => []

/-- Family and warning come only from an entry that matches. -/
def text (d : DriveInfo) : Text :=
  onlyIf (d.isMatch && !d.entry.family.isEmpty) ("Model Family:     " ++ d.entry.family ++ "\n") ++
    d.identity ++
    "Device is:        " ++
    (if d.isMatch then "In drive database [for details use: -P show]\n".toList
      else "Not in drive database [for details use: -P showall]\n") ++
    d.version ++
    onlyIf (d.isMatch && !d.entry.warning.isEmpty) ("\n==> WARNING: " ++ d.entry.warning ++ "\n\n")

end DriveInfo

end DriveHealth
