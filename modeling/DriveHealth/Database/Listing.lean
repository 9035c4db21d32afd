import DriveHealth.Database.Lookup
/-!
Listings of database entries for readers, with errors that are found in them.
-/

namespace DriveHealth

namespace Listing

inductive Line where
  /-- A title and a value; a line that goes on has no title. -/
  | value (title text : Text)
  | badExpression
  | longName
  | unknownFormat
  deriving DecidableEq, Repr

namespace Line

def titleWidth : Nat := 19

/-- The longest name that fits into an attribute table. -/
def nameWidth : Nat := 23

def isError : Line → Bool
  | value _ _ => false
  | _ => true

def row (title text : Text) : Text := padRight titleWidth title ++ " " ++ text ++ "\n"

def text : Line → Text
  | value title text => row title text
  | badExpression => row [] "Error: invalid or missing regular expression"
  | longName =>
    padLeft (titleWidth + 6 + nameWidth) "Error: Attribute name too long ------^" ++ "\n"
  | unknownFormat => row [] "Error: Unknown raw format ------^"

end Line

def text (lines : List Line) : Text := lines.flatMap Line.text

def errors (lines : List Line) : Nat := lines.countP Line.isError

def orElse (t other : Text) : Text := if t.isEmpty then other else t

end Listing

open Listing Line

/-- The presets of an entry in the order of the ids. -/
def Presets.byId (p : Presets) : List (Nat × Preset) :=
  (List.range' 1 255).filterMap fun id => (p.get? (decimal id)).map fun preset => (id, preset)

def Preset.lines (title : Text) (id : Nat) (p : Preset) : List Line :=
  [value title (decimalFill 3 id ++ " " ++ padRight nameWidth (orElse p.name "-") ++ " " ++ p.rule.text)] ++
    (if nameWidth < p.name.length then [longName] else []) ++
    (if p.rule.isKnown then [] else [unknownFormat])

def Presets.lines (p : Presets) : List Line :=
  match p.byId with
  | [] => [value "ATTRIBUTE OPTIONS:" "None preset; no -v options are required."]
  | (id, first) :: r =>
    first.lines "ATTRIBUTE OPTIONS:" id ++ r.flatMap fun (id, preset) => preset.lines [] id

namespace Entry

def driveLines (e : Entry) : List Line := value "MODEL FAMILY:" e.family :: e.presets.lines

def usbLines (e : Entry) : List Line :=
  let names := Family.usbNames e.family
  [value "USB Device:" (orElse names.device "[unknown]"),
   value "USB Bridge:" (orElse names.bridge "[unknown]"),
   value "USB Type" (orElse e.usbType "[unsupported]")]

def lines (e : Entry) : List Line :=
  let isUsb := Family.isUsb e.family
  [value (if isUsb then "USB Vendor:Product:" else "MODEL REGEXP:") e.model.source] ++
    (if e.model.isEmpty then [badExpression] else []) ++
    [value (if isUsb then "USB bcdDevice:" else "FIRMWARE REGEXP:") (orElse e.firmware.source ".*")] ++
    (if isUsb then e.usbLines else e.driveLines) ++
    (if e.warning.isEmpty then [] else [value "WARNINGS:" e.warning])

def listing (e : Entry) : Text := Listing.text e.lines

def errors (e : Entry) : Nat := Listing.errors e.lines

def listings (es : List Entry) : Text := es.flatMap fun e => e.listing ++ "\n".toList

end Entry

namespace Database

def errors (db : Database) : Nat := Listing.errors (db.entries.flatMap Entry.lines)

/-- All entries, their number, and the number of errors if there are any. -/
def listing (db : Database) : Text :=
  Entry.listings db.entries ++
    "Total number of entries  :" ++ padLeft 5 (decimal db.size) ++ "\n" ++
    "Entries read from file(s):" ++ padLeft 5 (decimal db.custom.length) ++ "\n\n" ++
    onlyIf (0 < db.errors)
      ("Found " ++ decimal db.errors ++ " syntax error(s) in database.\n")

/-- All entries that describe a model, the first one in front. -/
def listingFor (db : Database) (model : Text) : Text :=
  match db.matching model with
  | [] =>
    "No presets are defined for this drive.  Its identity string:\n" ++ "MODEL:    " ++ model ++ "\n" ++
      "does not match any of the known regular expressions.\n" ++
      "Use -P showall to list all known regular expressions.\n"
  | first :: more =>
    "Drive found in drive database.  Drive identity string:\n" ++ row "MODEL:" model ++
      "match drive database entry:\n" ++ first.listing ++ "\n" ++
      onlyIf (more ≠ []) "and match these additional entries:\n" ++ Entry.listings more

end Database

end DriveHealth
