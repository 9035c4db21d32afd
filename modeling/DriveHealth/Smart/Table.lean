import DriveHealth.Attribute.Preset
import DriveHealth.Attribute.RawText
import DriveHealth.Smart.Page
/-!
The attribute table of a page as text: a title, a line with the names of the columns, one line per
record and, in the brief style, a legend for the flags. A page without records has no table.
-/

namespace DriveHealth

/-- How to write an attribute table. -/
structure TableStyle where
  isBrief : Bool := false
  hexIds : Bool := false
  hexValues : Bool := false
  deriving DecidableEq, Repr

namespace TableStyle

/-- Bit 0 for brief, bit 1 and 2 for hexadecimal ids and values. -/
def ofBits (bits : UInt8) : TableStyle where
  isBrief := bits &&& 1 ≠ 0
  hexIds := bits &&& 2 ≠ 0
  hexValues := bits &&& 4 ≠ 0

def idText (style : TableStyle) (id : UInt8) : Text :=
  if style.hexIds then hexFill 2 id.toNat else padLeft 3 (decimal id.toNat)

def valueText (style : TableStyle) (value : UInt8) : Text :=
  if style.hexValues then hexFill 2 value.toNat else decimalFill 3 value.toNat

/-- Stands in place of a value that has no meaning. -/
def hiddenText (style : TableStyle) : Text := if style.hexValues then "----" else "---"

/-- Ids have three columns, or four in hexadecimal. -/
def idTitle (style : TableStyle) : Text := "ID#" ++ onlyIf style.hexIds " "

def header (style : TableStyle) : Text :=
  style.idTitle ++
    if style.isBrief then
      " ATTRIBUTE_NAME          FLAGS    VALUE WORST RSRVD  RAW_VALUE\n".toList
    else
      " ATTRIBUTE_NAME          FLAG     VALUE WORST RSRVD  TYPE      UPDATED  RAW_VALUE\n"

def flagLetters (r : AttributeRecord) : Text :=
  [if r.isPrefailure then 'P' else '-', if r.isOnline then 'O' else '-',
   if r.isPerformance then 'S' else '-', if r.isErrorRate then 'R' else '-',
   if r.isEventCount then 'C' else '-', if r.isSelfPreserving then 'K' else '-',
   if r.hasOtherFlags then '+' else ' ']

def valueColumns (style : TableStyle) (hidden : Rule.Hidden) (r : AttributeRecord) : Text :=
  let current := if hidden.current then style.hiddenText else style.valueText r.current
  let worst := if hidden.worst then style.hiddenText else style.valueText r.worst
  padRight 4 current ++ "  " ++ padRight 4 worst ++ "  " ++ padRight 4 (style.valueText r.reserved) ++
    "   "

def line (style : TableStyle) (preset : Preset) (r : AttributeRecord) : Text :=
  style.idText r.id ++ " " ++ padRight 24 preset.name ++
    (if style.isBrief then
      flagLetters r ++ "  " ++ style.valueColumns preset.rule.hidden r
    else
      hexFill 4 r.flags.toNat ++ "   " ++ style.valueColumns preset.rule.hidden r ++
        padRight 10 (if r.isPrefailure then "Pre-fail" else "Old_age") ++
        padRight 9 (if r.isOnline then "Always" else "Offline")) ++
    r.rawText preset.rule ++ "\n"

/-- The legend hangs below the flags. -/
def legend (style : TableStyle) : Text :=
  let indent := padRight (if style.hexIds then 29 else 28) []
  indent ++ "||||||_ K auto-keep\n" ++
    indent ++ "|||||__ C event count\n" ++
    indent ++ "||||___ R error rate\n" ++
    indent ++ "|||____ S speed/performance\n" ++
    indent ++ "||_____ O updated online\n" ++
    indent ++ "|______ P prefailure warning\n"

end TableStyle

namespace SmartPage

def table (p : SmartPage) (presets : Presets) (style : TableStyle) : Text :=
  match p.records with
  | [] => []
  | records =>
    "SMART Attributes Data Structure revision number: " ++ decimal p.revision.toNat ++ "\n" ++
      "Vendor Specific SMART Attributes:\n" ++ style.header ++
      (records.flatMap fun r => style.line (presets.ofId r.id) r) ++
      onlyIf style.isBrief style.legend ++ "\n"

end SmartPage

end DriveHealth
