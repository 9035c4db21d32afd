import DriveHealth.Text.Scan
/-!
Family names of database entries. A few names mark entries that describe no drive: placeholders,
adapters on the USB and the entry with the presets of all drives.
-/

namespace DriveHealth.Family

/-- The family of the entry that holds the presets of all drives. -/
def default : Text := "DEFAULT"

def isUsb (family : Text) : Bool := startsWith family "USB:"

def isPlaceholder (family : Text) : Bool := startsWith family "$"

def isDrive (family : Text) : Bool := !isPlaceholder family && !isUsb family && family ≠ default

structure UsbNames where
  device : Text
  bridge : Text
  deriving DecidableEq, Repr

/-- `USB: DEVICE; BRIDGE`, with marks around the device and in front of the bridge. -/
def namesFormat : ScanFormat :=
  ScanFormat.literal "USB:" ++ [.blanks, .mark, .upTo ';', .mark, .character ';', .blanks, .mark]

/-- The same without a device. -/
def bridgeFormat : ScanFormat := ScanFormat.literal "USB:" ++ [.blanks, .character ';', .blanks, .mark]

/-- The two names of an adapter. A name whose mark is missing is empty. -/
def usbNames (family : Text) : UsbNames :=
  let behind (mark : Option Nat) : Text := (mark.map family.drop).getD []
  match namesFormat.marks family with
  | start :: stop :: more => ⟨(family.drop start).take (stop - start), behind more.head?⟩
  | _ => ⟨[], behind (bridgeFormat.marks family).head?⟩

end DriveHealth.Family
