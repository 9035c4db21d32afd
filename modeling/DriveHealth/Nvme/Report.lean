import DriveHealth.Nvme.Log
import DriveHealth.Text.Quantity
/-!
The health log as text. Optional fields that are zero are left out unless everything is asked for.
-/

namespace DriveHealth.NvmeLog

/-- A counter, with its capacity if the counter has a unit in bytes. Beyond 64 bits there are no
separators and no capacity. -/
def counterText (bytesPerUnit n : Nat) : Text :=
  if n < 0x10000000000000000 then
    grouped "," n ++
      onlyIf (n ≠ 0 ∧ bytesPerUnit ≠ 0 ∧ n < 0xffffffffffffffff / bytesPerUnit)
        (" [" ++ capacity "." (n * bytesPerUnit) ++ "]")
  else decimal n

/-- How many bits of a number are exact if it does not fit into 64 of them. -/
def wideNumberBits : Nat := 128

def counterFieldSize : Nat := 64

/-- Writes a capacity in brackets behind the text of a field. It leaves room for the closing bracket. -/
def appendCapacity? (field : Buffer) (n : UInt64) : Option Buffer := do
  let i := field.text.length
  let field ← field.putAll? i " ["
  let field ← field.printCapacity? (i + 2) (counterFieldSize - (i + 2) - 1) "." n
  field.putAll? field.text.length ("]" ++ [nul])

/-- Writes a counter, given by its halves, into a field. The digits leave room for a capacity. -/
def printCounter? (field : Buffer) (bytesPerUnit : UInt32) (high low : UInt64) : Option Buffer :=
  if high = 0 then do
    let field ← field.printGrouped? (counterFieldSize - 16) "," low
    if low ≠ 0 ∧ bytesPerUnit ≠ 0 ∧ low < 0xffffffffffffffff / bytesPerUnit.toUInt64 then
      appendCapacity? field (low * bytesPerUnit.toUInt64)
    else some field
  else if wideNumberBits < 128 then do
    let field ← field.put? 0 '~'
    field.printWide? 1 (counterFieldSize - 1) high low
  else field.printWide? 0 counterFieldSize high low

/-- Writes the counter that stands in 16 bytes of a log. -/
def printCounterAt? (field : Buffer) (bytesPerUnit : UInt32) (bytes : List UInt8) (offset : Nat) :
    Option Buffer :=
  printCounter? field bytesPerUnit (u64At bytes (offset + 8)) (u64At bytes offset)

/-- A temperature in kelvin, written in degrees Celsius. -/
def temperatureText (kelvin : UInt16) : Text :=
  if kelvin = 0 then "-" else signedDecimal (kelvin.toNat - 273) ++ " Celsius"

def dataUnit : Nat := 1000 * 512

/-- A line that is left out if its value is not set. -/
def optionalLine (showAll isSet : Bool) (title value : Text) : Text :=
  onlyIf (showAll || isSet) (title ++ value ++ "\n")

def sensorLine (showAll : Bool) (number : Nat) (kelvin : UInt16) : Text :=
  optionalLine showAll (kelvin ≠ 0) ("Temperature Sensor " ++ decimal number ++ ":               ")
    (temperatureText kelvin)

def timeLine (showAll : Bool) (title : Text) (time : UInt32) : Text :=
  optionalLine showAll (time ≠ 0) title (decimal time.toNat)

def report (log : NvmeLog) (showAll : Bool) : Text :=
  "SMART/Health Information (NVMe Log 0x02)\n" ++
    "Critical Warning:                   " ++ hexFill 2 log.criticalWarning.toNat ++ "\n" ++
    "Temperature:                        " ++ temperatureText log.temperature ++ "\n" ++
    "Available Spare:                    " ++ decimal log.spare.toNat ++ "%\n" ++
    "Available Spare Threshold:          " ++ decimal log.spareThreshold.toNat ++ "%\n" ++
    "Percentage Used:                    " ++ decimal log.percentUsed.toNat ++ "%\n" ++
    "Data Units Read:                    " ++ counterText dataUnit log.dataRead ++ "\n" ++
    "Data Units Written:                 " ++ counterText dataUnit log.dataWritten ++ "\n" ++
    "Host Read Commands:                 " ++ counterText 0 log.readCommands ++ "\n" ++
    "Host Write Commands:                " ++ counterText 0 log.writeCommands ++ "\n" ++
    "Controller Busy Time:               " ++ counterText 0 log.busyTime ++ "\n" ++
    "Power Cycles:                       " ++ counterText 0 log.powerCycles ++ "\n" ++
    "Power On Hours:                     " ++ counterText 0 log.powerOnHours ++ "\n" ++
    "Unsafe Shutdowns:                   " ++ counterText 0 log.unsafeShutdowns ++ "\n" ++
    "Media and Data Integrity Errors:    " ++ counterText 0 log.mediaErrors ++ "\n" ++
    "Error Information Log Entries:      " ++ counterText 0 log.errorLogEntries ++ "\n" ++
    timeLine showAll "Warning  Comp. Temperature Time:    " log.warningTime ++
    timeLine showAll "Critical Comp. Temperature Time:    " log.criticalTime ++
    (log.sensors.toList.zipIdx 1).flatMap (fun (kelvin, i) => sensorLine showAll i kelvin) ++
    timeLine showAll "Thermal Temp. 1 Transition Count:   " log.firstTransitions ++
    timeLine showAll "Thermal Temp. 2 Transition Count:   " log.secondTransitions ++
    timeLine showAll "Thermal Temp. 1 Total Time:         " log.firstTime ++
    timeLine showAll "Thermal Temp. 2 Total Time:         " log.secondTime ++ "\n"

end DriveHealth.NvmeLog
