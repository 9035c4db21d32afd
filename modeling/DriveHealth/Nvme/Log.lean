import DriveHealth.ByteOrder
import DriveHealth.Message
import DriveHealth.Text.Number
/-!
The health log of an NVMe drive, 512 bytes, all numbers little endian.
-/

namespace DriveHealth

structure NvmeLog where
  criticalWarning : UInt8
  /-- In kelvin; zero if it is not reported. -/
  temperature : UInt16
  spare : UInt8
  spareThreshold : UInt8
  percentUsed : UInt8
  /-- In units of 512000 bytes. -/
  dataRead : Nat
  /-- In units of 512000 bytes. -/
  dataWritten : Nat
  readCommands : Nat
  writeCommands : Nat
  busyTime : Nat
  powerCycles : Nat
  powerOnHours : Nat
  unsafeShutdowns : Nat
  mediaErrors : Nat
  errorLogEntries : Nat
  warningTime : UInt32
  criticalTime : UInt32
  sensors : Vector UInt16 8
  firstTransitions : UInt32
  secondTransitions : UInt32
  firstTime : UInt32
  secondTime : UInt32
  deriving DecidableEq, Repr

namespace NvmeLog

def size : Nat := 512

def counterAt (bytes : List UInt8) (offset : Nat) : Nat := littleEndian (bytesFrom bytes offset 16)

def ofBytes (bytes : List UInt8) : NvmeLog where
  criticalWarning := byteAt bytes 0
  temperature := u16At bytes 1
  spare := byteAt bytes 3
  spareThreshold := byteAt bytes 4
  percentUsed := byteAt bytes 5
  dataRead := counterAt bytes 32
  dataWritten := counterAt bytes 48
  readCommands := counterAt bytes 64
  writeCommands := counterAt bytes 80
  busyTime := counterAt bytes 96
  powerCycles := counterAt bytes 112
  powerOnHours := counterAt bytes 128
  unsafeShutdowns := counterAt bytes 144
  mediaErrors := counterAt bytes 160
  errorLogEntries := counterAt bytes 176
  warningTime := u32At bytes 192
  criticalTime := u32At bytes 196
  sensors := Vector.ofFn fun i => u16At bytes (200 + 2 * i)
  firstTransitions := u32At bytes 216
  secondTransitions := u32At bytes 220
  firstTime := u32At bytes 224
  secondTime := u32At bytes 228

structure TooShort where
  size : Nat
  deriving DecidableEq, Repr

def TooShort.message (e : TooShort) : Message :=
  ⟨.error, "NVMe SMART/Health log: " ++ decimal e.size ++ " bytes, at least " ++
    decimal NvmeLog.size ++ " bytes required"⟩

def read (buffer : List UInt8) : Except TooShort NvmeLog :=
  if buffer.length < size then .error ⟨buffer.length⟩ else .ok (ofBytes buffer)

end NvmeLog

end DriveHealth
