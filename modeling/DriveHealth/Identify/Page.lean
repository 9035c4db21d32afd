import DriveHealth.ByteOrder
import DriveHealth.Message
import DriveHealth.Text.Buffer
import DriveHealth.Text.Number
/-!
The page with which a drive identifies itself, 512 bytes: serial number, firmware, model and the version
of the ATA standard. Texts are stored with the bytes of each word exchanged.
-/

namespace DriveHealth

structure IdentifyPage where
  serial : List UInt8
  firmware : List UInt8
  model : List UInt8
  majorVersion : UInt16
  minorVersion : UInt16
  deriving DecidableEq, Repr

namespace IdentifyPage

/-- Exchanges neighbouring bytes; the last byte of an odd number is dropped. -/
def exchange : List UInt8 → List UInt8
  | a :: b :: r => b :: a :: exchange r
  | _ => []

/-- The text of a field, up to its first NUL. -/
def fieldText (bytes : List UInt8) : Text := (textOfBytes (exchange bytes)).takeWhile (· ≠ nul)

def maxShown : Nat := 64

/-- The text of a field without the blanks around it. -/
def shownText (bytes : List UInt8) : Text := trim (fieldText (bytes.take maxShown))

/-- Writes the text of a field without the blanks around it into a buffer. -/
def printShown? (b : Buffer) (bytes : List UInt8) : Option Buffer :=
  b.putAll? 0 (shownText bytes ++ [nul])

def size : Nat := 512

structure TooShort where
  size : Nat
  deriving DecidableEq, Repr

def TooShort.message (e : TooShort) : Message :=
  ⟨.error, "IDENTIFY DEVICE buffer too short: " ++ decimal e.size ++ " bytes, " ++
    decimal IdentifyPage.size ++ " expected"⟩

/-- Reads a page, whose words are little endian. -/
def read (buffer : List UInt8) : Except TooShort IdentifyPage :=
  if buffer.length < size then .error ⟨buffer.length⟩
  else .ok
    { serial := bytesFrom buffer 20 20
      firmware := bytesFrom buffer 46 8
      model := bytesFrom buffer 54 40
      majorVersion := u16At buffer 160
      minorVersion := u16At buffer 162 }

end IdentifyPage

end DriveHealth
