import DriveHealth.Attribute.Record
import DriveHealth.Message
import DriveHealth.Text.Number
/-!
The data page that a drive returns for its SMART attributes: 512 bytes with a table of thirty attribute
records, the state of tests, and a checksum that makes the bytes add up to zero. Pages may be stored in
either byte order; a page in memory has numbers in place of the words.
-/

namespace DriveHealth

structure SmartPage where
  revision : UInt16
  attributes : Vector AttributeRecord 30
  offlineStatus : UInt8
  selfTestStatus : UInt8
  offlineTime : UInt16
  vendorSegment : UInt8
  offlineCapability : UInt8
  capability : UInt16
  errorLogCapability : UInt8
  vendorCheckpoint : UInt8
  shortTestTime : UInt8
  extendedTestTime : UInt8
  conveyanceTestTime : UInt8
  longExtendedTestTime : UInt16
  /-- Reserved and vendor specific bytes. -/
  others : Vector UInt8 134
  checksumByte : UInt8
  deriving DecidableEq, Repr

namespace SmartPage

def size : Nat := 512

/-- The number of bytes up to the end of the attribute table. -/
def tableSize : Nat := 2 + 30 * AttributeRecord.size

def title : Text := "SMART Attribute Data Structure"

/-- Takes the fields of a page from its bytes; missing bytes are zero. -/
def ofBytes (order : ByteOrder) (bytes : List UInt8) : SmartPage where
  revision := wordAt 0
  attributes := Vector.ofFn fun i => .read order bytes (2 + i * AttributeRecord.size)
  offlineStatus := byteAt bytes 362
  selfTestStatus := byteAt bytes 363
  offlineTime := wordAt 364
  vendorSegment := byteAt bytes 366
  offlineCapability := byteAt bytes 367
  capability := wordAt 368
  errorLogCapability := byteAt bytes 370
  vendorCheckpoint := byteAt bytes 371
  shortTestTime := byteAt bytes 372
  extendedTestTime := byteAt bytes 373
  conveyanceTestTime := byteAt bytes 374
  longExtendedTestTime := wordAt 375
  others := Vector.ofFn fun i => byteAt bytes (377 + i)
  checksumByte := byteAt bytes 511
where
  wordAt (offset : Nat) : UInt16 := order.word (byteAt bytes offset) (byteAt bytes (offset + 1))

def wordBytes (w : UInt16) : List UInt8 := toLittleEndian 2 w.toNat

def toBytes (p : SmartPage) : List UInt8 :=
  wordBytes p.revision ++ p.attributes.toList.flatMap AttributeRecord.toBytes ++
    [p.offlineStatus, p.selfTestStatus] ++ wordBytes p.offlineTime ++
    [p.vendorSegment, p.offlineCapability] ++ wordBytes p.capability ++
    [p.errorLogCapability, p.vendorCheckpoint, p.shortTestTime, p.extendedTestTime,
     p.conveyanceTestTime] ++
    wordBytes p.longExtendedTestTime ++ p.others.toList ++ [p.checksumByte]

/-- The sum of bytes, which is zero for a page without damage. -/
def checksum (bytes : List UInt8) : UInt8 := bytes.foldl (· + ·) 0

/-- The records up to the first one without an id. -/
def records (p : SmartPage) : List AttributeRecord := p.attributes.toList.takeWhile (·.id ≠ 0)

/-- What is noticed when a page is read. -/
inductive Finding where
  | badChecksum (title : Text)
  | converted (order : ByteOrder)
  deriving DecidableEq, Repr

def Finding.message : Finding → Message
  | badChecksum title => ⟨.warning, "checksum error in " ++ title⟩
  | converted order =>
    ⟨.debug, "SMART READ DATA: converting " ++ order.name ++ " fields to " ++ ByteOrder.host.name⟩

structure TooShort where
  size : Nat
  deriving DecidableEq, Repr

def TooShort.message (e : TooShort) : Message :=
  ⟨.error, "SMART READ DATA buffer too short: " ++ decimal e.size ++ " bytes, " ++
    decimal tableSize ++ " expected"⟩

structure Reading where
  page : SmartPage
  findings : List Finding
  deriving DecidableEq, Repr

/-- Reads a page. The checksum counts only where the whole page is there, and before words are swapped. -/
def read (order : ByteOrder) (buffer : List UInt8) : Except TooShort Reading :=
  if buffer.length < tableSize then .error ⟨buffer.length⟩
  else
    let damage :=
      if size ≤ buffer.length ∧ checksum (buffer.take size) ≠ 0 then [.badChecksum title] else []
    let conversion := if order = .host then [] else [.converted order]
    .ok ⟨ofBytes order (buffer.take size), damage ++ conversion⟩

end SmartPage

end DriveHealth
