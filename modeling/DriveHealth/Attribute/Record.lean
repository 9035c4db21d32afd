import DriveHealth.Attribute.Rule
import DriveHealth.ByteOrder
/-!
The record of one SMART attribute, twelve bytes of a data page, and its raw value.
-/

namespace DriveHealth

structure AttributeRecord where
  id : UInt8
  flags : UInt16
  current : UInt8
  worst : UInt8
  /-- Lowest byte first. -/
  vendor : Vector UInt8 6
  reserved : UInt8
  deriving DecidableEq, Repr

namespace AttributeRecord

def size : Nat := 12

def read (order : ByteOrder) (page : List UInt8) (offset : Nat) : AttributeRecord where
  id := byteAt page offset
  flags := order.word (byteAt page (offset + 1)) (byteAt page (offset + 2))
  current := byteAt page (offset + 3)
  worst := byteAt page (offset + 4)
  vendor := Vector.ofFn fun i => byteAt page (offset + 5 + i)
  reserved := byteAt page (offset + 11)

def toBytes (r : AttributeRecord) : List UInt8 :=
  r.id :: toLittleEndian 2 r.flags.toNat ++ [r.current, r.worst] ++ r.vendor.toList ++ [r.reserved]

/-- An attribute that predicts failure, and not just age. -/
def isPrefailure (r : AttributeRecord) : Bool := r.flags &&& 0x01 ≠ 0

/-- An attribute that is updated during normal operation. -/
def isOnline (r : AttributeRecord) : Bool := r.flags &&& 0x02 ≠ 0

def isPerformance (r : AttributeRecord) : Bool := r.flags &&& 0x04 ≠ 0

def isErrorRate (r : AttributeRecord) : Bool := r.flags &&& 0x08 ≠ 0

def isEventCount (r : AttributeRecord) : Bool := r.flags &&& 0x10 ≠ 0

def isSelfPreserving (r : AttributeRecord) : Bool := r.flags &&& 0x20 ≠ 0

def hasOtherFlags (r : AttributeRecord) : Bool := r.flags &&& 0xffc0 ≠ 0

def byte (r : AttributeRecord) : ByteSource → UInt8
  | .vendor i => r.vendor.get i
  | .reserved => r.reserved
  | .current => r.current
  | .worst => r.worst
  | .zero => 0

/-- The bytes that a rule selects as one number, the first byte highest. -/
def rawValue (r : AttributeRecord) (rule : Rule) : UInt64 :=
  rule.order.foldl (fun value source => value <<< 8 ||| (r.byte source).toUInt64) 0

end AttributeRecord

end DriveHealth
