import DriveHealth.Text.Basic
/-!
Multi-byte numbers in a data page. Pages are read as byte lists in which everything behind the end
counts as zero.
-/

namespace DriveHealth

inductive ByteOrder where
  | little
  | big
  deriving DecidableEq, Repr

namespace ByteOrder

/-- The order in which pages are kept in memory. -/
def host : ByteOrder := .little

def name : ByteOrder → Text
  | .little => "little endian"
  | .big => "big endian"

def word (order : ByteOrder) (first second : UInt8) : UInt16 :=
  match order with
  | .little => second.toUInt16 <<< 8 ||| first.toUInt16
  | .big => first.toUInt16 <<< 8 ||| second.toUInt16

end ByteOrder

/-- The byte at an offset, zero behind the end. -/
def byteAt (bytes : List UInt8) (offset : Nat) : UInt8 := bytes.getD offset 0

/-- `count` bytes from an offset on, zero behind the end. -/
def bytesFrom (bytes : List UInt8) (offset count : Nat) : List UInt8 :=
  (List.range count).map fun i => byteAt bytes (offset + i)

def littleEndian : List UInt8 → Nat
  | [] => 0
  | b :: r => b.toNat + 256 * littleEndian r

/-- The low bytes of a number, lowest first. -/
def toLittleEndian : (width n : Nat) → List UInt8
  | 0, _ => []
  | width + 1, n => n.toUInt8 :: toLittleEndian width (n / 256)

def u16At (bytes : List UInt8) (offset : Nat) : UInt16 :=
  (littleEndian (bytesFrom bytes offset 2)).toUInt16

def u32At (bytes : List UInt8) (offset : Nat) : UInt32 :=
  (littleEndian (bytesFrom bytes offset 4)).toUInt32

def u64At (bytes : List UInt8) (offset : Nat) : UInt64 :=
  (littleEndian (bytesFrom bytes offset 8)).toUInt64

def hasNonzero (bytes : List UInt8) (count : Nat) : Bool := (bytes.take count).any (· ≠ 0)

theorem length_toLittleEndian (width n : Nat) : (toLittleEndian width n).length = width := by
  induction width generalizing n with
  | zero => rfl
  | succ width ih => rw [toLittleEndian, List.length_cons, ih]

theorem littleEndian_lt (bytes : List UInt8) :
    littleEndian bytes < Nat.pow 256 bytes.length := by
  induction bytes with
  | nil => exact Nat.one_pos
  | cons b r ih =>
    have hb := b.toNat_lt
    have hp : Nat.pow 256 (r.length + 1) = Nat.pow 256 r.length * 256 := rfl
    rw [littleEndian, List.length_cons, hp]
    omega

end DriveHealth
