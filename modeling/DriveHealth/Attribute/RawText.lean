import DriveHealth.Attribute.Record
import DriveHealth.Attribute.Temperature
/-!
Raw values as text, one way per format.
-/

namespace DriveHealth

/-- Byte `i` of a number, counted from the lowest. -/
def byteOf (n i : Nat) : UInt8 := (n >>> (8 * i)).toUInt8

/-- Word `i` of a number, counted from the lowest. -/
def wordOf (n i : Nat) : Nat := (n >>> (16 * i)) % 0x10000

/-- The bytes of a number from `high` down to `low`, separated by blanks. -/
def bytesText (n : Nat) (indices : List Nat) : Text :=
  List.flatten ((indices.map fun i => decimal (byteOf n i).toNat).intersperse " ".toList)

namespace Format

/-- Numbers that go beyond the part a format shows are cut to 32 bits where the format counts units. -/
def rawText (f : Format) (n : Nat) : Text :=
  let word := wordOf n
  let low24 := n % 0x1000000
  match f with
  | raw8 => bytesText n [5, 4, 3, 2, 1, 0]
  | raw16 => decimal (word 2) ++ " " ++ decimal (word 1) ++ " " ++ decimal (word 0)
  | raw48 | raw56 | raw64 => decimal n
  | hex48 => hexFill 12 n
  | hex56 => hexFill 14 n
  | hex64 => hexFill 16 n
  | raw16OptRaw16 =>
    decimal (word 0) ++
      onlyIf (word 1 ≠ 0 ∨ word 2 ≠ 0) (" (" ++ decimal (word 2) ++ " " ++ decimal (word 1) ++ ")")
  | raw16OptAvg16 =>
    decimal (word 0) ++ onlyIf (word 1 ≠ 0) (" (Average " ++ decimal (word 1) ++ ")")
  | raw24OptRaw8 =>
    decimal low24 ++
      onlyIf (byteOf n 3 ≠ 0 ∨ byteOf n 4 ≠ 0 ∨ byteOf n 5 ≠ 0) (" (" ++ bytesText n [5, 4, 3] ++ ")")
  | raw24DivRaw24 => decimal (n / 0x1000000 % 0x100000000) ++ "/" ++ decimal low24
  | raw24DivRaw32 => decimal (n / 0x100000000 % 0x100000000) ++ "/" ++ decimal (n % 0x100000000)
  | min2hour =>
    let minutes := word 0 + 0x10000 * word 1
    decimal (minutes / 60) ++ "h+" ++ decimalFill 2 (minutes % 60) ++ "m" ++
      onlyIf (word 2 ≠ 0) (" (" ++ decimal (word 2) ++ ")")
  | sec2hour =>
    decimal (n / 3600) ++ "h+" ++ decimalFill 2 (n % 3600 / 60) ++ "m+" ++
      decimalFill 2 (n % 60) ++ "s"
  | halfmin2hour => decimal (n / 120) ++ "h+" ++ decimalFill 2 (n % 120 / 2) ++ "m"
  | msec24hour32 =>
    let milliseconds := n / 0x100000000
    let seconds := milliseconds / 1000
    decimal (n % 0x100000000) ++ "h+" ++ decimalFill 2 (seconds / 60) ++ "m+" ++
      decimalFill 2 (seconds % 60) ++ "." ++ decimalFill 3 (milliseconds % 1000) ++ "s"
  | tempminmax =>
    temperatureText (byteOf n 0) (byteOf n 1) (byteOf n 2) (byteOf n 3) (byteOf n 4) (byteOf n 5)
  | temp10x => decimal (word 0 / 10) ++ "." ++ decimal (word 0 % 10)

end Format

namespace Rule

def rawText (rule : Rule) (value : UInt64) : Text :=
  match rule with
  | known f _ => f.rawText value.toNat
  | unknown _ => "?"

end Rule

def AttributeRecord.rawText (r : AttributeRecord) (rule : Rule) : Text :=
  rule.rawText (r.rawValue rule)

end DriveHealth
