import DriveHealth.Text.Basic
/-!
The formats in which raw values of SMART attributes are written, their names, and the bytes of a record
that make up the raw value.
-/

namespace DriveHealth

inductive Format where
  | raw8
  | raw16
  | raw48
  | hex48
  | raw56
  | hex56
  | raw64
  | hex64
  | raw16OptRaw16
  | raw16OptAvg16
  | raw24OptRaw8
  | raw24DivRaw24
  | raw24DivRaw32
  | sec2hour
  | min2hour
  | halfmin2hour
  | msec24hour32
  | tempminmax
  | temp10x
  deriving DecidableEq, Repr

/-- One byte of an attribute record, as a source of the raw value. -/
inductive ByteSource where
  | vendor (i : Fin 6)
  | reserved
  | current
  | worst
  | zero
  deriving DecidableEq, Repr

namespace ByteSource

def letter : ByteSource → Char
  | vendor 0 => '0'
  | vendor 1 => '1'
  | vendor 2 => '2'
  | vendor 3 => '3'
  | vendor 4 => '4'
  | vendor 5 => '5'
  | reserved => 'r'
  | current => 'v'
  | worst => 'w'
  | zero => 'z'

def ofLetter? : Char → Option ByteSource
  | '0' => some (vendor 0)
  | '1' => some (vendor 1)
  | '2' => some (vendor 2)
  | '3' => some (vendor 3)
  | '4' => some (vendor 4)
  | '5' => some (vendor 5)
  | 'r' => some reserved
  | 'v' => some current
  | 'w' => some worst
  | 'z' => some zero
  | _ => none

theorem ofLetter?_letter (s : ByteSource) : ofLetter? s.letter = some s := by
  cases s with
  | vendor i => revert i; decide
  | _ => rfl

theorem letter_of_ofLetter? {c : Char} {s : ByteSource} (h : ofLetter? c = some s) :
    s.letter = c := by
  unfold ofLetter? at h
  split at h <;> cases h <;> rfl

end ByteSource

namespace Format

def all : List Format :=
  [raw8, raw16, raw48, hex48, raw56, hex56, raw64, hex64, raw16OptRaw16, raw16OptAvg16,
   raw24OptRaw8, raw24DivRaw24, raw24DivRaw32, sec2hour, min2hour, halfmin2hour, msec24hour32,
   tempminmax, temp10x]

def name : Format → Text
  | raw8 => "raw8"
  | raw16 => "raw16"
  | raw48 => "raw48"
  | hex48 => "hex48"
  | raw56 => "raw56"
  | hex56 => "hex56"
  | raw64 => "raw64"
  | hex64 => "hex64"
  | raw16OptRaw16 => "raw16(raw16)"
  | raw16OptAvg16 => "raw16(avg16)"
  | raw24OptRaw8 => "raw24(raw8)"
  | raw24DivRaw24 => "raw24/raw24"
  | raw24DivRaw32 => "raw24/raw32"
  | sec2hour => "sec2hour"
  | min2hour => "min2hour"
  | halfmin2hour => "halfmin2hour"
  | msec24hour32 => "msec24hour32"
  | tempminmax => "tempminmax"
  | temp10x => "temp10x"

def ofName? (t : Text) : Option Format := all.find? (·.name = t)

/-- The place of a format in the list of all, counted from one. -/
def number (f : Format) : Nat := all.idxOf f + 1

/-- The six vendor bytes, highest first. -/
def vendorOrder : List ByteSource :=
  [.vendor 5, .vendor 4, .vendor 3, .vendor 2, .vendor 1, .vendor 0]

/-- The bytes of the raw value, highest first, where a rule does not choose them. -/
def defaultOrder : Format → List ByteSource
  | raw64 | hex64 => vendorOrder ++ [.worst, .current]
  | raw56 | hex56 | raw24DivRaw32 | msec24hour32 => .reserved :: vendorOrder
  | _ => vendorOrder

/-- One line per format: how to choose it for an attribute. -/
def help : Text :=
  List.flatten ((all.map helpLine).intersperse "\n".toList)
where
  helpLine (f : Format) : Text := "\tID," ++ f.name ++ "[:012345rvwz][,ATTR_NAME]"

end Format

end DriveHealth
