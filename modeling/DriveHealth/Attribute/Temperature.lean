import DriveHealth.Text.Number
/-!
Temperatures with a range. Drives pack the temperature and the lowest and highest value so far into the
six vendor bytes in different ways; the packing is guessed from the bytes. Byte 0 is the temperature.

    byte  5  4  3  2  1  0
          xx HH xx LL xx TT
          xx LL xx HH xx TT
          00 00 HH LL xx TT
          00 00 00 HH LL TT
          CC CC HH LL xx TT   CC CC counts overheating

`xx` is zero or extends the sign of the byte below it.
-/

namespace DriveHealth

def signedByte (b : UInt8) : Int := b.toInt8.toInt

inductive Temperature where
  | plain (t : Int)
  | withRange (t low high : Int)
  | withCount (t low high : Int) (count : Nat)
  | unclear
  deriving DecidableEq, Repr

namespace Temperature

/-- Whether a word can be a signed byte or a signed word that holds a temperature. -/
structure WordKind where
  asByte : Bool
  asWord : Bool

def wordKind (word : Nat) : WordKind where
  asByte := word ≤ 0xff
  asWord := word ≤ 0x7f || 0xff80 ≤ word

def WordKind.fits (k : WordKind) : Bool := k.asByte || k.asWord

/-- The two bytes as lowest and highest temperature, if the range is plausible and holds `t`. A range
from -1 to 0 or to -1 is more likely a sign extension. -/
def range? (t : Int) (a b : UInt8) : Option (Int × Int) :=
  let low := min (signedByte a) (signedByte b)
  let high := max (signedByte a) (signedByte b)
  if -60 ≤ low ∧ low ≤ t ∧ t ≤ high ∧ high ≤ 120 ∧ ¬(low = -1 ∧ high ≤ 0) then some (low, high)
  else none

/-- Tries the packings in a fixed order. -/
def ofBytes (b0 b1 b2 b3 b4 b5 : UInt8) : Temperature :=
  let t := signedByte b0
  let word0 := b0.toNat + 256 * b1.toNat
  let word1 := b2.toNat + 256 * b3.toNat
  let word2 := b4.toNat + 256 * b5.toNat
  let kind0 := wordKind word0
  let kind1 := wordKind word1
  let kind2 := wordKind word2
  if word2 = 0 then
    if word1 = 0 ∧ kind0.fits then plain t
    else
      match (if kind0.fits then range? t b2 b3 else none) with
      | some (low, high) => withRange t low high
      | none =>
        match (if b3 = 0 then range? t b1 b2 else none) with
        | some (low, high) => withRange t low high
        | none => unclear
  else if kind0.fits then
    let alike :=
      (kind0.asByte && kind1.asByte && kind2.asByte) || (kind0.asWord && kind1.asWord && kind2.asWord)
    match (if alike then range? t b2 b4 else none) with
    | some (low, high) => withRange t low high
    | none =>
      match (if word2 < 0x7fff then range? t b2 b3 else none) with
      | some (low, high) => if 40 ≤ high then withCount t low high word2 else unclear
      | none => unclear
  else unclear

end Temperature

/-- A temperature with its range; all bytes if no packing fits. -/
def temperatureText (b0 b1 b2 b3 b4 b5 : UInt8) : Text :=
  match Temperature.ofBytes b0 b1 b2 b3 b4 b5 with
  | .plain t => signedDecimal t
  | .withRange t low high =>
    signedDecimal t ++ " (Min/Max " ++ signedDecimal low ++ "/" ++ signedDecimal high ++ ")"
  | .withCount t low high count =>
    signedDecimal t ++ " (Min/Max " ++ signedDecimal low ++ "/" ++ signedDecimal high ++ " #" ++
      decimal count ++ ")"
  | .unclear =>
    decimal b0.toNat ++ " (" ++ decimal b5.toNat ++ " " ++ decimal b4.toNat ++ " " ++
      decimal b3.toNat ++ " " ++ decimal b2.toNat ++ " " ++ decimal b1.toNat ++ ")"

end DriveHealth
